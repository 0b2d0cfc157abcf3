import Mathlib.Algebra.Ring.Int.Defs
import OdooSemantic.Indexer.ParserPython
import OdooSemantic.Lib.Regex

/-!
# The `_columns` of a class that Python 3 cannot parse

`src/indexer/parser_python.py` (`_extract_columns_block`, `_extract_balanced_braces`,
`_string_aware_brace_scan`, `_extract_era1_field_entry` and what `_parse_era1_text` makes of them).

`tokenize.generate_tokens` and `str.isalnum` are parameters. Of a token there is its type, as far as
it is an operator or not, its text and where it starts; `none` stands for the errors that are caught.
The source text of a field is left out, except for the name of the other model that is found in it.
-/

namespace OdooSemantic
namespace Era1

open Regex

/-! ## The scanner -/

/-- To the end of the line. -/
def skipComment (cs : List Char) : List Char := cs.dropWhile (· ≠ '\n')

/-- Behind the string that ends with `q`. -/
def skipString (q : List Char) : List Char → List Char
  | [] => []
  | ['\\'] => []
  | '\\' :: _ :: cs => skipString q cs
  | c :: cs => if q.isPrefixOf (c :: cs) then (c :: cs).drop q.length else skipString q cs

/-- The quotes that the text begins with. -/
def quoteAt (cs : List Char) : List Char :=
  if cs.take 3 = ['"', '"', '"'] ∨ cs.take 3 = ['\'', '\'', '\''] then cs.take 3 else cs.take 1

theorem length_skipString_le (q : List Char) (cs : List Char) :
    (skipString q cs).length ≤ cs.length := by
  fun_induction skipString q cs with
  | case1 => simp
  | case2 => simp
  | case3 _ cs ih => simp only [List.length_cons]; omega
  | case4 c cs _ _ h => simp
  | case5 c cs _ _ h ih => simp only [List.length_cons]; omega

theorem length_quoteAt_pos (c : Char) (cs : List Char) : 0 < (quoteAt (c :: cs)).length := by
  unfold quoteAt
  split <;> simp

/-- The loop of the scanners: the text from the bracket on with which the depth is zero. -/
def closeAt (opening closing : Char) (depth : Int) : List Char → Option (List Char)
  | [] => none
  | c :: cs =>
      if c = '#' then closeAt opening closing depth (skipComment cs)
      else if c = '"' ∨ c = '\'' then
        let q := quoteAt (c :: cs)
        closeAt opening closing depth (skipString q ((c :: cs).drop q.length))
      else if c = opening then closeAt opening closing (depth + 1) cs
      else if c = closing then
        if depth - 1 = 0 then some (c :: cs) else closeAt opening closing (depth - 1) cs
      else closeAt opening closing depth cs
termination_by cs => cs.length
decreasing_by
  · have := (List.dropWhile_suffix (l := cs) fun d => decide (d ≠ '\n')).length_le
    simp only [skipComment, List.length_cons]
    omega
  · have hskip := length_skipString_le (quoteAt (c :: cs)) ((c :: cs).drop (quoteAt (c :: cs)).length)
    have hpos := length_quoteAt_pos c cs
    simp only [List.length_drop, List.length_cons] at hskip ⊢
    omega
  all_goals simp

/-- `_string_aware_brace_scan(fragment, open_depth)` -/
def stringAwareBraceScan (fragment : List Char) (openDepth : Int := 1) : List Char :=
  match closeAt '\x7b' '\x7d' openDepth fragment with
  | some rest => fragment.take (fragment.length - rest.length)
  | none => []

/-- `_extract_era1_field_entry(block, match_start)`, of what begins with the entry. -/
def extractEra1FieldEntry (entry : List Char) : List Char :=
  match entry.dropWhile (· ≠ '(') with
  | [] => []
  | _ :: args =>
      match closeAt '(' ')' 1 args with
      | some rest => entry.take (entry.length - rest.length + 1)
      | none => []

/-! ## The tokens -/

structure Token where
  isOp : Bool
  string : String
  row : Nat
  col : Nat

/-- The loop over the tokens. -/
def closeToken (depth : Int) : List Token → Option Token
  | [] => none
  | tok :: tokens =>
      if tok.isOp ∧ tok.string = "\x7b" then closeToken (depth + 1) tokens
      else if tok.isOp ∧ tok.string = "\x7d" then
        if depth - 1 = 0 then some tok else closeToken (depth - 1) tokens
      else closeToken depth tokens

def lineStarts (fragment : List Char) : List Nat :=
  (PyText.linesFrom [] fragment).scanl (fun start line => start + line.length) 0

/-- `none` is an `IndexError`. -/
def tokStartOffset (lineStarts : List Nat) (tok : Token) : Option Nat :=
  lineStarts[tok.row - 1]?.map (· + tok.col)

section Class

variable (generateTokens : List Char → Option (List Token)) (isAlnum : Char → Bool)

/-- `_extract_balanced_braces(text, start_pos)`, of `text[start_pos:]`. -/
def extractBalancedBraces (fragment : List Char) : Option (List Char) :=
  match generateTokens fragment with
  | none => some (stringAwareBraceScan fragment)
  | some tokens =>
      match closeToken 1 tokens with
      | none => some []
      | some tok => (tokStartOffset (lineStarts fragment) tok).map fragment.take

/-- `_RE_COLUMNS_HEAD` -/
def reColumnsHead : Regex :=
  seqs [.lineStart, .star (oneOf " \t"), lit "_columns", spaces, lit "=", spaces, lit "\x7b"]

/-- `_RE_COLUMNS_UPDATE` -/
def reColumnsUpdate : Regex :=
  seqs [lit "_columns.update", spaces, lit "(", spaces, lit "\x7b"]

/-- `_extract_columns_block(body)`: the same as `_extract_balanced_braces` behind the match. -/
def extractColumnsBlock (body : List Char) : Option (List Char) :=
  match search reColumnsHead body with
  | none => some []
  | some m => extractBalancedBraces generateTokens m.stop.after

/-! ## The entries -/

/-- `\w+` -/
def word : Regex := plus (.char fun c => isAlnum c || c == '_')

def reEntryStart (name ttype : Regex → Regex) : Regex :=
  seqs [oneOf "'\"", name (word isAlnum), oneOf "'\"", spaces, lit ":", spaces, lit "fields.",
    ttype (word isAlnum), spaces, lit "("]

/-- `_RE_ERA1_ENTRY_START`, with its first group. -/
def reEra1EntryStart : Regex := reEntryStart isAlnum .group id

/-- `fm.group(2)` -/
def entryType (m : Match) : List Char :=
  ((matchHere (reEntryStart isAlnum id .group) false m.start).map Match.group).getD []

/-- `_RE_ERA1_COMODEL` -/
def reEra1Comodel : Regex :=
  seqs [lit "fields.", word isAlnum, lit "(", spaces, oneOf "'\"", .group (plus (noneOf "'\"")),
    oneOf "'\""]

/-- One turn of the loop. The names in `fields_list` are those in `seen_field_names`. -/
def addEntry (fieldsList : List FieldInfo) (m : Match) : List FieldInfo :=
  let fieldName := String.ofList m.group
  let ttype := (String.ofList (entryType isAlnum m)).toLower
  if ttype ∉ fieldTypesLegacy then fieldsList
  else if fieldName ∈ fieldsList.map FieldInfo.name then fieldsList
  else
    let srcDef := extractEra1FieldEntry m.start.after
    fieldsList ++
      [{ name := fieldName
         ttype
         comodelName :=
           if ttype ∈ relationalFieldTypes then
             (search (reEra1Comodel isAlnum) srcDef).map fun cm => String.ofList cm.group
           else none }]

def addEntries (fieldsList : List FieldInfo) (block : List Char) : List FieldInfo :=
  (finditer (reEra1EntryStart isAlnum) block).foldl (addEntry isAlnum) fieldsList

/-- The fields of a class. `none` is an `IndexError`. -/
def columnFields (body : List Char) : Option (List FieldInfo) :=
  (extractColumnsBlock generateTokens body).bind fun block =>
    (finditer reColumnsUpdate body).foldlM (fun fieldsList upd =>
      (extractBalancedBraces generateTokens upd.stop.after).map (addEntries isAlnum fieldsList))
      (addEntries isAlnum [] block)

end Class

end Era1
end OdooSemantic
