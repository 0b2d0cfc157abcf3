import OdooSemantic.Lib.PosixPath
import OdooSemantic.Lib.Regex

/-!
# What the stylesheet parsers have in common

`src/indexer/parser_css.py`, `parser_scss.py` and `parser_less.py` take a file apart into sections,
each of a kind and with a name of its own or with the stem of the file, and cut a section that is
longer than a window into windows that overlap.

The counts and the imports of `StylesheetInfo` are not looked at here, only the chunks; and what
the parsers hand on as `CSSChunk` and `SCSSChunk` is a `Section` with its windows.
-/

namespace OdooSemantic

/-- A semantic unit, before it is cut. -/
structure Section where
  kind : String
  entity : String
  content : String
deriving DecidableEq

namespace Chunking

/-- `_WINDOW` -/
def window : Nat := 2048

/-- `_OVERLAP` -/
def overlap : Nat := 256

/-- The windows of what is left, numbered. -/
def slidingFrom (idx : Nat) (rest : List Char) : List (Nat × String) :=
  if rest = [] then []
  else if rest.length ≤ window then [(idx, String.ofList rest)]
  else (idx, String.ofList (rest.take window)) :: slidingFrom (idx + 1) (rest.drop (window - overlap))
termination_by rest.length
decreasing_by
  simp only [List.length_drop, window, overlap] at *
  omega

/-- `_sliding_chunks` -/
def slidingChunks (content : String) : List (Nat × String) := slidingFrom 0 content.toList

/-- `_emit`: what fits in a window is one chunk, and be it empty. -/
def emit (content : String) : List (Nat × String) :=
  if content.length ≤ window then [(0, content)] else slidingChunks content

theorem slidingFrom_fst (idx : Nat) (rest : List Char) :
    ∃ n, (slidingFrom idx rest).map Prod.fst = List.range' idx n := by
  induction idx, rest using slidingFrom.induct with
  | case1 idx => exact ⟨0, by rw [slidingFrom, if_pos rfl]; rfl⟩
  | case2 idx rest hne hle => exact ⟨1, by rw [slidingFrom, if_neg hne, if_pos hle]; rfl⟩
  | case3 idx rest hne hle ih =>
    obtain ⟨n, hn⟩ := ih
    refine ⟨n + 1, ?_⟩
    rw [slidingFrom, if_neg hne, if_neg hle, List.map_cons, hn]
    rfl

theorem nodup_slidingChunks (content : String) : ((slidingChunks content).map Prod.fst).Nodup := by
  obtain ⟨n, hn⟩ := slidingFrom_fst 0 content.toList
  rw [slidingChunks, hn]
  exact List.nodup_range'

/-- **The windows of one unit are told apart by their numbers.** -/
theorem nodup_emit (content : String) : ((emit content).map Prod.fst).Nodup := by
  unfold emit
  split
  · exact List.nodup_cons.mpr ⟨by simp, List.nodup_nil⟩
  · exact nodup_slidingChunks content

end Chunking

namespace Stylesheets

open Regex

/-- `[\w-]` -/
def nameChar (isAlnum : Char → Bool) (c : Char) : Bool := isAlnum c || c == '_' || c == '-'

/-- `[\w-]+` -/
def ident (isAlnum : Char → Bool) : Regex := plus (.char (nameChar isAlnum))

/-- `\([^)]*\)` -/
def parens : Regex := seqs [lit "(", .star (noneOf ")"), lit ")"]

/-- `["']([^"']+)["']` -/
def quoted : Regex := seqs [oneOf "\"'", .group (plus (noneOf "\"'")), oneOf "\"'"]

/-- `(@media\s[^{]+)\{` -/
def reMedia : Regex :=
  seqs [.group (seqs [litIgnoreCase "@media", .char PyText.isSpace, plus (noneOf "\x7b")]),
    lit "\x7b"]

/-- `_extract_block`: up to the brace that closes the first one. -/
def extractBlock : Nat → List Char → List Char
  | _, [] => []
  | depth, '{' :: cs => '{' :: extractBlock (depth + 1) cs
  | depth, '}' :: cs => '}' :: if depth = 1 then [] else extractBlock (depth - 1) cs
  | depth, c :: cs => c :: extractBlock depth cs

theorem extractBlock_open (depth : Nat) (cs : List Char) :
    extractBlock depth ('{' :: cs) = '{' :: extractBlock (depth + 1) cs := rfl

theorem extractBlock_close (depth : Nat) (cs : List Char) :
    extractBlock depth ('}' :: cs) =
      '}' :: if depth = 1 then [] else extractBlock (depth - 1) cs := rfl

theorem extractBlock_of_ne {c : Char} (hopen : c ≠ '{') (hclose : c ≠ '}') (depth : Nat)
    (cs : List Char) : extractBlock depth (c :: cs) = c :: extractBlock depth cs := by
  rw [extractBlock]
  · exact hopen
  · exact hclose

/-- `_extract_block(text, start)`, of each of the three parsers: the block and where it ends. -/
def extractBlockAt (text : List Char) (start : Nat) : List Char × Nat :=
  let block := extractBlock 0 (text.drop start)
  (block, start + block.length)

/-- The block whose opening brace the match ends with. -/
def block (m : Match) : List Char := extractBlock 0 ('{' :: m.stop.after)

/-- The line, or the lines, that the match is in. -/
def lineOf (m : Match) : List Char :=
  (m.start.before.takeWhile (· ≠ '\n')).reverse ++ m.text ++ m.stop.after.takeWhile (· ≠ '\n')

def strip (cs : List Char) : List Char := (PyText.strip (String.ofList cs)).toList

/-- `header + " " + block_text`, under the header or as much of it. -/
def blockSection (kind : String) (cut : List Char → List Char) (m : Match) : Section :=
  let header := strip m.group
  ⟨kind, String.ofList (cut header), String.ofList (header ++ ' ' :: block m)⟩

/-- `_flush_var_block` -/
def variableSection (stem : String) (varBlock : List (List Char)) : Section :=
  ⟨"variable", stem ++ ":variables", String.ofList (List.intercalate ['\n'] varBlock)⟩

/-- The variable blocks, line by line. A blank line does not end one. -/
def variableSections (isVar : List Char → Bool) (stem : String) (varBlock : List (List Char)) :
    List (List Char) → List Section
  | [] => if varBlock = [] then [] else [variableSection stem varBlock]
  | line :: lines =>
      if isVar line then variableSections isVar stem (varBlock ++ [PyText.rstrip line]) lines
      else if varBlock ≠ [] ∧ strip line ≠ [] then
        variableSection stem varBlock :: variableSections isVar stem [] lines
      else variableSections isVar stem varBlock lines

def importSections (reImport : Regex) (stem : String) (src : List Char) : List Section :=
  (reImport.finditer src).map fun m => ⟨"import", stem, String.ofList (strip (lineOf m))⟩

/-- Every match as it is. -/
def textSections (kind : String) (re : Regex) (stem : String) (src : List Char) : List Section :=
  (re.finditer src).map fun m => ⟨kind, stem, String.ofList m.text⟩

/-- `if not chunks`: the whole file. A section is one chunk at least. -/
def orRaw (stem : String) (src : List Char) (sections : List Section) : List Section :=
  if sections = [] then [⟨"raw", stem, String.ofList src⟩] else sections

end Stylesheets

end OdooSemantic
