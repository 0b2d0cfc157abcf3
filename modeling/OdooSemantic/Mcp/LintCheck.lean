import Mathlib.Data.Finset.Card
import OdooSemantic.Indexer.LintRules
import OdooSemantic.Lib.Regex

/-!
# `lint_check`

`src/mcp/server.py` (`_match_lint_rule`, `_build_noqa_suppress`, `_match_lint_rule_lines`,
`_lint_check`), up to the text in which the violations are listed. The version is one that has been
resolved.
-/

namespace OdooSemantic

/-- `_LINT_STOPWORDS` -/
def lintStopwords : List String :=
  ["with", "from", "this", "that", "have", "must", "should",
    "function", "usage", "literal", "string", "alias", "option",
    "the", "and", "use", "not", "for", "are", "when", "avoid",
    "call", "called", "calling", "instead", "please", "using"]

/-- A row of the query. -/
structure LintRow where
  ruleId : String
  severity : String
  message : Option String
  kind : String
deriving DecidableEq

/-- `rule.get("rule_id") or "?"` -/
def LintRow.shownId (rule : LintRow) : String := if rule.ruleId = "" then "?" else rule.ruleId

/-! ## Tokens -/

/-- `c.lower()`. Of the characters beyond ASCII these two alone have an ASCII letter in it, and what
the others become does not matter. -/
def lowered (c : Char) : List Char :=
  if c.toNat = 0x130 then ['i', Char.ofNat 0x307] else if c.toNat = 0x212a then ['k'] else [c.toLower]

/-- `[a-z_]` -/
def isTokenChar (c : Char) : Bool := ('a' ≤ c && c ≤ 'z') || c = '_'

def tokenLists (cs : List Char) : List (List Char) :=
  (cs.flatMap lowered).splitOnP fun c => !isTokenChar c

/-- `set(re.split(r"[^a-z_]+", text.lower()))`, and there may be an empty text more in it. -/
def lintTokens (text : String) : Finset String :=
  ((tokenLists text.toList).map String.ofList).toFinset

/-- `rule_tokens` -/
def ruleTokens (message : String) : Finset String :=
  (lintTokens message).filter fun t => 3 < t.length ∧ t ∉ lintStopwords

/-! ## The two matchers -/

/-- `_match_lint_rule(code, rule)` -/
def matchLintRule (code : String) (rule : LintRow) : Bool :=
  let message := rule.message.getD ""
  if message = "" then false
  else if (ruleTokens message).card < 2 then false
  else 2 ≤ (ruleTokens message ∩ lintTokens code).card

/-- `enumerate(code.splitlines(), start=1)`, the numbers behind the lines. -/
def numberedLines (code : String) : List (String × Nat) := (PyText.splitlines code).zipIdx 1

/-- `_match_lint_rule_lines(code, rule)` -/
def matchLintRuleLines (code : String) (rule : LintRow) : List Nat :=
  let message := rule.message.getD ""
  if message = "" then []
  else if (ruleTokens message).card < 2 then []
  else if (ruleTokens message ∩ lintTokens code).card < 2 then []
  else
    let hitLines := ((numberedLines code).filter fun (line, _) =>
      2 ≤ (ruleTokens message ∩ lintTokens line).card).map Prod.snd
    if hitLines = [] then [1] else hitLines

/-! ## Suppression -/

namespace Noqa

open Regex

/-- `[A-Za-z0-9,\s]` -/
def isListChar (c : Char) : Bool := c.isAlphanum || c = ',' || PyText.isSpace c

/-- `:\s*([A-Za-z0-9,\s]+)` -/
def reList : Regex := seqs [lit ":", spaces, .group (plus (.char isListChar))]

/-- `#\s*noqa(?::\s*([A-Za-z0-9,\s]+))?` -/
def reNoqa : Regex := seqs [lit "#", spaces, lit "noqa", opt reList]

/-- `{s.strip() for s in ids_str.split(",") if s.strip()}` -/
def splitIds (idsStr : List Char) : List String :=
  ((idsStr.splitOn ',').map fun s => PyText.strip (String.ofList s)).filter (· ≠ "")

/-- The ids of a match. -/
def idsOf (m : Match) : List String :=
  match m.group1 with
  | some idsStr => if idsStr = [] then ["*"] else splitIds idsStr
  | none => ["*"]

def ids (line : String) : Option (List String) := (search reNoqa line.toList).map idsOf

end Noqa

/-- `_build_noqa_suppress(code)`, by line number. -/
def buildNoqaSuppress (code : String) : List (Nat × List String) :=
  (numberedLines code).filterMap fun (line, lineno) => (Noqa.ids line).map fun ids => (lineno, ids)

/-- `ln in suppress and ("*" in suppress[ln] or rule_id in suppress[ln])` -/
def isSuppressed (suppress : List (Nat × List String)) (ruleId : String) (ln : Nat) : Bool :=
  match suppress.lookup ln with
  | some ids => "*" ∈ ids || ruleId ∈ ids
  | none => false

/-- The loop over the rules. -/
def lintViolations (code : String) (rules : List LintRow) : List LintRow :=
  let suppress := buildNoqaSuppress code
  rules.filter fun rule =>
    let hitLines := matchLintRuleLines code rule
    !hitLines.isEmpty && hitLines.countP (isSuppressed suppress rule.shownId) < hitLines.length

/-- `kind_prefix` -/
def lintKindPrefix (language : String) : String :=
  if language = "python" then "pylint" else if language = "javascript" then "eslint"
  else "static-xml"

/-- `MATCH (l:LintRule {odoo_version: $v}) WHERE l.kind STARTS WITH $kp RETURN …` -/
def LintGraph.lintRows (g : LintGraph) (odooVersion kindPrefix : String) : List LintRow :=
  g.rules.keys.filterMap fun key =>
    (g.rules.lookup key).bind fun props =>
      if key.odooVersion = odooVersion ∧ PyText.startswith props.kind kindPrefix then
        some ⟨key.ruleId, props.severity, props.message, props.kind⟩
      else none

/-- What `_lint_check(code, odoo_version, language)` lists; `none` is a language that it does not
know. -/
def LintGraph.lintCheck (g : LintGraph) (code odooVersion language : String) : Option (List LintRow) :=
  if language ∈ ["python", "javascript", "xml"] then
    some (lintViolations code (g.lintRows odooVersion (lintKindPrefix language)))
  else none

example : Noqa.ids "x = foo()  # noqa: E8001, W9002" = some ["E8001", "W9002"] ∧
    Noqa.ids "x = foo()  # noqa" = some ["*"] ∧ Noqa.ids "x = foo()" = none := by decide

end OdooSemantic
