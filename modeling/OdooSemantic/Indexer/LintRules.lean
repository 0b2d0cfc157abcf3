import OdooSemantic.Indexer.PythonAst
import OdooSemantic.Indexer.WriterNeo4j
import OdooSemantic.Lib.Dict
import OdooSemantic.Lib.FirstNames
import OdooSemantic.Lib.PyText

/-!
# The lint rules of a version

`src/indexer/parser_lint_rules.py`, and `write_lint_rules` of `src/indexer/writer_neo4j.py`. A source
is what `ast`, `json` or `tomllib` makes of the file, its values of the types that are meant; one that
cannot be read, or not taken apart, is not there.

The parser tells rules apart by `(rule_id, kind)`, the graph by `(rule_id, odoo_version)`.
-/

namespace OdooSemantic

open KeyedStore

structure LintRuleInfo where
  ruleId : String
  odooVersion : String
  kind : String
  message : Option String := none
  severity : String := "warning"
  filePattern : Option String := none
  fixTemplate : Option String := none
  coreSymbolQname : Option String := none
deriving DecidableEq

/-! ## The sources -/

/-- What stands behind a key of `msgs`. -/
inductive MsgsValue where
  | tuple (elts : List PyNode)
  | other

/-- A statement of a class: an assignment, with the items where a dictionary is assigned. -/
inductive CheckerStmt where
  | assign (targets : List PyNode) (value : Option (List (Option PyNode × MsgsValue)))
  | other

/-- The bodies of the classes of a file, in the order of `ast.walk`. -/
abbrev CheckerFile := List (List CheckerStmt)

/-- The severity of an ESLint rule. -/
inductive EslintSeverity where
  | int (n : Int)
  | bool (b : Bool)
  | str (s : String)
  | other

inductive EslintSetting where
  | plain (severity : EslintSeverity)
  | list (items : List EslintSeverity)

/-- A `lint` table of `ruff.toml`; an item of `select` need not be a text. -/
structure RuffLint where
  select : Option (List (Option String)) := none
  otherKeys : Bool := false

structure RuffToml where
  lint : Option RuffLint := none
  toolRuffLint : Option RuffLint := none

/-- An object of `rules` in `lint_rules_*.json`. -/
structure StaticRule where
  ruleId : Option String := none
  kind : Option String := none
  message : Option String := none
  severity : Option String := none
  filePattern : Option String := none
  fixTemplate : Option String := none
  coreSymbolQname : Option String := none

/-- The files below `odoo_source_root`. -/
structure LintCheckout where
  /-- `_odoo_checker_*.py`, sorted. -/
  checkers : List CheckerFile := []
  eslintrc : Option (Dict String EslintSetting) := none
  ruffToml : Option RuffToml := none

/-- Everything that the rules of a version are taken from. -/
structure LintCatalogue where
  checkout : Option LintCheckout := none
  /-- What `rules` of the static file has; what is not an object is `none`. -/
  static : List (Option StaticRule) := []

/-! ## `parser_lint_rules.py` -/

/-- Of the first letter: E for error, C for convention. -/
def pylintSeverity (ruleId : String) : String :=
  match ruleId.toList.head? with
  | some 'E' => "error"
  | some 'C' => "info"
  | _ => "warning"

/-- The message of `(message, symbol, doc, …)`. -/
def MsgsValue.message : MsgsValue → Option String
  | tuple (.constant (.str message) :: _) => some message
  | _ => none

section Parse

variable (odooVersion : String)

def pylintRule : Option PyNode × MsgsValue → Option LintRuleInfo
  | (some (.constant (.str ruleId)), value) =>
      some
        { ruleId
          odooVersion
          kind := "pylint-odoo"
          message := value.message
          severity := pylintSeverity ruleId }
  | _ => none

def PyNode.isNamed (name : String) : PyNode → Bool
  | .name id => id = name
  | _ => false

def CheckerStmt.rules : CheckerStmt → List LintRuleInfo
  | assign targets (some items) =>
      if targets.any (PyNode.isNamed "msgs") then items.filterMap (pylintRule odooVersion) else []
  | _ => []

/-- `_parse_pylint_odoo_source(source, odoo_version)` -/
def parsePylintOdooSource (file : CheckerFile) : List LintRuleInfo :=
  file.flatMap fun body => body.flatMap (CheckerStmt.rules odooVersion)

/-- `_normalize_severity(sev)`; a `bool` is an `int`. -/
def normalizeSeverity : EslintSeverity → String
  | .int 0 => "off"
  | .int 1 => "warning"
  | .int 2 => "error"
  | .int _ => "warning"
  | .bool false => "off"
  | .bool true => "warning"
  | .str s => if s = "warn" then "warning" else s
  | .other => "warning"

def EslintSetting.severity : EslintSetting → String
  | plain severity => normalizeSeverity severity
  | list items => normalizeSeverity (items.head?.getD (.str "warning"))

/-- `_parse_eslint_config(config, odoo_version)` -/
def parseEslintConfig (rules : Dict String EslintSetting) : List LintRuleInfo :=
  rules.items.map fun (ruleId, raw) =>
    { ruleId, odooVersion, kind := "eslint-odoo", severity := raw.severity }

/-- `bool(data.get("lint"))` -/
def RuffLint.truth (lint : RuffLint) : Bool := lint.select.isSome || lint.otherKeys

/-- `data.get("lint") or data.get("tool", {}).get("ruff", {}).get("lint", {})` -/
def RuffToml.lintSection (data : RuffToml) : RuffLint :=
  (data.lint.filter RuffLint.truth).getD (data.toolRuffLint.getD {})

/-- `_parse_ruff_toml(toml_src, odoo_version)` -/
def parseRuffToml (data : RuffToml) : List LintRuleInfo :=
  (data.lintSection.select.getD []).filterMap fun category =>
    category.map fun ruleId =>
      { ruleId, odooVersion, kind := "ruff-builtin", severity := "warning" }

/-- `LINT_RULES_MIN_MAJOR` -/
def lintRulesMinMajor : Int := 17

/-- `_version_has_test_lint(odoo_version)` -/
def versionHasTestLint : Bool :=
  match PyText.int (String.ofList (odooVersion.toList.takeWhile (· ≠ '.'))) with
  | some major => lintRulesMinMajor ≤ major
  | none => false

def staticRule (r : StaticRule) : Option LintRuleInfo :=
  r.ruleId.map fun ruleId =>
    { ruleId
      odooVersion
      kind := r.kind.getD "pylint-odoo"
      message := r.message
      severity := r.severity.getD "warning"
      filePattern := r.filePattern
      fixTemplate := r.fixTemplate
      coreSymbolQname := r.coreSymbolQname }

/-- `_load_static_lint_rules(odoo_version, static_data_dir)` -/
def loadStaticLintRules (static : List (Option StaticRule)) : List LintRuleInfo :=
  static.filterMap fun r => r.bind (staticRule odooVersion)

/-- The rules of the checkout: pylint, ESLint, ruff. -/
def LintCheckout.rules (checkout : LintCheckout) : List LintRuleInfo :=
  checkout.checkers.flatMap (parsePylintOdooSource odooVersion) ++
    checkout.eslintrc.elim [] (parseEslintConfig odooVersion) ++
    checkout.ruffToml.elim [] (parseRuffToml odooVersion)

/-- Every rule that is handed to `_add`, in that order. -/
def LintCatalogue.entries (catalogue : LintCatalogue) : List LintRuleInfo :=
  (if versionHasTestLint odooVersion then
    catalogue.checkout.elim [] (LintCheckout.rules odooVersion) else []) ++
    loadStaticLintRules odooVersion catalogue.static

/-- `key` of `_add`. -/
def LintRuleInfo.seenKey (r : LintRuleInfo) : String × String := (r.ruleId, r.kind)

/-- `parse_lint_rules_for_version(odoo_version, odoo_source_root, static_data_dir)` -/
def parseLintRulesForVersion (catalogue : LintCatalogue) : List LintRuleInfo :=
  firstOf LintRuleInfo.seenKey (catalogue.entries odooVersion)

end Parse

/-! ## The nodes -/

structure LintRuleKey where
  ruleId : String
  odooVersion : String
deriving DecidableEq

structure LintRuleProps where
  kind : String
  message : Option String
  severity : String
  filePattern : Option String
  fixTemplate : Option String
  coreSymbolQname : Option String
deriving DecidableEq

namespace LintRuleInfo

def key (r : LintRuleInfo) : LintRuleKey := ⟨r.ruleId, r.odooVersion⟩

def props (r : LintRuleInfo) : LintRuleProps :=
  ⟨r.kind, r.message, r.severity, r.filePattern, r.fixTemplate, r.coreSymbolQname⟩

end LintRuleInfo

/-- `LintRule` nodes beside the `CoreSymbol`s, and the `CHECKS` edges between them. -/
structure LintGraph where
  symbols : Finset CoreSymbolKey := ∅
  rules : Store LintRuleKey LintRuleProps := ∅
  checks : Finset (LintRuleKey × CoreSymbolKey) := ∅

namespace LintGraph

/-- `MERGE (l)-[:CHECKS]->(cs)`, where there is such a symbol. -/
def linkChecked (g : LintGraph) (r : LintRuleInfo) : LintGraph :=
  match truthy r.coreSymbolQname with
  | some qname =>
      let symbol : CoreSymbolKey := ⟨qname, r.odooVersion⟩
      if symbol ∈ g.symbols then { g with checks := insert (r.key, symbol) g.checks } else g
  | none => g

/-- `MERGE (l:LintRule {rule_id, odoo_version}) SET …` -/
def mergeLintRule (g : LintGraph) (r : LintRuleInfo) : LintGraph :=
  { g with rules := upsert r.key (fun _ => r.props) g.rules }

/-- The body of the loop of `_write_lint_rules_batch`. -/
def writeLintRule (g : LintGraph) (r : LintRuleInfo) : LintGraph :=
  (g.mergeLintRule r).linkChecked r

/-- `_write_lint_rules_batch(tx, rules)` -/
def writeLintRulesBatch (g : LintGraph) (rules : List LintRuleInfo) : LintGraph :=
  rules.foldl writeLintRule g

/-- `write_lint_rules(rules)` -/
def writeLintRules (g : LintGraph) (rules : List LintRuleInfo) : LintGraph :=
  (chunked neo4jWriteBatchSize rules).foldl writeLintRulesBatch g

theorem rules_linkChecked (g : LintGraph) (r : LintRuleInfo) : (g.linkChecked r).rules = g.rules := by
  unfold linkChecked
  cases truthy r.coreSymbolQname with
  | none => rfl
  | some qname =>
    dsimp only
    split <;> rfl

theorem rules_writeLintRule (g : LintGraph) (r : LintRuleInfo) :
    (g.writeLintRule r).rules = upsert r.key (fun _ => r.props) g.rules :=
  rules_linkChecked _ r

/-- Batch by batch, each rule is put over what is there. -/
theorem rules_writeLintRules (g : LintGraph) (rules : List LintRuleInfo) :
    (g.writeLintRules rules).rules =
      rules.foldl (fun s r => upsert r.key (fun _ => r.props) s) g.rules := by
  unfold writeLintRules writeLintRulesBatch
  rw [← List.foldl_flatten, flatten_chunked (by decide)]
  refine (List.foldl_hom LintGraph.rules fun g r => ?_).symm
  exact (rules_writeLintRule g r).symm

end LintGraph

end OdooSemantic
