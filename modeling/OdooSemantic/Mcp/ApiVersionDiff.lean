import Mathlib.Data.List.MinMax
import OdooSemantic.Indexer.CoreSymbols

/-!
# `api_version_diff`

`src/mcp/server.py` (`_fetch_core_symbol`, `_format_api_diff`, `_api_version_diff`). The tool asks
for one symbol by its name, in full or from some dot on, and compares the two nodes that it finds.
It does not look at the lifecycle marks, nor at what the diff engine found when the versions were
indexed.
-/

namespace OdooSemantic

/-- A row of a query for core symbols. -/
abbrev CoreSymbolRecord := CoreSymbolKey × CoreSymbolNode

namespace CoreSymbolRecord

variable (r : CoreSymbolRecord)

def qualifiedName : String := r.1.qualifiedName

def signature : Option String := r.2.props.signature

def status : String := r.2.props.status

def replacementQname : Option String := r.2.props.replacementQname

end CoreSymbolRecord

/-- `cs.qualified_name = $name OR cs.qualified_name ENDS WITH '.' + $name` -/
def matchesName (name qualifiedName : String) : Bool :=
  qualifiedName = name || PyText.endswith qualifiedName ("." ++ name)

namespace CoreIndex

variable (g : CoreIndex)

/-- The rows that `MATCH … WHERE …` finds. -/
def matching (name version : String) : List CoreSymbolRecord :=
  (g.symbols.entries.filter fun e =>
    e.1.odooVersion = version && matchesName name e.1.qualifiedName).map fun e => (e.1, e.2)

/-- `_fetch_core_symbol(session, name, version)`: `ORDER BY size(cs.qualified_name) ASC LIMIT 1`,
the first one where several are equally short. -/
def fetchCoreSymbol (name version : String) : Option CoreSymbolRecord :=
  (g.matching name version).argmin fun r => r.qualifiedName.toList.length

end CoreIndex

/-! ## The report -/

/-- What the report says of the symbol. -/
inductive Verdict where
  | sameVersion
  | notFound
  | removed
  | added
  | changed
  | stable
deriving DecidableEq

structure ApiDiff where
  verdict : Verdict
  /-- The lines below the header. -/
  lines : List String

/-- `line.replace("├─", "└─")` -/
def lastBranch : List Char → List Char
  | '├' :: '─' :: cs => '└' :: '─' :: lastBranch cs
  | c :: cs => c :: lastBranch cs
  | [] => []

/-- `signature or '?'` -/
def orUnknown (signature : Option String) : String := (truthy signature).getD "?"

/-- `sig_old and sig_new and sig_old != sig_new` -/
def signatureChanged (old new : Option String) : Bool :=
  match truthy old, truthy new with
  | some old, some new => old ≠ new
  | _, _ => false

/-- `_format_api_diff(sym_old, sym_new, name, from_version, to_version)` -/
def formatApiDiff (old new : Option CoreSymbolRecord) (fromVersion toVersion : String) : ApiDiff :=
  match old, new with
  -- the caller answers this one itself
  | none, none =>
      { verdict := .notFound
        lines := ["└─ not found in either " ++ fromVersion ++ " or " ++ toVersion] }
  | some old, none =>
      let status := "├─ Status:    removed in " ++ toVersion
      let was := "├─ Was:       " ++ orUnknown old.signature
      { verdict := .removed
        lines := match truthy old.replacementQname with
          | some replacement => [status, was, "└─ Replaced by: " ++ replacement]
          | none => [status, String.ofList (lastBranch was.toList)] }
  | none, some new =>
      { verdict := .added
        lines := ["├─ Status:    added in " ++ toVersion,
          "└─ Now:       " ++ orUnknown new.signature] }
  | some old, some new =>
      let both := ["├─ " ++ fromVersion ++ ": " ++ orUnknown old.signature ++ " (status=" ++
          old.status ++ ")",
        "├─ " ++ toVersion ++ ": " ++ orUnknown new.signature ++ " (status=" ++ new.status ++ ")"]
      if signatureChanged old.signature new.signature then
        { verdict := .changed, lines := both ++ ["└─ Signature changed"] }
      else
        { verdict := .stable, lines := both ++ ["└─ Stable across versions"] }

/-- `_api_version_diff(symbol, from_version, to_version)` -/
def CoreIndex.apiVersionDiff (g : CoreIndex) (symbol fromVersion toVersion : String) : ApiDiff :=
  if fromVersion = toVersion then
    { verdict := .sameVersion, lines := ["└─ same version, no diff"] }
  else
    formatApiDiff (g.fetchCoreSymbol symbol fromVersion) (g.fetchCoreSymbol symbol toVersion)
      fromVersion toVersion

/-! ## What a name finds -/

namespace CoreIndex

variable {g : CoreIndex} {name version : String} {r : CoreSymbolRecord}

theorem mem_matching : r ∈ g.matching name version ↔
    g.symbols.lookup r.1 = some r.2 ∧ r.1.odooVersion = version ∧
      matchesName name r.qualifiedName = true := by
  rw [matching, List.mem_map]
  constructor
  · rintro ⟨e, he, rfl⟩
    obtain ⟨hmem, hwhere⟩ := List.mem_filter.mp he
    rw [Bool.and_eq_true, decide_eq_true_iff] at hwhere
    exact ⟨AList.mem_lookup_iff.mpr hmem, hwhere⟩
  · rintro ⟨hlookup, hversion, hname⟩
    refine ⟨⟨r.1, r.2⟩, List.mem_filter.mpr ⟨AList.mem_lookup_iff.mp hlookup, ?_⟩, rfl⟩
    rw [Bool.and_eq_true, decide_eq_true_iff]
    exact ⟨hversion, hname⟩

theorem mem_of_fetchCoreSymbol (h : g.fetchCoreSymbol name version = some r) :
    r ∈ g.matching name version := List.argmin_mem h

/-- **A shortest one is found**, and one is found wherever there is one. -/
theorem fetchCoreSymbol_shortest {s : CoreSymbolRecord} (hs : s ∈ g.matching name version) :
    ∃ r, g.fetchCoreSymbol name version = some r ∧
      r.qualifiedName.toList.length ≤ s.qualifiedName.toList.length := by
  cases h : g.fetchCoreSymbol name version with
  | none =>
    rw [List.argmin_eq_none.mp h] at hs
    exact absurd hs (by simp)
  | some r =>
    refine ⟨r, rfl, ?_⟩
    exact List.le_of_mem_argmin (f := fun r : CoreSymbolRecord => r.qualifiedName.toList.length) hs h

end CoreIndex
end OdooSemantic
