import Mathlib.Data.Finset.Insert
import OdooSemantic.Indexer.WriterNeo4j
import OdooSemantic.Lib.Dict
import OdooSemantic.Lib.Folds
import OdooSemantic.Lib.PyText

/-!
# `index_core`, as far as the core symbols are concerned

`src/indexer/pipeline.py` (`index_core`, `_find_previous_indexed_version`),
`src/indexer/diff_engine.py` and the part of `src/indexer/writer_neo4j.py` that they call.

A version is written, and then compared with the greatest lower one that is in the graph at that
time. What the comparison finds is set on the nodes of both versions. Writing a node again sets its
properties and leaves the marks, and nothing takes a mark away.
-/

namespace OdooSemantic

open KeyedStore

/-- A `CoreSymbol` node, its lifecycle marks beside the properties that a write sets. -/
structure CoreSymbolNode where
  props : CoreSymbolProps
  addedIn : Option String := none
  removedIn : Option String := none
  deprecatedIn : Option String := none
deriving DecidableEq

structure CoreIndex where
  symbols : Store CoreSymbolKey CoreSymbolNode := ∅
  replacedBy : Finset (CoreSymbolKey × CoreSymbolKey) := ∅

/-- An upstream checkout: what `parse_odoo_core` finds in it and what is curated beside it. -/
structure CoreSource where
  version : String
  parsed : List CoreSymbolInfo
  tools : List CoreSymbolInfo := []
  ofVersion : ∀ s ∈ parsed ++ tools, s.odooVersion = version

/-- `symbols + deduped_tool_symbols` -/
def CoreSource.symbols (c : CoreSource) : List CoreSymbolInfo :=
  c.parsed ++ c.tools.filter fun t => t.qualifiedName ∉ c.parsed.map (·.qualifiedName)

/-! ## `diff_engine.py` -/

structure DiffResult where
  added : List CoreSymbolInfo
  removed : List CoreSymbolInfo
  deprecated : List CoreSymbolInfo
  stable : List (CoreSymbolInfo × CoreSymbolInfo)
  /-- The qualified names, old and new. -/
  replaced : List (String × String)

/-- `{s.qualified_name: s for s in symbols}` -/
def byQname (symbols : List CoreSymbolInfo) : Dict String CoreSymbolInfo :=
  symbols.foldl (fun d s => d.set s.qualifiedName s) Dict.empty

/-- `new_sym.status == "deprecated" and old_sym.status != "deprecated"` -/
def isDeprecation (old new : CoreSymbolInfo) : Bool :=
  new.status = "deprecated" ∧ old.status ≠ "deprecated"

/-- `compute_diff(symbols_old, symbols_new)` -/
def computeDiff (old new : List CoreSymbolInfo) : DiffResult :=
  let oldNamed := byQname old
  let newNamed := byQname new
  let common := newNamed.values.filterMap fun n =>
    (oldNamed.get? n.qualifiedName).map fun o => (o, n)
  let replaced := old.filterMap fun s =>
    (truthy s.replacementQname).bind fun replacement =>
      if newNamed.get? s.qualifiedName = none ∧ newNamed.get? replacement ≠ none then
        some (s.qualifiedName, replacement)
      else none
  { added := newNamed.values.filter fun n => oldNamed.get? n.qualifiedName = none
    removed := oldNamed.values.filter fun o =>
      newNamed.get? o.qualifiedName = none ∧ o.qualifiedName ∉ replaced.map Prod.fst
    deprecated := (common.filter fun p => isDeprecation p.1 p.2).map Prod.snd
    stable := common.filter fun p => !isDeprecation p.1 p.2
    replaced }

section Diff

variable {old new symbols : List CoreSymbolInfo} {n o s : CoreSymbolInfo} {q : String}

/-- The dictionary of a list has what stands under a name in the end. -/
theorem get?_byQname (symbols : List CoreSymbolInfo) (q : String) :
    (byQname symbols).get? q = symbols.reverse.find? fun s => s.qualifiedName = q := by
  rw [byQname, Dict.get?_foldl_set]
  exact Option.or_none

theorem mem_of_get?_byQname (h : (byQname symbols).get? q = some s) :
    s ∈ symbols ∧ s.qualifiedName = q := by
  rw [get?_byQname] at h
  refine ⟨?_, ?_⟩
  · simpa using List.mem_of_find?_eq_some h
  · simpa using List.find?_some h

theorem get?_byQname_of_mem (h : s ∈ symbols) : (byQname symbols).get? s.qualifiedName ≠ none := by
  rw [get?_byQname, Ne, List.find?_eq_none]
  intro hall
  exact hall s (List.mem_reverse.mpr h) (by simp)

theorem mem_values_byQname :
    s ∈ (byQname symbols).values ↔ (byQname symbols).get? s.qualifiedName = some s := by
  rw [Dict.get?_eq_some_iff, Dict.values, List.mem_map]
  constructor
  · rintro ⟨i, hi, rfl⟩
    have hkey : i.1 = i.2.qualifiedName :=
      Dict.key_foldl_set CoreSymbolInfo.qualifiedName symbols (by simp [Dict.empty]) i hi
    rwa [← hkey]
  · intro h
    exact ⟨_, h, rfl⟩

theorem mem_added : n ∈ (computeDiff old new).added ↔
    (byQname new).get? n.qualifiedName = some n ∧ (byQname old).get? n.qualifiedName = none := by
  rw [computeDiff, List.mem_filter, mem_values_byQname, decide_eq_true_iff]

theorem mem_replaced {names : String × String} : names ∈ (computeDiff old new).replaced ↔
    ∃ s ∈ old, s.qualifiedName = names.1 ∧ truthy s.replacementQname = some names.2 ∧
      (byQname new).get? names.1 = none ∧ (byQname new).get? names.2 ≠ none := by
  rw [computeDiff, List.mem_filterMap]
  refine exists_congr fun s => and_congr_right fun _ => ?_
  rw [Option.bind_eq_some_iff]
  constructor
  · rintro ⟨replacement, hr, h⟩
    split at h
    · rename_i hc
      obtain rfl := Option.some.inj h
      exact ⟨rfl, hr, hc⟩
    · exact absurd h (by simp)
  · rintro ⟨hname, hr, hc⟩
    refine ⟨names.2, hr, ?_⟩
    rw [hname, if_pos hc]

theorem mem_removed : o ∈ (computeDiff old new).removed ↔
    (byQname old).get? o.qualifiedName = some o ∧ (byQname new).get? o.qualifiedName = none ∧
      o.qualifiedName ∉ (computeDiff old new).replaced.map Prod.fst := by
  rw [computeDiff, List.mem_filter, mem_values_byQname, decide_eq_true_iff]

theorem mem_common {p : CoreSymbolInfo × CoreSymbolInfo} :
    (p ∈ (byQname new).values.filterMap fun n =>
      ((byQname old).get? n.qualifiedName).map fun o => (o, n)) ↔
    (byQname new).get? p.2.qualifiedName = some p.2 ∧
      (byQname old).get? p.2.qualifiedName = some p.1 := by
  rw [List.mem_filterMap]
  constructor
  · rintro ⟨n, hn, hp⟩
    obtain ⟨o, ho, rfl⟩ := Option.map_eq_some_iff.mp hp
    exact ⟨mem_values_byQname.mp hn, ho⟩
  · rintro ⟨hn, ho⟩
    exact ⟨p.2, mem_values_byQname.mpr hn, by rw [ho]; rfl⟩

theorem mem_stable {p : CoreSymbolInfo × CoreSymbolInfo} :
    p ∈ (computeDiff old new).stable ↔
      (byQname new).get? p.2.qualifiedName = some p.2 ∧
      (byQname old).get? p.2.qualifiedName = some p.1 ∧ isDeprecation p.1 p.2 = false := by
  rw [computeDiff, List.mem_filter, mem_common, and_assoc, Bool.not_eq_true']

theorem mem_deprecated : n ∈ (computeDiff old new).deprecated ↔
    (byQname new).get? n.qualifiedName = some n ∧
      ∃ o, (byQname old).get? n.qualifiedName = some o ∧ isDeprecation o n = true := by
  rw [computeDiff, List.mem_map]
  constructor
  · rintro ⟨p, hp, rfl⟩
    rw [List.mem_filter, mem_common] at hp
    exact ⟨hp.1.1, p.1, hp.1.2, hp.2⟩
  · rintro ⟨hn, o, ho, hdep⟩
    exact ⟨(o, n), List.mem_filter.mpr ⟨mem_common.mpr ⟨hn, ho⟩, hdep⟩, rfl⟩

end Diff

/-! ## The graph -/

namespace CoreIndex

variable (g : CoreIndex)

/-- `MERGE (cs:CoreSymbol {…}) SET …` -/
def mergeSymbol (s : CoreSymbolInfo) : CoreIndex :=
  { g with symbols := upsert s.key (fun
      | none => { props := CoreSymbolProps.write s none }
      | some node => { node with props := CoreSymbolProps.write s none }) g.symbols }

/-- `write_core_symbols(symbols)` -/
def writeSymbols (symbols : List CoreSymbolInfo) : CoreIndex := symbols.foldl mergeSymbol g

/-- `MATCH (cs:CoreSymbol {…}) SET …` -/
def setMark (mark : CoreSymbolNode → CoreSymbolNode) (key : CoreSymbolKey) : CoreIndex :=
  { g with symbols := modify key mark g.symbols }

/-- `write_lifecycle_properties(diff, from_version=…, to_version=…)` -/
def writeLifecycleProperties (diff : DiffResult) (fromVersion toVersion : String) : CoreIndex :=
  let g := diff.added.foldl (fun g s =>
    g.setMark (fun node => { node with addedIn := some toVersion }) s.key) g
  let g := diff.removed.foldl (fun g s =>
    g.setMark (fun node => { node with removedIn := some toVersion })
      ⟨s.qualifiedName, fromVersion⟩) g
  diff.deprecated.foldl (fun g s =>
    g.setMark (fun node => { node with deprecatedIn := some toVersion }) s.key) g

/-- `MATCH (a …) MATCH (b …) MERGE (a)-[:REPLACED_BY]->(b)` -/
def mergeReplacedBy (a b : CoreSymbolKey) : CoreIndex :=
  if a ∈ g.symbols ∧ b ∈ g.symbols then { g with replacedBy := insert (a, b) g.replacedBy } else g

/-- `write_diff_edges(diff, from_version=…, to_version=…)` -/
def writeDiffEdges (diff : DiffResult) (fromVersion toVersion : String) : CoreIndex :=
  diff.replaced.foldl (fun g names =>
    g.mergeReplacedBy ⟨names.1, fromVersion⟩ ⟨names.2, toVersion⟩) g

/-- `r["kind"] or "function"`, and the like. -/
def orDefault (text default : String) : String := if text = "" then default else text

/-- A symbol as it is read back. -/
def stored (s : CoreSymbolInfo) : CoreSymbolInfo :=
  { s with kind := orDefault s.kind "function", status := orDefault s.status "stable" }

/-- A row of `fetch_core_symbols`. -/
def info (key : CoreSymbolKey) (node : CoreSymbolNode) : CoreSymbolInfo where
  qualifiedName := key.qualifiedName
  kind := orDefault node.props.kind "function"
  odooVersion := key.odooVersion
  signature := node.props.signature
  filePath := node.props.filePath
  line := node.props.line
  status := orDefault node.props.status "stable"
  replacementQname := node.props.replacementQname

/-- `fetch_core_symbols(odoo_version)` -/
def fetchCoreSymbols (version : String) : List CoreSymbolInfo :=
  (g.symbols.entries.filter fun e => e.1.odooVersion = version).map fun e => info e.1 e.2

variable {g}

theorem mem_fetchCoreSymbols {version : String} {s : CoreSymbolInfo} :
    s ∈ g.fetchCoreSymbols version ↔
      ∃ q node, g.symbols.lookup ⟨q, version⟩ = some node ∧ s = info ⟨q, version⟩ node := by
  rw [fetchCoreSymbols, List.mem_map]
  constructor
  · rintro ⟨⟨⟨q, v⟩, node⟩, hmem, rfl⟩
    obtain ⟨he, hv⟩ := List.mem_filter.mp hmem
    have hversion : v = version := by simpa using hv
    rw [← hversion]
    exact ⟨q, node, AList.mem_lookup_iff.mpr he, rfl⟩
  · rintro ⟨q, node, hnode, rfl⟩
    exact ⟨⟨⟨q, version⟩, node⟩,
      List.mem_filter.mpr ⟨AList.mem_lookup_iff.mp hnode, by simp⟩, rfl⟩

/-- The list of a version has the node of every name. -/
theorem get?_byQname_fetch (version q : String) :
    (byQname (g.fetchCoreSymbols version)).get? q =
      (g.symbols.lookup ⟨q, version⟩).map (info ⟨q, version⟩) := by
  have hread : ∀ s, (byQname (g.fetchCoreSymbols version)).get? q = some s →
      (g.symbols.lookup ⟨q, version⟩).map (info ⟨q, version⟩) = some s := by
    intro s hs
    obtain ⟨hmem, hname⟩ := mem_of_get?_byQname hs
    obtain ⟨q', node, hnode, rfl⟩ := mem_fetchCoreSymbols.mp hmem
    obtain rfl : q' = q := hname
    rw [hnode]
    rfl
  cases hget : (byQname (g.fetchCoreSymbols version)).get? q with
  | some s => exact (hread s hget).symm
  | none =>
    cases hnode : g.symbols.lookup ⟨q, version⟩ with
    | none => rfl
    | some node =>
      have hmem := mem_fetchCoreSymbols.mpr ⟨q, node, hnode, rfl⟩
      exact absurd hget (get?_byQname_of_mem hmem)

end CoreIndex

/-! ## Versions -/

namespace OdooVersion

/-- `v.split(".")` -/
def parts (v : String) : List String := (v.toList.splitOn '.').map String.ofList

/-- `int(p) for p in current_version.split(".")[:2]`, which has to be two numbers. -/
def currentKey (v : String) : Option (Int × Int) :=
  match parts v with
  | major :: minor :: _ => (PyText.int major).bind fun a => (PyText.int minor).map fun b => (a, b)
  | _ => none

/-- `_ver_key(v)` -/
def verKey (v : String) : Int × Int :=
  match parts v with
  | major :: minor :: _ => ((PyText.int major).bind fun a =>
      (PyText.int minor).map fun b => (a, b)).getD (0, 0)
  | [major] => ((PyText.int major).map fun a => (a, 0)).getD (0, 0)
  | [] => (0, 0)

/-- `<` on pairs of numbers. -/
def keyLt (a b : Int × Int) : Prop := a.1 < b.1 ∨ a.1 = b.1 ∧ a.2 < b.2

instance (a b : Int × Int) : Decidable (keyLt a b) := inferInstanceAs (Decidable (_ ∨ _))

/-- A candidate for the version before `v`. -/
def Before (u v : String) : Prop := u ≠ v ∧ ∃ key ∈ currentKey v, keyLt (verKey u) key

instance (u v : String) : Decidable (Before u v) := inferInstanceAs (Decidable (_ ∧ _))

/-- One comparison of `max`. -/
def later (best : Option String) (v : String) : Option String :=
  match best with
  | none => some v
  | some b => if keyLt (verKey b) (verKey v) then some v else some b

/-- `max(candidates, key=_ver_key)`, the first one of them. -/
def latest (candidates : List String) : Option String := candidates.foldl later none

theorem later_eq (best : Option String) (v : String) :
    later best v = some v ∨ later best v = best ∧ best.isSome = true := by
  unfold later
  cases best with
  | none => exact Or.inl rfl
  | some b =>
    simp only
    split
    · exact Or.inl rfl
    · exact Or.inr ⟨rfl, rfl⟩

theorem mem_of_latest {candidates : List String} {w : String} (h : latest candidates = some w) :
    w ∈ candidates := by
  refine Folds.foldl_keeps (f := later) (P := fun best => ∀ w, best = some w → w ∈ candidates)
    (fun v hv best hbest w hw => ?_) (by simp) w h
  rcases later_eq best v with heq | ⟨heq, -⟩
  · rw [heq] at hw
    exact Option.some.inj hw ▸ hv
  · exact hbest w (heq ▸ hw)

/-- There is a latest one of some. -/
theorem isSome_latest {candidates : List String} (h : candidates ≠ []) :
    (latest candidates).isSome = true := by
  obtain ⟨v, vs, rfl⟩ := List.exists_cons_of_ne_nil h
  show (vs.foldl later (some v)).isSome = true
  refine Folds.foldl_keeps (P := fun best : Option String => best.isSome = true)
    (fun v _ best hbest => ?_) rfl
  rcases later_eq best v with heq | ⟨heq, -⟩
  · rw [heq]
    rfl
  · rwa [heq]

end OdooVersion

namespace CoreIndex

variable (g : CoreIndex)

/-- `MATCH (cs:CoreSymbol) RETURN DISTINCT cs.odoo_version` -/
def versions : List String := (g.symbols.keys.map (·.odooVersion)).dedup

/-- `_find_previous_indexed_version(current_version, writer)` -/
def findPreviousIndexedVersion (current : String) : Option String :=
  OdooVersion.latest (g.versions.filter fun v => OdooVersion.Before v current)

/-- `index_core(source_root, odoo_version, writer)` -/
def indexCore (c : CoreSource) : CoreIndex :=
  let g := g.writeSymbols c.symbols
  match truthy (g.findPreviousIndexedVersion c.version) with
  | none => g
  | some previous =>
      let diff := computeDiff (g.fetchCoreSymbols previous) c.symbols
      (g.writeDiffEdges diff previous c.version).writeLifecycleProperties diff previous c.version

/-- One call after the other, on an empty graph. -/
def indexAll (sources : List CoreSource) : CoreIndex := sources.foldl indexCore {}

end CoreIndex
end OdooSemantic
