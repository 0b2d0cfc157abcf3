import Mathlib.Data.List.Find
import OdooSemantic.Indexer.CoreSymbols

/-!
# What the versions in the graph are

After any sequence of `index_core` calls with one source for each version, the symbols of a version
are those of its source: the comparisons set marks, and leave what was written alone
(`CoreIndex.written_indexAll`).
-/

namespace OdooSemantic

open KeyedStore OdooVersion

namespace CoreSource

/-- The symbol that stands under a name in the end. -/
def find (c : CoreSource) (q : String) : Option CoreSymbolInfo :=
  c.symbols.reverse.find? fun s => s.qualifiedName = q

variable {c : CoreSource} {s : CoreSymbolInfo} {q : String}

theorem version_of_mem (h : s ∈ c.symbols) : s.odooVersion = c.version := by
  refine c.ofVersion s (List.mem_append.mpr ?_)
  rcases List.mem_append.mp h with h | h
  · exact Or.inl h
  · exact Or.inr (List.mem_filter.mp h).1

theorem key_of_mem (h : s ∈ c.symbols) : s.key = ⟨s.qualifiedName, c.version⟩ := by
  rw [CoreSymbolInfo.key, version_of_mem h]

theorem mem_of_find (h : c.find q = some s) : s ∈ c.symbols := by
  simpa using List.mem_of_find?_eq_some h

theorem name_of_find (h : c.find q = some s) : s.qualifiedName = q := by
  simpa using List.find?_some h

theorem isSome_find_of_mem (h : s ∈ c.symbols) : (c.find s.qualifiedName).isSome = true := by
  rw [find, List.find?_isSome]
  exact ⟨s, by simpa using h, by simp⟩

theorem symbols_ne_nil_of_find (h : c.find q = some s) : c.symbols ≠ [] :=
  List.ne_nil_of_mem (mem_of_find h)

end CoreSource

namespace CoreIndex

variable {g : CoreIndex} {c d : CoreSource} {sources : List CoreSource}

/-- What stands in the graph under a key, marks apart. -/
def props (g : CoreIndex) (k : CoreSymbolKey) : Option CoreSymbolProps :=
  (g.symbols.lookup k).map (·.props)

theorem isSome_props (g : CoreIndex) (k : CoreSymbolKey) :
    (g.props k).isSome = (g.symbols.lookup k).isSome := Option.isSome_map

/-- The symbols in the graph are those of these sources. -/
structure Written (sources : List CoreSource) (g : CoreIndex) : Prop where
  props_iff : ∀ k p, g.props k = some p ↔ ∃ c ∈ sources, c.version = k.odooVersion ∧
    ∃ s, c.find k.qualifiedName = some s ∧ p = CoreSymbolProps.write s none
  distinct : ∀ c ∈ sources, ∀ d ∈ sources, c.version = d.version → c = d

/-! ## Writing a version -/

/-- The node of a symbol, without a mark. -/
def unmarked (s : CoreSymbolInfo) : CoreSymbolNode := { props := CoreSymbolProps.write s none }

theorem lookup_writeSymbols (symbols : List CoreSymbolInfo) (g : CoreIndex) (k : CoreSymbolKey) :
    (g.writeSymbols symbols).symbols.lookup k =
      match symbols.reverse.find? fun s => s.key = k with
      | none => g.symbols.lookup k
      | some s => some { (g.symbols.lookup k).getD (unmarked s) with
          props := CoreSymbolProps.write s none } := by
  induction symbols generalizing g with
  | nil => rfl
  | cons s symbols ih =>
    show ((g.mergeSymbol s).writeSymbols symbols).symbols.lookup k = _
    rw [ih, List.reverse_cons, List.find?_append, mergeSymbol, lookup_upsert]
    by_cases hk : k = s.key
    · subst hk
      cases symbols.reverse.find? fun t => t.key = s.key <;>
        cases g.symbols.lookup s.key <;> simp [unmarked]
    · cases symbols.reverse.find? fun t => t.key = k <;> simp [hk, Ne.symm hk]

/-- The symbols of a version are written under that version only. -/
theorem find_key (c : CoreSource) (k : CoreSymbolKey) :
    (c.symbols.reverse.find? fun s => s.key = k) =
      if k.odooVersion = c.version then c.find k.qualifiedName else none := by
  split
  · rename_i hv
    refine List.find?_congr fun s hs => ?_
    rw [decide_eq_decide, c.key_of_mem (List.mem_reverse.mp hs), ← hv]
    constructor
    · intro h
      exact congrArg CoreSymbolKey.qualifiedName h
    · intro h
      rw [h]
  · rename_i hv
    refine List.find?_eq_none.mpr fun s hs => ?_
    rw [decide_eq_true_iff, c.key_of_mem (List.mem_reverse.mp hs)]
    intro h
    exact hv (congrArg CoreSymbolKey.odooVersion h).symm

theorem props_writeSymbols (g : CoreIndex) (c : CoreSource) (k : CoreSymbolKey) :
    (g.writeSymbols c.symbols).props k =
      (((if k.odooVersion = c.version then c.find k.qualifiedName else none).map
        (CoreSymbolProps.write · none)).or (g.props k)) := by
  rw [props, lookup_writeSymbols, find_key]
  split <;> rename_i hfind <;> rw [hfind] <;> rfl

theorem Written.writeSymbols (h : Written sources g)
    (hsame : ∀ d ∈ sources, d.version = c.version → d = c) :
    Written (c :: sources) (g.writeSymbols c.symbols) := by
  refine ⟨fun k p => ?_, ?distinct⟩
  case distinct =>
    intro d hd e he hde
    rcases List.mem_cons.mp hd with rfl | hold <;> rcases List.mem_cons.mp he with rfl | hold'
    · rfl
    · exact (hsame e hold' hde.symm).symm
    · exact hsame d hold hde
    · exact h.distinct d hold e hold' hde
  rw [props_writeSymbols, List.exists_mem_cons_iff]
  by_cases hk : c.version = k.odooVersion
  · rw [if_pos hk.symm]
    cases hfind : c.find k.qualifiedName with
    | none =>
      -- what is there of the version stays, and the source has nothing of that name
      show g.props k = some p ↔ _
      rw [h.props_iff]
      simp
    | some s =>
      constructor
      · intro hp
        exact Or.inl ⟨hk, s, rfl, (Option.some.inj hp).symm⟩
      · rintro (⟨-, t, ht, rfl⟩ | ⟨d, hd, hdv, t, ht, rfl⟩)
        · rw [Option.some.inj ht]
          rfl
        · rw [hsame d hd (hdv.trans hk.symm), hfind] at ht
          rw [Option.some.inj ht]
          rfl
  · rw [if_neg (Ne.symm hk)]
    show g.props k = some p ↔ _
    rw [h.props_iff]
    simp [hk]

/-! ## Marks -/

variable {k : CoreSymbolKey}

theorem lookup_setMark (g : CoreIndex) (mark : CoreSymbolNode → CoreSymbolNode)
    (key k : CoreSymbolKey) : (g.setMark mark key).symbols.lookup k =
      if k = key then (g.symbols.lookup key).map mark else g.symbols.lookup k :=
  lookup_modify key k mark g.symbols

theorem props_setMark {mark : CoreSymbolNode → CoreSymbolNode}
    (hmark : ∀ node, (mark node).props = node.props) (key : CoreSymbolKey) (g : CoreIndex) :
    (g.setMark mark key).props k = g.props k := by
  rw [props, lookup_setMark, props]
  split
  · rename_i hk
    rw [hk, Option.map_map]
    exact congrArg (fun f => Option.map f _) (funext hmark)
  · rfl

theorem symbols_mergeReplacedBy (g : CoreIndex) (a b : CoreSymbolKey) :
    (g.mergeReplacedBy a b).symbols = g.symbols := by
  unfold mergeReplacedBy
  split <;> rfl

theorem symbols_writeDiffEdges (g : CoreIndex) (diff : DiffResult) (fromVersion toVersion : String) :
    (g.writeDiffEdges diff fromVersion toVersion).symbols = g.symbols :=
  Folds.foldl_of_forall (F := symbols) (fun _ _ _ => symbols_mergeReplacedBy _ _ _) g

theorem props_writeLifecycleProperties (g : CoreIndex) (diff : DiffResult)
    (fromVersion toVersion : String) :
    (g.writeLifecycleProperties diff fromVersion toVersion).props k = g.props k := by
  have hall : ∀ {mark : CoreSymbolNode → CoreSymbolNode} (key : CoreSymbolInfo → CoreSymbolKey)
      (symbols : List CoreSymbolInfo) (g : CoreIndex), (∀ node, (mark node).props = node.props) →
      (symbols.foldl (fun g s => g.setMark mark (key s)) g).props k = g.props k := by
    intro mark key symbols g hmark
    exact Folds.foldl_of_forall (f := fun g s => setMark g mark (key s))
      (F := fun g => g.props k) (fun _ _ _ => props_setMark hmark _ _) g
  unfold writeLifecycleProperties
  refine (hall _ diff.deprecated _ ?_).trans ((hall _ diff.removed _ ?_).trans
    (hall _ diff.added _ ?_)) <;> exact fun _ => rfl

/-- **Only the writing changes what stands in the graph.** -/
theorem props_indexCore (g : CoreIndex) (c : CoreSource) :
    (g.indexCore c).props k = (g.writeSymbols c.symbols).props k := by
  unfold indexCore
  simp only
  split
  · rfl
  · rw [props_writeLifecycleProperties, props, symbols_writeDiffEdges]
    rfl

theorem Written.congr {g' : CoreIndex} (h : Written sources g)
    (hprops : ∀ k, g'.props k = g.props k) : Written sources g' :=
  ⟨fun k p => by rw [hprops, h.props_iff], h.distinct⟩

theorem Written.indexCore (h : Written sources g)
    (hsame : ∀ d ∈ sources, d.version = c.version → d = c) :
    Written (c :: sources) (g.indexCore c) :=
  (h.writeSymbols hsame).congr fun _ => props_indexCore g c

theorem written_empty : Written [] {} := ⟨fun k p => by
  constructor
  · intro h
    exact absurd h (by simp [props])
  · rintro ⟨c, hc, -⟩
    exact absurd hc (by simp), by simp⟩

/-- The run: one source for each version, any number of calls in any order. -/
theorem written_indexAll {order : List CoreSource}
    (hsame : ∀ c ∈ order, ∀ d ∈ order, c.version = d.version → c = d) :
    Written order.reverse (indexAll order) := by
  have hrun : ∀ (rest sources : List CoreSource) (g : CoreIndex), Written sources g →
      (∀ c ∈ rest, ∀ d ∈ rest ++ sources, d.version = c.version → d = c) →
      Written (rest.reverse ++ sources) (rest.foldl CoreIndex.indexCore g) := by
    intro rest
    induction rest with
    | nil => exact fun sources g h _ => h
    | cons c rest ih =>
      intro sources g h hdistinct
      rw [List.reverse_cons, List.append_assoc]
      refine ih (c :: sources) (g.indexCore c) (h.indexCore fun d hd => ?_) fun e he d hd => ?_
      · exact hdistinct c (by simp) d (by simp [hd])
      · refine hdistinct e (List.mem_cons_of_mem _ he) d ?_
        simpa [or_left_comm] using hd
  have := hrun order [] {} written_empty fun c hc d hd h =>
    hsame d (by simpa using hd) c hc h
  rwa [List.append_nil] at this

/-! ## Reading a version -/

/-- What is read back of a version, beside what its source has. -/
theorem Written.get?_fetch (h : Written sources g) (hc : c ∈ sources) (q : String) :
    (byQname (g.fetchCoreSymbols c.version)).get? q = (c.find q).map stored := by
  rw [get?_byQname_fetch]
  have hprops := h.props_iff ⟨q, c.version⟩
  cases hfind : c.find q with
  | some s =>
    have hp := (hprops _).mpr ⟨c, hc, rfl, s, hfind, rfl⟩
    obtain ⟨node, hnode, hnodeProps⟩ := Option.map_eq_some_iff.mp hp
    have hv := c.version_of_mem (CoreSource.mem_of_find hfind)
    have hq := CoreSource.name_of_find hfind
    rw [hnode, Option.map_some, info, hnodeProps, Option.map_some, stored, ← hq, ← hv]
    rfl
  | none =>
    cases hnode : g.symbols.lookup ⟨q, c.version⟩ with
    | none => rfl
    | some node =>
      have hp : g.props ⟨q, c.version⟩ = some node.props := by
        rw [props, hnode]
        rfl
      obtain ⟨d, hd, hv, s, hs, -⟩ := (hprops _).mp hp
      rw [h.distinct d hd c hc hv, hfind] at hs
      exact absurd hs (by simp)

theorem Written.isSome_lookup (h : Written sources g) (hc : c ∈ sources) {q : String}
    {s : CoreSymbolInfo} (hfind : c.find q = some s) :
    (g.symbols.lookup ⟨q, c.version⟩).isSome = true := by
  rw [← isSome_props, (h.props_iff ⟨q, c.version⟩ _).mpr ⟨c, hc, rfl, s, hfind, rfl⟩]
  rfl

theorem mem_versions {w : String} :
    w ∈ g.versions ↔ ∃ k, (g.symbols.lookup k).isSome = true ∧ k.odooVersion = w := by
  unfold versions
  rw [List.mem_dedup, List.mem_map]
  refine exists_congr fun k => and_congr_left fun _ => ?_
  rw [← AList.mem_keys, AList.lookup_isSome]

theorem Written.mem_versions (h : Written sources g) {w : String} :
    w ∈ g.versions ↔ ∃ c ∈ sources, c.version = w ∧ c.symbols ≠ [] := by
  rw [CoreIndex.mem_versions]
  constructor
  · rintro ⟨k, hk, rfl⟩
    rw [← isSome_props] at hk
    obtain ⟨p, hp⟩ := Option.isSome_iff_exists.mp hk
    obtain ⟨c, hc, hv, s, hs, -⟩ := (h.props_iff k p).mp hp
    exact ⟨c, hc, hv, CoreSource.symbols_ne_nil_of_find hs⟩
  · rintro ⟨c, hc, rfl, hne⟩
    obtain ⟨s, hs⟩ := List.exists_mem_of_ne_nil _ hne
    obtain ⟨t, ht⟩ := Option.isSome_iff_exists.mp (CoreSource.isSome_find_of_mem hs)
    exact ⟨⟨s.qualifiedName, c.version⟩, h.isSome_lookup hc ht, rfl⟩

theorem of_findPrevious {w p : String} (h : g.findPreviousIndexedVersion w = some p) :
    p ∈ g.versions ∧ Before p w := by
  have hmem := mem_of_latest h
  rw [List.mem_filter, decide_eq_true_iff] at hmem
  exact hmem

end CoreIndex
end OdooSemantic
