import Mathlib.Data.List.Sort
import OdooSemantic.Proof.CoreVersions

/-!
# The order in which versions are indexed

What is left in the graph is the same for every order, and indexing a version again changes
nothing, if and only if there is no change to record: any two of the versions have the same names,
and nothing is deprecated in the later one only (`lifecycle_order_iff`).

From the highest version down no version has one before it, and nothing is marked. Any other order
marks what has changed, and no mark is ever taken back.
-/

namespace OdooSemantic

open KeyedStore OdooVersion

namespace CoreSource

/-- **No change from one version to the other.** -/
def Unchanged (u v : CoreSource) : Prop :=
  ∀ q, ((u.find q).isSome ↔ (v.find q).isSome) ∧
    ∀ n ∈ v.find q, n.status = "deprecated" → ∃ o ∈ u.find q, o.status = "deprecated"

/-- `v` is compared with `u`, where `u` is the version before it. -/
def Compared (u v : CoreSource) : Prop :=
  u.version ≠ "" ∧ u.symbols ≠ [] ∧ Before u.version v.version

end CoreSource

namespace CoreIndex

variable {g : CoreIndex} {c u v : CoreSource} {sources : List CoreSource}

/-- The status of a symbol, and its marks. -/
def lifecycle (node : CoreSymbolNode) :
    String × Option String × Option String × Option String :=
  (node.props.status, node.addedIn, node.removedIn, node.deprecatedIn)

def SameLifecycle (g g' : CoreIndex) : Prop :=
  (∀ k, (g.symbols.lookup k).map lifecycle = (g'.symbols.lookup k).map lifecycle) ∧
    g.replacedBy = g'.replacedBy

def SameGraph (g g' : CoreIndex) : Prop :=
  (∀ k, g.symbols.lookup k = g'.symbols.lookup k) ∧ g.replacedBy = g'.replacedBy

def HasMark (node : CoreSymbolNode) : Prop :=
  node.addedIn.isSome ∨ node.removedIn.isSome ∨ node.deprecatedIn.isSome

/-- The graph is that of these sources, and nothing is marked. -/
structure Clean (sources : List CoreSource) (g : CoreIndex) : Prop extends Written sources g where
  unmarked : ∀ k node, g.symbols.lookup k = some node → ¬HasMark node
  edges : g.replacedBy = ∅

theorem eq_of_not_hasMark {node node' : CoreSymbolNode} (h : ¬HasMark node) (h' : ¬HasMark node')
    (hprops : node.props = node'.props) : node = node' := by
  cases node
  cases node'
  simp only [HasMark, not_or, Option.not_isSome_iff_eq_none] at h h'
  obtain ⟨hadded, hremoved, hdeprecated⟩ := h
  obtain ⟨hadded', hremoved', hdeprecated'⟩ := h'
  simp_all

theorem replacedBy_writeSymbols (symbols : List CoreSymbolInfo) (g : CoreIndex) :
    (g.writeSymbols symbols).replacedBy = g.replacedBy :=
  Folds.foldl_of_forall (f := mergeSymbol) (F := replacedBy) (fun _ _ _ => rfl) g

theorem Clean.writeSymbols (h : Clean sources g)
    (hsame : ∀ d ∈ sources, d.version = c.version → d = c) :
    Clean (c :: sources) (g.writeSymbols c.symbols) where
  toWritten := h.toWritten.writeSymbols hsame
  unmarked k node hnode := by
    rw [lookup_writeSymbols] at hnode
    split at hnode
    · exact h.unmarked k node hnode
    · obtain rfl := Option.some.inj hnode
      cases hold : g.symbols.lookup k with
      | none => simp [HasMark, CoreIndex.unmarked]
      | some old => exact h.unmarked k old hold
  edges := (replacedBy_writeSymbols _ _).trans h.edges

/-! ## The comparison -/

/-- Where nothing has changed, nothing is found. -/
theorem computeDiff_of_same {old new : List CoreSymbolInfo}
    (hnames : ∀ q, (byQname old).get? q = none ↔ (byQname new).get? q = none)
    (hdeprecated : ∀ q n, (byQname new).get? q = some n → n.status = "deprecated" →
      ∃ o, (byQname old).get? q = some o ∧ o.status = "deprecated") :
    (computeDiff old new).added = [] ∧ (computeDiff old new).removed = [] ∧
      (computeDiff old new).deprecated = [] ∧ (computeDiff old new).replaced = [] := by
  refine ⟨?_, ?_, ?_, ?_⟩ <;> rw [List.eq_nil_iff_forall_not_mem]
  · intro n hn
    obtain ⟨hnew, hold⟩ := mem_added.mp hn
    rw [(hnames _).mp hold] at hnew
    exact absurd hnew (by simp)
  · intro o ho
    obtain ⟨hold, hnew, -⟩ := mem_removed.mp ho
    rw [(hnames _).mpr hnew] at hold
    exact absurd hold (by simp)
  · intro n hn
    obtain ⟨hnew, o, ho, hdep⟩ := mem_deprecated.mp hn
    rw [isDeprecation, decide_eq_true_iff] at hdep
    obtain ⟨o', ho', hstatus⟩ := hdeprecated _ n hnew hdep.1
    rw [ho] at ho'
    exact hdep.2 (Option.some.inj ho' ▸ hstatus)
  · intro names hn
    obtain ⟨s, hs, hname, -, hnone, -⟩ := mem_replaced.mp hn
    exact get?_byQname_of_mem hs (hname ▸ (hnames _).mpr hnone)

/-- An empty status is read as another one, and neither is `deprecated`. -/
theorem status_stored (s : CoreSymbolInfo) :
    (stored s).status = "deprecated" ↔ s.status = "deprecated" := by
  show orDefault s.status "stable" = "deprecated" ↔ _
  unfold orDefault
  split
  · rename_i hempty
    simp [hempty]
  · rfl

theorem Written.computeDiff_eq_nil (h : Written sources g)
    (hu : u ∈ sources) (hsame : u.Unchanged v) :
    (computeDiff (g.fetchCoreSymbols u.version) v.symbols).added = [] ∧
      (computeDiff (g.fetchCoreSymbols u.version) v.symbols).removed = [] ∧
      (computeDiff (g.fetchCoreSymbols u.version) v.symbols).deprecated = [] ∧
      (computeDiff (g.fetchCoreSymbols u.version) v.symbols).replaced = [] := by
  apply computeDiff_of_same
  · intro q
    rw [h.get?_fetch hu, get?_byQname, Option.map_eq_none_iff, ← Option.not_isSome_iff_eq_none]
    rw [(hsame q).1, Option.not_isSome_iff_eq_none]
    rfl
  · intro q n hn hstatus
    rw [get?_byQname] at hn
    obtain ⟨o, ho, hdep⟩ := (hsame q).2 n hn hstatus
    rw [h.get?_fetch hu, ho]
    exact ⟨_, rfl, (status_stored _).mpr hdep⟩

theorem writeDiff_of_nil {diff : DiffResult} (h : diff.added = [] ∧ diff.removed = [] ∧
    diff.deprecated = [] ∧ diff.replaced = []) (fromVersion toVersion : String) :
    (g.writeDiffEdges diff fromVersion toVersion).writeLifecycleProperties diff fromVersion
      toVersion = g := by
  obtain ⟨hadded, hremoved, hdeprecated, hreplaced⟩ := h
  rw [writeLifecycleProperties, writeDiffEdges, hadded, hremoved, hdeprecated, hreplaced]
  rfl

/-! ## One version after the other -/

/-- What is asked of a version that is there when another one is indexed. -/
def Silent (u v : CoreSource) : Prop :=
  (u.version = v.version → u = v) ∧ (u.Compared v → u.Unchanged v)

/-- **A step from a graph without marks**, with no change to the version before. -/
theorem Clean.indexCore (h : Clean sources g)
    (hc : ∀ u ∈ sources, Silent u c) : Clean (c :: sources) (g.indexCore c) := by
  have hwritten := h.writeSymbols fun u hu => (hc u hu).1
  rw [CoreIndex.indexCore]
  cases hprevious :
      truthy ((g.writeSymbols c.symbols).findPreviousIndexedVersion c.version) with
  | none => exact hwritten
  | some p =>
    obtain ⟨hfind, hne⟩ := Option.filter_eq_some_iff.mp hprevious
    obtain ⟨hp, hbefore⟩ := of_findPrevious hfind
    obtain ⟨u, hu, rfl, hsymbols⟩ := hwritten.mem_versions.mp hp
    have huc : u ∈ sources := by
      rcases List.mem_cons.mp hu with rfl | hu
      · exact absurd rfl hbefore.1
      · exact hu
    have hsame := (hc u huc).2 ⟨by simpa using hne, hsymbols, hbefore⟩
    show Clean _ (((g.writeSymbols c.symbols).writeDiffEdges _ _ _).writeLifecycleProperties _ _ _)
    rw [writeDiff_of_nil (hwritten.computeDiff_eq_nil hu hsame)]
    exact hwritten

/-- The run: every version is settled with what is before it. -/
theorem Clean.foldl (h : Clean sources g) (order : List CoreSource)
    (hold : ∀ u ∈ sources, ∀ c ∈ order, Silent u c) (horder : order.Pairwise Silent) :
    Clean (order.reverse ++ sources) (order.foldl CoreIndex.indexCore g) := by
  induction order generalizing sources g with
  | nil => exact h
  | cons c order ih =>
    rw [List.pairwise_cons] at horder
    have hnext := h.indexCore fun u hu => hold u hu c List.mem_cons_self
    have hrest : ∀ u ∈ c :: sources, ∀ d ∈ order, Silent u d := by
      intro u hu d hd
      rcases List.mem_cons.mp hu with rfl | hu
      · exact horder.1 d hd
      · exact hold u hu d (List.mem_cons_of_mem _ hd)
    rw [List.foldl_cons, List.reverse_cons, List.append_assoc]
    exact ih hnext hrest horder.2

theorem clean_empty : Clean [] {} :=
  ⟨written_empty, fun k node h => absurd h (by simp), rfl⟩

theorem clean_indexAll {order : List CoreSource} (h : order.Pairwise Silent) :
    Clean order.reverse (indexAll order) := by
  have := clean_empty.foldl order (by simp) h
  rwa [List.append_nil] at this

/-- Two graphs without a mark and of the same sources are the same. -/
theorem Clean.sameGraph {sources' : List CoreSource} {g' : CoreIndex} (h : Clean sources g)
    (h' : Clean sources' g') (hmem : ∀ c, c ∈ sources ↔ c ∈ sources') : SameGraph g g' := by
  refine ⟨fun k => ?_, h.edges.trans h'.edges.symm⟩
  have hprops : g.props k = g'.props k := by
    refine Option.ext fun p => ?_
    rw [h.props_iff, h'.props_iff]
    exact exists_congr fun c => and_congr_left' (hmem c)
  unfold props at hprops
  cases hnode : g.symbols.lookup k with
  | none =>
    rw [hnode] at hprops
    exact (Option.map_eq_none_iff.mp hprops.symm).symm
  | some node =>
    rw [hnode] at hprops
    obtain ⟨node', hnode', heq⟩ := Option.map_eq_some_iff.mp hprops.symm
    rw [hnode', eq_of_not_hasMark (h.unmarked k node hnode) (h'.unmarked k node' hnode') heq.symm]

theorem SameGraph.lifecycle {g' : CoreIndex} (h : SameGraph g g') : SameLifecycle g g' :=
  ⟨fun k => by rw [h.1 k], h.2⟩

/-! ## Marks stay -/

/-- There is a mark on some node, or an edge. -/
def Marked (g : CoreIndex) : Prop :=
  (∃ k node, g.symbols.lookup k = some node ∧ HasMark node) ∨ g.replacedBy.Nonempty

theorem Marked.of_lookup {g' : CoreIndex} (h : g.Marked)
    (hnodes : ∀ k node, g.symbols.lookup k = some node → HasMark node →
      ∃ node', g'.symbols.lookup k = some node' ∧ HasMark node')
    (hedges : g.replacedBy ⊆ g'.replacedBy) : g'.Marked := by
  rcases h with ⟨k, node, hnode, hmark⟩ | h
  · exact Or.inl ⟨k, hnodes k node hnode hmark⟩
  · exact Or.inr (h.mono hedges)

theorem Marked.mergeSymbol (h : g.Marked) (s : CoreSymbolInfo) : (g.mergeSymbol s).Marked := by
  refine h.of_lookup (fun k node hnode hmark => ?_) (Finset.Subset.refl _)
  rw [CoreIndex.mergeSymbol, lookup_upsert]
  by_cases hk : k = s.key
  · subst hk
    rw [if_pos rfl, hnode]
    exact ⟨_, rfl, hmark⟩
  · rw [if_neg hk]
    exact ⟨node, hnode, hmark⟩

section Marks

variable {mark : CoreSymbolNode → CoreSymbolNode}

theorem isSome_lookup_setMark (mark : CoreSymbolNode → CoreSymbolNode) (key k : CoreSymbolKey) :
    ((g.setMark mark key).symbols.lookup k).isSome = (g.symbols.lookup k).isSome := by
  rw [lookup_setMark]
  split
  · rename_i hk
    rw [hk, Option.isSome_map]
  · rfl

theorem Marked.setMark (h : g.Marked) (hmark : ∀ node, HasMark (mark node)) (key : CoreSymbolKey) :
    (g.setMark mark key).Marked := by
  refine h.of_lookup (fun k node hnode hhas => ?_) (Finset.Subset.refl _)
  rw [lookup_setMark]
  by_cases hk : k = key
  · subst hk
    rw [if_pos rfl, hnode]
    exact ⟨_, rfl, hmark node⟩
  · rw [if_neg hk]
    exact ⟨node, hnode, hhas⟩

theorem marked_setMark {key : CoreSymbolKey} (hkey : (g.symbols.lookup key).isSome)
    (hmark : ∀ node, HasMark (mark node)) : (g.setMark mark key).Marked := by
  obtain ⟨node, hnode⟩ := Option.isSome_iff_exists.mp hkey
  refine Or.inl ⟨key, mark node, ?_, hmark node⟩
  rw [lookup_setMark, if_pos rfl, hnode]
  rfl

variable (key : CoreSymbolInfo → CoreSymbolKey) (symbols : List CoreSymbolInfo)

theorem isSome_lookup_markAll (mark : CoreSymbolNode → CoreSymbolNode) (k : CoreSymbolKey) :
    ((symbols.foldl (fun g s => g.setMark mark (key s)) g).symbols.lookup k).isSome =
      (g.symbols.lookup k).isSome :=
  Folds.foldl_of_forall (f := fun g s => setMark g mark (key s))
    (F := fun g => (g.symbols.lookup k).isSome) (fun _ _ _ => isSome_lookup_setMark mark _ k) g

theorem Marked.markAll (h : g.Marked) (hmark : ∀ node, HasMark (mark node)) :
    (symbols.foldl (fun g s => g.setMark mark (key s)) g).Marked :=
  Folds.foldl_keeps (P := Marked) (fun s _ _ hs => hs.setMark hmark (key s)) h

theorem marked_markAll {s : CoreSymbolInfo} (hs : s ∈ symbols)
    (hkey : (g.symbols.lookup (key s)).isSome) (hmark : ∀ node, HasMark (mark node)) :
    (symbols.foldl (fun g s => g.setMark mark (key s)) g).Marked :=
  Folds.foldl_of_exists (P := Marked) (Q := fun g => (g.symbols.lookup (key s)).isSome) hs
    (fun _ hq => marked_setMark hq hmark)
    (fun t _ _ hp => hp.setMark hmark (key t))
    (fun _ _ _ hq => (isSome_lookup_setMark mark _ _).trans hq) hkey

end Marks

theorem Marked.writeLifecycleProperties (h : g.Marked) (diff : DiffResult)
    (fromVersion toVersion : String) :
    (g.writeLifecycleProperties diff fromVersion toVersion).Marked := by
  unfold CoreIndex.writeLifecycleProperties
  refine Marked.markAll _ _ (Marked.markAll _ _ (Marked.markAll _ _ h ?_) ?_) ?_
  · exact fun _ => Or.inl rfl
  · exact fun _ => Or.inr (Or.inl rfl)
  · exact fun _ => Or.inr (Or.inr rfl)

/-- What one of the three lists holds is marked, where its node is there. -/
theorem marked_writeLifecycleProperties {diff : DiffResult} {fromVersion toVersion : String}
    (h : (∃ s ∈ diff.added, (g.symbols.lookup s.key).isSome) ∨
      (∃ s ∈ diff.removed, (g.symbols.lookup ⟨s.qualifiedName, fromVersion⟩).isSome) ∨
      ∃ s ∈ diff.deprecated, (g.symbols.lookup s.key).isSome) :
    (g.writeLifecycleProperties diff fromVersion toVersion).Marked := by
  unfold CoreIndex.writeLifecycleProperties
  have hadded : ∀ node : CoreSymbolNode, HasMark { node with addedIn := some toVersion } :=
    fun _ => Or.inl rfl
  have hremoved : ∀ node : CoreSymbolNode, HasMark { node with removedIn := some toVersion } :=
    fun _ => Or.inr (Or.inl rfl)
  have hdeprecated :
      ∀ node : CoreSymbolNode, HasMark { node with deprecatedIn := some toVersion } :=
    fun _ => Or.inr (Or.inr rfl)
  rcases h with ⟨s, hs, hkey⟩ | ⟨s, hs, hkey⟩ | ⟨s, hs, hkey⟩
  · have hfirst := marked_markAll CoreSymbolInfo.key _ hs hkey hadded
    exact Marked.markAll _ _ (Marked.markAll _ _ hfirst hremoved) hdeprecated
  · refine Marked.markAll _ _ (marked_markAll (fun s => ⟨s.qualifiedName, fromVersion⟩) _ hs ?_
      hremoved) hdeprecated
    rw [isSome_lookup_markAll]
    exact hkey
  · refine marked_markAll CoreSymbolInfo.key _ hs ?_ hdeprecated
    rw [isSome_lookup_markAll, isSome_lookup_markAll]
    exact hkey

theorem Marked.mergeReplacedBy (h : g.Marked) (a b : CoreSymbolKey) :
    (g.mergeReplacedBy a b).Marked := by
  refine h.of_lookup (fun k node hnode hmark => ?_) ?_
  · rw [symbols_mergeReplacedBy]
    exact ⟨node, hnode, hmark⟩
  · unfold CoreIndex.mergeReplacedBy
    split
    · exact Finset.subset_insert _ _
    · exact Finset.Subset.refl _

theorem Marked.writeDiffEdges (h : g.Marked) (diff : DiffResult) (fromVersion toVersion : String) :
    (g.writeDiffEdges diff fromVersion toVersion).Marked :=
  Folds.foldl_keeps (P := Marked) (fun _ _ _ hs => hs.mergeReplacedBy _ _) h

theorem marked_writeDiffEdges {diff : DiffResult} {fromVersion toVersion : String}
    {names : String × String} (hnames : names ∈ diff.replaced)
    (hold : ⟨names.1, fromVersion⟩ ∈ g.symbols) (hnew : ⟨names.2, toVersion⟩ ∈ g.symbols) :
    (g.writeDiffEdges diff fromVersion toVersion).Marked := by
  refine Folds.foldl_of_exists (P := Marked) (Q := fun g : CoreIndex =>
    ⟨names.1, fromVersion⟩ ∈ g.symbols ∧ ⟨names.2, toVersion⟩ ∈ g.symbols)
    hnames ?_ ?_ ?_ ⟨hold, hnew⟩
  · intro g hq
    refine Or.inr ?_
    rw [mergeReplacedBy, if_pos hq]
    exact Finset.insert_nonempty _ _
  · exact fun _ _ _ hp => hp.mergeReplacedBy _ _
  · intro _ _ _ hq
    rw [symbols_mergeReplacedBy]
    exact hq

theorem Marked.indexCore (h : g.Marked) (c : CoreSource) : (g.indexCore c).Marked := by
  have hwritten : (g.writeSymbols c.symbols).Marked :=
    Folds.foldl_keeps (P := Marked) (fun s _ _ hs => hs.mergeSymbol s) h
  rw [CoreIndex.indexCore]
  split
  · exact hwritten
  · exact (hwritten.writeDiffEdges _ _ _).writeLifecycleProperties _ _ _

theorem Clean.not_marked (h : Clean sources g) : ¬g.Marked := by
  rintro (⟨k, node, hnode, hmark⟩ | hedge)
  · exact h.unmarked k node hnode hmark
  · rw [h.edges] at hedge
    exact absurd hedge (by simp)

theorem SameLifecycle.marked {g' : CoreIndex} (h : SameLifecycle g g') (hg : g.Marked) :
    g'.Marked := by
  refine hg.of_lookup (fun k node hnode hmark => ?_) (h.2 ▸ Finset.Subset.refl _)
  have hk := h.1 k
  rw [hnode] at hk
  obtain ⟨node', hnode', hsame⟩ := Option.map_eq_some_iff.mp hk.symm
  obtain ⟨-, hadded, hremoved, hdeprecated⟩ := by simpa [lifecycle] using hsame
  refine ⟨node', hnode', ?_⟩
  rwa [HasMark, hadded, hremoved, hdeprecated]

/-! ## Two versions that differ -/

/-- With one other version in the graph, that one is the version before. -/
theorem Clean.findPrevious (h : Clean [v, u] g) (hcompared : u.Compared v) :
    truthy (g.findPreviousIndexedVersion v.version) = some u.version := by
  obtain ⟨hne, hsymbols, hbefore⟩ := hcompared
  have hu : u.version ∈ g.versions := h.mem_versions.mpr ⟨u, by simp, rfl, hsymbols⟩
  cases hprevious : g.findPreviousIndexedVersion v.version with
  | none =>
    have hcandidate : u.version ∈ g.versions.filter fun p => Before p v.version := by
      rw [List.mem_filter, decide_eq_true_iff]
      exact ⟨hu, hbefore⟩
    have hsome := isSome_latest (List.ne_nil_of_mem hcandidate)
    rw [show latest _ = none from hprevious] at hsome
    exact absurd hsome (by simp)
  | some p =>
    obtain ⟨hp, hpv⟩ := of_findPrevious hprevious
    obtain ⟨d, hd, rfl, -⟩ := h.mem_versions.mp hp
    have hdu : d = u := by
      rcases List.mem_pair.mp hd with rfl | rfl
      · exact absurd rfl hpv.1
      · rfl
    rw [hdu]
    exact Option.filter_eq_some_iff.mpr ⟨rfl, by simpa using hne⟩

/-- **A change leaves a mark**, when the two versions are indexed in their order. -/
theorem Clean.marked_of_changed (h : Clean [u] g) (hcompared : u.Compared v)
    (hchanged : ¬u.Unchanged v) : (g.indexCore v).Marked := by
  have hwritten : Clean [v, u] (g.writeSymbols v.symbols) := by
    refine h.writeSymbols fun d hd hdv => ?_
    rw [List.mem_singleton.mp hd] at hdv
    exact absurd hdv hcompared.2.2.1
  rw [CoreIndex.indexCore, hwritten.findPrevious hcompared]
  show ((CoreIndex.writeDiffEdges _ _ _ _).writeLifecycleProperties _ _ _).Marked
  have hold := hwritten.get?_fetch (c := u) (by simp)
  have hnew := get?_byQname v.symbols
  obtain ⟨q, hq⟩ := not_forall.mp hchanged
  cases ho : u.find q with
  | none =>
    cases hn : v.find q with
    | none => exact absurd (by simp [ho, hn]) hq
    | some n =>
      have hname := CoreSource.name_of_find hn
      refine marked_writeLifecycleProperties (Or.inl ⟨n, ?_, ?_⟩)
      · rw [mem_added, hname, hold, ho]
        exact ⟨(hnew q).trans hn, rfl⟩
      · rw [symbols_writeDiffEdges, v.key_of_mem (CoreSource.mem_of_find hn), hname]
        exact hwritten.isSome_lookup (by simp) hn
  | some o =>
    have ho' := (hold q).trans (congrArg _ ho)
    cases hn : v.find q with
    | none =>
      have hn' := (hnew q).trans hn
      by_cases hreplaced : q ∈ (computeDiff ((g.writeSymbols v.symbols).fetchCoreSymbols u.version)
        v.symbols).replaced.map Prod.fst
      · obtain ⟨names, hnames, rfl⟩ := List.mem_map.mp hreplaced
        obtain ⟨-, -, -, -, -, hthere⟩ := mem_replaced.mp hnames
        obtain ⟨n, hfind⟩ := Option.ne_none_iff_exists'.mp hthere
        rw [hnew] at hfind
        refine (marked_writeDiffEdges hnames ?_ ?_).writeLifecycleProperties _ _ _
        · exact AList.lookup_isSome.mp (hwritten.isSome_lookup (c := u) (by simp) ho)
        · exact AList.lookup_isSome.mp (hwritten.isSome_lookup (c := v) (by simp) hfind)
      · have hname : (stored o).qualifiedName = q :=
          show o.qualifiedName = q from CoreSource.name_of_find ho
        refine marked_writeLifecycleProperties (Or.inr (Or.inl ⟨stored o, ?_, ?_⟩))
        · rw [mem_removed, hname]
          exact ⟨ho', hn', hreplaced⟩
        · rw [symbols_writeDiffEdges, hname]
          exact hwritten.isSome_lookup (c := u) (by simp) ho
    | some n =>
      have hname := CoreSource.name_of_find hn
      have hdep : n.status = "deprecated" ∧ o.status ≠ "deprecated" := by
        rw [ho, hn] at hq
        simpa using hq
      refine marked_writeLifecycleProperties (Or.inr (Or.inr ⟨n, ?_, ?_⟩))
      · rw [mem_deprecated, hname]
        refine ⟨(hnew q).trans hn, _, ho', ?_⟩
        rw [isDeprecation, decide_eq_true_iff, Ne, status_stored]
        exact hdep
      · rw [symbols_writeDiffEdges, v.key_of_mem (CoreSource.mem_of_find hn), hname]
        exact hwritten.isSome_lookup (by simp) hn

end CoreIndex

/-! ## Every order -/

/-- A set of versions. -/
structure CoreSources where
  sources : List CoreSource
  nodup : (sources.map (·.version)).Nodup

namespace CoreSources

open CoreIndex

/-- What comes before `v` has a lower number. -/
theorem keyLt_of_before {u v : String} (h : Before u v) : keyLt (verKey u) (verKey v) := by
  obtain ⟨-, key, hkey, hlt⟩ := h
  have hv : verKey v = key := by
    unfold currentKey at hkey
    unfold verKey
    split at hkey
    · rename_i hparts
      rw [hparts]
      simp only
      rw [Option.mem_def.mp hkey, Option.getD_some]
    · exact absurd hkey (by simp)
  rwa [hv]

theorem not_keyLt_trans {a b c : Int × Int} (hab : ¬keyLt a b) (hbc : ¬keyLt b c) :
    ¬keyLt a c := by
  unfold keyLt at *
  omega

theorem not_keyLt_or (a b : Int × Int) : ¬keyLt a b ∨ ¬keyLt b a := by
  unfold keyLt
  omega

/-- From the highest version down. -/
def descending (cs : CoreSources) : List CoreSource :=
  cs.sources.mergeSort fun a b => !decide (keyLt (verKey a.version) (verKey b.version))

variable (cs : CoreSources)

theorem descending_perm : cs.descending.Perm cs.sources := List.mergeSort_perm _ _

theorem eq_of_version {u v : CoreSource} (hu : u ∈ cs.sources) (hv : v ∈ cs.sources)
    (h : u.version = v.version) : u = v := List.inj_on_of_nodup_map cs.nodup hu hv h

theorem silent_descending : cs.descending.Pairwise Silent := by
  have hsorted : cs.descending.Pairwise fun a b =>
      !decide (keyLt (verKey a.version) (verKey b.version)) := by
    apply List.pairwise_mergeSort
    · intro a b c hab hbc
      rw [Bool.not_eq_true', decide_eq_false_iff_not] at hab hbc ⊢
      exact not_keyLt_trans hab hbc
    · intro a b
      rw [Bool.or_eq_true, Bool.not_eq_true', Bool.not_eq_true', decide_eq_false_iff_not,
        decide_eq_false_iff_not]
      exact not_keyLt_or _ _
  refine hsorted.imp_of_mem fun {a b} ha hb hab => ⟨?_, fun hcompared => ?_⟩
  · exact cs.eq_of_version (cs.descending_perm.subset ha) (cs.descending_perm.subset hb)
  · have hlt := keyLt_of_before hcompared.2.2
    simp [hlt] at hab

/-- Where nothing changes, every order is silent. -/
theorem silent_of_perm {order : List CoreSource} (horder : order.Perm cs.sources)
    (hsame : ∀ u ∈ cs.sources, ∀ v ∈ cs.sources, u.Compared v → u.Unchanged v) :
    ∀ u ∈ order, ∀ v ∈ order, Silent u v := fun u hu v hv =>
  ⟨cs.eq_of_version (horder.subset hu) (horder.subset hv),
    hsame u (horder.subset hu) v (horder.subset hv)⟩

/-- Some order begins with these two. -/
theorem exists_perm_cons₂ {u v : CoreSource} (hu : u ∈ cs.sources) (hv : v ∈ cs.sources)
    (h : u ≠ v) : ∃ rest, (u :: v :: rest).Perm cs.sources := by
  obtain ⟨before, after, hsplit⟩ := List.append_of_mem hu
  have hperm : (u :: (before ++ after)).Perm cs.sources := hsplit ▸ List.perm_middle.symm
  have hv' : v ∈ before ++ after :=
    (List.mem_cons.mp (hperm.mem_iff.mpr hv)).resolve_left (Ne.symm h)
  obtain ⟨before', after', hsplit'⟩ := List.append_of_mem hv'
  refine ⟨before' ++ after', List.Perm.trans ?_ hperm⟩
  rw [hsplit']
  exact List.Perm.cons u List.perm_middle.symm

theorem marked_of_order {u v : CoreSource} (hcompared : u.Compared v) (hchanged : ¬u.Unchanged v)
    (rest : List CoreSource) : (indexAll (u :: v :: rest)).Marked := by
  have hfirst : Clean [u] (({} : CoreIndex).indexCore u) := clean_empty.indexCore (by simp)
  show (rest.foldl CoreIndex.indexCore ((CoreIndex.indexCore {} u).indexCore v)).Marked
  exact Folds.foldl_keeps (P := Marked) (fun c _ _ hs => hs.indexCore c)
    (hfirst.marked_of_changed hcompared hchanged)

end CoreSources

open CoreIndex in
/-- **The order of indexing does not matter, and neither does a repetition, if and only if there is
no change from any of the versions to a later one.** -/
theorem lifecycle_order_iff (cs : CoreSources) :
    ((∀ order order', order.Perm cs.sources → order'.Perm cs.sources →
        SameLifecycle (indexAll order) (indexAll order')) ∧
      ∀ order, order.Perm cs.sources → ∀ c ∈ cs.sources,
        SameGraph ((indexAll order).indexCore c) (indexAll order)) ↔
    ∀ u ∈ cs.sources, ∀ v ∈ cs.sources, u.Compared v → u.Unchanged v := by
  constructor
  · rintro ⟨horders, -⟩ u hu v hv hcompared
    by_contra hchanged
    have huv : u ≠ v := fun h => hcompared.2.2.1 (congrArg _ h)
    obtain ⟨rest, hrest⟩ := cs.exists_perm_cons₂ hu hv huv
    have hmarked := CoreSources.marked_of_order hcompared hchanged rest
    have hsame := horders _ _ hrest cs.descending_perm
    exact (clean_indexAll cs.silent_descending).not_marked (hsame.marked hmarked)
  · intro hsame
    have hclean : ∀ order, order.Perm cs.sources → Clean order.reverse (indexAll order) := by
      intro order horder
      refine clean_indexAll (List.pairwise_of_forall_mem_list fun u hu v hv => ?_)
      exact cs.silent_of_perm horder hsame u hu v hv
    refine ⟨fun order order' horder horder' => ?_, fun order horder c hc => ?_⟩
    · refine ((hclean order horder).sameGraph (hclean order' horder') fun c => ?_).lifecycle
      rw [List.mem_reverse, List.mem_reverse, horder.mem_iff, horder'.mem_iff]
    · have hin : c ∈ order := horder.mem_iff.mpr hc
      have hagain := (hclean order horder).indexCore (c := c) fun u hu =>
        cs.silent_of_perm horder hsame u (List.mem_reverse.mp hu) c hin
      refine hagain.sameGraph (hclean order horder) fun d => ?_
      rw [List.mem_cons, List.mem_reverse]
      constructor
      · rintro (rfl | hd)
        · exact hin
        · exact hd
      · exact Or.inr

namespace NewSymbol

open CoreIndex

def symbol (qualifiedName version : String) : CoreSymbolInfo where
  qualifiedName
  kind := "orm_method"
  odooVersion := version
  filePath := some "odoo/models.py"

def source17 : CoreSource where
  version := "17.0"
  parsed := [symbol "odoo.models.BaseModel.search" "17.0"]
  ofVersion := by simp [symbol]

def source18 : CoreSource where
  version := "18.0"
  parsed := [symbol "odoo.models.BaseModel.search" "18.0",
    symbol "odoo.models.BaseModel.search_fetch" "18.0"]
  ofVersion := by simp [symbol]

def key : CoreSymbolKey := ⟨"odoo.models.BaseModel.search_fetch", "18.0"⟩

/-- A symbol that is new in 18.0 is marked when 18.0 comes second. When it comes first, it is
marked only by indexing 18.0 again. -/
theorem order_matters :
    ¬SameLifecycle (indexAll [source17, source18]) (indexAll [source18, source17]) ∧
      ¬SameGraph ((indexAll [source18, source17]).indexCore source18)
        (indexAll [source18, source17]) := by
  have hnone : ((indexAll [source18, source17]).symbols.lookup key).map (·.addedIn) =
      some none := by decide
  have hfirst : ((indexAll [source17, source18]).symbols.lookup key).map (·.addedIn) =
      some (some "18.0") := by decide
  have hagain : (((indexAll [source18, source17]).indexCore source18).symbols.lookup key).map
      (·.addedIn) = some (some "18.0") := by decide
  constructor
  · rintro ⟨hsame, -⟩
    have hadded := congrArg (Option.map fun data => data.2.1) (hsame key)
    rw [Option.map_map, Option.map_map] at hadded
    exact absurd (hfirst.symm.trans (hadded.trans hnone)) (by simp)
  · rintro ⟨hsame, -⟩
    rw [hsame key, hnone] at hagain
    exact absurd hagain (by simp)

end NewSymbol
end OdooSemantic
