import OdooSemantic.Indexer.WriterNeo4j
import OdooSemantic.Lib.Folds

/-!
# The `Model` table under `_write_parse_result`

Three statements merge `Model` nodes: the declaration, and the two that plant a placeholder
for a missing parent or delegate. Only the latter look at the graph, and all they look at is
which models of a name are there without the `unresolved` mark. So the table is read here in
two layers.

*Flags* (`modelFlag`): whether a node is there and whether it is marked. A flag is decided when
the node is created and by nothing afterwards, and what a statement does to the flags depends
on the flags alone.

*Merges* (`modelMerges`): for one key, the list of merges a run sends to it. The node a run
leaves is that list folded over the node it found, and two facts about the fold are all that
replaying needs: merging a list twice is merging it once, and a placeholder merge changes
nothing on a node that this run has already merged.
-/

namespace OdooSemantic

open KeyedStore CodeStmt

/-! ## Flags -/

namespace Graph

/-- `none`: no such node; otherwise its `unresolved` mark. -/
def modelFlag (g : Graph) (k : ModelKey) : Option Bool := (g.models.lookup k).map (·.unresolved)

/-- The two graphs hold the same `Model` nodes, marked alike. -/
def SameFlags (g h : Graph) : Prop := ∀ k, g.modelFlag k = h.modelFlag k

/-- Every unmarked `Model` node of `g` is one of `h`. -/
def Below (g h : Graph) : Prop := ∀ k, g.modelFlag k = some false → h.modelFlag k = some false

variable {g h : Graph}

theorem SameFlags.symm (hs : SameFlags g h) : SameFlags h g := fun k => (hs k).symm

theorem SameFlags.trans {i : Graph} (h1 : SameFlags g h) (h2 : SameFlags h i) : SameFlags g i :=
  fun k => (h1 k).trans (h2 k)

theorem mem_models_iff {k : ModelKey} : k ∈ g.models ↔ ∃ b, g.modelFlag k = some b := by
  rw [← AList.lookup_isSome, modelFlag, Option.isSome_iff_exists]
  constructor
  · rintro ⟨p, hp⟩
    exact ⟨p.unresolved, by simp [hp]⟩
  · rintro ⟨b, hb⟩
    obtain ⟨p, hp, -⟩ := Option.map_eq_some_iff.mp hb
    exact ⟨p, hp⟩

theorem modelFlag_eq_none {k : ModelKey} : g.modelFlag k = none ↔ k ∉ g.models := by
  rw [modelFlag, Option.map_eq_none_iff, AList.lookup_eq_none]

theorem mem_modelsNamed {n v : String} {k : ModelKey} :
    k ∈ g.modelsNamed n v ↔ k ∈ g.models ∧ k.name = n ∧ k.odooVersion = v := by
  simp [modelsNamed, AList.mem_keys]

theorem mem_resolvedModels {n v : String} {k : ModelKey} :
    k ∈ g.resolvedModels n v ↔ g.modelFlag k = some false ∧ k.name = n ∧ k.odooVersion = v := by
  rw [resolvedModels, List.mem_filter, mem_modelsNamed, modelFlag, modelUnresolved,
    ← AList.lookup_isSome]
  cases g.models.lookup k <;> simp [and_comm]

theorem resolvedModels_eq_nil {n v : String} :
    g.resolvedModels n v = [] ↔
      ∀ k : ModelKey, k.name = n → k.odooVersion = v → g.modelFlag k ≠ some false := by
  rw [List.eq_nil_iff_forall_not_mem]
  simp only [mem_resolvedModels]
  grind

/-- Which targets a name has is a matter of the flags. -/
theorem SameFlags.resolvedModels_eq_nil (hs : SameFlags g h) (n v : String) :
    g.resolvedModels n v = [] ↔ h.resolvedModels n v = [] := by
  rw [Graph.resolvedModels_eq_nil, Graph.resolvedModels_eq_nil]
  simp only [hs _]

theorem SameFlags.mem_resolvedModels (hs : SameFlags g h) {n v : String} {k : ModelKey} :
    k ∈ g.resolvedModels n v ↔ k ∈ h.resolvedModels n v := by
  rw [Graph.mem_resolvedModels, Graph.mem_resolvedModels, hs k]

end Graph

/-! ## Merges -/

/-- How a statement merges a `Model` node: as its declaration, or as a placeholder. -/
inductive ModelMerge where
  | write (m : ModelInfo)
  | stub

namespace ModelMerge

def apply (ps : List String) : ModelMerge → Option ModelProps → ModelProps
  | write m => ModelProps.write ps m
  | stub => ModelProps.stub ps

/-- The mark the merge gives a node it creates. -/
def flag : ModelMerge → Bool
  | write _ => false
  | stub => true

def isWrite : ModelMerge → Bool
  | write _ => true
  | stub => false

/-- The properties a node created by this merge could have had before it. -/
def blank : ModelMerge → ModelProps
  | write _ => {}
  | stub => { isDefinition := some false, unresolved := true }

theorem unresolved_apply (ps : List String) (t : ModelMerge) (o : Option ModelProps) :
    (t.apply ps o).unresolved = (o.map (·.unresolved)).getD t.flag := by
  cases t <;> cases o <;> rfl

/-- Creating a node is merging into the blank one. -/
theorem apply_none (ps : List String) (t : ModelMerge) :
    t.apply ps none = t.apply ps (some t.blank) := by
  cases t <;> simp [apply, blank, ModelProps.write, ModelProps.stub, unionProfile]

end ModelMerge

/-- The `Model` node a statement merges in `g`, and how. -/
def CodeStmt.modelMerge (g : Graph) : CodeStmt → Option (ModelKey × ModelMerge)
  | mergeModel m => some (m.key, .write m)
  | inheritParent m parent _ =>
      if g.resolvedModels parent m.odooVersion = [] then
        some (stubModel parent m.odooVersion, .stub) else none
  | delegateTo m delegated _ =>
      if g.resolvedModels delegated m.odooVersion = [] then
        some (stubModel delegated m.odooVersion, .stub) else none
  | _ => none

/-- Only placeholders are created marked, and they have a module of their own. -/
theorem module_of_modelMerge {g : Graph} {st : CodeStmt} {kt : ModelKey × ModelMerge}
    (hm : st.modelMerge g = some kt) (hf : kt.2.flag = true) : kt.1.module = unresolvedModule := by
  cases st with
  | mergeModel m =>
    obtain rfl := Option.some.inj hm
    exact absurd hf (by simp [ModelMerge.flag])
  | inheritParent m parent order =>
    simp only [modelMerge] at hm
    split at hm
    · obtain rfl := Option.some.inj hm
      rfl
    · exact absurd hm (by simp)
  | delegateTo m delegated via =>
    simp only [modelMerge] at hm
    split at hm
    · obtain rfl := Option.some.inj hm
      rfl
    · exact absurd hm (by simp)
  | _ => exact absurd hm (by simp [modelMerge])

theorem models_exec (ps : List String) (g : Graph) (st : CodeStmt) :
    (exec ps g st).models =
      match st.modelMerge g with
      | some (k, t) => upsert k (t.apply ps) g.models
      | none => g.models := by
  cases st with
  | inheritParent m parent order =>
    by_cases h : g.resolvedModels parent m.odooVersion = [] <;>
      simp [exec, modelMerge, h, ModelMerge.apply]
  | delegateTo m delegated via =>
    by_cases h : g.resolvedModels delegated m.odooVersion = [] <;>
      simp [exec, modelMerge, h, ModelMerge.apply]
  | _ => rfl

theorem lookup_models_exec (ps : List String) (g : Graph) (st : CodeStmt) (k : ModelKey) :
    (exec ps g st).models.lookup k =
      match st.modelMerge g with
      | some (k', t) => if k = k' then some (t.apply ps (g.models.lookup k)) else g.models.lookup k
      | none => g.models.lookup k := by
  rw [models_exec]
  cases st.modelMerge g with
  | none => rfl
  | some kt =>
    simp only [lookup_upsert]
    by_cases h : k = kt.1
    · subst h
      simp
    · simp [h]

/-- What a statement merges depends on the flags alone. -/
theorem Graph.SameFlags.modelMerge {g h : Graph} (hs : g.SameFlags h) (st : CodeStmt) :
    st.modelMerge g = st.modelMerge h := by
  cases st <;> simp only [CodeStmt.modelMerge, hs.resolvedModels_eq_nil]

/-! ## Flags under a run -/

theorem modelFlag_exec (ps : List String) (g : Graph) (st : CodeStmt) (k : ModelKey) :
    (exec ps g st).modelFlag k =
      match st.modelMerge g with
      | some (k', t) => if k = k' then some ((g.modelFlag k).getD t.flag) else g.modelFlag k
      | none => g.modelFlag k := by
  unfold Graph.modelFlag
  rw [lookup_models_exec]
  cases st.modelMerge g with
  | none => rfl
  | some kt =>
    by_cases h : k = kt.1
    · simp [h, ModelMerge.unresolved_apply]
    · simp [h]

/-- A node that is there keeps its mark, or its being unmarked. -/
theorem modelFlag_exec_of_some {ps : List String} {g : Graph} {st : CodeStmt} {k : ModelKey}
    {b : Bool} (h : g.modelFlag k = some b) : (exec ps g st).modelFlag k = some b := by
  rw [modelFlag_exec]
  cases st.modelMerge g with
  | none => exact h
  | some kt => simp [h]

theorem modelFlag_execAll_of_some {ps : List String} {ss : List CodeStmt} {g : Graph} {k : ModelKey}
    {b : Bool} (h : g.modelFlag k = some b) : (execAll ps ss g).modelFlag k = some b := by
  induction ss generalizing g with
  | nil => exact h
  | cons st ss ih => exact ih (modelFlag_exec_of_some h)

theorem Graph.SameFlags.exec {g h : Graph} (hs : g.SameFlags h) (ps qs : List String)
    (st : CodeStmt) : (CodeStmt.exec ps g st).SameFlags (CodeStmt.exec qs h st) := by
  intro k
  rw [modelFlag_exec, modelFlag_exec, hs.modelMerge, hs k]

theorem Graph.SameFlags.execAll {g h : Graph} (hs : g.SameFlags h) (ps qs : List String)
    (ss : List CodeStmt) : (CodeStmt.execAll ps ss g).SameFlags (CodeStmt.execAll qs ss h) := by
  induction ss generalizing g h with
  | nil => exact hs
  | cons st ss ih => exact ih (hs.exec ps qs st)

/-- A merge a run sends is one that some statement of it sends, in the graph it finds. -/
theorem exists_merge_of_mem_execAll {ps : List String} {ss : List CodeStmt} {g : Graph}
    {k : ModelKey} (hk : k ∈ (execAll ps ss g).models) (hno : k ∉ g.models) :
    ∃ pre st post t, ss = pre ++ st :: post ∧ k ∉ (execAll ps pre g).models ∧
      st.modelMerge (execAll ps pre g) = some (k, t) := by
  induction ss generalizing g with
  | nil => exact absurd hk hno
  | cons st ss ih =>
    by_cases h : k ∈ (exec ps g st).models
    · refine ⟨[], st, ss, ?_⟩
      have hflag := modelFlag_exec ps g st k
      cases hm : st.modelMerge g with
      | none =>
        rw [hm] at hflag
        rw [Graph.mem_models_iff, hflag, ← Graph.mem_models_iff] at h
        exact absurd h hno
      | some kt =>
        rw [hm] at hflag
        by_cases hkt : k = kt.1
        · exact ⟨kt.2, rfl, hno, by rw [hkt]; exact hm⟩
        · simp only [hkt, if_false] at hflag
          rw [Graph.mem_models_iff, hflag, ← Graph.mem_models_iff] at h
          exact absurd h hno
    · obtain ⟨pre, st', post, t, rfl, hn, hm⟩ := ih hk h
      exact ⟨st :: pre, st', post, t, rfl, hn, hm⟩

/-- What is missing in a graph is missing in every graph below it, so a merge sent in the one
    is sent in the other. -/
theorem Graph.Below.modelMerge {g h : Graph} (hle : g.Below h) {st : CodeStmt} {k : ModelKey}
    {t : ModelMerge} (hm : st.modelMerge h = some (k, t)) : st.modelMerge g = some (k, t) := by
  have hnil : ∀ n v, h.resolvedModels n v = [] → g.resolvedModels n v = [] := by
    intro n v hn
    rw [Graph.resolvedModels_eq_nil] at hn ⊢
    exact fun k' h1 h2 h3 => hn k' h1 h2 (hle k' h3)
  cases st with
  | mergeModel m => exact hm
  | inheritParent m parent order =>
    simp only [CodeStmt.modelMerge] at hm ⊢
    split at hm
    · rename_i hn
      rw [if_pos (hnil _ _ hn)]
      exact hm
    · exact absurd hm (by simp)
  | delegateTo m delegated via =>
    simp only [CodeStmt.modelMerge] at hm ⊢
    split at hm
    · rename_i hn
      rw [if_pos (hnil _ _ hn)]
      exact hm
    · exact absurd hm (by simp)
  | _ => exact absurd hm (by simp [CodeStmt.modelMerge])

theorem below_execAll (ps : List String) (ss : List CodeStmt) (g : Graph) :
    g.Below (execAll ps ss g) := fun _ hk => modelFlag_execAll_of_some hk

/-- **A second pass creates no node and changes no mark**, at any point of it. -/
theorem sameFlags_secondPass (ps : List String) (pre post : List CodeStmt) (g : Graph) :
    (execAll ps pre (execAll ps (pre ++ post) g)).SameFlags (execAll ps (pre ++ post) g) := by
  suffices h : ∀ us vs, pre ++ post = us ++ vs →
      (execAll ps us (execAll ps (pre ++ post) g)).SameFlags (execAll ps (pre ++ post) g) from
    h pre post rfl
  intro us
  induction us using List.reverseRecOn with
  | nil => exact fun _ _ _ => rfl
  | append_singleton us st ih =>
    intro vs hsplit
    have hus := ih (st :: vs) (by rw [hsplit]; simp)
    rw [execAll_append]
    intro k
    rw [execAll_cons, execAll_nil, modelFlag_exec]
    cases hm : st.modelMerge (execAll ps us (execAll ps (pre ++ post) g)) with
    | none => exact hus k
    | some kt =>
      obtain ⟨k', t⟩ := kt
      by_cases hk : k = k'
      · subst hk
        have hle : (execAll ps us g).Below (execAll ps us (execAll ps (pre ++ post) g)) := by
          intro k' hk'
          rw [hus k', hsplit, List.append_assoc, execAll_append]
          exact below_execAll ps _ _ k' hk'
        -- the first pass has merged `k` at this statement, so the node is there already
        have hfirst : (exec ps (execAll ps us g) st).modelFlag k =
            some (((execAll ps us g).modelFlag k).getD t.flag) := by
          rw [modelFlag_exec, hle.modelMerge hm]
          simp
        have hthere : (execAll ps (pre ++ post) g).modelFlag k =
            some (((execAll ps us g).modelFlag k).getD t.flag) := by
          rw [hsplit, List.append_assoc, execAll_append, List.singleton_append, execAll_cons]
          exact modelFlag_execAll_of_some hfirst
        simp [hus k, hthere]
      · simp only [hk, if_false]
        exact hus k

/-! ## The merges one node gets -/

/-- The merges a run sends to one `Model` node, in order. -/
def modelMerges (ps : List String) (k : ModelKey) : List CodeStmt → Graph → List ModelMerge
  | [], _ => []
  | st :: ss, g =>
      (match st.modelMerge g with
        | some (k', t) => if k = k' then [t] else []
        | none => []) ++ modelMerges ps k ss (exec ps g st)

/-- Fold a list of merges over a node, or over its absence. -/
def applyMerges (ps : List String) (ts : List ModelMerge) (o : Option ModelProps) :
    Option ModelProps := ts.foldl (fun o t => some (t.apply ps o)) o

theorem lookup_models_execAll (ps : List String) (k : ModelKey) (ss : List CodeStmt) (g : Graph) :
    (execAll ps ss g).models.lookup k =
      applyMerges ps (modelMerges ps k ss g) (g.models.lookup k) := by
  induction ss generalizing g with
  | nil => rfl
  | cons st ss ih =>
    rw [execAll_cons, ih, modelMerges, applyMerges, applyMerges, List.foldl_append,
      lookup_models_exec]
    cases st.modelMerge g with
    | none => rfl
    | some kt => by_cases h : k = kt.1 <;> simp [h]

/-- The merges of a node, too, depend on the flags alone. -/
theorem Graph.SameFlags.modelMerges {g h : Graph} (hs : g.SameFlags h) (ps qs : List String)
    (k : ModelKey) (ss : List CodeStmt) :
    OdooSemantic.modelMerges ps k ss g = OdooSemantic.modelMerges qs k ss h := by
  induction ss generalizing g h with
  | nil => rfl
  | cons st ss ih =>
    rw [OdooSemantic.modelMerges, OdooSemantic.modelMerges, hs.modelMerge, ih (hs.exec ps qs st)]

/-- The declarations among the merges are read off the statements. -/
theorem filter_modelMerges (ps qs : List String) (k : ModelKey) (ss : List CodeStmt)
    (g h : Graph) :
    (modelMerges ps k ss g).filter (·.isWrite) = (modelMerges qs k ss h).filter (·.isWrite) := by
  have hstub : ∀ (c d : Prop) [Decidable c] [Decidable d] (k' : ModelKey),
      (match if c then some (k', ModelMerge.stub) else none with
        | some (k', t) => if k = k' then [t] else []
        | none => []).filter ModelMerge.isWrite =
      (match if d then some (k', ModelMerge.stub) else none with
        | some (k', t) => if k = k' then [t] else []
        | none => []).filter ModelMerge.isWrite := by
    intro c d _ _ k'
    by_cases hc : c <;> by_cases hd : d <;> by_cases hk : k = k' <;>
      simp [hc, hd, hk, ModelMerge.isWrite]
  induction ss generalizing g h with
  | nil => rfl
  | cons st ss ih =>
    rw [modelMerges, modelMerges, List.filter_append, List.filter_append, ih (exec ps g st)]
    congr 1
    cases st with
    | inheritParent m parent order => exact hstub _ _ _
    | delegateTo m delegated via => exact hstub _ _ _
    | _ => rfl

/-- A run that merges a node nowhere in `g` does so nowhere in a graph that stays above. -/
theorem modelMerges_eq_nil_of_below {ps : List String} {k : ModelKey} {ss : List CodeStmt}
    {g h : Graph} (hle : ∀ pre post, ss = pre ++ post →
      (execAll ps pre g).Below (execAll ps pre h)) (hnil : modelMerges ps k ss g = []) :
    modelMerges ps k ss h = [] := by
  induction ss generalizing g h with
  | nil => rfl
  | cons st ss ih =>
    rw [modelMerges, List.append_eq_nil_iff] at hnil ⊢
    constructor
    · cases hm : st.modelMerge h with
      | none => rfl
      | some kt =>
        have hg : st.modelMerge g = some (kt.1, kt.2) := (hle [] (st :: ss) rfl).modelMerge hm
        rw [hg] at hnil
        exact hnil.1
    · exact ih (fun pre post hsplit => hle (st :: pre) post (by rw [hsplit]; rfl)) hnil.2

/-! ## Merging a list twice -/

namespace ModelMerge

/-- A merge, on a node that is there. -/
def onNode (ps : List String) (t : ModelMerge) (p : ModelProps) : ModelProps :=
  t.apply ps (some p)

theorem unionProfile_unionProfile (o : Option (List String)) (ps : List String) :
    unionProfile (some (unionProfile o ps)) ps = unionProfile o ps := by
  simp [unionProfile, List.filter_append]

/-- A placeholder merge is lost on a node that has been merged with these profiles. -/
theorem stub_onNode (ps : List String) (t : ModelMerge) (p : ModelProps) :
    stub.onNode ps (t.onNode ps p) = t.onNode ps p := by
  cases t <;> simp [onNode, apply, ModelProps.write, ModelProps.stub, unionProfile_unionProfile]

theorem onNode_replayable (ps : List String) (ts : List ModelMerge) :
    Replay.Replayable (ts.map (onNode ps)) := by
  constructor
  · intro x hx p
    obtain ⟨t, -, rfl⟩ := List.mem_map.mp hx
    cases t with
    | stub => exact stub_onNode ps stub p
    | write m =>
      simp only [onNode, apply, ModelProps.write, unionProfile_unionProfile, Option.getD_some,
        Bool.or_assoc, Bool.or_self]
  · intro x hx f hf p p' he
    obtain ⟨t, -, rfl⟩ := List.mem_map.mp hx
    obtain ⟨u, -, rfl⟩ := List.mem_map.mp hf
    cases t with
    | stub =>
      simp only [onNode, apply, ModelProps.stub, ModelProps.mk.injEq] at he
      cases u <;>
        simp only [onNode, apply, ModelProps.stub, ModelProps.write, ModelProps.mk.injEq] <;>
        grind
    | write m =>
      simp only [onNode, apply, ModelProps.write, ModelProps.mk.injEq, Option.some.injEq] at he
      obtain ⟨-, -, h1, h2, h3, h4⟩ := he
      cases u with
      | stub =>
        simp only [onNode, apply, ModelProps.stub, ModelProps.write, unionProfile_unionProfile]
        simp [h1, h2, h3, h4]
      | write n =>
        simp only [onNode, apply, ModelProps.write, unionProfile_unionProfile, h3, h4,
          Option.getD_some, Bool.or_right_comm _ n.hadExplicitName m.hadExplicitName,
          Bool.or_right_comm _ n.defines m.defines, h1, h2]

end ModelMerge

open ModelMerge in
theorem applyMerges_some (ps : List String) (ts : List ModelMerge) (p : ModelProps) :
    applyMerges ps ts (some p) = some (Replay.run (ts.map (onNode ps)) p) := by
  induction ts generalizing p with
  | nil => rfl
  | cons t ts ih => exact ih (t.onNode ps p)

open ModelMerge in
/-- On a node this run has merged, only the declarations of a list of merges act. -/
theorem run_onNode_filter (ps : List String) (ts : List ModelMerge) {p : ModelProps}
    (hp : stub.onNode ps p = p) :
    Replay.run (ts.map (onNode ps)) p =
      Replay.run ((ts.filter (·.isWrite)).map (onNode ps)) p := by
  induction ts generalizing p with
  | nil => rfl
  | cons t ts ih =>
    cases t with
    | stub => rw [List.map_cons, Replay.run_cons, hp]; exact ih hp
    | write m =>
      rw [List.map_cons, Replay.run_cons, ih (stub_onNode ps (write m) p)]
      rfl

open ModelMerge in
/-- A nonempty list of merges leaves a node that is there, and that a placeholder merge with
    the same profiles leaves alone. -/
theorem applyMerges_ne_nil (ps : List String) {ts : List ModelMerge} (hts : ts ≠ [])
    (o : Option ModelProps) : ∃ q, applyMerges ps ts o = some (Replay.run (ts.map (onNode ps)) q) ∧
      stub.onNode ps (Replay.run (ts.map (onNode ps)) q) = Replay.run (ts.map (onNode ps)) q := by
  have hlast : ∀ q, stub.onNode ps (Replay.run (ts.map (onNode ps)) q) =
      Replay.run (ts.map (onNode ps)) q := by
    intro q
    obtain ⟨init, last, rfl⟩ : ∃ init last, ts = init ++ [last] :=
      ⟨_, _, (List.dropLast_append_getLast hts).symm⟩
    rw [List.map_append, Replay.run_append]
    exact stub_onNode ps last _
  cases o with
  | some q => exact ⟨q, applyMerges_some ps ts q, hlast q⟩
  | none =>
    cases ts with
    | nil => exact absurd rfl hts
    | cons t ts =>
      refine ⟨t.blank, ?_, hlast _⟩
      rw [applyMerges, List.foldl_cons, apply_none]
      exact applyMerges_some ps ts _

open ModelMerge in
/-- **A second pass leaves every `Model` node as the first one did.** -/
theorem lookup_models_secondPass (ps : List String) (ss : List CodeStmt) (g : Graph)
    (k : ModelKey) :
    (execAll ps ss (execAll ps ss g)).models.lookup k = (execAll ps ss g).models.lookup k := by
  set g1 := execAll ps ss g with hg1
  have hlookup : g1.models.lookup k = applyMerges ps (modelMerges ps k ss g) (g.models.lookup k) :=
    lookup_models_execAll ps k ss g
  rw [lookup_models_execAll]
  by_cases hnil : modelMerges ps k ss g = []
  · rw [modelMerges_eq_nil_of_below ?_ hnil]
    · rfl
    · intro pre post hsplit k' hk'
      have hback : (execAll ps pre g1).modelFlag k' = g1.modelFlag k' := by
        rw [hg1, hsplit]
        exact sameFlags_secondPass ps pre post g k'
      rw [hback, hg1, hsplit, execAll_append]
      exact below_execAll ps post _ k' hk'
  · obtain ⟨q, hq, hfix⟩ := applyMerges_ne_nil ps hnil (g.models.lookup k)
    rw [hlookup, hq, applyMerges_some, run_onNode_filter ps _ hfix,
      filter_modelMerges ps ps k ss g1 g, ← run_onNode_filter ps _ hfix,
      (onNode_replayable ps _).run_run fun u hu => hu]

end OdooSemantic
