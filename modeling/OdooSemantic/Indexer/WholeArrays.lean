import OdooSemantic.Indexer.ProfileArrays
import OdooSemantic.Indexer.WriterCalls

/-!
# Whole arrays, and who fills them

An array is *whole* when it is not null, not empty, and names no profile twice. Every statement
that sets one sets a whole one, if its own profile list is without repeats; the bare `MERGE`s
of a `Module` set none, and are harmless when the module is there already
(`Graph.Whole.exec`).

The names in an array come with the statements that merge the node. Some merges come with the
statement whatever is in the graph: a declaration, a dependency, the module of a stylesheet.
Others come only when the statement finds nothing to link to (`Stmt.Brings`), and those are
why the array of a placeholder can tell in which order things were written.
-/

namespace OdooSemantic

open KeyedStore FlaggedEdges XmlStore

/-! ## Nodes and their arrays -/

/-- A node with a profile array. -/
inductive ProfileNode where
  | ref (r : NodeRef)
  | stylesheet (k : StylesheetKey)
deriving DecidableEq

/-- The arrays of the nodes by that name: one for a keyed label, one a node for an XML label. -/
def Graph.arrays (g : Graph) : ProfileNode → List (Option (List String))
  | .ref (.module k) => (g.modules.lookup k).toList.map ModuleProps.profile
  | .ref (.model k) => (g.models.lookup k).toList.map ModelProps.profile
  | .ref (.field k) => (g.fields.lookup k).toList.map FieldProps.profile
  | .ref (.method k) => (g.methods.lookup k).toList.map MethodProps.profile
  | .ref (.comp k) => (g.owlComps.lookup k).toList.map OWLCompProps.profile
  | .ref (.patch k) => (g.jsPatches.lookup k).toList.map JSPatchProps.profile
  | .ref (.view xmlid ver) => (g.views.matching xmlid ver).map XmlNode.profile
  | .ref (.qweb xmlid ver) => (g.qwebs.matching xmlid ver).map XmlNode.profile
  | .stylesheet k => (g.stylesheets.lookup k).toList.map StylesheetProps.profile

/-- The names in the arrays of a node. -/
def Graph.names (g : Graph) (n : ProfileNode) : List String := (g.arrays n).flatMap (·.getD [])

theorem names_ref (g : Graph) (r : NodeRef) : g.names (.ref r) = g.profiles r := by
  have hkeyed : ∀ {V : Type} (profile : V → Option (List String)) (o : Option V),
      (o.toList.map profile).flatMap (·.getD []) = profilesOf profile o := by
    intro V profile o
    cases o <;> simp [profilesOf]
  have hxml : ∀ {P : Type} (ns : List (XmlNode P)),
      (ns.map XmlNode.profile).flatMap (·.getD []) = ns.flatMap fun n => n.profile.getD [] := by
    intro P ns
    rw [List.flatMap_map]
  cases r with
  | view xmlid ver => exact hxml _
  | qweb xmlid ver => exact hxml _
  | _ => exact hkeyed _ _

/-! ## Whole arrays -/

/-- Not null, not empty, and no name twice. -/
def Whole (a : Option (List String)) : Prop := ∃ l, a = some l ∧ l ≠ [] ∧ l.Nodup

/-- `[x IN coalesce(n.profile, []) WHERE NOT x IN $profiles] + $profiles` is whole, if the
    profiles are and the array was where there was one. -/
theorem whole_unionProfile {ps : List String} (hps : ps ≠ [] ∧ ps.Nodup) {o : Option (List String)}
    (ho : ∀ l, o = some l → l.Nodup) : Whole (some (unionProfile o ps)) := by
  refine ⟨_, rfl, ?_, ?_⟩
  · exact List.append_ne_nil_of_right_ne_nil _ hps.1
  · unfold unionProfile
    refine List.Nodup.append ?_ hps.2 ?_
    · refine List.Nodup.filter _ ?_
      cases o with
      | none => exact List.nodup_nil
      | some l => exact ho l rfl
    · intro x hx
      simpa using (List.mem_filter.mp hx).2

/-- The record of a keyed table, where there is one, has a whole array. -/
def WholeRecord {V : Type} (profile : V → Option (List String)) (o : Option V) : Prop :=
  ∀ v, o = some v → Whole (profile v)

theorem WholeRecord.nodup {V : Type} {profile : V → Option (List String)} {o : Option V}
    (h : WholeRecord profile o) : ∀ l, o.bind profile = some l → l.Nodup := by
  intro l hl
  cases o with
  | none => exact absurd hl (by simp)
  | some v =>
    obtain ⟨l', hl', -, hnodup⟩ := h v rfl
    obtain rfl : l' = l := Option.some.inj (hl'.symm.trans hl)
    exact hnodup

/-- A table all of whose records have whole arrays. -/
def WholeTable {K V : Type} [DecidableEq K] (profile : V → Option (List String))
    (t : Store K V) : Prop :=
  ∀ k, WholeRecord profile (t.lookup k)

section Tables

variable {K V : Type} [DecidableEq K] {profile : V → Option (List String)} {t : Store K V}

theorem WholeTable.upsert (h : WholeTable profile t) {k : K} {f : Option V → V}
    (hf : Whole (profile (f (t.lookup k)))) : WholeTable profile (upsert k f t) := by
  intro k' v hv
  rw [lookup_upsert] at hv
  split at hv
  · rw [← Option.some.inj hv]
    exact hf
  · exact h k' v hv

/-- A merge that takes the union. -/
theorem WholeTable.union (h : WholeTable profile t) {ps : List String}
    (hps : ps ≠ [] ∧ ps.Nodup) {k : K} {f : Option V → V}
    (hf : ∀ o, profile (f o) = some (unionProfile (o.bind profile) ps)) :
    WholeTable profile (KeyedStore.upsert k f t) := by
  refine h.upsert ?_
  rw [hf]
  exact whole_unionProfile hps (h k).nodup

end Tables

/-- A bare `MERGE` of a module that is there. -/
theorem WholeTable.touch {t : Store ModuleKey ModuleProps} (h : WholeTable ModuleProps.profile t)
    {k : ModuleKey} (hk : k ∈ t) : WholeTable ModuleProps.profile (touchModule k t) := by
  refine h.upsert ?_
  obtain ⟨v, hv⟩ := Option.isSome_iff_exists.mp (AList.lookup_isSome.mpr hk)
  rw [hv]
  exact h k v hv

/-- An XML store all of whose nodes have whole arrays. -/
def WholeStore {P : Type} (s : XmlStore P) : Prop := ∀ n ∈ s.nodes, Whole n.profile

/-- A node of a list that was merged into is new, or matched, or as it was. -/
theorem whole_of_mem_mergeWhere {P : Type} {p : XmlNode P → Prop} [DecidablePred p]
    {create : Nat → XmlNode P} {onMatch : XmlNode P → XmlNode P} {ns : List (XmlNode P)}
    {n : XmlNode P} (hn : n ∈ mergeWhere p create onMatch ns)
    (hcreate : ∀ i, Whole (create i).profile)
    (hmatch : ∀ m, Whole m.profile → Whole (onMatch m).profile) (h : ∀ m ∈ ns, Whole m.profile) :
    Whole n.profile := by
  unfold mergeWhere at hn
  split at hn
  · obtain ⟨m, hm, rfl⟩ := List.mem_map.mp hn
    split
    · exact hmatch m (h m hm)
    · exact h m hm
  · cases List.mem_append.mp hn with
    | inl hold => exact h n hold
    | inr hnew => exact List.mem_singleton.mp hnew ▸ hcreate _

section XmlStores

variable {P : Type} {s : XmlStore P} {ps : List String}

theorem whole_union_of_whole (hps : ps ≠ [] ∧ ps.Nodup) {o : Option (List String)} (h : Whole o) :
    Whole (some (unionProfile o ps)) := by
  refine whole_unionProfile hps fun l hl => ?_
  obtain ⟨l', hl', -, hnodup⟩ := h
  obtain rfl : l' = l := Option.some.inj (hl'.symm.trans hl)
  exact hnodup

theorem WholeStore.declare (h : WholeStore s) (hps : ps ≠ [] ∧ ps.Nodup) (x v m : String) (pr : P) :
    WholeStore (s.declare ps x v m pr) := by
  intro n hn
  simp only [XmlStore.declare] at hn
  refine whole_of_mem_mergeWhere hn ?_ ?_ h
  · intro i
    exact ⟨ps, rfl, hps⟩
  · intro n' hn'
    exact whole_union_of_whole hps hn'

theorem WholeStore.inherit (h : WholeStore s) (hps : ps ≠ [] ∧ ps.Nodup) (x v b : String) :
    WholeStore (s.inherit ps x v b) := by
  unfold XmlStore.inherit
  dsimp only
  split
  · exact h
  · intro n hn
    simp only [mergeStubNode] at hn
    refine whole_of_mem_mergeWhere hn ?_ ?_ h
    · intro i
      exact ⟨ps, rfl, hps⟩
    · intro n' hn'
      exact whole_union_of_whole hps hn'

end XmlStores

/-- Every node of the graph has a whole array. -/
structure Graph.Whole (g : Graph) : Prop where
  modules : WholeTable ModuleProps.profile g.modules
  models : WholeTable ModelProps.profile g.models
  fields : WholeTable FieldProps.profile g.fields
  methods : WholeTable MethodProps.profile g.methods
  views : WholeStore g.views
  qwebs : WholeStore g.qwebs
  comps : WholeTable OWLCompProps.profile g.owlComps
  patches : WholeTable JSPatchProps.profile g.jsPatches
  stylesheets : WholeTable StylesheetProps.profile g.stylesheets

theorem Graph.whole_empty : ({} : Graph).Whole := by
  constructor <;> intro k hk <;> simp at *

theorem Graph.Whole.arrays {g : Graph} (h : g.Whole) (n : ProfileNode) :
    ∀ a ∈ g.arrays n, OdooSemantic.Whole a := by
  have hkeyed : ∀ {V : Type} {profile : V → Option (List String)} {o : Option V},
      WholeRecord profile o → ∀ a ∈ o.toList.map profile, OdooSemantic.Whole a := by
    intro V profile o ho a ha
    obtain ⟨v, hv, rfl⟩ := List.mem_map.mp ha
    exact ho v (Option.mem_toList.mp hv)
  have hxml : ∀ {P : Type} {s : XmlStore P} {x v : String}, WholeStore s →
      ∀ a ∈ (s.matching x v).map XmlNode.profile, OdooSemantic.Whole a := by
    intro P s x v hs a ha
    obtain ⟨n, hn, rfl⟩ := List.mem_map.mp ha
    exact hs n (List.mem_filter.mp hn).1
  cases n with
  | stylesheet k => exact hkeyed (h.stylesheets k)
  | ref r =>
    cases r with
    | module k => exact hkeyed (h.modules k)
    | model k => exact hkeyed (h.models k)
    | field k => exact hkeyed (h.fields k)
    | method k => exact hkeyed (h.methods k)
    | comp k => exact hkeyed (h.comps k)
    | patch k => exact hkeyed (h.patches k)
    | view xmlid ver => exact hxml h.views
    | qweb xmlid ver => exact hxml h.qwebs

/-! ## One statement -/

namespace Stmt

/-- `$profiles` -/
def profiles : Stmt → List String
  | code ps _ => ps
  | xml ps _ => ps
  | js ps _ => ps
  | stylesheet ps _ => ps
  | _ => []

/-- The nodes that a statement merges whatever is in the graph: it declares them, or makes or
    re-uses them as the stub of a dependency or as the module of a stylesheet. -/
def merges : Stmt → List ProfileNode
  | code _ st => st.tags.map .ref
  | xml _ st => st.tags.map .ref
  | js _ st => st.tags.map .ref
  | stylesheet _ s => .stylesheet s.key :: s.tags.map .ref
  | _ => []

/-- The nodes that a statement makes or re-uses as a stub if it finds nothing to link to. -/
def references : Stmt → List ProfileNode
  | code _ st => st.references.map .ref
  | xml _ st => st.references.map .ref
  | js _ st => st.references.map .ref
  | _ => []

/-- The modules that a statement merges without an array. -/
def hosts : Stmt → List ModuleKey
  | code _ (.mergeModel m) => [m.key.moduleKey]
  | xml _ (.viewDefinedIn v) => [⟨v.module, v.odooVersion⟩]
  | xml _ (.qwebDefinedIn q) => [⟨q.module, q.odooVersion⟩]
  | js _ (.mergeComp c) => [⟨c.module, c.odooVersion⟩]
  | js _ (.mergePatch p) => [⟨p.module, p.odooVersion⟩]
  | _ => []

/-- A statement of one of the four write methods. -/
def IsWrite : Stmt → Prop
  | gc _ _ _ => False
  | coreSymbol _ => False
  | _ => True

end Stmt

/-- There is nothing resolved by the name of the node. -/
def Graph.MissingNode (g : Graph) : ProfileNode → Prop
  | .ref r => g.Missing r
  | .stylesheet _ => False

/-- The statement brings its profiles to the node: it merges it, or it refers to it and finds
    nothing to link to. -/
def Stmt.Brings (g : Graph) (s : Stmt) (n : ProfileNode) : Prop :=
  n ∈ s.merges ∨ (n ∈ s.references ∧ g.MissingNode n)

theorem mem_map_ref {rs : List NodeRef} {r : NodeRef} :
    ProfileNode.ref r ∈ rs.map ProfileNode.ref ↔ r ∈ rs := by simp

/-- **What a statement does to the names of a node.** -/
theorem Stmt.mem_names_exec {s : Stmt} (hs : s.IsWrite) (g : Graph) (n : ProfileNode) (p : String) :
    p ∈ (s.exec g).names n ↔ p ∈ g.names n ∨ (s.Brings g n ∧ p ∈ s.profiles) := by
  unfold Brings
  cases n with
  | ref r =>
    rw [names_ref, names_ref]
    cases s with
    | code ps st =>
      rw [merges, references, mem_map_ref, mem_map_ref]
      exact CodeStmt.mem_profiles_exec_iff g st
    | xml ps st =>
      rw [merges, references, mem_map_ref, mem_map_ref]
      exact XmlStmt.mem_profiles_exec_iff g st
    | js ps st =>
      rw [merges, references, mem_map_ref, mem_map_ref]
      exact JsStmt.mem_profiles_exec_iff g st
    | stylesheet ps s =>
      refine (mem_profiles_writeStylesheet g s).trans ?_
      simp [merges, references, profiles]
    | gc repo version livePaths => exact absurd hs not_false
    | coreSymbol s => exact absurd hs not_false
  | stylesheet k =>
    cases s with
    | code ps st =>
      have hsame : (exec g (.code ps st)).stylesheets = g.stylesheets := by
        cases st <;> simp only [exec, CodeStmt.exec]
        all_goals first | rfl | (split <;> rfl)
      simp [Graph.names, Graph.arrays, hsame, merges, references]
    | xml ps st =>
      have hsame : (exec g (.xml ps st)).stylesheets = g.stylesheets := by
        cases st <;> rfl
      simp [Graph.names, Graph.arrays, hsame, merges, references]
    | js ps st =>
      have hsame : (exec g (.js ps st)).stylesheets = g.stylesheets := by
        cases st <;> simp only [exec, JsStmt.exec]
        split
        all_goals rfl
      simp [Graph.names, Graph.arrays, hsame, merges, references]
    | stylesheet ps s =>
      have hsame : (exec g (.stylesheet ps s)).stylesheets =
          upsert s.key (StylesheetProps.write ps s) g.stylesheets :=
        foldl_eq_of_exec_eq Graph.stylesheets (by intro g target; rfl) s.imports
          (mergeStylesheet ps s g)
      have htags : Tags StylesheetProps.profile ps (StylesheetProps.write ps s) :=
        .of_union fun _ => rfl
      have hnames : ∀ (g : Graph), g.names (.stylesheet k) =
          profilesOf StylesheetProps.profile (g.stylesheets.lookup k) := by
        intro g
        cases hl : g.stylesheets.lookup k <;> simp [Graph.names, Graph.arrays, profilesOf, hl]
      rw [hnames, hnames, hsame, mem_profilesOf_upsert htags]
      simp [merges, references, profiles]
    | gc repo version livePaths => exact absurd hs not_false
    | coreSymbol s => exact absurd hs not_false

/-- **A statement keeps all arrays whole**, when its bare merges are of modules that are there. -/
theorem Graph.Whole.exec {g : Graph} (h : g.Whole) {s : Stmt} (hs : s.IsWrite)
    (hps : s.profiles ≠ [] ∧ s.profiles.Nodup) (hhosts : ∀ k ∈ s.hosts, k ∈ g.modules) :
    (s.exec g).Whole := by
  cases s with
  | code ps st =>
    cases st with
    | mergeModule m => exact { h with modules := h.modules.union hps (by intro o; rfl) }
    | mergeDependency m dep => exact { h with modules := h.modules.union hps (by intro o; rfl) }
    | mergeModel m =>
      exact { h with
        modules := h.modules.touch (hhosts _ (List.mem_singleton_self _))
        models := h.models.union hps (profile_modelWrite ps m) }
    | extendSelf m order => exact { h with }
    | inheritParent m parent order =>
      simp only [Stmt.exec, CodeStmt.exec]
      split
      · exact { h with }
      · exact { h with models := h.models.union hps (profile_modelStub ps) }
    | delegateTo m delegated via =>
      simp only [Stmt.exec, CodeStmt.exec]
      split
      · exact { h with }
      · exact { h with models := h.models.union hps (profile_modelStub ps) }
    | mergeField m f => exact { h with fields := h.fields.union hps (by intro o; rfl) }
    | mergeMethod m f => exact { h with methods := h.methods.union hps (by intro o; rfl) }
    | useCoreSymbol mth ref => exact { h with }
  | xml ps st =>
    cases st with
    | mergeView v => exact { h with views := h.views.declare hps _ _ _ _ }
    | viewDefinedIn v =>
      exact { h with modules := h.modules.touch (hhosts _ (List.mem_singleton_self _)) }
    | targetModel v => exact { h with }
    | inheritView v base => exact { h with views := h.views.inherit hps _ _ _ }
    | mergeQWeb q => exact { h with qwebs := h.qwebs.declare hps _ _ _ _ }
    | qwebDefinedIn q =>
      exact { h with modules := h.modules.touch (hhosts _ (List.mem_singleton_self _)) }
    | inheritQWeb q base => exact { h with qwebs := h.qwebs.inherit hps _ _ _ }
  | js ps st =>
    cases st with
    | mergeComp c =>
      exact { h with
        modules := h.modules.touch (hhosts _ (List.mem_singleton_self _))
        comps := h.comps.union hps (by intro o; rfl) }
    | extendComp c parent => exact { h with }
    | bindComp c bound => exact { h with }
    | mergePatch q =>
      exact { h with
        modules := h.modules.touch (hhosts _ (List.mem_singleton_self _))
        patches := h.patches.union hps (by intro o; rfl) }
    | patchComp q =>
      simp only [Stmt.exec, JsStmt.exec]
      split
      · exact { h with }
      · exact { h with comps := h.comps.union hps (profile_compStub ps) }
  | stylesheet ps s =>
    have hmerge : (mergeStylesheet ps s g).Whole :=
      { h with
        modules := h.modules.union hps (by intro o; rfl)
        stylesheets := h.stylesheets.union hps (by intro o; rfl) }
    have himports : ∀ (targets : List String) (g : Graph), g.Whole →
        (targets.foldl (fun g target => importStylesheet s target g) g).Whole := by
      intro targets
      induction targets with
      | nil => exact fun g hg => hg
      | cons target targets ih => exact fun g hg => ih _ { hg with }
    exact himports s.imports _ hmerge
  | gc repo version livePaths => exact absurd hs not_false
  | coreSymbol s => exact absurd hs not_false

/-! ## A list of statements -/

/-- The profiles come to a node with the statements that bring them at their turn. -/
theorem Stmt.mem_names_execAll {ss : List Stmt} (hss : ∀ s ∈ ss, s.IsWrite) (g : Graph)
    (n : ProfileNode) (p : String) :
    p ∈ (execAll ss g).names n ↔ p ∈ g.names n ∨
      ∃ us s vs, ss = us ++ s :: vs ∧ s.Brings (execAll us g) n ∧ p ∈ s.profiles := by
  have hstep : ∀ s ∈ ss, ∀ g : Graph, True →
      (p ∈ (s.exec g).names n ↔ p ∈ g.names n ∨ (s.Brings g n ∧ p ∈ s.profiles)) :=
    fun s hs g _ => mem_names_exec (hss s hs) g n p
  exact foldl_iff_at (P := fun g => p ∈ Graph.names g n) (fun _ _ _ => trivial) hstep trivial

theorem Stmt.mem_modules_exec {s : Stmt} (hs : s.IsWrite) {g : Graph} {k : ModuleKey}
    (hk : k ∈ g.modules) : k ∈ (s.exec g).modules := by
  cases s with
  | code ps st =>
    cases st <;> simp only [exec, CodeStmt.exec, touchModule, mem_upsert]
    all_goals first
      | exact Or.inr hk
      | exact hk
      | (split <;> exact hk)
  | xml ps st =>
    cases st <;> simp only [exec, XmlStmt.exec, touchModule, mem_upsert]
    all_goals first
      | exact Or.inr hk
      | exact hk
  | js ps st =>
    cases st <;> simp only [exec, JsStmt.exec, touchModule, mem_upsert]
    all_goals first
      | exact Or.inr hk
      | exact hk
      | (split <;> exact hk)
  | stylesheet ps s =>
    have hsame : (exec g (.stylesheet ps s)).modules = (mergeStylesheet ps s g).modules :=
      foldl_eq_of_exec_eq Graph.modules (by intro g target; rfl) s.imports (mergeStylesheet ps s g)
    rw [hsame]
    exact mem_upsert.mpr (Or.inr hk)
  | gc repo version livePaths => exact absurd hs not_false
  | coreSymbol s => exact absurd hs not_false

theorem Stmt.mem_modules_execAll {ss : List Stmt} (hss : ∀ s ∈ ss, s.IsWrite) {g : Graph}
    {k : ModuleKey} (hk : k ∈ g.modules) : k ∈ (execAll ss g).modules := by
  induction ss generalizing g with
  | nil => exact hk
  | cons s ss ih =>
    exact ih (fun s' hs' => hss s' (List.mem_cons_of_mem _ hs'))
      (mem_modules_exec (hss s List.mem_cons_self) hk)

/-- Statements all of whose modules are there keep all arrays whole. -/
theorem Graph.Whole.execAll {ss : List Stmt} {g : Graph} (h : g.Whole)
    (hss : ∀ s ∈ ss, s.IsWrite ∧ s.profiles ≠ [] ∧ s.profiles.Nodup)
    (hhosts : ∀ s ∈ ss, ∀ k ∈ s.hosts, k ∈ g.modules) : (Stmt.execAll ss g).Whole := by
  induction ss generalizing g with
  | nil => exact h
  | cons s ss ih =>
    obtain ⟨hs, hps⟩ := hss s List.mem_cons_self
    refine ih (h.exec hs hps (hhosts s List.mem_cons_self))
      (fun s' hs' => hss s' (List.mem_cons_of_mem _ hs')) ?_
    intro s' hs' k hk
    exact Stmt.mem_modules_exec hs (hhosts s' (List.mem_cons_of_mem _ hs') k hk)

/-! ## One call -/

namespace WriterCall

theorem isWrite_of_mem_stmts {c : WriterCall} {s : Stmt} (h : s ∈ c.stmts) :
    s.IsWrite ∧ s.profiles = c.profiles := by
  cases c <;>
  · obtain ⟨st, -, rfl⟩ := List.mem_map.mp h
    exact ⟨trivial, rfl⟩

/-- The statements of a result merge without an array only the module that the first of them
    writes. -/
theorem hosts_parseResultStmts {ps : List String} {r : ParseResult}
    (hnamed : ∀ m ∈ r.models, m.key.moduleKey = r.module.key) {st : CodeStmt}
    (hst : st ∈ parseResultStmts r) {k : ModuleKey} (hk : k ∈ (Stmt.code ps st).hosts) :
    k = r.module.key := by
  cases st with
  | mergeModel m =>
    obtain rfl := List.mem_singleton.mp hk
    have hmem : (m.key.moduleKey, ModuleMerge.touch) ∈
        (parseResultStmts r).flatMap CodeStmt.moduleMerges :=
      List.mem_flatMap.mpr ⟨_, hst, List.mem_singleton_self _⟩
    rcases mem_moduleMerges_parseResult.mp hmem with ⟨-, ht⟩ | ⟨dep, -, -, ht⟩ | ⟨m', hm', he, -⟩
    · exact absurd ht (by simp)
    · exact absurd ht (by simp)
    · rw [he]
      exact hnamed m' hm'
  | _ => exact absurd hk (by simp [Stmt.hosts])

theorem whole_writeParseResult {g : Graph} (h : g.Whole) {ps : List String}
    (hps : ps ≠ [] ∧ ps.Nodup) {r : ParseResult}
    (hnamed : ∀ m ∈ r.models, m.key.moduleKey = r.module.key) : (writeParseResult ps r g).Whole := by
  have hexec : writeParseResult ps r g =
      Stmt.execAll ((parseResultStmts r).map (.code ps)) g := by
    rw [Stmt.execAll, List.foldl_map]
    rfl
  have hfirst : ((Stmt.code ps (.mergeModule r.module)).exec g).Whole :=
    h.exec trivial hps (by simp [Stmt.hosts])
  rw [hexec, parseResultStmts, List.cons_append, List.map_cons]
  refine hfirst.execAll ?_ ?_
  · intro s hs
    obtain ⟨st, -, rfl⟩ := List.mem_map.mp hs
    exact ⟨trivial, hps⟩
  · intro s hs k hk
    obtain ⟨st, hst, rfl⟩ := List.mem_map.mp hs
    rw [hosts_parseResultStmts hnamed (List.mem_cons_of_mem _ hst) hk]
    exact mem_upsert.mpr (Or.inl rfl)

theorem whole_writeResults {ps : List String} (hps : ps ≠ [] ∧ ps.Nodup)
    {results : List ParseResult}
    (hnamed : ∀ r ∈ results, ∀ m ∈ r.models, m.key.moduleKey = r.module.key) {g : Graph}
    (h : g.Whole) : (OdooSemantic.writeResults ps results g).Whole := by
  induction results generalizing g with
  | nil => exact h
  | cons r results ih =>
    exact ih (fun r' hr' => hnamed r' (List.mem_cons_of_mem _ hr'))
      (whole_writeParseResult h hps (hnamed r List.mem_cons_self))

/-- Beside the results, what a call merges without an array are its hosts. -/
theorem mem_hosts_of_mem_stmts {c : WriterCall} (hc : ∀ ps results, c ≠ .writeResults ps results)
    {s : Stmt} (hs : s ∈ c.stmts) {k : ModuleKey} (hk : k ∈ s.hosts) : k ∈ c.hosts := by
  cases c with
  | writeResults ps results => exact absurd rfl (hc ps results)
  | writeViewResults ps results =>
    obtain ⟨st, hst, rfl⟩ := List.mem_map.mp hs
    obtain ⟨r, hr, hst⟩ := List.mem_flatMap.mp hst
    have hmem : (k, ModuleMerge.touch) ∈ (viewParseResultStmts r).flatMap XmlStmt.moduleMerges := by
      refine List.mem_flatMap.mpr ⟨st, hst, ?_⟩
      cases st <;> simp_all [Stmt.hosts, XmlStmt.moduleMerges]
    refine List.mem_flatMap.mpr ⟨r, hr, ?_⟩
    rcases (mem_moduleMerges_viewParseResult hmem).2 with ⟨v, hv, rfl⟩ | ⟨q, hq, rfl⟩
    · exact List.mem_append_left _ (List.mem_map.mpr ⟨v, hv, rfl⟩)
    · exact List.mem_append_right _ (List.mem_map.mpr ⟨q, hq, rfl⟩)
  | writeJsGraphResults ps results =>
    obtain ⟨st, hst, rfl⟩ := List.mem_map.mp hs
    obtain ⟨r, hr, hst⟩ := List.mem_flatMap.mp hst
    have hmem : (k, ModuleMerge.touch) ∈ (jsGraphResultStmts r).flatMap JsStmt.moduleMerges := by
      refine List.mem_flatMap.mpr ⟨st, hst, ?_⟩
      cases st <;> simp_all [Stmt.hosts, JsStmt.moduleMerges]
    refine List.mem_flatMap.mpr ⟨r, hr, ?_⟩
    rcases (mem_moduleMerges_jsGraphResult hmem).2 with ⟨c, hc, rfl⟩ | ⟨q, hq, rfl⟩
    · exact List.mem_append_left _ (List.mem_map.mpr ⟨c, hc, rfl⟩)
    · exact List.mem_append_right _ (List.mem_map.mpr ⟨q, hq, rfl⟩)
  | writeStylesheets ps stylesheets =>
    obtain ⟨st, -, rfl⟩ := List.mem_map.mp hs
    exact absurd hk (by simp [Stmt.hosts])

/-- A call whose hosts are there keeps all arrays whole. -/
theorem whole_exec {c : WriterCall} {g : Graph} (h : g.Whole)
    (hps : c.profiles ≠ [] ∧ c.profiles.Nodup) (hnamed : c.Named)
    (hhosts : ∀ k ∈ c.hosts, k ∈ g.modules) : (c.exec g).Whole := by
  by_cases hc : ∃ ps results, c = .writeResults ps results
  · obtain ⟨ps, results, rfl⟩ := hc
    exact whole_writeResults hps hnamed h
  · rw [exec_eq]
    refine h.execAll ?_ ?_
    · intro s hs
      obtain ⟨hwrite, heq⟩ := isWrite_of_mem_stmts hs
      exact ⟨hwrite, heq ▸ hps⟩
    · intro s hs k hk
      exact hhosts k (mem_hosts_of_mem_stmts (fun ps results he => hc ⟨ps, results, he⟩) hs hk)

/-- The modules of a call are there after it. -/
theorem mem_modules_exec {c : WriterCall} {k : ModuleKey} (hk : k ∈ c.modules) (g : Graph) :
    k ∈ (c.exec g).modules := by
  cases c with
  | writeResults ps results =>
    obtain ⟨r, hr, rfl⟩ := List.mem_map.mp hk
    obtain ⟨us, vs, rfl⟩ := List.append_of_mem hr
    rw [exec_eq, stmts, List.flatMap_append, List.flatMap_cons, List.map_append, List.map_append,
      Stmt.execAll, List.foldl_append, List.foldl_append, parseResultStmts, List.cons_append,
      List.map_cons, List.foldl_cons]
    have hwrite : ∀ sts : List CodeStmt, ∀ s ∈ sts.map (Stmt.code ps), s.IsWrite := by
      intro sts s hs
      obtain ⟨st, -, rfl⟩ := List.mem_map.mp hs
      trivial
    refine Stmt.mem_modules_execAll (hwrite _) (Stmt.mem_modules_execAll (hwrite _) ?_)
    exact mem_upsert.mpr (Or.inl rfl)
  | writeViewResults ps results => exact absurd hk (by simp [modules])
  | writeJsGraphResults ps results => exact absurd hk (by simp [modules])
  | writeStylesheets ps stylesheets => exact absurd hk (by simp [modules])

end WriterCall

end OdooSemantic
