import Mathlib.Logic.Relation
import OdooSemantic.Indexer.ModelEdges

/-!
# `write_results` twice

A second `write_results` with the same arguments leaves every `Model` node as it is
(`lookup_models_secondPass`), but not every edge: a link statement goes to the nodes its name
finds *when it is sent*, so a model that is new to the graph and declared after the last
statement that could have linked to it is linked by the second pass only. This file says that
this is the one way it goes wrong (`sameModelGraph_iff`), and what the self-extension step
adds to the question of cycles (`stable_iff`).
-/

namespace OdooSemantic

open KeyedStore FlaggedEdges CodeStmt

/-! ## The statements of a list of results are proper -/

/-- Each link statement is proper, and comes after a declaration of its source. -/
def ProperList (ss : List CodeStmt) : Prop :=
  ∀ pre st post, ss = pre ++ st :: post → ∀ l, st.link = some l →
    l.Proper ∧ ∃ d, mergeModel d ∈ pre ∧ d.key = l.source

theorem ProperList.append {ss ts : List CodeStmt} (hs : ProperList ss) (ht : ProperList ts) :
    ProperList (ss ++ ts) := by
  intro pre st post hsplit l hl
  rcases List.append_eq_append_iff.mp hsplit with ⟨as, rfl, hts⟩ | ⟨cs, rfl, hcs⟩
  · obtain ⟨hp, d, hd, hkey⟩ := ht as st post hts l hl
    exact ⟨hp, d, List.mem_append_right _ hd, hkey⟩
  · cases cs with
    | nil =>
      obtain ⟨hp, d, hd, hkey⟩ := ht [] st post hcs.symm l hl
      exact absurd hd (by simp)
    | cons c cs =>
      obtain ⟨rfl, -⟩ := List.cons_eq_cons.mp hcs
      exact hs pre st cs rfl l hl

theorem ProperList.flatMap {α : Type} {f : α → List CodeStmt} {as : List α}
    (h : ∀ a ∈ as, ProperList (f a)) : ProperList (as.flatMap f) := by
  induction as with
  | nil =>
    intro pre st post hsplit
    exact absurd hsplit (by simp)
  | cons a as ih =>
    rw [List.flatMap_cons]
    exact (h a List.mem_cons_self).append (ih fun b hb => h b (List.mem_cons_of_mem _ hb))

theorem properList_of_no_link {ss : List CodeStmt} (h : ∀ st ∈ ss, st.link = none) :
    ProperList ss := by
  rintro pre st post rfl l hl
  rw [h st (by simp)] at hl
  exact absurd hl (by simp)

theorem properList_declared {m : ModelInfo} {ss : List CodeStmt}
    (h : ∀ st ∈ ss, ∀ l, st.link = some l → l.Proper ∧ l.source = m.key) :
    ProperList (mergeModel m :: ss) := by
  intro pre st post hsplit l hl
  cases pre with
  | nil =>
    obtain ⟨rfl, -⟩ := List.cons_eq_cons.mp hsplit
    exact absurd hl (by simp [CodeStmt.link])
  | cons p pre =>
    obtain ⟨rfl, rfl⟩ := List.cons_eq_cons.mp hsplit
    obtain ⟨hp, hsrc⟩ := h st (by simp) l hl
    exact ⟨hp, m, List.mem_cons_self, hsrc.symm⟩

theorem properList_modelStmts (m : ModelInfo) : ProperList (modelStmts m) := by
  have hshape : modelStmts m = mergeModel m :: (inheritStmts m
      ++ (m.inherits.map fun p => delegateTo m.key p.1 p.2)
      ++ (m.fields.map fun f => mergeField m.key f)
      ++ m.methods.flatMap fun f =>
          mergeMethod m.key f :: f.coreSymbolRefs.map fun r => useCoreSymbol (m.key.member f.name) r) :=
    rfl
  rw [hshape]
  refine properList_declared fun st hst l hl => ?_
  simp only [List.mem_append, List.mem_map, List.mem_flatMap, List.mem_cons, inheritStmts] at hst
  rcases hst with ((⟨p, -, rfl⟩ | ⟨p, -, rfl⟩) | ⟨f, -, rfl⟩) | ⟨f, -, rfl | ⟨r, -, rfl⟩⟩
  · split at hl
    · obtain rfl := Option.some.inj hl
      exact ⟨⟨fun _ => rfl, fun h => absurd h (by simp)⟩, rfl⟩
    · rename_i hne
      obtain rfl := Option.some.inj hl
      exact ⟨⟨fun h => absurd h (by simp), fun _ => hne⟩, rfl⟩
  · obtain rfl := Option.some.inj hl
    exact ⟨⟨fun h => absurd h (by simp), fun h => absurd h (by simp)⟩, rfl⟩
  · exact absurd hl (by simp [CodeStmt.link])
  · exact absurd hl (by simp [CodeStmt.link])
  · exact absurd hl (by simp [CodeStmt.link])

theorem properList_parseResultStmts (r : ParseResult) : ProperList (parseResultStmts r) := by
  refine ProperList.append (properList_of_no_link fun st hst => ?_)
    (ProperList.flatMap fun m _ => properList_modelStmts m)
  simp only [List.mem_cons, List.mem_map] at hst
  rcases hst with rfl | ⟨d, -, rfl⟩ <;> rfl

/-! ## A run of proper statements -/

/-- Every statement of the run is proper in the graph it is sent to. -/
def RunsProper (ps : List String) : List CodeStmt → Graph → Prop
  | [], _ => True
  | st :: ss, g => st.ProperIn g ∧ RunsProper ps ss (exec ps g st)

theorem runsProper_append {ps : List String} {ss ts : List CodeStmt} {g : Graph} :
    RunsProper ps (ss ++ ts) g ↔ RunsProper ps ss g ∧ RunsProper ps ts (execAll ps ss g) := by
  induction ss generalizing g with
  | nil => simp [RunsProper]
  | cons st ss ih => simp only [List.cons_append, RunsProper, ih, execAll_cons, and_assoc]

theorem mem_models_execAll {ps : List String} {ss : List CodeStmt} {g : Graph} {k : ModelKey}
    (h : k ∈ g.models) : k ∈ (execAll ps ss g).models := by
  obtain ⟨b, hb⟩ := Graph.mem_models_iff.mp h
  exact Graph.mem_models_iff.mpr ⟨b, modelFlag_execAll_of_some hb⟩

theorem mem_models_of_declared (ps : List String) {ss : List CodeStmt} (g : Graph) {d : ModelInfo}
    (h : mergeModel d ∈ ss) : d.key ∈ (execAll ps ss g).models := by
  obtain ⟨as, bs, rfl⟩ := List.append_of_mem h
  rw [execAll_append, execAll_cons]
  refine mem_models_execAll
    (Graph.mem_models_iff.mpr ⟨((execAll ps as g).modelFlag d.key).getD false, ?_⟩)
  rw [modelFlag_exec]
  simp [modelMerge, ModelMerge.flag]

theorem ProperList.runsProper {ss : List CodeStmt} (h : ProperList ss) (ps : List String)
    (g : Graph) : RunsProper ps ss g := by
  induction ss using List.reverseRecOn with
  | nil => trivial
  | append_singleton us st ih =>
    rw [runsProper_append]
    refine ⟨ih fun pre st' post hsplit => h pre st' (post ++ [st]) (by rw [hsplit]; simp), ?_, trivial⟩
    intro l hl
    obtain ⟨hp, d, hd, hkey⟩ := h us st [] rfl l hl
    exact ⟨hp, hkey ▸ mem_models_of_declared ps _ hd⟩

namespace Graph.WellFormed

variable {g : Graph}

theorem execAll {ss : List CodeStmt} {ps : List String} (hg : g.WellFormed)
    (hss : RunsProper ps ss g) : (CodeStmt.execAll ps ss g).WellFormed := by
  induction ss generalizing g with
  | nil => exact hg
  | cons st ss ih => exact ih (hg.exec hss.1 ps) hss.2

/-- The writer keeps well-formedness. -/
theorem writeResults (hg : g.WellFormed) (ps : List String) (rs : List ParseResult) :
    (OdooSemantic.writeResults ps rs g).WellFormed := by
  rw [writeResults_eq]
  exact hg.execAll ((ProperList.flatMap fun r _ => properList_parseResultStmts r).runsProper ps g)

/-- Without a statement of its link, an edge stays as it is. -/
theorem edge_execAll_of_no_link {ss : List CodeStmt} {ps : List String} (hg : g.WellFormed)
    (hss : RunsProper ps ss g) {l : Link} (hp : l.Proper) (hno : ∀ u ∈ ss, u.link ≠ some l)
    {b : ModelKey} (hb : b.name = l.name) (flag : Bool) :
    (CodeStmt.execAll ps ss g).edge l b flag = g.edge l b flag := by
  induction ss generalizing g with
  | nil => rfl
  | cons st ss ih =>
    rw [execAll_cons, ih (hg.exec hss.1 ps) hss.2 fun u hu => hno u (List.mem_cons_of_mem _ hu)]
    exact hg.edge_exec_of_ne (hno st List.mem_cons_self) (fun l' hl' => (hss.1 l' hl').1) hp ps hb
      flag

/-- Where no graph of the run lets the link hit it, an edge stays as it is. -/
theorem edge_execAll_of_no_hit {ss : List CodeStmt} {ps : List String} (hg : g.WellFormed)
    (hss : RunsProper ps ss g) {l : Link} (hp : l.Proper) {b : ModelKey} (hb : b.name = l.name)
    {flag : Bool}
    (hno : ∀ pre post, ss = pre ++ post → ¬ l.Hit (CodeStmt.execAll ps pre g) b flag) :
    (CodeStmt.execAll ps ss g).edge l b flag = g.edge l b flag := by
  induction ss generalizing g with
  | nil => rfl
  | cons st ss ih =>
    rw [execAll_cons, ih (hg.exec hss.1 ps) hss.2 fun pre post hsplit => hno (st :: pre) post
      (by rw [hsplit]; rfl)]
    by_cases hl : st.link = some l
    · have hnow : ¬ l.Hit g b flag := hno [] (st :: ss) rfl
      rw [hg.edge_exec hl, if_neg hnow]
    · exact hg.edge_exec_of_ne hl (fun l' hl' => (hss.1 l' hl').1) hp ps hb flag

/-- What is true of an edge and survives its own statements survives every run. -/
theorem edge_execAll_keeps {ss : List CodeStmt} {ps : List String} (hg : g.WellFormed)
    (hss : RunsProper ps ss g) {l : Link} (hp : l.Proper) {b : ModelKey} (hb : b.name = l.name)
    {flag : Bool} {Q : Option (Option Nat) → Prop}
    (hQ : ∀ (st : CodeStmt) o, st.link = some l → Q o → Q (some (st.writeOrder o))) (h : Q (g.edge l b flag)) :
    Q ((CodeStmt.execAll ps ss g).edge l b flag) := by
  induction ss generalizing g with
  | nil => exact h
  | cons st ss ih =>
    refine ih (hg.exec hss.1 ps) hss.2 ?_
    by_cases hl : st.link = some l
    · rw [hg.edge_exec hl]
      split
      · exact hQ st _ hl h
      · exact h
    · rwa [hg.edge_exec_of_ne hl (fun l' hl' => (hss.1 l' hl').1) hp ps hb flag]

end Graph.WellFormed

/-! ## What enters the graph late -/

/-- Some statement of `ss`, sent to `g`, finds no target called `name` and plants a placeholder. -/
def Placeheld (g : Graph) (ss : List CodeStmt) (name v : String) : Prop :=
  g.resolvedModels name v = [] ∧ ∃ pre st post l, ss = pre ++ st :: post ∧ st.link = some l ∧
    l.kind ≠ .self ∧ l.name = name ∧ l.source.odooVersion = v ∧
    ∀ d, mergeModel d ∈ pre → ¬ (d.name = name ∧ d.odooVersion = v)

/-- The model `d` declares is new after `pre`: not in `g`, not declared by `pre`, and, should
    its module have the placeholders' name, not planted by `pre` either. -/
def NewAfter (g : Graph) (pre : List CodeStmt) (d : ModelInfo) : Prop :=
  d.key ∉ g.models ∧ (∀ e, mergeModel e ∈ pre → e.key ≠ d.key) ∧
    ¬ (d.module = unresolvedModule ∧ Placeheld g pre d.name d.odooVersion)

/-- A model that enters the graph after a statement linked to its name is followed by a
    statement of that link again. -/
def NoLateTarget (g : Graph) (ss : List CodeStmt) : Prop :=
  ∀ pre d post, ss = pre ++ mergeModel d :: post → NewAfter g pre d →
    ∀ u ∈ pre, ∀ l, u.link = some l → l.Names d.key → ∃ u' ∈ post, u'.link = some l

/-- A merge that plants a placeholder comes from a link that is no self-extension. -/
theorem link_of_modelMerge_stub {g : Graph} {st : CodeStmt} {k : ModelKey}
    (hm : st.modelMerge g = some (k, .stub)) :
    ∃ l, st.link = some l ∧ l.kind ≠ .self ∧ k = stubModel l.name l.source.odooVersion ∧
      g.resolvedModels l.name l.source.odooVersion = [] := by
  cases st with
  | inheritParent m parent order =>
    simp only [modelMerge] at hm
    split at hm
    · rename_i hn
      simp only [Option.some.injEq, Prod.mk.injEq, and_true] at hm
      exact ⟨_, rfl, by simp, hm.symm, hn⟩
    · exact absurd hm (by simp)
  | delegateTo m delegated via =>
    simp only [modelMerge] at hm
    split at hm
    · rename_i hn
      simp only [Option.some.injEq, Prod.mk.injEq, and_true] at hm
      exact ⟨_, rfl, by simp, hm.symm, hn⟩
    · exact absurd hm (by simp)
  | _ => exact absurd hm (by simp [modelMerge])

/-- A merge that writes a declaration comes from one. -/
theorem eq_mergeModel_of_modelMerge {g : Graph} {st : CodeStmt} {k : ModelKey} {m : ModelInfo}
    (hm : st.modelMerge g = some (k, .write m)) : st = mergeModel m ∧ k = m.key := by
  cases st with
  | mergeModel m' =>
    simp only [modelMerge, Option.some.injEq, Prod.mk.injEq, ModelMerge.write.injEq] at hm
    exact ⟨by rw [hm.2], by rw [← hm.1, hm.2]⟩
  | inheritParent m' parent order =>
    simp only [modelMerge] at hm
    split at hm <;> simp at hm
  | delegateTo m' delegated via =>
    simp only [modelMerge] at hm
    split at hm <;> simp at hm
  | _ => exact absurd hm (by simp [modelMerge])

/-- An unmarked node that a run adds is declared by it, and was not there before that. -/
theorem exists_declared_of_flag {ps : List String} {ss : List CodeStmt} {g : Graph} {k : ModelKey}
    (hk : (execAll ps ss g).modelFlag k = some false) (hno : k ∉ g.models) :
    ∃ pre d post, ss = pre ++ mergeModel d :: post ∧ d.key = k ∧ k ∉ (execAll ps pre g).models := by
  obtain ⟨pre, st, post, t, rfl, hn, hm⟩ :=
    exists_merge_of_mem_execAll (Graph.mem_models_iff.mpr ⟨false, hk⟩) hno
  cases t with
  | write m =>
    obtain ⟨rfl, rfl⟩ := eq_mergeModel_of_modelMerge hm
    exact ⟨pre, m, post, rfl, rfl, hn⟩
  | stub =>
    have hmark : (exec ps (execAll ps pre g) st).modelFlag k = some true := by
      rw [modelFlag_exec, hm]
      simp [Graph.modelFlag_eq_none.mpr hn, ModelMerge.flag]
    rw [execAll_append, execAll_cons, modelFlag_execAll_of_some hmark] at hk
    exact absurd hk (by simp)

/-- `NewAfter`, read in the graph `pre` leaves. -/
theorem newAfter_iff {ps : List String} {g : Graph} (hg : g.WellFormed) {pre : List CodeStmt}
    (hpre : RunsProper ps pre g) {d : ModelInfo} :
    NewAfter g pre d ↔ d.key ∉ (execAll ps pre g).models := by
  constructor
  · rintro ⟨hnew, hdecl, hheld⟩ hmem
    obtain ⟨as, st, bs, t, rfl, hn, hm⟩ := exists_merge_of_mem_execAll hmem hnew
    cases t with
    | write m =>
      obtain ⟨rfl, hkey⟩ := eq_mergeModel_of_modelMerge hm
      exact hdecl m (by simp) hkey.symm
    | stub =>
      obtain ⟨l, hl, hk, hkey, hnil⟩ := link_of_modelMerge_stub hm
      have hname : d.name = l.name := congrArg ModelKey.name hkey
      have hver : d.odooVersion = l.source.odooVersion := congrArg ModelKey.odooVersion hkey
      refine hheld ⟨congrArg ModelKey.module hkey, ?_, as, st, bs, l, rfl, hl, hk, hname.symm,
        hver.symm, ?_⟩
      · rw [Graph.resolvedModels_eq_nil] at hnil ⊢
        intro k h1 h2 h3
        exact hnil k (h1.trans hname) (h2.trans hver) (below_execAll ps as g k h3)
      · -- a model of that name declared earlier would be a target, or the placeholder itself
        rintro e he ⟨h1, h2⟩
        obtain ⟨b, hb⟩ := Graph.mem_models_iff.mp (mem_models_of_declared ps g he)
        cases b with
        | false =>
          exact Graph.resolvedModels_eq_nil.mp hnil e.key (h1.trans hname) (h2.trans hver) hb
        | true =>
          have has : RunsProper ps as g := (runsProper_append.mp hpre).1
          have hmod := (hg.execAll has).marked e.key hb
          have heq : e.key = d.key := by
            rw [hkey]
            simp only [ModelInfo.key, stubModel, ModelKey.mk.injEq]
            exact ⟨h1.trans hname, hmod, h2.trans hver⟩
          exact hn (heq ▸ Graph.mem_models_iff.mpr ⟨true, hb⟩)
  · intro hno
    refine ⟨fun h => hno (mem_models_execAll h), fun e he heq => hno ?_, ?_⟩
    · exact heq ▸ mem_models_of_declared ps _ he
    · rintro ⟨hmod, hnil, as, st, bs, l, rfl, hl, hk, h1, h2, hquiet⟩
      -- nothing of that name is unmarked in front of the statement, so it plants the placeholder
      have hnil' : (execAll ps as g).resolvedModels l.name l.source.odooVersion = [] := by
        rw [Graph.resolvedModels_eq_nil]
        intro k hk1 hk2 hk3
        by_cases hkg : k ∈ g.models
        · obtain ⟨b, hb⟩ := Graph.mem_models_iff.mp hkg
          rw [modelFlag_execAll_of_some hb] at hk3
          exact Graph.resolvedModels_eq_nil.mp hnil k (hk1.trans h1) (hk2.trans h2) (hb.trans hk3)
        · obtain ⟨us, e, vs, rfl, hkey, -⟩ := exists_declared_of_flag hk3 hkg
          refine hquiet e (by simp) ⟨?_, ?_⟩
          · rw [← h1, ← hk1, ← hkey]; rfl
          · rw [← h2, ← hk2, ← hkey]; rfl
      have hhit : l.Hit (execAll ps as g) d.key true := by
        refine (Link.hit_of_ne_self hk).mpr (Or.inr ⟨hnil', ?_, rfl⟩)
        simp only [ModelInfo.key, stubModel, ModelKey.mk.injEq]
        exact ⟨h1.symm, hmod, h2.symm⟩
      refine hno ?_
      rw [execAll_append, execAll_cons]
      exact mem_models_execAll (Graph.WellFormed.hit_target hl ps hhit).1

/-! ## The second pass, edge by edge -/

/-- The last element with a property splits the list. -/
theorem exists_last_split {α : Type} {p : α → Prop} [DecidablePred p] {as : List α}
    (h : ∃ a ∈ as, p a) : ∃ pre a post, as = pre ++ a :: post ∧ p a ∧ ∀ b ∈ post, ¬ p b := by
  induction as using List.reverseRecOn with
  | nil => simp at h
  | append_singleton as a ih =>
    by_cases ha : p a
    · exact ⟨as, a, [], rfl, ha, by simp⟩
    · obtain ⟨b, hb, hpb⟩ := h
      have hmem : b ∈ as := by
        rcases List.mem_append.mp hb with hb | hb
        · exact hb
        · exact absurd (List.mem_singleton.mp hb ▸ hpb) ha
      obtain ⟨pre, c, post, rfl, hc, hpost⟩ := ih ⟨b, hmem, hpb⟩
      refine ⟨pre, c, post ++ [a], by simp, hc, fun d hd => ?_⟩
      rcases List.mem_append.mp hd with hd | hd
      · exact hpost d hd
      · exact List.mem_singleton.mp hd ▸ ha

section SecondPass

variable {g : Graph} {ps : List String} {ss : List CodeStmt}

/-- After the last statement of a link, no new target of it is declared. -/
theorem NoLateTarget.false_of_new (hlate : NoLateTarget g ss) (hg : g.WellFormed)
    (hss : ProperList ss) {pre post us vs : List CodeStmt} {st : CodeStmt} {l : Link}
    {d : ModelInfo} (hsplit : ss = pre ++ st :: post) (hl : st.link = some l)
    (hlast : ∀ u ∈ post, u.link ≠ some l) (hd : st :: post = us ++ mergeModel d :: vs)
    (hnew : d.key ∉ (execAll ps us (execAll ps pre g)).models) (hnames : l.Names d.key) : False := by
  cases us with
  | nil =>
    obtain ⟨rfl, -⟩ := List.cons_eq_cons.mp hd
    exact absurd hl (by simp [CodeStmt.link])
  | cons u us =>
    obtain ⟨rfl, rfl⟩ := List.cons_eq_cons.mp hd
    have hsplit' : ss = (pre ++ st :: us) ++ mergeModel d :: vs := by rw [hsplit]; simp
    have hproper : RunsProper ps (pre ++ st :: us) g :=
      (runsProper_append.mp (hsplit' ▸ hss.runsProper ps g)).1
    have hafter : NewAfter g (pre ++ st :: us) d := by
      rw [newAfter_iff hg hproper, execAll_append]
      exact hnew
    obtain ⟨u', hu', hl'⟩ := hlate _ d vs hsplit' hafter st (by simp) l hl hnames
    exact hlast u' (by simp [hu']) hl'

/-- What a link hits at the end of the first pass, its last statement has hit. -/
theorem NoLateTarget.hit_of_hit_end (hlate : NoLateTarget g ss) (hg : g.WellFormed)
    (hss : ProperList ss) {pre post : List CodeStmt} {st : CodeStmt} {l : Link}
    (hsplit : ss = pre ++ st :: post) (hl : st.link = some l)
    (hlast : ∀ u ∈ post, u.link ≠ some l) {b : ModelKey} {flag : Bool}
    (hhit : l.Hit (execAll ps ss g) b flag) : l.Hit (execAll ps pre g) b flag := by
  have hend : execAll ps ss g = execAll ps (st :: post) (execAll ps pre g) := by
    rw [hsplit, execAll_append]
  have hruns := hss.runsProper ps g
  rw [hsplit, runsProper_append] at hruns
  obtain ⟨hpre, hst, -⟩ := hruns
  have hgpre := hg.execAll hpre
  by_cases hk : l.kind = .self
  · obtain ⟨hb, hnames, rfl⟩ := (Link.hit_self hk).mp hhit
    refine (Link.hit_self hk).mpr ⟨?_, hnames, rfl⟩
    by_contra hno
    rw [hend] at hb
    obtain ⟨us, u, vs, t, hus, hn, hm⟩ := exists_merge_of_mem_execAll hb hno
    cases t with
    | write d =>
      obtain ⟨rfl, rfl⟩ := eq_mergeModel_of_modelMerge hm
      exact hlate.false_of_new hg hss hsplit hl hlast hus hn hnames
    | stub =>
      -- the source itself has the name, so no placeholder for it is planted any more
      obtain ⟨l', -, -, hkey, hnil⟩ := link_of_modelMerge_stub hm
      obtain ⟨hproper, hsrc⟩ := hst l hl
      obtain ⟨fl, hfl⟩ := Graph.mem_models_iff.mp hsrc
      have hname : b.name = l.source.name := hnames.1.trans (hproper.1 hk)
      cases fl with
      | false =>
        refine Graph.resolvedModels_eq_nil.mp hnil l.source ?_ ?_ (modelFlag_execAll_of_some hfl)
        · rw [← hname, hkey]; rfl
        · rw [← hnames.2.1, hkey]; rfl
      | true =>
        refine hnames.2.2 hk ?_
        rw [hgpre.marked l.source hfl, hkey]
        rfl
  · rw [Link.hit_of_ne_self hk] at hhit ⊢
    rcases hhit with ⟨hb, rfl⟩ | ⟨hnil, rfl, rfl⟩
    · obtain ⟨hflag, hname, hver⟩ := Graph.mem_resolvedModels.mp hb
      refine Or.inl ⟨Graph.mem_resolvedModels.mpr ⟨?_, hname, hver⟩, rfl⟩
      rw [hend] at hflag
      by_cases hmem : b ∈ (execAll ps pre g).models
      · obtain ⟨fl, hfl⟩ := Graph.mem_models_iff.mp hmem
        rw [modelFlag_execAll_of_some hfl] at hflag
        exact hfl.trans hflag
      · obtain ⟨us, d, vs, hus, rfl, hn⟩ := exists_declared_of_flag hflag hmem
        exact absurd (hlate.false_of_new hg hss hsplit hl hlast hus hn
          ⟨hname, hver, fun h => absurd h hk⟩) (fun h => h)
    · refine Or.inr ⟨?_, rfl, rfl⟩
      rw [Graph.resolvedModels_eq_nil] at hnil ⊢
      intro k h1 h2 h3
      refine hnil k h1 h2 ?_
      rw [hend]
      exact below_execAll ps _ _ k h3

/-- **Nothing enters late: then a second pass leaves every edge as it is.** -/
theorem edge_secondPass (hg : g.WellFormed) (hss : ProperList ss) (hlate : NoLateTarget g ss)
    {l : Link} (hp : l.Proper) {b : ModelKey} (hb : b.name = l.name) (flag : Bool) :
    (execAll ps ss (execAll ps ss g)).edge l b flag = (execAll ps ss g).edge l b flag := by
  set g1 := execAll ps ss g with hg1
  have hwf : g1.WellFormed := hg.execAll (hss.runsProper ps g)
  have hback : ∀ pre post, ss = pre ++ post → (execAll ps pre g1).SameFlags g1 := by
    intro pre post hsplit
    rw [hg1, hsplit]
    exact sameFlags_secondPass ps pre post g
  by_cases hlink : ∃ u ∈ ss, u.link = some l
  · obtain ⟨pre, st, post, hsplit, hl, hlast⟩ := exists_last_split hlink
    by_cases hhit : l.Hit g1 b flag
    · -- the last statement of the link decides, in either pass
      have hfinal : ∀ h : Graph, h.WellFormed → l.Hit (execAll ps pre h) b flag →
          (execAll ps ss h).edge l b flag =
            some (st.writeOrder ((execAll ps pre h).edge l b flag)) := by
        intro h hh hhit
        have hruns := hss.runsProper ps h
        rw [hsplit, runsProper_append] at hruns
        obtain ⟨hpre, hst, hpost⟩ := hruns
        have hhpre := hh.execAll hpre
        rw [hsplit, execAll_append, execAll_cons,
          (hhpre.exec hst ps).edge_execAll_of_no_link hpost hp hlast hb, hhpre.edge_exec hl,
          if_pos hhit]
      have hfirst := hfinal g hg (hlate.hit_of_hit_end hg hss hsplit hl hlast hhit)
      rw [hfinal g1 hwf (((hback pre (st :: post) hsplit).hit l b flag).mpr hhit)]
      cases st with
      | extendSelf m order =>
        obtain ⟨n, hn⟩ : ∃ n, g1.edge l b flag = some (some n) := by
          rw [hg1, hfirst]
          simp only [writeOrder]
          cases (execAll ps pre g).edge l b flag <;> exact ⟨_, rfl⟩
        have hruns := hss.runsProper ps g1
        rw [hsplit, runsProper_append] at hruns
        have hkeep : (execAll ps pre g1).edge l b flag = some (some n) := by
          refine hwf.edge_execAll_keeps hruns.1 hp hb (Q := fun o => o = some (some n)) ?_ hn
          rintro u o hu rfl
          obtain rfl := Option.some.inj hl
          cases u with
          | extendSelf m' order' => rfl
          | inheritParent m' parent order' => simp [CodeStmt.link] at hu
          | delegateTo m' delegated via => simp [CodeStmt.link] at hu
          | _ => simp [CodeStmt.link] at hu
        rw [hkeep, hn]
        rfl
      | inheritParent m parent order => exact hfirst.symm
      | delegateTo m delegated via => exact hfirst.symm
      | _ => exact absurd hl (by simp [CodeStmt.link])
    · refine hwf.edge_execAll_of_no_hit (hss.runsProper ps g1) hp hb ?_
      intro us vs hus h
      exact hhit (((hback us vs hus).hit l b flag).mp h)
  · refine hwf.edge_execAll_of_no_link (hss.runsProper ps g1) hp ?_ hb flag
    exact fun u hu hl => hlink ⟨u, hu, hl⟩

theorem Graph.WellFormed.edge_eq_none (hg : g.WellFormed) {l : Link} {b : ModelKey}
    (hb : b ∉ g.models) (flag : Bool) : g.edge l b flag = none := by
  obtain ⟨kind, source, name⟩ := l
  cases kind with
  | delegate viaField =>
    have hno : (source, (b, viaField), flag) ∉ g.delegatesTo :=
      fun h => hb (hg.delegates_ends _ _ _ _ h).2
    simp [Graph.edge, AList.lookup_eq_none.mpr hno]
  | _ =>
    have hno : (source, b, flag) ∉ g.inherits := fun h => hb (hg.inherits_ends _ _ _ h).2
    simp [Graph.edge, AList.lookup_eq_none.mpr hno]

/-- A statement that has hit leaves an edge for the rest of the run. -/
theorem edge_ne_none_of_hit (hg : g.WellFormed) (hss : RunsProper ps ss g) {pre post : List CodeStmt}
    {st : CodeStmt} {l : Link} (hsplit : ss = pre ++ st :: post) (hl : st.link = some l)
    {b : ModelKey} {flag : Bool} (hhit : l.Hit (execAll ps pre g) b flag) :
    (execAll ps ss g).edge l b flag ≠ none := by
  rw [hsplit, runsProper_append] at hss
  obtain ⟨hpre, hst, hpost⟩ := hss
  have hgpre := hg.execAll hpre
  rw [hsplit, execAll_append, execAll_cons]
  refine (hgpre.exec hst ps).edge_execAll_keeps hpost (hst l hl).1 hhit.names.1
    (Q := fun o => o ≠ none) (fun _ _ _ _ => by simp) ?_
  rw [hgpre.edge_exec hl, if_pos hhit]
  simp

/-- **Something enters late: then the second pass adds an edge.** -/
theorem noLateTarget_of_edges (ps : List String) (hg : g.WellFormed) (hss : ProperList ss)
    (hsame : ∀ l b flag, (execAll ps ss (execAll ps ss g)).edge l b flag =
      (execAll ps ss g).edge l b flag) : NoLateTarget g ss := by
  intro pre d post hsplit hnew u hu l hl hnames
  by_contra hno
  set g1 := execAll ps ss g with hg1
  have hlast : ∀ u' ∈ post, u'.link ≠ some l := fun u' hu' hl' => hno ⟨u', hu', hl'⟩
  have hwf : g1.WellFormed := hg.execAll (hss.runsProper ps g)
  have hruns := hss.runsProper ps g
  rw [hsplit, runsProper_append] at hruns
  obtain ⟨hpre, hd, hpost⟩ := hruns
  have hgpre := hg.execAll hpre
  have habsent : d.key ∉ (execAll ps pre g).models := (newAfter_iff hg hpre).mp hnew
  obtain ⟨as, bs, hpresplit⟩ := List.append_of_mem hu
  have hproper : l.Proper := by
    obtain ⟨hp, -⟩ := hss as u (bs ++ mergeModel d :: post) (by rw [hsplit, hpresplit]; simp) l hl
    exact hp
  -- the first pass has no edge there
  have hfirst : g1.edge l d.key false = none := by
    rw [hg1, hsplit, execAll_append, execAll_cons,
      (hgpre.exec hd ps).edge_execAll_of_no_link hpost hproper hlast hnames.1,
      hgpre.edge_exec_of_ne (by simp [CodeStmt.link]) (fun l' hl' => (hd l' hl').1) hproper ps
        hnames.1]
    exact hgpre.edge_eq_none habsent false
  -- but it leaves the declared model, unmarked, for the second to find
  have hflag : g1.modelFlag d.key = some false := by
    rw [hg1, hsplit, execAll_append, execAll_cons]
    refine modelFlag_execAll_of_some ?_
    rw [modelFlag_exec]
    simp [modelMerge, ModelMerge.flag, Graph.modelFlag_eq_none.mpr habsent]
  have hsplit' : ss = as ++ u :: (bs ++ mergeModel d :: post) := by rw [hsplit, hpresplit]; simp
  have hback : (execAll ps as g1).SameFlags g1 := by
    rw [hg1, hsplit']
    exact sameFlags_secondPass ps as _ g
  have hhit : l.Hit (execAll ps as g1) d.key false := by
    rw [hback.hit]
    by_cases hk : l.kind = .self
    · exact (Link.hit_self hk).mpr ⟨Graph.mem_models_iff.mpr ⟨false, hflag⟩, hnames, rfl⟩
    · refine (Link.hit_of_ne_self hk).mpr (Or.inl ⟨?_, rfl⟩)
      exact Graph.mem_resolvedModels.mpr ⟨hflag, hnames.1, hnames.2.1⟩
  refine edge_ne_none_of_hit hwf (hss.runsProper ps g1) hsplit' hl hhit ?_
  rw [hsame, hfirst]

end SecondPass

/-! ## Cycles among the models of one name -/

namespace Graph

/-- An `INHERITS` edge between two models of one name and version. -/
def SameNameInherits (g : Graph) (a b : ModelKey) : Prop :=
  a.name = b.name ∧ a.odooVersion = b.odooVersion ∧ Linked g.inherits a b

def Acyclic (g : Graph) : Prop := ∀ a, ¬ Relation.TransGen g.SameNameInherits a a

/-- The link of a model's self-extension. -/
def selfLink (a : ModelKey) : Link := ⟨.self, a, a.name⟩

theorem linked_iff_edge {g : Graph} {a b : ModelKey} :
    Linked g.inherits a b ↔ ∃ flag, g.edge (selfLink a) b flag ≠ none := by
  have h : ∀ flag, (a, b, flag) ∈ g.inherits ↔ g.edge (selfLink a) b flag ≠ none := by
    intro flag
    rw [← AList.lookup_isSome, ← Option.ne_none_iff_isSome]
    rfl
  rw [Linked, h, h]
  constructor
  · rintro (h | h)
    · exact ⟨true, h⟩
    · exact ⟨false, h⟩
  · rintro ⟨flag, h⟩
    cases flag with
    | true => exact Or.inl h
    | false => exact Or.inr h

end Graph

theorem selfLink_proper (a : ModelKey) : (Graph.selfLink a).Proper :=
  ⟨fun _ => rfl, fun h => absurd h (by simp [Graph.selfLink])⟩

/-- A model that extends itself in the list: nothing of its name goes to it in `g`, and no other
    model of its name and version extends itself in the list. -/
def NoMutualExtension (g : Graph) (ss : List CodeStmt) : Prop :=
  ∀ m o, extendSelf m o ∈ ss → (∀ b, ¬ g.SameNameInherits b m) ∧
    ∀ n o', extendSelf n o' ∈ ss → n.name = m.name → n.odooVersion = m.odooVersion → n = m

section Cycles

variable {g : Graph} {ps : List String} {ss : List CodeStmt}

theorem eq_extendSelf_of_link {u : CodeStmt} {a : ModelKey}
    (h : u.link = some (Graph.selfLink a)) : ∃ o, u = extendSelf a o := by
  cases u with
  | extendSelf m order =>
    have hm : m = a := congrArg Link.source (Option.some.inj h)
    exact ⟨order, by rw [hm]⟩
  | inheritParent m parent order => simp [CodeStmt.link, Graph.selfLink] at h
  | delegateTo m delegated via => simp [CodeStmt.link, Graph.selfLink] at h
  | _ => simp [CodeStmt.link] at h

/-- Edges are never removed. -/
theorem sameNameInherits_execAll (hg : g.WellFormed) (hss : RunsProper ps ss g) {a b : ModelKey}
    (h : g.SameNameInherits a b) : (execAll ps ss g).SameNameInherits a b := by
  obtain ⟨hname, hver, hlinked⟩ := h
  obtain ⟨flag, hflag⟩ := Graph.linked_iff_edge.mp hlinked
  refine ⟨hname, hver, Graph.linked_iff_edge.mpr ⟨flag, ?_⟩⟩
  exact hg.edge_execAll_keeps hss (selfLink_proper a) hname.symm (Q := fun o => o ≠ none)
    (fun _ _ _ _ => by simp) hflag

/-- An edge between models of one name is old, or its source extends itself in the list and the
    target is in another module. -/
theorem sameNameInherits_of_execAll (hg : g.WellFormed) (hss : RunsProper ps ss g)
    {a b : ModelKey} (h : (execAll ps ss g).SameNameInherits a b) :
    g.SameNameInherits a b ∨ (b.module ≠ a.module ∧ ∃ o, extendSelf a o ∈ ss) := by
  obtain ⟨hname, hver, hlinked⟩ := h
  obtain ⟨flag, hflag⟩ := Graph.linked_iff_edge.mp hlinked
  by_cases hlink : ∃ u ∈ ss, u.link = some (Graph.selfLink a)
  · by_cases hmod : b.module = a.module
    · left
      refine ⟨hname, hver, Graph.linked_iff_edge.mpr ⟨flag, ?_⟩⟩
      rwa [hg.edge_execAll_of_no_hit hss (selfLink_proper a) hname.symm] at hflag
      intro _ _ _ hhit
      exact hhit.names.2.2 rfl hmod
    · right
      obtain ⟨u, hu, hl⟩ := hlink
      obtain ⟨o, rfl⟩ := eq_extendSelf_of_link hl
      exact ⟨hmod, o, hu⟩
  · left
    refine ⟨hname, hver, Graph.linked_iff_edge.mpr ⟨flag, ?_⟩⟩
    rwa [hg.edge_execAll_of_no_link hss (selfLink_proper a) (fun u hu hl => hlink ⟨u, hu, hl⟩)
      hname.symm] at hflag

/-- No self-extending model has an edge into it: then a list adds no cycle. -/
theorem acyclic_execAll (hg : g.WellFormed) (hss : RunsProper ps ss g) (hacyc : g.Acyclic)
    (hno : NoMutualExtension g ss) : (execAll ps ss g).Acyclic := by
  -- an edge out of a node that has one into it is old
  have hold : ∀ x a b, (execAll ps ss g).SameNameInherits x a →
      (execAll ps ss g).SameNameInherits a b → g.SameNameInherits a b := by
    intro x a b hxa hab
    rcases sameNameInherits_of_execAll hg hss hab with h | ⟨-, o, ho⟩
    · exact h
    · obtain ⟨hinto, honly⟩ := hno a o ho
      rcases sameNameInherits_of_execAll hg hss hxa with h | ⟨hmod, o', ho'⟩
      · exact absurd h (hinto x)
      · exact absurd (congrArg ModelKey.module (honly x o' ho' hxa.1 hxa.2.1)) hmod.symm
  have hpath : ∀ a b, Relation.TransGen (execAll ps ss g).SameNameInherits a b →
      (∃ x, (execAll ps ss g).SameNameInherits x a) →
        Relation.TransGen g.SameNameInherits a b := by
    intro a b h hinto
    induction h with
    | single hab =>
      obtain ⟨x, hx⟩ := hinto
      exact .single (hold x _ _ hx hab)
    | @tail b c hab hbc ih =>
      obtain ⟨y, -, hyb⟩ := Relation.TransGen.tail'_iff.mp hab
      exact .tail ih (hold y _ _ hyb hbc)
  intro a h
  obtain ⟨y, -, hya⟩ := Relation.TransGen.tail'_iff.mp h
  exact hacyc a (hpath a a h ⟨y, hya⟩)

/-- A self-extension reaches every model of its name that is there, in another module. -/
theorem sameNameInherits_of_extendSelf (hg : g.WellFormed) (hss : RunsProper ps ss g)
    {m b : ModelKey} {o : Nat} (hm : extendSelf m o ∈ ss) (hb : b ∈ g.models)
    (hname : b.name = m.name) (hver : b.odooVersion = m.odooVersion)
    (hmod : b.module ≠ m.module) : (execAll ps ss g).SameNameInherits m b := by
  obtain ⟨as, bs, hsplit⟩ := List.append_of_mem hm
  refine ⟨hname.symm, hver.symm, Graph.linked_iff_edge.mpr ⟨false, ?_⟩⟩
  refine edge_ne_none_of_hit hg hss hsplit rfl ?_
  exact (Link.hit_self rfl).mpr ⟨mem_models_execAll hb, ⟨hname, hver, fun _ => hmod⟩, rfl⟩

end Cycles

/-! ## The two passes together -/

/-- The same `Model` nodes, `INHERITS` edges and `DELEGATES_TO` edges, with all properties. -/
def SameModelGraph (g h : Graph) : Prop :=
  (∀ k, g.models.lookup k = h.models.lookup k) ∧
    (∀ e, g.inherits.lookup e = h.inherits.lookup e) ∧
      ∀ e, g.delegatesTo.lookup e = h.delegatesTo.lookup e

/-- Writing the list a second time changes nothing, and, on a graph without cycles among the
    models of one name, neither pass makes one. -/
def StableUnder (ps : List String) (rs : List ParseResult) (g : Graph) : Prop :=
  SameModelGraph (writeResults ps rs (writeResults ps rs g)) (writeResults ps rs g) ∧
    (g.Acyclic → (writeResults ps rs g).Acyclic ∧
      (writeResults ps rs (writeResults ps rs g)).Acyclic)

/-- Equal edges, link by link, are equal relations. -/
theorem sameModelGraph_iff_edges {ps : List String} {ss : List CodeStmt} {g : Graph} :
    SameModelGraph (execAll ps ss (execAll ps ss g)) (execAll ps ss g) ↔
      ∀ l : Link, ∀ b flag, l.Proper → b.name = l.name →
        (execAll ps ss (execAll ps ss g)).edge l b flag = (execAll ps ss g).edge l b flag := by
  constructor
  · rintro ⟨-, hinh, hdel⟩ ⟨kind, source, name⟩ b flag - -
    cases kind with
    | delegate viaField => simp only [Graph.edge, hdel]
    | _ => simp only [Graph.edge, hinh]
  · intro h
    refine ⟨lookup_models_secondPass ps ss g, ?_, ?_⟩
    · rintro ⟨a, b, flag⟩
      by_cases hname : b.name = a.name
      · exact h (Graph.selfLink a) b flag (selfLink_proper a) hname
      · exact h ⟨.parent, a, b.name⟩ b flag ⟨fun hk => absurd hk (by simp), fun _ => hname⟩ rfl
    · rintro ⟨a, ⟨b, viaField⟩, flag⟩
      have hedge := h ⟨.delegate viaField, a, b.name⟩ b flag
        ⟨fun hk => absurd hk (by simp), fun hk => absurd hk (by simp)⟩ rfl
      simp only [Graph.edge] at hedge
      refine Option.map_injective ?_ hedge
      exact fun _ _ _ => rfl

theorem acyclic_congr {g h : Graph} (hs : SameModelGraph g h) : g.Acyclic ↔ h.Acyclic := by
  have hrel : g.SameNameInherits = h.SameNameInherits := by
    funext a b
    unfold Graph.SameNameInherits Linked
    rw [mem_iff_lookup (hs.2.1 (a, b, true)), mem_iff_lookup (hs.2.1 (a, b, false))]
  unfold Graph.Acyclic
  rw [hrel]

/-- **When `write_results` is idempotent.** On a well-formed graph, a list of results is stable
exactly when no model new to the graph is declared after the last statement that links to its
name, and — where the graph had no cycle among models of one name — no model extends itself in
the list while another of its name does, or while one of its name already inherits from it. -/
theorem stableUnder_iff {g : Graph} (hg : g.WellFormed) (ps : List String)
    (rs : List ParseResult) :
    StableUnder ps rs g ↔ NoLateTarget g (rs.flatMap parseResultStmts) ∧
      (g.Acyclic → NoMutualExtension g (rs.flatMap parseResultStmts)) := by
  unfold StableUnder
  rw [writeResults_eq, writeResults_eq]
  have hss : ProperList (rs.flatMap parseResultStmts) :=
    ProperList.flatMap fun r _ => properList_parseResultStmts r
  generalize rs.flatMap parseResultStmts = ss at hss
  have hruns := hss.runsProper ps g
  have hwf := hg.execAll hruns
  have hruns1 := hss.runsProper ps (execAll ps ss g)
  constructor
  · rintro ⟨hsame, hacyc⟩
    refine ⟨noLateTarget_of_edges ps hg hss ?_, ?_⟩
    · rintro ⟨kind, source, name⟩ b flag
      cases kind with
      | delegate viaField => simp only [Graph.edge, hsame.2.2]
      | _ => simp only [Graph.edge, hsame.2.1]
    · intro hg0 m o hm
      have hone := (hacyc hg0).1
      -- an edge into `m` from a model of its name closes a cycle with `m`'s own edge back
      have hcycle : ∀ b, (execAll ps ss g).SameNameInherits b m →
          (execAll ps ss g).SameNameInherits m b → False :=
        fun b h1 h2 => hone b (.tail (.single h1) h2)
      constructor
      · intro b hbm
        have hb : b ∈ g.models := by
          rcases hbm.2.2 with h | h
          · exact (hg.inherits_ends b m true h).1
          · exact (hg.inherits_ends b m false h).1
        by_cases hmod : b.module = m.module
        · have hself : b = m := by
            obtain ⟨bn, bm, bv⟩ := b
            obtain ⟨mn, mm, mv⟩ := m
            simp only [ModelKey.mk.injEq]
            exact ⟨hbm.1, hmod, hbm.2.1⟩
          exact hg0 m (.single (hself ▸ hbm))
        · exact hcycle b (sameNameInherits_execAll hg hruns hbm)
            (sameNameInherits_of_extendSelf hg hruns hm hb hbm.1 hbm.2.1 hmod)
      · intro n o' hn hname hver
        by_contra hne
        have hmod : n.module ≠ m.module := by
          intro hmod
          obtain ⟨nn, nm, nv⟩ := n
          obtain ⟨mn, mm, mv⟩ := m
          exact hne (by simp only [ModelKey.mk.injEq]; exact ⟨hname, hmod, hver⟩)
        have hthere : ∀ k p, extendSelf k p ∈ ss → k ∈ (execAll ps ss g).models := by
          intro k p hk
          obtain ⟨as, bs, hsplit⟩ := List.append_of_mem hk
          obtain ⟨-, d, hd, hkey⟩ := hss as _ bs hsplit _ rfl
          have hdmem : mergeModel d ∈ ss := by rw [hsplit]; exact List.mem_append_left _ hd
          have hkey' : d.key = k := hkey
          exact hkey' ▸ mem_models_of_declared ps _ hdmem
        have hedge : ∀ {a b : ModelKey},
            (execAll ps ss (execAll ps ss g)).SameNameInherits a b →
              (execAll ps ss g).SameNameInherits a b := by
          rintro a b ⟨h1, h2, h3⟩
          refine ⟨h1, h2, ?_⟩
          unfold Linked at h3 ⊢
          rwa [mem_iff_lookup (hsame.2.1 (a, b, true)),
            mem_iff_lookup (hsame.2.1 (a, b, false))] at h3
        refine hcycle n ?_ ?_
        · exact hedge (sameNameInherits_of_extendSelf hwf hruns1 hn (hthere m o hm) hname.symm
            hver.symm (Ne.symm hmod))
        · exact hedge (sameNameInherits_of_extendSelf hwf hruns1 hm (hthere n o' hn) hname hver
            hmod)
  · rintro ⟨hlate, hmutual⟩
    have hsame : SameModelGraph (execAll ps ss (execAll ps ss g)) (execAll ps ss g) :=
      sameModelGraph_iff_edges.mpr fun l b flag hp hb => edge_secondPass hg hss hlate hp hb flag
    refine ⟨hsame, fun hg0 => ?_⟩
    have hone := acyclic_execAll hg hruns hg0 (hmutual hg0)
    exact ⟨hone, (acyclic_congr hsame).mpr hone⟩

/-- A definition of `sale.order` and two extensions of it, each in its own module. -/
def twoExtensions : List ParseResult :=
  let module (name : String) : ModuleInfo :=
    { name, odooVersion := "17.0", repo := "odoo", path := "/srv/odoo/" ++ name, depends := [] }
  let model (mod : String) (inherit : List String) (defines : Bool) : ModelInfo :=
    { name := "sale.order", module := mod, odooVersion := "17.0", inherit,
      hadExplicitName := defines }
  [{ module := module "sale", models := [model "sale" [] true] },
    { module := module "stock", models := [model "stock" ["sale.order"] false] },
    { module := module "crm", models := [model "crm" ["sale.order"] false] }]

/-- The first pass links the later extension to the earlier one, the second pass links the
    earlier one back. -/
theorem twoExtensions_not_stable : ¬ StableUnder ["odoo_17"] twoExtensions {} := by
  rintro ⟨⟨-, hinh, -⟩, -⟩
  have hedge := hinh (⟨"sale.order", "stock", "17.0"⟩, ⟨"sale.order", "crm", "17.0"⟩, false)
  revert hedge
  decide

/-- One extension is stable under a second pass exactly if the condition holds of it. -/
theorem stableUnder_iff_sale : StableUnder ["odoo_17"] (twoExtensions.take 2) {} ↔
    NoLateTarget {} ((twoExtensions.take 2).flatMap parseResultStmts) ∧
      (({} : Graph).Acyclic → NoMutualExtension {} ((twoExtensions.take 2).flatMap parseResultStmts)) :=
  stableUnder_iff Graph.wellFormed_empty ["odoo_17"] (twoExtensions.take 2)

end OdooSemantic
