import OdooSemantic.Indexer.ModelNodes

/-!
# `INHERITS` and `DELEGATES_TO` under `_write_parse_result`

A *link* is what a follow-up statement says: from this model to whatever is called `name`, in
one of three ways. The edge a link makes is decided by the statement's order and by which
nodes its name finds (`Link.Hit`), and the latter depends on the flags alone. Different links
make different edges, so one edge sees the statements of one link only (`edge_exec_of_ne`).

`Graph.edge` reads both relations through a link, so that each fact is stated once for the
three ways.
-/

namespace OdooSemantic

open KeyedStore FlaggedEdges CodeStmt

inductive LinkKind where
  | self
  | parent
  | delegate (viaField : String)
deriving DecidableEq

structure Link where
  kind : LinkKind
  source : ModelKey
  name : String
deriving DecidableEq

/-- The link a statement makes. -/
def CodeStmt.link : CodeStmt → Option Link
  | extendSelf m _ => some ⟨.self, m, m.name⟩
  | inheritParent m parent _ => some ⟨.parent, m, parent⟩
  | delegateTo m delegated viaField => some ⟨.delegate viaField, m, delegated⟩
  | _ => none

namespace Link

/-- The model is one the link can go to. -/
def Names (l : Link) (b : ModelKey) : Prop :=
  b.name = l.name ∧ b.odooVersion = l.source.odooVersion ∧
    (l.kind = .self → b.module ≠ l.source.module)

instance (l : Link) (b : ModelKey) : Decidable (l.Names b) :=
  inferInstanceAs (Decidable (_ ∧ _ ∧ _))

/-- The statement of the link, sent to `g`, merges the edge to `b` with this flag. -/
def Hit (l : Link) (g : Graph) (b : ModelKey) (flag : Bool) : Prop :=
  (l.kind = .self ∧ b ∈ g.models ∧ l.Names b ∧ flag = false) ∨
    (l.kind ≠ .self ∧ Merged (g.resolvedModels l.name l.source.odooVersion)
      (stubModel l.name l.source.odooVersion) b flag)

instance (l : Link) (g : Graph) (b : ModelKey) (flag : Bool) : Decidable (l.Hit g b flag) :=
  inferInstanceAs (Decidable (_ ∨ _))

theorem hit_self {l : Link} (hk : l.kind = .self) {g : Graph} {b : ModelKey} {flag : Bool} :
    l.Hit g b flag ↔ b ∈ g.models ∧ l.Names b ∧ flag = false := by
  simp [Hit, hk]

theorem hit_of_ne_self {l : Link} (hk : l.kind ≠ .self) {g : Graph} {b : ModelKey} {flag : Bool} :
    l.Hit g b flag ↔ Merged (g.resolvedModels l.name l.source.odooVersion)
      (stubModel l.name l.source.odooVersion) b flag := by
  simp [Hit, hk]

theorem Hit.names {l : Link} {g : Graph} {b : ModelKey} {flag : Bool} (h : l.Hit g b flag) :
    l.Names b := by
  by_cases hk : l.kind = .self
  · exact ((hit_self hk).mp h).2.1
  · rcases (hit_of_ne_self hk).mp h with ⟨hb, -⟩ | ⟨-, rfl, -⟩
    · obtain ⟨-, h1, h2⟩ := Graph.mem_resolvedModels.mp hb
      exact ⟨h1, h2, fun h => absurd h hk⟩
    · exact ⟨rfl, rfl, fun h => absurd h hk⟩

end Link

theorem Graph.SameFlags.hit {g h : Graph} (hs : g.SameFlags h) (l : Link) (b : ModelKey)
    (flag : Bool) : l.Hit g b flag ↔ l.Hit h b flag := by
  by_cases hk : l.kind = .self
  · rw [Link.hit_self hk, Link.hit_self hk, Graph.mem_models_iff, Graph.mem_models_iff, hs b]
  · rw [Link.hit_of_ne_self hk, Link.hit_of_ne_self hk]
    unfold Merged
    rw [hs.mem_resolvedModels, hs.resolvedModels_eq_nil]

/-- The edge of a link to `b`: its `order` (`none` for a delegation, which has none). -/
def Graph.edge (g : Graph) (l : Link) (b : ModelKey) (flag : Bool) : Option (Option Nat) :=
  match l.kind with
  | .delegate viaField => (g.delegatesTo.lookup (l.source, (b, viaField), flag)).map fun _ => none
  | _ => g.inherits.lookup (l.source, b, flag)

/-! ## What the writer keeps true of its edges -/

/-- No edge dangles; only placeholders are marked; a flagged edge goes to a marked node, and
    never to one of the source's own name. -/
structure Graph.WellFormed (g : Graph) : Prop where
  inherits_ends : ∀ a b flag, (a, b, flag) ∈ g.inherits → a ∈ g.models ∧ b ∈ g.models
  delegates_ends : ∀ a b viaField flag, (a, (b, viaField), flag) ∈ g.delegatesTo →
    a ∈ g.models ∧ b ∈ g.models
  marked : ∀ k, g.modelFlag k = some true → k.module = unresolvedModule
  inherits_flag : ∀ a b, (a, b, true) ∈ g.inherits → g.modelFlag b = some true ∧ b.name ≠ a.name
  delegates_flag : ∀ a b viaField, (a, (b, viaField), true) ∈ g.delegatesTo →
    g.modelFlag b = some true

theorem Graph.wellFormed_empty : ({} : Graph).WellFormed where
  inherits_ends := by simp
  delegates_ends := by simp
  marked := by simp [Graph.modelFlag]
  inherits_flag := by simp
  delegates_flag := by simp

/-- A self-extension goes to the source's own name, a parent is called something else. -/
def Link.Proper (l : Link) : Prop :=
  (l.kind = .self → l.name = l.source.name) ∧ (l.kind = .parent → l.name ≠ l.source.name)

/-- A link statement is proper, and is sent for a model that is there. -/
def CodeStmt.ProperIn (st : CodeStmt) (g : Graph) : Prop :=
  ∀ l, st.link = some l → l.Proper ∧ l.source ∈ g.models

/-! ## One statement -/

theorem settled_backfillOrder (order : Nat) : Settled (backfillOrder order) := by
  intro o
  cases o <;> rfl

theorem settled_const {V : Type} (v : V) : Settled fun _ : Option V => v := fun _ => rfl

theorem inherits_exec_inheritParent (ps : List String) (g : Graph) (m : ModelKey) (parent : String)
    (order : Nat) :
    (exec ps g (inheritParent m parent order)).inherits =
      linkOrStub m (g.resolvedModels parent m.odooVersion) (stubModel parent m.odooVersion)
        (fun _ => some order) g.inherits := by
  by_cases h : g.resolvedModels parent m.odooVersion = [] <;> simp [exec, linkOrStub, h]

theorem delegatesTo_exec_delegateTo (ps : List String) (g : Graph) (m : ModelKey)
    (delegated viaField : String) :
    (exec ps g (delegateTo m delegated viaField)).delegatesTo =
      linkOrStub m ((g.resolvedModels delegated m.odooVersion).map (·, viaField))
        (stubModel delegated m.odooVersion, viaField) (fun _ => ()) g.delegatesTo := by
  by_cases h : g.resolvedModels delegated m.odooVersion = [] <;> simp [exec, linkOrStub, h]

/-- The `order` a statement writes, given the one it finds. -/
def CodeStmt.writeOrder : CodeStmt → Option (Option Nat) → Option Nat
  | extendSelf _ order => backfillOrder order
  | inheritParent _ _ order => fun _ => some order
  | _ => fun _ => none

namespace Graph.WellFormed

variable {g : Graph} (hg : g.WellFormed)
include hg

/-- An unmarked node is not the target of a flagged edge. -/
theorem no_flag_of_resolved {b : ModelKey} (hb : g.modelFlag b = some false) (a : ModelKey) :
    (a, b, true) ∉ g.inherits := by
  intro h
  have := (hg.inherits_flag a b h).1
  rw [hb] at this
  exact absurd this (by simp)

theorem no_delegate_flag_of_resolved {b : ModelKey} (hb : g.modelFlag b = some false)
    (a : ModelKey) (viaField : String) : (a, (b, viaField), true) ∉ g.delegatesTo := by
  intro h
  have := hg.delegates_flag a b viaField h
  rw [hb] at this
  exact absurd this (by simp)

theorem lookup_inherits_extendSelf (ps : List String) (m : ModelKey) (order : Nat)
    (a b : ModelKey) (flag : Bool) :
    (exec ps g (extendSelf m order)).inherits.lookup (a, b, flag) =
      if a = m ∧ (Link.mk .self m m.name).Hit g b flag then
        some (backfillOrder order (g.inherits.lookup (a, b, flag)))
      else g.inherits.lookup (a, b, flag) := by
  have htips : ∀ b, b ∈ ((g.modelsNamed m.name m.odooVersion).filter fun k => k.module ≠ m.module) ↔
      b ∈ g.models ∧ (Link.mk .self m m.name).Names b := by
    intro b
    simp [Graph.mem_modelsNamed, Link.Names, and_assoc]
  have hflag : ∀ b ∈ ((g.modelsNamed m.name m.odooVersion).filter fun k => k.module ≠ m.module),
      (m, b, true) ∉ g.inherits := by
    intro b hb h
    exact (hg.inherits_flag m b h).2 ((htips b).mp hb).2.1
  simp only [exec]
  rw [lookup_mergeAll_of_no_flag (settled_backfillOrder order) hflag]
  simp only [htips, Link.hit_self (l := ⟨.self, m, m.name⟩) rfl, and_assoc]

theorem lookup_inherits_inheritParent (ps : List String) (m : ModelKey) (parent : String)
    (order : Nat) (a b : ModelKey) (flag : Bool) :
    (exec ps g (inheritParent m parent order)).inherits.lookup (a, b, flag) =
      if a = m ∧ (Link.mk .parent m parent).Hit g b flag then some (some order)
      else g.inherits.lookup (a, b, flag) := by
  rw [inherits_exec_inheritParent, lookup_linkOrStub (settled_const _)]
  · refine if_congr (and_congr_right fun _ => ?_) rfl rfl
    exact (Link.hit_of_ne_self (l := ⟨.parent, m, parent⟩) (by simp)).symm
  · intro b hb
    exact hg.no_flag_of_resolved (Graph.mem_resolvedModels.mp hb).1 m

theorem lookup_delegatesTo_delegateTo (ps : List String) (m : ModelKey)
    (delegated viaField : String) (a b : ModelKey) (via' : String) (flag : Bool) :
    (exec ps g (delegateTo m delegated viaField)).delegatesTo.lookup (a, (b, via'), flag) =
      if a = m ∧ via' = viaField ∧ (Link.mk (.delegate viaField) m delegated).Hit g b flag then
        some ()
      else g.delegatesTo.lookup (a, (b, via'), flag) := by
  rw [delegatesTo_exec_delegateTo, lookup_linkOrStub (settled_const _)]
  · refine if_congr (and_congr_right fun _ => ?_) rfl rfl
    rw [Link.hit_of_ne_self (l := ⟨.delegate viaField, m, delegated⟩) (by simp)]
    unfold Merged
    simp only [List.mem_map, Prod.mk.injEq, List.map_eq_nil_iff]
    grind
  · intro b hb
    obtain ⟨k, hk, rfl⟩ := List.mem_map.mp hb
    exact hg.no_delegate_flag_of_resolved (Graph.mem_resolvedModels.mp hk).1 m viaField

/-- **A link statement, on an edge of its link.** -/
theorem edge_exec {st : CodeStmt} {l : Link} (hl : st.link = some l) (ps : List String)
    (b : ModelKey) (flag : Bool) :
    (exec ps g st).edge l b flag =
      if l.Hit g b flag then some (st.writeOrder (g.edge l b flag)) else g.edge l b flag := by
  cases st with
  | extendSelf m order =>
    obtain rfl := Option.some.inj hl
    simp only [Graph.edge, hg.lookup_inherits_extendSelf, true_and, writeOrder]
  | inheritParent m parent order =>
    obtain rfl := Option.some.inj hl
    simp only [Graph.edge, hg.lookup_inherits_inheritParent, true_and, writeOrder]
  | delegateTo m delegated viaField =>
    obtain rfl := Option.some.inj hl
    simp only [Graph.edge, hg.lookup_delegatesTo_delegateTo, true_and, writeOrder]
    split <;> rfl
  | _ => exact absurd hl (by simp [CodeStmt.link])

omit hg in
theorem inherits_exec_delegateTo (ps : List String) (m : ModelKey) (delegated viaField : String) :
    (exec ps g (delegateTo m delegated viaField)).inherits = g.inherits := by
  by_cases h : g.resolvedModels delegated m.odooVersion = [] <;> simp [exec, h]

omit hg in
theorem delegatesTo_exec_inheritParent (ps : List String) (m : ModelKey) (parent : String)
    (order : Nat) : (exec ps g (inheritParent m parent order)).delegatesTo = g.delegatesTo := by
  by_cases h : g.resolvedModels parent m.odooVersion = [] <;> simp [exec, h]

/-- **A statement of another link does not touch the edge.** -/
theorem edge_exec_of_ne {st : CodeStmt} {l : Link} (hl : st.link ≠ some l)
    (hst : ∀ l', st.link = some l' → l'.Proper) (hp : l.Proper) (ps : List String)
    {b : ModelKey} (hb : b.name = l.name) (flag : Bool) :
    (exec ps g st).edge l b flag = g.edge l b flag := by
  obtain ⟨kind, source, name⟩ := l
  obtain ⟨hself, hparent⟩ := hp
  simp only at hb hself hparent
  cases st with
  | extendSelf m order =>
    have hname : ∀ h : (Link.mk .self m m.name).Hit g b flag, name = m.name :=
      fun h => hb.symm.trans h.names.1
    cases kind with
    | self =>
      simp only [Graph.edge, hg.lookup_inherits_extendSelf]
      rw [if_neg]
      rintro ⟨rfl, hhit⟩
      exact hl (by rw [hname hhit]; rfl)
    | parent =>
      simp only [Graph.edge, hg.lookup_inherits_extendSelf]
      rw [if_neg]
      rintro ⟨rfl, hhit⟩
      exact hparent rfl (hname hhit)
    | delegate v => rfl
  | inheritParent m parent order =>
    have hname : ∀ h : (Link.mk .parent m parent).Hit g b flag, name = parent :=
      fun h => hb.symm.trans h.names.1
    cases kind with
    | self =>
      simp only [Graph.edge, hg.lookup_inherits_inheritParent]
      rw [if_neg]
      rintro ⟨rfl, hhit⟩
      exact (hst _ rfl).2 rfl ((hname hhit).symm.trans (hself rfl))
    | parent =>
      simp only [Graph.edge, hg.lookup_inherits_inheritParent]
      rw [if_neg]
      rintro ⟨rfl, hhit⟩
      exact hl (by rw [hname hhit]; rfl)
    | delegate v => simp only [Graph.edge, delegatesTo_exec_inheritParent]
  | delegateTo m delegated viaField =>
    cases kind with
    | delegate v =>
      simp only [Graph.edge, hg.lookup_delegatesTo_delegateTo]
      rw [if_neg]
      rintro ⟨rfl, rfl, hhit⟩
      exact hl (by rw [hb.symm.trans hhit.names.1]; rfl)
    | _ => simp only [Graph.edge, inherits_exec_delegateTo]
  | _ => cases kind <;> rfl

/-! ## Well-formedness is kept -/

omit hg in
/-- What a hit finds is there afterwards, and marked when the edge is flagged. -/
theorem hit_target {st : CodeStmt} {l : Link} (hl : st.link = some l) (ps : List String)
    {b : ModelKey} {flag : Bool} (hhit : l.Hit g b flag) :
    b ∈ (exec ps g st).models ∧
      (flag = true → (exec ps g st).modelFlag b = some true ∧ l.kind ≠ .self) := by
  have hstays : b ∈ g.models → b ∈ (exec ps g st).models := by
    intro hb
    obtain ⟨fl, hfl⟩ := Graph.mem_models_iff.mp hb
    exact Graph.mem_models_iff.mpr ⟨fl, modelFlag_exec_of_some hfl⟩
  by_cases hk : l.kind = .self
  · obtain ⟨hb, -, rfl⟩ := (Link.hit_self hk).mp hhit
    exact ⟨hstays hb, fun h => absurd h (by simp)⟩
  · rcases (Link.hit_of_ne_self hk).mp hhit with ⟨hb, rfl⟩ | ⟨hnil, rfl, rfl⟩
    · refine ⟨hstays (Graph.mem_models_iff.mpr ⟨false, (Graph.mem_resolvedModels.mp hb).1⟩), ?_⟩
      exact fun h => absurd h (by simp)
    · -- the placeholder: merged by this very statement, and not unmarked before
      have hmerge : st.modelMerge g =
          some (stubModel l.name l.source.odooVersion, .stub) := by
        cases st with
        | extendSelf m order =>
          obtain rfl := Option.some.inj hl
          exact absurd rfl hk
        | inheritParent m parent order =>
          obtain rfl := Option.some.inj hl
          simp only [modelMerge]
          rw [if_pos hnil]
        | delegateTo m delegated viaField =>
          obtain rfl := Option.some.inj hl
          simp only [modelMerge]
          rw [if_pos hnil]
        | _ => exact absurd hl (by simp [CodeStmt.link])
      have hmark : (exec ps g st).modelFlag (stubModel l.name l.source.odooVersion) = some true := by
        rw [modelFlag_exec, hmerge]
        simp only [if_true, ModelMerge.flag]
        cases hf : g.modelFlag (stubModel l.name l.source.odooVersion) with
        | none => rfl
        | some fl =>
          cases fl with
          | true => rfl
          | false => exact absurd hf (Graph.resolvedModels_eq_nil.mp hnil _ rfl rfl)
      exact ⟨Graph.mem_models_iff.mpr ⟨true, hmark⟩, fun _ => ⟨hmark, hk⟩⟩

theorem mem_inherits_exec {st : CodeStmt} {ps : List String} {a b : ModelKey} {flag : Bool}
    (h : (a, b, flag) ∈ (exec ps g st).inherits) :
    (a, b, flag) ∈ g.inherits ∨
      ∃ l, st.link = some l ∧ (l.kind = .self ∨ l.kind = .parent) ∧ a = l.source ∧ l.Hit g b flag := by
  rw [← AList.lookup_isSome] at h ⊢
  cases st with
  | extendSelf m order =>
    rw [hg.lookup_inherits_extendSelf] at h
    split at h
    · rename_i hhit
      exact Or.inr ⟨_, rfl, Or.inl rfl, hhit.1, hhit.2⟩
    · exact Or.inl h
  | inheritParent m parent order =>
    rw [hg.lookup_inherits_inheritParent] at h
    split at h
    · rename_i hhit
      exact Or.inr ⟨_, rfl, Or.inr rfl, hhit.1, hhit.2⟩
    · exact Or.inl h
  | delegateTo m delegated viaField =>
    rw [inherits_exec_delegateTo] at h
    exact Or.inl h
  | _ => exact Or.inl h

theorem mem_delegatesTo_exec {st : CodeStmt} {ps : List String} {a b : ModelKey} {via : String}
    {flag : Bool} (h : (a, (b, via), flag) ∈ (exec ps g st).delegatesTo) :
    (a, (b, via), flag) ∈ g.delegatesTo ∨
      ∃ l, st.link = some l ∧ l.kind = .delegate via ∧ a = l.source ∧ l.Hit g b flag := by
  rw [← AList.lookup_isSome] at h ⊢
  cases st with
  | delegateTo m delegated viaField =>
    rw [hg.lookup_delegatesTo_delegateTo] at h
    split at h
    · rename_i hhit
      obtain ⟨ha, rfl, hhit⟩ := hhit
      exact Or.inr ⟨_, rfl, rfl, ha, hhit⟩
    · exact Or.inl h
  | inheritParent m parent order =>
    rw [delegatesTo_exec_inheritParent] at h
    exact Or.inl h
  | _ => exact Or.inl h

/-- **A proper statement keeps the graph well formed.** -/
theorem exec {st : CodeStmt} (hst : st.ProperIn g) (ps : List String) :
    (CodeStmt.exec ps g st).WellFormed := by
  have hstays : ∀ k, k ∈ g.models → k ∈ (CodeStmt.exec ps g st).models := by
    intro k hk
    obtain ⟨fl, hfl⟩ := Graph.mem_models_iff.mp hk
    exact Graph.mem_models_iff.mpr ⟨fl, modelFlag_exec_of_some hfl⟩
  constructor
  · intro a b flag h
    rcases hg.mem_inherits_exec h with h | ⟨l, hl, -, rfl, hhit⟩
    · obtain ⟨ha, hb⟩ := hg.inherits_ends a b flag h
      exact ⟨hstays a ha, hstays b hb⟩
    · exact ⟨hstays _ (hst l hl).2, (hit_target hl ps hhit).1⟩
  · intro a b via flag h
    rcases hg.mem_delegatesTo_exec h with h | ⟨l, hl, -, rfl, hhit⟩
    · obtain ⟨ha, hb⟩ := hg.delegates_ends a b via flag h
      exact ⟨hstays a ha, hstays b hb⟩
    · exact ⟨hstays _ (hst l hl).2, (hit_target hl ps hhit).1⟩
  · intro k hk
    rw [modelFlag_exec] at hk
    cases hm : st.modelMerge g with
    | none =>
      rw [hm] at hk
      exact hg.marked k hk
    | some kt =>
      rw [hm] at hk
      by_cases hkt : k = kt.1
      · cases hf : g.modelFlag k with
        | some fl =>
          simp only [hkt, if_true] at hk
          rw [← hkt, hf] at hk
          exact hg.marked k (hf.trans hk)
        | none =>
          simp only [hkt, if_true] at hk
          rw [← hkt, hf, Option.getD_none, Option.some.injEq] at hk
          exact hkt ▸ module_of_modelMerge hm hk
      · simp only [hkt, if_false] at hk
        exact hg.marked k hk
  · intro a b h
    rcases hg.mem_inherits_exec h with h | ⟨l, hl, hkind, rfl, hhit⟩
    · obtain ⟨hf, hne⟩ := hg.inherits_flag a b h
      exact ⟨modelFlag_exec_of_some hf, hne⟩
    · obtain ⟨hf, hk⟩ := (hit_target hl ps hhit).2 rfl
      have hparent : l.kind = .parent := hkind.resolve_left hk
      exact ⟨hf, by rw [hhit.names.1]; exact (hst l hl).1.2 hparent⟩
  · intro a b via h
    rcases hg.mem_delegatesTo_exec h with h | ⟨l, hl, -, rfl, hhit⟩
    · exact modelFlag_exec_of_some (hg.delegates_flag a b via h)
    · exact ((hit_target hl ps hhit).2 rfl).1

end Graph.WellFormed

end OdooSemantic
