import Mathlib.Data.Finset.Card
import Mathlib.Data.Fintype.Pigeonhole
import Mathlib.Data.Set.Finite.Basic
import Mathlib.Logic.Relation

/-!
# Parents, and the queries that follow them

A parent function is a forest where no walk up comes back (`Acyclic`). One new edge keeps it one,
unless the walk from its upper end reaches its lower end (`Acyclic.link`).

A recursive query computes one working table from the other, until one is empty (`Terminates`).
On a forest with finitely many parents both directions end: the walk up loses height with every
round, and the walk down gains it (`Acyclic.terminates_up`, `Acyclic.terminates_down`).

Where a step may go more than one way: in a finite set where everything leads on to something of the
set, everything leads to a cycle (`Cycles.reachesCycle_of_finite`), and where every step goes down,
nothing does (`Cycles.not_reachesCycle_of_descends`).
-/

namespace OdooSemantic
namespace Forest

open Relation

variable {K : Type} {parent parent' : K → Option K} {a b : K}

/-- From a child to its parent. -/
def Up (parent : K → Option K) (a b : K) : Prop := parent a = some b

def Acyclic (parent : K → Option K) : Prop := ∀ a, ¬TransGen (Up parent) a a

theorem acyclic_none : Acyclic fun _ : K => none := by
  intro a h
  obtain ⟨b, hb, -⟩ := TransGen.head'_iff.mp h
  exact absurd hb (by simp [Up])

/-- **One new edge**, and some of the old ones. -/
theorem Acyclic.link {child above : K} (h : Acyclic parent)
    (hedges : ∀ a b, parent' a = some b → parent a = some b ∨ a = child ∧ b = above)
    (hback : ¬ReflTransGen (Up parent) above child) : Acyclic parent' := by
  have hwalk : ∀ x y, TransGen (Up parent') x y → TransGen (Up parent) x y ∨
      ReflTransGen (Up parent) x child ∧ ReflTransGen (Up parent) above y := by
    intro x y hxy
    induction hxy with
    | single hedge =>
      rcases hedges _ _ hedge with hold | ⟨rfl, rfl⟩
      · exact Or.inl (.single hold)
      · exact Or.inr ⟨.refl, .refl⟩
    | tail _ hedge ih =>
      rcases hedges _ _ hedge with hold | ⟨rfl, rfl⟩ <;> rcases ih with ih | ⟨hx, hm⟩
      · exact Or.inl (ih.tail hold)
      · exact Or.inr ⟨hx, hm.tail hold⟩
      · exact Or.inr ⟨ih.to_reflTransGen, .refl⟩
      · exact absurd hm hback
  intro x hx
  rcases hwalk x x hx with hold | ⟨hchild, habove⟩
  · exact h x hold
  · exact hback (habove.trans hchild)

theorem Acyclic.mono (h : Acyclic parent)
    (hsub : ∀ a b, parent' a = some b → parent a = some b) : Acyclic parent' :=
  fun a ha => h a (TransGen.mono hsub a a ha)

/-! ## Height -/

section Height

open Classical in
/-- The number of ancestors. -/
noncomputable def height (parent : K → Option K) (keys : Finset K) (a : K) : Nat :=
  (keys.filter fun b => TransGen (Up parent) a b).card

variable {keys : Finset K}

theorem height_le (a : K) : height parent keys a ≤ keys.card := by
  classical
  exact Finset.card_filter_le _ _

theorem Acyclic.height_lt (h : Acyclic parent) (hb : b ∈ keys) (hab : parent a = some b) :
    height parent keys b < height parent keys a := by
  classical
  refine Finset.card_lt_card (Finset.ssubset_iff_of_subset (fun c hc => ?_) |>.mpr ⟨b, ?_, ?_⟩)
  · rw [Finset.mem_filter] at hc ⊢
    exact ⟨hc.1, .head hab hc.2⟩
  · exact Finset.mem_filter.mpr ⟨hb, .single hab⟩
  · intro hself
    exact h b (Finset.mem_filter.mp hself).2

end Height

/-! ## Recursive queries -/

/-- `UNION ALL`: the working table behind `n` rounds. -/
def rounds (next : K → List K) : Nat → List K → List K
  | 0, start => start
  | n + 1, start => rounds next n (start.flatMap next)

def Terminates (next : K → List K) (start : List K) : Prop := ∃ n, rounds next n start = []

variable {next : K → List K} {start : List K}

theorem rounds_eq_nil {m : K → Nat} (hm : ∀ a, ∀ b ∈ next a, m b < m a) {n : Nat}
    (hstart : ∀ a ∈ start, m a < n) : rounds next n start = [] := by
  induction n generalizing start with
  | zero =>
    refine List.eq_nil_iff_forall_not_mem.mpr fun a ha => ?_
    exact absurd (hstart a ha) (Nat.not_lt_zero _)
  | succ n ih =>
    refine ih fun b hb => ?_
    obtain ⟨a, ha, hab⟩ := List.mem_flatMap.mp hb
    exact Nat.lt_of_lt_of_le (hm a b hab) (Nat.le_of_lt_succ (hstart a ha))

theorem terminates_of_measure {m : K → Nat} {bound : Nat} (hm : ∀ a, ∀ b ∈ next a, m b < m a)
    (hbound : ∀ a, m a ≤ bound) (start : List K) : Terminates next start :=
  ⟨bound + 1, rounds_eq_nil hm fun a _ => Nat.lt_succ_of_le (hbound a)⟩

/-- What can always go on does not end. -/
theorem not_terminates {P : K → Prop} (hnext : ∀ a, P a → ∃ b ∈ next a, P b)
    (hstart : ∃ a ∈ start, P a) : ¬Terminates next start := by
  rintro ⟨n, hn⟩
  induction n generalizing start with
  | zero =>
    obtain ⟨a, ha, -⟩ := hstart
    rw [show start = [] from hn] at ha
    exact absurd ha (by simp)
  | succ n ih =>
    refine ih ?_ hn
    obtain ⟨a, ha, hP⟩ := hstart
    obtain ⟨b, hb, hPb⟩ := hnext a hP
    exact ⟨b, List.mem_flatMap.mpr ⟨a, ha, hb⟩, hPb⟩

variable {keys : Finset K}

theorem Acyclic.terminates_up (h : Acyclic parent) (hkeys : ∀ a b, parent a = some b → b ∈ keys)
    (hnext : ∀ a, ∀ b ∈ next a, parent a = some b) (start : List K) : Terminates next start :=
  terminates_of_measure (m := height parent keys)
    (fun a b hb => h.height_lt (hkeys a b (hnext a b hb)) (hnext a b hb)) height_le start

theorem Acyclic.terminates_down (h : Acyclic parent) (hkeys : ∀ a b, parent a = some b → b ∈ keys)
    (hnext : ∀ a, ∀ b ∈ next a, parent b = some a) (start : List K) : Terminates next start := by
  refine terminates_of_measure (m := fun a => keys.card - height parent keys a) (fun a b hb => ?_)
    (fun a => Nat.sub_le _ _) start
  have hlt := h.height_lt (hkeys b a (hnext a b hb)) (hnext a b hb)
  have hle : height parent keys b ≤ keys.card := height_le b
  omega

end Forest

/-! ## What leads to a cycle -/

namespace Cycles

variable {α : Type} {R : α → α → Prop}

/-- On a cycle, or in front of one. -/
def ReachesCycle (R : α → α → Prop) (a : α) : Prop :=
  ∃ c, Relation.ReflTransGen R a c ∧ Relation.TransGen R c c

theorem transGen_iterate {f : α → α} (hf : ∀ a, R a (f a)) (a : α) (n : Nat) :
    Relation.TransGen R a (f^[n + 1] a) := by
  induction n with
  | zero => exact Relation.TransGen.single (hf a)
  | succ n ih =>
    rw [Function.iterate_succ_apply']
    exact ih.tail (hf _)

theorem reflTransGen_iterate {f : α → α} (hf : ∀ a, R a (f a)) (a : α) (n : Nat) :
    Relation.ReflTransGen R a (f^[n] a) := by
  cases n with
  | zero => exact Relation.ReflTransGen.refl
  | succ n => exact (transGen_iterate hf a n).to_reflTransGen

theorem reachesCycle_of_lt {f : α → α} (hf : ∀ a, R a (f a)) {a : α} {m n : Nat} (hlt : m < n)
    (heq : f^[m] a = f^[n] a) : ReachesCycle R a := by
  obtain ⟨k, rfl⟩ : ∃ k, n = (k + 1) + m := ⟨n - m - 1, by omega⟩
  refine ⟨f^[m] a, reflTransGen_iterate hf a m, ?_⟩
  have hcycle := transGen_iterate hf (f^[m] a) k
  rwa [← Function.iterate_add_apply, ← heq] at hcycle

/-- Everything of the set leads on within it. -/
theorem reachesCycle_of_finite {S : Set α} (hfin : S.Finite) (hnext : ∀ a ∈ S, ∃ b ∈ S, R a b)
    {a : α} (ha : a ∈ S) : ReachesCycle R a := by
  have : Finite S := hfin
  choose! next hmem hstep using hnext
  let f : S → S := fun s => ⟨next s, hmem s s.2⟩
  obtain ⟨m, n, hne, heq⟩ := Finite.exists_ne_map_eq_of_infinite fun n => f^[n] ⟨a, ha⟩
  have hf : ∀ s : S, InvImage R Subtype.val s (f s) := fun s => hstep s s.2
  have hreaches : ReachesCycle (InvImage R Subtype.val) (⟨a, ha⟩ : S) := by
    rcases Nat.lt_or_gt_of_ne hne with hlt | hlt
    · exact reachesCycle_of_lt hf hlt heq
    · exact reachesCycle_of_lt hf hlt heq.symm
  obtain ⟨c, hpath, hcycle⟩ := hreaches
  exact ⟨c, hpath.lift Subtype.val fun _ _ h => h, hcycle.lift Subtype.val fun _ _ h => h⟩

section Descends

variable {S : Set α} {rank : α → Nat} (hdown : ∀ a ∈ S, ∀ b, R a b → b ∈ S ∧ rank b < rank a)

include hdown in
theorem descends {a b : α} (h : Relation.TransGen R a b) (ha : a ∈ S) :
    b ∈ S ∧ rank b < rank a := by
  induction h with
  | single hstep => exact hdown a ha _ hstep
  | tail hpath hstep ih =>
    obtain ⟨hmem, hlt⟩ := hdown _ ih.1 _ hstep
    exact ⟨hmem, lt_trans hlt ih.2⟩

include hdown in
theorem not_reachesCycle_of_descends {a : α} (ha : a ∈ S) : ¬ ReachesCycle R a := by
  rintro ⟨c, hpath, hcycle⟩
  have hc : c ∈ S := by
    rcases Relation.reflTransGen_iff_eq_or_transGen.mp hpath with rfl | hpath
    · exact ha
    · exact (descends hdown hpath ha).1
  exact absurd (descends hdown hcycle hc).2 (lt_irrefl _)

end Descends

end Cycles

end OdooSemantic
