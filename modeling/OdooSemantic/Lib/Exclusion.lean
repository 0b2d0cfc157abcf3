import Mathlib.Logic.Function.Basic

/-!
# One at a time

A flag that is up exactly while somebody is inside, and nobody is inside with somebody else. Who
goes in when the flag is down, and puts it up, keeps it so; so does who comes out and takes it
down. Nothing else is said about the flag: two who go in together have to look at it again, or
the second takes it down for the first.

`Behind` is about what one at a time does to some data. Who is inside is at a place `p`, and knows
`Inside t p` about the data; while nobody is inside, the data meet `Free`. It does not matter how
the others are kept out: who goes in shows that nobody is there.
-/

namespace OdooSemantic

section Flag

variable {T : Type}

/-- The flag is up while somebody is inside, and that is one at most. -/
structure Guarded (inside : T → Prop) (flag : Bool) : Prop where
  flag_iff : flag = true ↔ ∃ t, inside t
  unique : ∀ t u, inside t → inside u → t = u

namespace Guarded

variable {inside inside' : T → Prop} {flag : Bool} {t : T}

theorem nobody (h : ∀ t, ¬inside t) : Guarded inside false where
  flag_iff := ⟨fun hflag => absurd hflag (by simp), fun ⟨t, ht⟩ => absurd ht (h t)⟩
  unique := fun t _ ht => absurd ht (h t)

theorem congr (h : Guarded inside flag) (heq : ∀ t, inside' t ↔ inside t) :
    Guarded inside' flag where
  flag_iff := h.flag_iff.trans (exists_congr fun t => (heq t).symm)
  unique := fun t u ht hu => h.unique t u ((heq t).mp ht) ((heq u).mp hu)

theorem not_inside (h : Guarded inside false) (t : T) : ¬inside t :=
  fun ht => absurd (h.flag_iff.mpr ⟨t, ht⟩) (by simp)

theorem enter (h : Guarded inside false) (heq : ∀ u, inside' u ↔ u = t ∨ inside u) :
    Guarded inside' true where
  flag_iff := ⟨fun _ => ⟨t, (heq t).mpr (Or.inl rfl)⟩, fun _ => rfl⟩
  unique := by
    intro u v hu hv
    have hu' := ((heq u).mp hu).resolve_right (h.not_inside u)
    have hv' := ((heq v).mp hv).resolve_right (h.not_inside v)
    exact hu'.trans hv'.symm

/-- Who comes out was alone. -/
theorem leave (h : Guarded inside flag) (ht : inside t)
    (heq : ∀ u, inside' u → u ≠ t ∧ inside u) : Guarded inside' false :=
  nobody fun u hu => (heq u hu).1 (h.unique u t (heq u hu).2 ht)

end Guarded

end Flag

/-! ## Data behind a lock -/

section Data

variable {T P D : Type}

/-- One at most is inside, and the data are as they have to be for where it is. -/
structure Behind (Free : D → Prop) (Inside : T → P → D → Prop) (place : T → Option P) (d : D) :
    Prop where
  unique : ∀ t u p q, place t = some p → place u = some q → t = u
  inside : ∀ t p, place t = some p → Inside t p d
  free : (∀ t, place t = none) → Free d

namespace Behind

variable {Free : D → Prop} {Inside : T → P → D → Prop} {place place' : T → Option P} {d d' : D}
  {t : T} {p p' : P}

theorem nobody (hnone : ∀ t, place t = none) (hd : Free d) : Behind Free Inside place d where
  unique := fun t _ _ _ ht _ => absurd (ht.symm.trans (hnone t)) (by simp)
  inside := fun t _ ht => absurd (ht.symm.trans (hnone t)) (by simp)
  free := fun _ => hd

/-- Nobody has gone in, come out, or moved. -/
theorem congr (h : Behind Free Inside place d) (heq : ∀ u, place' u = place u) :
    Behind Free Inside place' d := by
  obtain rfl : place' = place := funext heq
  exact h

/-- There is nobody else. -/
theorem alone (h : Behind Free Inside place d) (ht : place t = some p) {u : T} (hu : u ≠ t) :
    place u = none := by
  cases hq : place u with
  | none => rfl
  | some q => exact absurd (h.unique u t q p hq ht) hu

/-- Whoever is at `t` now is inside, and nobody else is. -/
theorem only (ht : place' t = some p') (hothers : ∀ u, u ≠ t → place' u = none)
    (hd : Inside t p' d') : Behind Free Inside place' d' where
  unique := by
    have hall : ∀ u q, place' u = some q → u = t := by
      intro u q hu
      by_contra hne
      exact absurd (hu.symm.trans (hothers u hne)) (by simp)
    intro u v q r hu hv
    exact (hall u q hu).trans (hall v r hv).symm
  inside := by
    intro u q hu
    by_cases hne : u = t
    · subst hne
      obtain rfl := Option.some.inj (ht.symm.trans hu)
      exact hd
    · exact absurd (hu.symm.trans (hothers u hne)) (by simp)
  free := fun hnone => absurd (ht.symm.trans (hnone t)) (by simp)

theorem enter (hnone : ∀ u, u ≠ t → place u = none) (ht : place' t = some p')
    (hothers : ∀ u, u ≠ t → place' u = place u) (hd : Inside t p' d') :
    Behind Free Inside place' d' :=
  only ht (fun u hu => (hothers u hu).trans (hnone u hu)) hd

/-- One step of who is inside. -/
theorem move (h : Behind Free Inside place d) (ht : place t = some p) (ht' : place' t = some p')
    (hothers : ∀ u, u ≠ t → place' u = place u) (hd : Inside t p' d') :
    Behind Free Inside place' d' :=
  enter (fun _ hu => h.alone ht hu) ht' hothers hd

theorem leave (h : Behind Free Inside place d) (ht : place t = some p) (ht' : place' t = none)
    (hothers : ∀ u, u ≠ t → place' u = place u) (hd : Free d') :
    Behind Free Inside place' d' := by
  apply nobody
  · intro u
    by_cases hu : u = t
    · exact hu ▸ ht'
    · exact (hothers u hu).trans (h.alone ht hu)
  · exact hd

end Behind

end Data

end OdooSemantic
