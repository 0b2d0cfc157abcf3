import Mathlib.Data.List.Basic
import Mathlib.Data.List.Forall2

/-!
# Steps that may raise, and scripts of statements that may fail

What has come to an end has done so at every step (`Fallible`).

A statement changes a state or fails, and one that fails changes nothing. A script can be run in
two ways: up to the first failure (`runStrict`), or statement after statement whatever became of
those before (`runAll`). The second way always comes to an end and does not say whether anything
has failed on it; the two agree on the scripts that run cleanly (`runAll_of_runStrict`).
-/

namespace OdooSemantic
namespace Fallible

variable {E A B : Type}

theorem of_bind_eq_ok {x : Except E A} {f : A → Except E B} {b : B} (h : x.bind f = .ok b) :
    ∃ a, x = .ok a ∧ f a = .ok b := by
  cases x with
  | error e => exact absurd h (by simp [Except.bind])
  | ok a => exact ⟨a, rfl, h⟩

theorem of_map_eq_ok {x : Except E A} {f : A → B} {b : B} (h : x.map f = .ok b) :
    ∃ a, x = .ok a ∧ f a = b := by
  cases x with
  | error e => exact absurd h (by simp [Except.map])
  | ok a => exact ⟨a, rfl, Except.ok.inj h⟩

/-- Item by item. -/
theorem mapM_eq_ok_iff {f : A → Except E B} {as : List A} {bs : List B} :
    as.mapM f = .ok bs ↔ List.Forall₂ (fun a b => f a = .ok b) as bs := by
  induction as generalizing bs with
  | nil => simp [pure, Except.pure, eq_comm]
  | cons a as ih =>
    rw [List.mapM_cons, List.forall₂_cons_left_iff]
    simp only [← ih, bind, Except.bind, pure, Except.pure]
    cases f a with
    | error e => simp
    | ok b =>
      cases as.mapM f with
      | error e => simp
      | ok bs => simp [eq_comm]

theorem mapM_isOk_iff {f : A → Except E B} {as : List A} :
    (∃ bs, as.mapM f = .ok bs) ↔ ∀ a ∈ as, ∃ b, f a = .ok b := by
  induction as with
  | nil => simp [pure, Except.pure]
  | cons a as ih =>
    rw [List.mapM_cons, List.forall_mem_cons, ← ih]
    simp only [bind, Except.bind, pure, Except.pure]
    cases f a with
    | error e => simp
    | ok b =>
      cases as.mapM f with
      | error e => simp
      | ok bs => simp

end Fallible

namespace Script

variable {D S : Type} (exec : S → D → Option D)

/-- Up to the first statement that fails. -/
def runStrict : List S → D → Option D
  | [], d => some d
  | s :: script, d => (exec s d).bind (runStrict script)

/-- Every statement in its turn. -/
def runAll : List S → D → D
  | [], d => d
  | s :: script, d => runAll script ((exec s d).getD d)

/-- No statement fails. -/
def Clean (script : List S) (d : D) : Prop := (runStrict exec script d).isSome

instance (script : List S) (d : D) : Decidable (Clean exec script d) :=
  inferInstanceAs (Decidable (_ = true))

variable {exec} {script : List S} {d d' : D}

theorem clean_iff : Clean exec script d ↔ ∃ d', runStrict exec script d = some d' :=
  Option.isSome_iff_exists

theorem runAll_of_runStrict (h : runStrict exec script d = some d') :
    runAll exec script d = d' := by
  induction script generalizing d with
  | nil => exact Option.some.inj h
  | cons s script ih =>
    rw [runStrict] at h
    obtain ⟨e, he, hrest⟩ := Option.bind_eq_some_iff.mp h
    rw [runAll, he, Option.getD_some]
    exact ih hrest

end Script

end OdooSemantic
