import Mathlib.Data.List.Basic

/-!
# What a list of changes leaves behind

Facts about a fold that do not look at the order of the list: what none of the changes touches is
as it was, and what one of them settles and none unsettles is settled in the end.

A writer that died half way is run again from the start, on a state that already holds a
prefix of its own writes. Whether that is harmless is a question about the *letters* the
writer is a word of, and this file answers it for one cell of the state.

A letter `x` is *last-write-wins* among a family when applying it twice is applying it once,
and when what it leaves behind does not let any letter of the family tell apart two states
`x` itself identifies. Then an earlier `x` is absorbed by a later `x`, whatever came in
between (`run_absorb`), and so a whole word is absorbed by any word that repeats its letters
(`Replayable.run_run`). The second is the form a retry is used in: the word is the writer's list of
effects and the absorbed one is whatever prefix of it a previous attempt got through.
-/

namespace OdooSemantic
namespace Folds

variable {S A B : Type} {f : S → A → S} {as : List A}

/-- What every change keeps, all of them keep. -/
theorem foldl_keeps {P : S → Prop} (h : ∀ a ∈ as, ∀ s, P s → P (f s a)) {s : S} (hs : P s) :
    P (as.foldl f s) := by
  induction as generalizing s with
  | nil => exact hs
  | cons a as ih =>
    exact ih (fun b hb => h b (List.mem_cons_of_mem _ hb)) (h a List.mem_cons_self s hs)

/-- What no change touches. -/
theorem foldl_of_forall {F : S → B} (h : ∀ a ∈ as, ∀ s, F (f s a) = F s) (s : S) :
    F (as.foldl f s) = F s :=
  foldl_keeps (P := fun s' => F s' = F s) (fun a ha s' hs' => (h a ha s').trans hs') rfl

/-- **What some change settles**, wherever `Q` holds, which no change undoes either. -/
theorem foldl_of_exists {P Q : S → Prop} {a : A} (ha : a ∈ as)
    (hsettles : ∀ s, Q s → P (f s a)) (hP : ∀ b ∈ as, ∀ s, P s → P (f s b))
    (hQ : ∀ b ∈ as, ∀ s, Q s → Q (f s b)) {s : S} (hs : Q s) : P (as.foldl f s) := by
  obtain ⟨before, after, rfl⟩ := List.append_of_mem ha
  rw [List.foldl_append, List.foldl_cons]
  have hbefore : Q (before.foldl f s) := foldl_keeps (fun b hb => hQ b (by simp [hb])) hs
  exact foldl_keeps (fun b hb => hP b (by simp [hb])) (hsettles _ hbefore)

end Folds

namespace Replay

variable {σ : Type}

/-- Apply a list of letters, the first one first. -/
def run (fs : List (σ → σ)) (s : σ) : σ := fs.foldl (fun s f => f s) s

@[simp] theorem run_nil (s : σ) : run [] s = s := rfl

@[simp] theorem run_cons (f : σ → σ) (fs : List (σ → σ)) (s : σ) :
    run (f :: fs) s = run fs (f s) := rfl

theorem run_append (fs gs : List (σ → σ)) (s : σ) : run (fs ++ gs) s = run gs (run fs s) := by
  simp [run]

/-- Every letter of `fs` is idempotent, and no letter separates what another one merges. -/
structure Replayable (fs : List (σ → σ)) : Prop where
  idem : ∀ x ∈ fs, ∀ s, x (x s) = x s
  blind : ∀ x ∈ fs, ∀ f ∈ fs, ∀ s s', x s = x s' → x (f s) = x (f s')

namespace Replayable

variable {fs : List (σ → σ)}

/-- Two states `x` merges stay merged, whatever word of the family runs on both. -/
theorem run_blind (h : Replayable fs) {x : σ → σ} (hx : x ∈ fs) {ys : List (σ → σ)}
    (hys : ∀ y ∈ ys, y ∈ fs) {s s' : σ} (he : x s = x s') : x (run ys s) = x (run ys s') := by
  induction ys generalizing s s' with
  | nil => exact he
  | cons y ys ih =>
    have hy : x (y s) = x (y s') := h.blind x hx y (hys y List.mem_cons_self) s s' he
    exact ih (fun z hz => hys z (List.mem_cons_of_mem _ hz)) hy

/-- A letter is absorbed by a later word that contains it. -/
theorem run_absorb (h : Replayable fs) {x : σ → σ} (hx : x ∈ fs) (s : σ) :
    run fs (x s) = run fs s := by
  obtain ⟨as, bs, hsplit⟩ := List.append_of_mem hx
  have hsub : ∀ y ∈ as, y ∈ fs := fun y hy => hsplit ▸ List.mem_append_left _ hy
  have hmid : x (run as (x s)) = x (run as s) := h.run_blind hx hsub (h.idem x hx s)
  calc run fs (x s)
      = run bs (x (run as (x s))) := by rw [hsplit, run_append, run_cons]
    _ = run bs (x (run as s)) := by rw [hmid]
    _ = run fs s := by rw [hsplit, run_append, run_cons]

/-- **A word is absorbed by a later word that repeats its letters.** -/
theorem run_run (h : Replayable fs) {us : List (σ → σ)} (hus : ∀ u ∈ us, u ∈ fs) (s : σ) :
    run fs (run us s) = run fs s := by
  induction us generalizing s with
  | nil => rfl
  | cons u us ih =>
    rw [run_cons, ih (fun v hv => hus v (List.mem_cons_of_mem _ hv)),
      h.run_absorb (hus u List.mem_cons_self)]

end Replayable

end Replay

end OdooSemantic
