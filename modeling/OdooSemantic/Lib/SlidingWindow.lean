import Mathlib.Data.List.Forall2

/-!
# A limit for every window, from a count that looks back

A limiter that keeps a log counts, when something arrives, what it has logged during the window
before, and admits no more than `limit`. That bounds every window there is, wherever it begins
(`Limited.length_within_le`): the newest event of a window has the others among those it was
counted against. Nothing is asked of the clock.

`Counted` is the same for any notion of what a count takes in. Where the log is sorted, a limiter
may as well drop what is too old from its front (`dropWhile_eq_filter`).

What is limited and what is counted need not be the same. `countP_le_of_sublistForall₂` compares
a log with the rows that something else keeps about it.
-/

namespace OdooSemantic
namespace SlidingWindow

/-! ## Counts of any kind -/

section Counted

variable {E : Type} {sees : E → E → Bool} {limit : Nat}

/-- Newest first, and each was admitted by a count of those before it that it sees. -/
inductive Counted (sees : E → E → Bool) (limit : Nat) : List E → Prop
  | nil : Counted sees limit []
  | cons {e : E} {log : List E} (hcount : (log.filter (sees e)).length < limit)
      (h : Counted sees limit log) : Counted sees limit (e :: log)

/-- **Where all see each other, there are no more than the limit.** -/
theorem Counted.length_filter_le {log : List E} (h : Counted sees limit log) {p : E → Bool}
    (hp : ∀ e f, p e = true → p f = true → sees e f = true) : (log.filter p).length ≤ limit := by
  induction h with
  | nil => exact Nat.zero_le _
  | @cons e log hcount _ ih =>
    cases he : p e with
    | true =>
      -- the newest of them: it has counted the others when it came
      rw [List.filter_cons_of_pos he, List.length_cons]
      have hle := (List.monotone_filter_right log fun f hf => hp e f he hf).length_le
      omega
    | false =>
      rw [List.filter_cons_of_neg (by simp [he])]
      exact ih

/-- The front of a list, where what holds of a member holds of those before it. -/
theorem dropWhile_eq_filter {p : E → Bool} {log : List E}
    (h : log.Pairwise fun e f => p f = true → p e = true) :
    log.dropWhile p = log.filter fun e => !p e := by
  induction log with
  | nil => rfl
  | cons e log ih =>
    obtain ⟨hhead, htail⟩ := List.pairwise_cons.mp h
    cases he : p e with
    | true => simp [he, ih htail]
    | false =>
      rw [List.dropWhile_cons_of_neg (by simp [he])]
      refine (List.filter_eq_self.mpr fun f hf => ?_).symm
      cases List.mem_cons.mp hf with
      | inl heq => simp [heq, he]
      | inr hmem =>
        have := mt (hhead f hmem) (by simp [he])
        simpa using this

end Counted

/-! ## Windows of time -/

variable {E : Type} (time : E → Nat) (window limit : Nat)

/-- What is counted at `now`. -/
def recent (now : Nat) (log : List E) : List E := log.filter fun e => now < time e + window

/-- What lies in the window that begins after `start`. -/
def within (start : Nat) (log : List E) : List E :=
  log.filter fun e => start < time e && time e ≤ start + window

/-- Newest first, and each was admitted by a count of those before it. -/
inductive Limited : List E → Prop
  | nil : Limited []
  | cons {e : E} {log : List E} (hcount : (recent time window (time e) log).length < limit)
      (h : Limited log) : Limited (e :: log)

variable {time window limit}

theorem Limited.counted {log : List E} (h : Limited time window limit log) :
    Counted (fun e f => time e < time f + window) limit log := by
  induction h with
  | nil => exact .nil
  | cons hcount _ ih => exact .cons hcount ih

/-- **No window holds more than the limit.** -/
theorem Limited.length_within_le {log : List E} (h : Limited time window limit log)
    (start : Nat) : (within time window start log).length ≤ limit := by
  refine h.counted.length_filter_le fun e f he hf => ?_
  simp only [Bool.and_eq_true, decide_eq_true_eq] at he hf ⊢
  omega

/-- One that is limited may be joined by an event nobody counts. -/
theorem Limited.filter_cons {p : E → Bool} {e : E} {log : List E}
    (h : Limited time window limit (log.filter p))
    (hcount : p e = true → (recent time window (time e) (log.filter p)).length < limit) :
    Limited time window limit ((e :: log).filter p) := by
  cases hp : p e with
  | false =>
    rw [List.filter_cons_of_neg (by simp [hp])]
    exact h
  | true =>
    rw [List.filter_cons_of_pos hp]
    exact .cons (hcount hp) h

/-- Each thing that is kept about the one is kept about the other. -/
theorem countP_le_of_sublistForall₂ {F : Type} {R : E → F → Prop} {p : E → Bool} {q : F → Bool}
    (hpq : ∀ e f, R e f → p e = true → q f = true) {es : List E} {fs : List F}
    (h : List.SublistForall₂ R es fs) : es.countP p ≤ fs.countP q := by
  induction h with
  | nil => simp
  | @cons e f es fs hR _ ih =>
    rw [List.countP_cons, List.countP_cons]
    by_cases hp : p e = true
    · rw [if_pos hp, if_pos (hpq e f hR hp)]
      exact Nat.succ_le_succ ih
    · rw [if_neg hp]
      exact Nat.le_trans ih (Nat.le_add_right _ _)
  | cons_right _ ih =>
    rw [List.countP_cons]
    exact Nat.le_trans ih (Nat.le_add_right _ _)

end SlidingWindow
end OdooSemantic
