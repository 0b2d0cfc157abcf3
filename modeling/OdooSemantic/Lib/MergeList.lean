import OdooSemantic.Lib.KeyedStore
import OdooSemantic.Lib.Folds

/-!
# Lists of merges into a keyed store

A writer that knows beforehand which records it merges is a list of pairs, a key and a *letter*
that says how; `app` gives the letters their meaning. What the list leaves under one key is
the word of the letters sent there, run on what was there before (`lookup_mergeList`), so the
questions about a whole store fall apart into questions about words.

Letters are `Absorbing` when they satisfy, on every pair of letters, what `Replay` asks of a
family. A list of merges then absorbs every part of itself that was executed before it
(`Absorbing.lookup_replay`).
-/

namespace OdooSemantic
namespace KeyedStore

open Replay

variable {K V L : Type} [DecidableEq K]

/-- Merge every record of a list, in order. -/
def mergeList (app : L → Option V → V) (us : List (K × L)) (s : Store K V) : Store K V :=
  us.foldl (fun s u => upsert u.1 (app u.2) s) s

/-- The letters sent to a key. -/
def lettersAt (k : K) (us : List (K × L)) : List L := (us.filter fun u => u.1 = k).map Prod.snd

/-- What a letter does to a record or to its absence. -/
def onRecord (app : L → Option V → V) (l : L) (o : Option V) : Option V := some (app l o)

/-- The record a list of letters leaves. -/
def runLetters (app : L → Option V → V) (ls : List L) (o : Option V) : Option V :=
  run (ls.map (onRecord app)) o

/-- Applying a letter twice is applying it once, and what a letter identifies stays identified
    when any other letter comes first. -/
structure Absorbing (app : L → Option V → V) : Prop where
  idem : ∀ l o, app l (some (app l o)) = app l o
  blind : ∀ l f o o', app l o = app l o' → app l (some (app f o)) = app l (some (app f o'))

variable (app : L → Option V → V)

theorem mergeList_append (us vs : List (K × L)) (s : Store K V) :
    mergeList app (us ++ vs) s = mergeList app vs (mergeList app us s) := List.foldl_append

/-- A fold whose every step is a list of merges is one list of merges. -/
theorem foldl_eq_mergeList {S T : Type} {exec : T → S → T} (proj : T → Store K V)
    {merges : S → List (K × L)} {ss : List S}
    (h : ∀ s ∈ ss, ∀ x, proj (exec x s) = mergeList app (merges s) (proj x)) (x : T) :
    proj (ss.foldl exec x) = mergeList app (ss.flatMap merges) (proj x) := by
  induction ss generalizing x with
  | nil => rfl
  | cons s ss ih =>
    rw [List.foldl_cons, ih fun s' hs' => h s' (List.mem_cons_of_mem _ hs'),
      h s List.mem_cons_self, List.flatMap_cons, mergeList_append]

/-- What no step changes, a fold does not change. -/
theorem foldl_eq_of_exec_eq {S T A : Type} {exec : T → S → T} (proj : T → A)
    (h : ∀ x s, proj (exec x s) = proj x) (ss : List S) (x : T) :
    proj (ss.foldl exec x) = proj x := by
  induction ss generalizing x with
  | nil => rfl
  | cons s ss ih => rw [List.foldl_cons, ih, h]

/-- What a step can only add, a fold has if it was there or some step adds it. -/
theorem foldl_iff {S T : Type} {exec : T → S → T} {P : T → Prop} {new : S → Prop} {ss : List S}
    (h : ∀ s ∈ ss, ∀ x, P (exec x s) ↔ P x ∨ new s) (x : T) :
    P (ss.foldl exec x) ↔ P x ∨ ∃ s ∈ ss, new s := by
  induction ss generalizing x with
  | nil => simp
  | cons s ss ih =>
    rw [List.foldl_cons, ih fun s' hs' => h s' (List.mem_cons_of_mem _ hs'),
      h s List.mem_cons_self]
    simp [or_assoc]

/-- The same when what a step adds depends on where it is taken: a fold has it if it was there
    or some step adds it at its turn. `Inv` is what may be assumed of the places. -/
theorem foldl_iff_at {S T : Type} {exec : T → S → T} {P Inv : T → Prop} {new : T → S → Prop}
    {ss : List S} (hinv : ∀ s x, Inv x → Inv (exec x s))
    (h : ∀ s ∈ ss, ∀ x, Inv x → (P (exec x s) ↔ P x ∨ new x s)) {x : T} (hx : Inv x) :
    P (ss.foldl exec x) ↔
      P x ∨ ∃ us s vs, ss = us ++ s :: vs ∧ new (us.foldl exec x) s := by
  induction ss generalizing x with
  | nil => simp
  | cons s ss ih =>
    rw [List.foldl_cons, ih (fun s' hs' => h s' (List.mem_cons_of_mem _ hs')) (hinv s x hx),
      h s List.mem_cons_self x hx]
    constructor
    · intro hcase
      rcases hcase with (hold | hnew) | ⟨us, t, vs, rfl, hnew⟩
      · exact Or.inl hold
      · exact Or.inr ⟨[], s, ss, rfl, hnew⟩
      · exact Or.inr ⟨s :: us, t, vs, rfl, hnew⟩
    · intro hcase
      rcases hcase with hold | ⟨us, t, vs, hsplit, hnew⟩
      · exact Or.inl (Or.inl hold)
      · cases us with
        | nil =>
          obtain ⟨rfl, rfl⟩ := List.cons.inj hsplit
          exact Or.inl (Or.inr hnew)
        | cons u us =>
          obtain ⟨rfl, rfl⟩ := List.cons.inj hsplit
          exact Or.inr ⟨us, t, vs, rfl, hnew⟩

/-- No step of the list clears what is there when its turn comes. -/
def Kept {S T : Type} (exec : T → S → T) (clears : T → S → Prop) : List S → T → Prop
  | [], _ => True
  | s :: ss, x => ¬ clears x s ∧ Kept exec clears ss (exec x s)

/-- What steps add and clear, a fold has if some step adds it, or it was there, and no later
    step clears it. -/
theorem foldl_iff_of_kept {S T : Type} {exec : T → S → T} {P : T → Prop} {new : S → Prop}
    {clears : T → S → Prop} (h : ∀ s x, P (exec x s) ↔ new s ∨ (P x ∧ ¬ clears x s)) (ss : List S)
    (x : T) :
    P (ss.foldl exec x) ↔ (P x ∧ Kept exec clears ss x) ∨
      ∃ us s vs, ss = us ++ s :: vs ∧ new s ∧ Kept exec clears vs ((us ++ [s]).foldl exec x) := by
  induction ss generalizing x with
  | nil => simp [Kept]
  | cons s ss ih =>
    rw [List.foldl_cons, ih, h, Kept]
    constructor
    · intro hcase
      rcases hcase with ⟨hnew | ⟨hx, hclear⟩, hkept⟩ | ⟨us, t, vs, rfl, hnew, hkept⟩
      · exact Or.inr ⟨[], s, ss, rfl, hnew, hkept⟩
      · exact Or.inl ⟨hx, hclear, hkept⟩
      · exact Or.inr ⟨s :: us, t, vs, rfl, hnew, hkept⟩
    · intro hcase
      rcases hcase with ⟨hx, hclear, hkept⟩ | ⟨us, t, vs, hsplit, hnew, hkept⟩
      · exact Or.inl ⟨Or.inr ⟨hx, hclear⟩, hkept⟩
      · cases us with
        | nil =>
          obtain ⟨rfl, rfl⟩ := List.cons.inj hsplit
          exact Or.inl ⟨Or.inl hnew, hkept⟩
        | cons u us =>
          obtain ⟨rfl, rfl⟩ := List.cons.inj hsplit
          exact Or.inr ⟨us, t, vs, rfl, hnew, hkept⟩

theorem mem_lettersAt {k : K} {us : List (K × L)} {l : L} : l ∈ lettersAt k us ↔ (k, l) ∈ us := by
  simp [lettersAt]

theorem lookup_mergeList (us : List (K × L)) (s : Store K V) (k : K) :
    (mergeList app us s).lookup k = runLetters app (lettersAt k us) (s.lookup k) := by
  induction us generalizing s with
  | nil => rfl
  | cons u us ih =>
    rw [mergeList, List.foldl_cons, ← mergeList, ih, lookup_upsert]
    by_cases h : u.1 = k
    · subst h
      simp [lettersAt, runLetters, onRecord]
    · rw [if_neg (Ne.symm h)]
      simp [lettersAt, h]

/-- Where a letter covers the one before it, the last letter is the word. -/
theorem runLetters_of_covers (h : ∀ l l' o, app l (some (app l' o)) = app l o) (ls : List L)
    (o : Option V) : runLetters app ls o = (ls.getLast?.map fun l => app l o).or o := by
  induction ls generalizing o with
  | nil => rfl
  | cons l ls ih =>
    show runLetters app ls (some (app l o)) = _
    rw [ih]
    cases ls with
    | nil => rfl
    | cons l' ls =>
      rw [List.getLast?_cons_cons, List.getLast?_eq_some_getLast (List.cons_ne_nil l' ls)]
      exact congrArg some (h _ l o)

namespace Absorbing

variable {app} (h : Absorbing app)
include h

theorem replayable (ls : List L) : Replayable (ls.map (onRecord app)) := by
  constructor
  · intro x hx o
    obtain ⟨l, -, rfl⟩ := List.mem_map.mp hx
    exact congrArg some (h.idem l o)
  · intro x hx f hf o o' he
    obtain ⟨l, -, rfl⟩ := List.mem_map.mp hx
    obtain ⟨l', -, rfl⟩ := List.mem_map.mp hf
    exact congrArg some (h.blind l l' o o' (Option.some.inj he))

/-- A word absorbs the letters of its own that ran before it. -/
theorem runLetters_runLetters {ls ms : List L} (hms : ∀ m ∈ ms, m ∈ ls) (o : Option V) :
    runLetters app ls (runLetters app ms o) = runLetters app ls o := by
  refine (h.replayable ls).run_run ?_ o
  intro x hx
  obtain ⟨m, hm, rfl⟩ := List.mem_map.mp hx
  exact List.mem_map.mpr ⟨m, hms m hm, rfl⟩

/-- **A list of merges absorbs whatever part of it was executed before.** -/
theorem lookup_replay {us vs : List (K × L)} (hus : ∀ u ∈ us, u ∈ vs) (s : Store K V) (k : K) :
    (mergeList app vs (mergeList app us s)).lookup k = (mergeList app vs s).lookup k := by
  rw [lookup_mergeList, lookup_mergeList, lookup_mergeList]
  refine h.runLetters_runLetters ?_ _
  intro l hl
  exact mem_lettersAt.mpr (hus _ (mem_lettersAt.mp hl))

end Absorbing

end KeyedStore
end OdooSemantic
