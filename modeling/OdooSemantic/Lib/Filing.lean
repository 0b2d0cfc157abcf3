import Mathlib.Data.List.Induction
import OdooSemantic.Lib.Dict

/-!
# Things filed under two keys

A drawer and a label, and one thing for each. The first thing of a label stays, unless a later one is
marked: so it is the last marked one that is found, or the first where none is marked
(`find?_foldl_file`).
-/

namespace OdooSemantic
namespace Filing

section Filing

variable {A : Type} (drawer label : A → String) (marked : A → Bool)

abbrev Cabinet (A : Type) := Dict String (Dict String A)

def file (cabinet : Cabinet A) (a : A) : Cabinet A :=
  let things := (cabinet.get? (drawer a)).getD Dict.empty
  if (things.get? (label a)).isNone || marked a then
    cabinet.set (drawer a) (things.set (label a) a)
  else cabinet

def find? (cabinet : Cabinet A) (d l : String) : Option A :=
  (cabinet.get? d).bind fun things => things.get? l

/-- The thing belongs there. -/
def belongs (d l : String) (a : A) : Bool := drawer a = d ∧ label a = l

/-- The last one that is marked, or the first. -/
def kept (as : List A) : Option A := ((as.filter marked).getLast?).or as.head?

variable {drawer label marked} {d l : String}

theorem find?_file (cabinet : Cabinet A) (a : A) :
    find? (file drawer label marked cabinet a) d l =
      if belongs drawer label d l a = true ∧ ((find? cabinet d l).isNone = true ∨ marked a = true) then
        some a
      else find? cabinet d l := by
  have hthere : ((cabinet.get? (drawer a)).getD Dict.empty).get? (label a) =
      find? cabinet (drawer a) (label a) := by
    unfold find?
    cases cabinet.get? (drawer a) with
    | none => rfl
    | some things => rfl
  unfold file
  dsimp only
  rw [hthere]
  by_cases hdrawer : d = drawer a
  · subst hdrawer
    by_cases hlabel : l = label a
    · subst hlabel
      simp only [belongs, and_self, decide_true, true_and, Bool.or_eq_true]
      by_cases hnew : (find? cabinet (drawer a) (label a)).isNone = true ∨ marked a = true
      · rw [if_pos hnew, if_pos hnew, find?, Dict.get?_set, if_pos rfl, Option.bind_some,
          Dict.get?_set, if_pos rfl]
      · rw [if_neg hnew, if_neg hnew]
    · have hother : belongs drawer label (drawer a) l a = false := by
        simp [belongs, Ne.symm hlabel]
      simp only [hother, Bool.false_eq_true, false_and, if_false]
      split
      · rw [find?, Dict.get?_set, if_pos rfl, Option.bind_some, Dict.get?_set, if_neg hlabel, find?]
        cases cabinet.get? (drawer a) with
        | none => rfl
        | some things => rfl
      · rfl
  · have hother : belongs drawer label d l a = false := by
      simp [belongs, Ne.symm hdrawer]
    simp only [hother, Bool.false_eq_true, false_and, if_false]
    split
    · rw [find?, Dict.get?_set, if_neg hdrawer, find?]
    · rfl

theorem kept_concat (as : List A) (a : A) : kept marked (as ++ [a]) =
    if (kept marked as).isNone = true ∨ marked a = true then some a else kept marked as := by
  unfold kept
  rw [List.filter_append]
  cases hmarked : marked a with
  | true => simp [hmarked]
  | false =>
    rw [List.filter_cons_of_neg (by simp [hmarked]), List.filter_nil, List.append_nil]
    cases as with
    | nil => rfl
    | cons first as => simp

/-- **What is found after all is filed.** -/
theorem find?_foldl_file (as : List A) :
    find? (as.foldl (file drawer label marked) Dict.empty) d l =
      kept marked (as.filter (belongs drawer label d l)) := by
  induction as using List.reverseRecOn with
  | nil => rfl
  | append_singleton as a ih =>
    rw [List.foldl_concat, find?_file, ih, List.filter_append]
    cases hbelongs : belongs drawer label d l a with
    | true =>
      rw [List.filter_cons_of_pos hbelongs, List.filter_nil, kept_concat]
      simp
    | false =>
      rw [List.filter_cons_of_neg (by simp [hbelongs]), List.filter_nil, List.append_nil]
      simp

end Filing

end Filing
end OdooSemantic
