import Mathlib.Data.List.Sort
import Mathlib.Data.String.Basic
import OdooSemantic.Indexer.Models
import OdooSemantic.Lib.Dict

/-!
# `src/indexer/resolver.py` — Kahn's algorithm over the modules of one version

The loop of the source, with its three variables: the in-degree of every module, the queue,
and the result. The in-degree of a module counts, with repetition, the entries of its
`depends` that name a module of the dictionary and have not been processed (`Kahn.Inv`), so
it reaches zero once, and a module is queued once. Every module is in the output exactly once
(`topologicalSort_perm`): those on a cycle are appended at the end.
-/

namespace OdooSemantic

abbrev Modules := Dict String ModuleInfo

/-- `sorted(xs)` on strings: by code points. -/
def sorted (xs : List String) : List String := xs.insertionSort (· ≤ ·)

theorem sorted_perm (xs : List String) : (sorted xs).Perm xs := List.perm_insertionSort _ xs

/-- The entries of `depends` that name a module of the dictionary. -/
def ModuleInfo.knownDeps (modules : Modules) (info : ModuleInfo) : List String :=
  info.depends.filter (· ∈ modules.keys)

/-- `dependents[node]`: once for every time a module depends on it. -/
def dependentsOf (modules : Modules) (node : String) : List String :=
  modules.items.flatMap fun i => (i.2.depends.filter (· = node)).map fun _ => i.1

structure Kahn where
  inDegree : String → Nat
  queue : List String
  result : List String

namespace Kahn

/-- One turn of `for dependent in sorted(dependents[node])`. -/
def release (s : Kahn) (dependent : String) : Kahn where
  inDegree := Function.update s.inDegree dependent (s.inDegree dependent - 1)
  queue := if s.inDegree dependent - 1 = 0 then s.queue ++ [dependent] else s.queue
  result := s.result

/-- The `while queue` loop; the fuel is a bound on the modules still to be processed. -/
def loop (modules : Modules) : Nat → Kahn → Kahn
  | 0, s => s
  | fuel + 1, s =>
      match s.queue with
      | [] => s
      | node :: queue =>
          loop modules fuel <| (sorted (dependentsOf modules node)).foldl release
            { s with queue, result := s.result ++ [node] }

def init (modules : Modules) : Kahn where
  inDegree name := ((modules.get? name).map fun i => (i.knownDeps modules).length).getD 0
  queue := sorted ((modules.items.filter fun i => (i.2.knownDeps modules).length = 0).map Prod.fst)
  result := []

end Kahn

/-- `topological_sort(modules)`. -/
def topologicalSort (modules : Modules) : List String :=
  let result := (Kahn.loop modules modules.items.length (Kahn.init modules)).result
  if result.length < modules.items.length then
    result ++ sorted (modules.keys.filter (· ∉ result))
  else result

/-! ## The invariant of the loop -/

/-- The entries of a module's `depends` still to be processed. -/
def degree (modules : Modules) (result : List String) (name : String) : Nat :=
  ((modules.get? name).map fun i => ((i.knownDeps modules).filter (· ∉ result)).length).getD 0

namespace Kahn

/-- `rest` are the releases of the current node still to come. -/
structure Inv (modules : Modules) (s : Kahn) (rest : List String) : Prop where
  nodup : (s.result ++ s.queue).Nodup
  known : ∀ n ∈ s.result ++ s.queue, n ∈ modules.keys
  restKnown : ∀ n ∈ rest, n ∈ modules.keys
  degrees : ∀ n ∈ modules.keys, s.inDegree n = degree modules s.result n + rest.count n
  zero : ∀ n ∈ modules.keys, n ∈ s.result ++ s.queue ↔ s.inDegree n = 0

theorem Inv.release {modules : Modules} {s : Kahn} {x : String} {rest : List String}
    (h : Inv modules s (x :: rest)) : Inv modules (s.release x) rest := by
  have hx : x ∈ modules.keys := h.restKnown x List.mem_cons_self
  have hdeg : s.inDegree x = degree modules s.result x + rest.count x + 1 := by
    rw [h.degrees x hx, List.count_cons_self]
    omega
  have hnew : x ∉ s.result ++ s.queue := by
    intro hmem
    have := (h.zero x hx).mp hmem
    omega
  have hmem : ∀ n, n ∈ (s.release x).result ++ (s.release x).queue ↔
      n ∈ s.result ++ s.queue ∨ (n = x ∧ s.inDegree x - 1 = 0) := by
    intro n
    by_cases hz : s.inDegree x - 1 = 0 <;> simp [Kahn.release, hz, or_assoc]
  constructor
  · by_cases hz : s.inDegree x - 1 = 0
    · simp only [Kahn.release, hz, if_true]
      rw [← List.append_assoc, List.nodup_append]
      refine ⟨h.nodup, by simp, ?_⟩
      intro a ha b hb hab
      have hbx : b = x := by simpa using hb
      exact hnew (hbx ▸ hab ▸ ha)
    · simp only [Kahn.release, hz, if_false]
      exact h.nodup
  · intro n hn
    cases (hmem n).mp hn with
    | inl hn => exact h.known n hn
    | inr hn => exact hn.1 ▸ hx
  · exact fun n hn => h.restKnown n (List.mem_cons_of_mem _ hn)
  · intro n hn
    by_cases hnx : n = x
    · subst hnx
      simp only [Kahn.release, Function.update_self]
      omega
    · simp only [Kahn.release, Function.update_of_ne hnx]
      rw [h.degrees n hn, List.count_cons_of_ne (Ne.symm hnx)]
  · intro n hn
    rw [hmem]
    by_cases hnx : n = x
    · subst hnx
      simp only [Kahn.release, Function.update_self, hnew, false_or, true_and]
    · simp only [Kahn.release, Function.update_of_ne hnx, hnx, false_and, or_false]
      exact h.zero n hn

theorem Inv.releaseAll {modules : Modules} {rest : List String} {s : Kahn}
    (h : Inv modules s rest) : Inv modules (rest.foldl Kahn.release s) [] := by
  induction rest generalizing s with
  | nil => exact h
  | cons x rest ih => exact ih h.release

/-- A module is released once for every time it names the node. -/
theorem count_dependentsOf {modules : Modules} {n : String} {info : ModuleInfo}
    (h : modules.get? n = some info) (node : String) :
    (dependentsOf modules node).count n = info.depends.count node := by
  have hitem := Dict.mem_items_of_get? h
  have hnodup := modules.nodup
  unfold dependentsOf
  generalize modules.items = items at hitem hnodup
  have hzero : ∀ its : List (String × ModuleInfo), n ∉ its.map Prod.fst →
      (its.flatMap fun i => (i.2.depends.filter (· = node)).map fun _ => i.1).count n = 0 := by
    intro its hno
    rw [List.count_eq_zero]
    intro hmem
    obtain ⟨i, hi, hn⟩ := List.mem_flatMap.mp hmem
    obtain ⟨-, -, rfl⟩ := List.mem_map.mp hn
    exact hno (List.mem_map_of_mem hi)
  induction items with
  | nil => exact absurd hitem (by simp)
  | cons i items ih =>
    rw [List.map_cons, List.nodup_cons] at hnodup
    rw [List.flatMap_cons, List.count_append]
    cases List.mem_cons.mp hitem with
    | inl heq =>
      subst heq
      rw [hzero items hnodup.1]
      simp [List.map_const', List.count_eq_length_filter]
      rfl
    | inr hmem =>
      have hne : i.1 ≠ n := by
        intro heq
        exact hnodup.1 (heq ▸ List.mem_map_of_mem (f := Prod.fst) hmem)
      rw [ih hmem hnodup.2]
      simp [List.map_const', List.count_replicate, hne]

theorem dependentsOf_known {modules : Modules} {node n : String}
    (h : n ∈ dependentsOf modules node) : n ∈ modules.keys := by
  obtain ⟨i, hi, hn⟩ := List.mem_flatMap.mp h
  obtain ⟨-, -, rfl⟩ := List.mem_map.mp hn
  exact List.mem_map_of_mem hi

/-- Taking a node off the queue puts its releases in front of the loop. -/
theorem Inv.pop {modules : Modules} {s : Kahn} {node : String} {queue : List String}
    (h : Inv modules s []) (hq : s.queue = node :: queue) :
    Inv modules { s with queue, result := s.result ++ [node] }
      (sorted (dependentsOf modules node)) := by
  have hnode : node ∈ modules.keys := h.known node (by simp [hq])
  have hnot : node ∉ s.result := by
    have := h.nodup
    rw [hq, List.nodup_append] at this
    exact fun hmem => this.2.2 node hmem node List.mem_cons_self rfl
  constructor
  · simpa [hq] using h.nodup
  · simpa [hq] using h.known
  · exact fun n hn => dependentsOf_known ((sorted_perm _).mem_iff.mp hn)
  · intro n hn
    obtain ⟨i, hi, rfl⟩ := List.mem_map.mp hn
    have hget : modules.get? i.1 = some i.2 := Dict.get?_eq_some_iff.mpr hi
    rw [h.degrees _ hn, (sorted_perm _).count_eq, count_dependentsOf hget]
    simp only [degree, hget, Option.map_some, Option.getD_some, List.count_nil, Nat.add_zero,
      ModuleInfo.knownDeps, List.filter_filter]
    generalize i.2.depends = deps
    induction deps with
    | nil => rfl
    | cons d deps ih =>
      simp only [List.filter_cons, List.count_cons]
      by_cases hd : d = node
      · subst hd
        simp only [hnot, hnode, List.mem_append, List.mem_singleton] at ih ⊢
        simp at ih ⊢
        omega
      · by_cases hr : d ∈ s.result <;> by_cases hk : d ∈ modules.keys <;>
          simp [hd, hr, hk] at ih ⊢ <;> omega
  · intro n hn
    have := h.zero n hn
    rw [hq] at this
    simpa using this

theorem Inv.loop {modules : Modules} {s : Kahn} (h : Inv modules s []) (fuel : Nat) :
    Inv modules (Kahn.loop modules fuel s) [] := by
  induction fuel generalizing s with
  | zero => exact h
  | succ fuel ih =>
    unfold Kahn.loop
    split
    · exact h
    · rename_i node queue hq
      exact ih (h.pop hq).releaseAll

theorem inv_init (modules : Modules) : Inv modules (init modules) [] := by
  have hmem : ∀ n, n ∈ (init modules).result ++ (init modules).queue ↔
      ∃ i ∈ modules.items, (i.2.knownDeps modules).length = 0 ∧ i.1 = n := by
    intro n
    simp [init, (sorted_perm _).mem_iff, and_assoc]
  constructor
  · simp only [init, List.nil_append]
    rw [(sorted_perm _).nodup_iff]
    exact modules.nodup.sublist (List.filter_sublist.map Prod.fst)
  · intro n hn
    obtain ⟨i, hi, -, rfl⟩ := (hmem n).mp hn
    exact List.mem_map_of_mem hi
  · simp
  · intro n hn
    obtain ⟨i, hi, rfl⟩ := List.mem_map.mp hn
    simp [init, degree, Dict.get?_eq_some_iff.mpr hi]
  · intro n hn
    rw [hmem]
    obtain ⟨i, hi, rfl⟩ := List.mem_map.mp hn
    have hget := Dict.get?_eq_some_iff.mpr hi
    simp only [init, hget, Option.map_some, Option.getD_some]
    constructor
    · rintro ⟨j, hj, hz, hji⟩
      rw [← List.inj_on_of_nodup_map modules.nodup hj hi hji]
      exact hz
    · exact fun hz => ⟨i, hi, hz, rfl⟩

theorem length_result_foldl_release (rest : List String) (s : Kahn) :
    (rest.foldl release s).result = s.result := by
  induction rest generalizing s with
  | nil => rfl
  | cons x rest ih => rw [List.foldl_cons, ih]; rfl

/-- The fuel is enough: the loop ends with an empty queue. -/
theorem queue_loop {modules : Modules} {fuel : Nat} {s : Kahn} (h : Inv modules s [])
    (hfuel : modules.items.length ≤ s.result.length + fuel) :
    (Kahn.loop modules fuel s).queue = [] := by
  have hlen : ∀ s : Kahn, Inv modules s [] →
      s.result.length + s.queue.length ≤ modules.items.length := by
    intro s hs
    have hsub := List.subperm_of_subset hs.nodup fun n hn => hs.known n hn
    have := hsub.length_le
    simpa [Dict.keys] using this
  induction fuel generalizing s with
  | zero =>
    have := hlen s h
    have hz : s.queue.length = 0 := by omega
    exact List.length_eq_zero_iff.mp hz
  | succ fuel ih =>
    unfold Kahn.loop
    split
    · assumption
    · rename_i node queue hq
      refine ih (h.pop hq).releaseAll ?_
      rw [length_result_foldl_release]
      simp only [List.length_append, List.length_singleton]
      omega

end Kahn

/-- **Every module comes out exactly once.** -/
theorem topologicalSort_perm (modules : Modules) :
    (topologicalSort modules).Perm modules.keys := by
  have hinv := (Kahn.inv_init modules).loop modules.items.length
  have hnodup : (Kahn.loop modules modules.items.length (Kahn.init modules)).result.Nodup :=
    (List.nodup_append.mp hinv.nodup).1
  have hsub : ∀ n ∈ (Kahn.loop modules modules.items.length (Kahn.init modules)).result,
      n ∈ modules.keys := fun n hn => hinv.known n (List.mem_append_left _ hn)
  unfold topologicalSort
  dsimp only
  split
  · refine (List.perm_ext_iff_of_nodup ?_ modules.nodup_keys).mpr fun n => ?_
    · rw [List.nodup_append, (sorted_perm _).nodup_iff]
      refine ⟨hnodup, modules.nodup_keys.filter _, ?_⟩
      intro a ha b hb hab
      have hb' := (sorted_perm _).mem_iff.mp hb
      simp only [List.mem_filter, decide_eq_true_eq] at hb'
      exact hb'.2 (hab ▸ ha)
    · simp only [List.mem_append, (sorted_perm _).mem_iff, List.mem_filter, decide_eq_true_eq]
      constructor
      · intro h
        cases h with
        | inl h => exact hsub n h
        | inr h => exact h.1
      · intro h
        by_cases hr : n ∈ (Kahn.loop modules modules.items.length (Kahn.init modules)).result
        · exact Or.inl hr
        · exact Or.inr ⟨h, hr⟩
  · rename_i hlen
    refine (List.subperm_of_subset hnodup hsub).perm_of_length_le ?_
    simpa [Dict.keys] using hlen

end OdooSemantic
