import OdooSemantic.Indexer.Resolver
import OdooSemantic.Lib.Forest

/-!
# In what order the modules come

A module is taken off the queue when everything that it depends on has been, so what the loop gives
is in order; and what it leaves over is what leads to a cycle, as each module that is left over
depends on another one. The names are sorted wherever the order of the dictionary could be seen.
-/

namespace OdooSemantic

open Cycles

/-- `m` depends on `d`, and `d` is in the dictionary. -/
def DependsOn (modules : Modules) (m d : String) : Prop :=
  ∃ info, modules.get? m = some info ∧ d ∈ info.depends ∧ d ∈ modules.keys

/-- `d` comes somewhere before `m`. -/
def Before (names : List String) (d m : String) : Prop :=
  ∃ front back, names = front ++ m :: back ∧ d ∈ front

theorem Before.append {names : List String} {d m : String} (h : Before names d m)
    (more : List String) : Before (names ++ more) d m := by
  obtain ⟨front, back, rfl, hd⟩ := h
  exact ⟨front, back ++ more, by simp, hd⟩

/-- In the list, with all that it depends on in front of it. -/
def InOrder (modules : Modules) (result : List String) : Prop :=
  ∀ m ∈ result, ∀ d, DependsOn modules m d → Before result d m

namespace Kahn

variable {modules : Modules} {s : Kahn} {m d : String}

/-- What is off the list waits for nothing, or for something that is off the list. -/
theorem degree_eq_zero_iff (result : List String) (hm : m ∈ modules.keys) :
    degree modules result m = 0 ↔ ∀ d, DependsOn modules m d → d ∈ result := by
  obtain ⟨i, hi, rfl⟩ := List.mem_map.mp hm
  have hget : modules.get? i.1 = some i.2 := Dict.get?_eq_some_iff.mpr hi
  simp only [degree, hget, Option.map_some, Option.getD_some, List.length_eq_zero_iff,
    List.filter_eq_nil_iff, ModuleInfo.knownDeps, List.mem_filter, decide_eq_true_iff, not_not]
  constructor
  · rintro h d ⟨info, hinfo, hdep, hknown⟩
    obtain rfl := Option.some.inj (hget.symm.trans hinfo)
    exact h d ⟨hdep, hknown⟩
  · rintro h d ⟨hdep, hknown⟩
    exact h d ⟨i.2, hget, hdep, hknown⟩

/-- A module is queued once all that it depends on has been processed. -/
theorem Inv.ready (h : Inv modules s []) (hm : m ∈ s.result ++ s.queue) :
    ∀ d, DependsOn modules m d → d ∈ s.result := by
  have hknown := h.known m hm
  have hdegree := h.degrees m hknown
  rw [(h.zero m hknown).mp hm] at hdegree
  exact (degree_eq_zero_iff _ hknown).mp (by omega)

theorem inOrder_concat {result : List String} (h : InOrder modules result)
    (hready : ∀ d, DependsOn modules m d → d ∈ result) : InOrder modules (result ++ [m]) := by
  intro n hn d hd
  rcases List.mem_append.mp hn with hn | hn
  · exact (h n hn d hd).append [m]
  · obtain rfl := List.mem_singleton.mp hn
    exact ⟨result, [], rfl, hready d hd⟩

theorem inOrder_loop (h : Inv modules s []) (horder : InOrder modules s.result) (fuel : Nat) :
    InOrder modules (Kahn.loop modules fuel s).result := by
  induction fuel generalizing s with
  | zero => exact horder
  | succ fuel ih =>
    unfold Kahn.loop
    split
    · exact horder
    · rename_i node queue hq
      refine ih (h.pop hq).releaseAll ?_
      rw [length_result_foldl_release]
      exact inOrder_concat horder (h.ready (by simp [hq]))

/-- The names that the loop gives. -/
def processed (modules : Modules) : List String :=
  (Kahn.loop modules modules.items.length (Kahn.init modules)).result

theorem inv_end (modules : Modules) :
    Inv modules (Kahn.loop modules modules.items.length (Kahn.init modules)) [] :=
  (inv_init modules).loop _

theorem inOrder_processed (modules : Modules) : InOrder modules (processed modules) :=
  inOrder_loop (inv_init modules) (fun _ hm => absurd hm List.not_mem_nil) _

theorem nodup_processed (modules : Modules) : (processed modules).Nodup :=
  (List.nodup_append.mp (inv_end modules).nodup).1

/-- What is left over depends on something else that is. -/
theorem exists_dependsOn_of_left (hm : m ∈ modules.keys) (hleft : m ∉ processed modules) :
    ∃ d, (d ∈ modules.keys ∧ d ∉ processed modules) ∧ DependsOn modules m d := by
  by_contra hnone
  have hdone : ∀ d, DependsOn modules m d → d ∈ processed modules := by
    intro d hd
    by_contra hno
    obtain ⟨info, hinfo, hdep, hknown⟩ := hd
    exact hnone ⟨d, ⟨hknown, hno⟩, info, hinfo, hdep, hknown⟩
  have hinv := inv_end modules
  have hzero := hinv.degrees m hm
  have hqueue : (Kahn.loop modules modules.items.length (Kahn.init modules)).queue = [] :=
    queue_loop (inv_init modules) (by simp [init])
  have hdegree : degree modules (processed modules) m = 0 := (degree_eq_zero_iff _ hm).mpr hdone
  unfold processed at hdegree
  rw [hdegree] at hzero
  have hmem := (hinv.zero m hm).mpr hzero
  rw [hqueue, List.append_nil] at hmem
  exact hleft hmem

theorem reachesCycle_of_left (hm : m ∈ modules.keys) (hleft : m ∉ processed modules) :
    ReachesCycle (DependsOn modules) m := by
  refine reachesCycle_of_finite (S := { n | n ∈ modules.keys ∧ n ∉ processed modules }) ?_ ?_
    ⟨hm, hleft⟩
  · exact (List.finite_toSet modules.keys).subset fun n hn => hn.1
  · rintro n ⟨hn, hno⟩
    obtain ⟨d, hd, hdep⟩ := exists_dependsOn_of_left hn hno
    exact ⟨d, hd, hdep⟩

theorem idxOf_lt_of_before {names : List String} (hnodup : names.Nodup) (h : Before names d m) :
    names.idxOf d < names.idxOf m := by
  obtain ⟨front, back, rfl, hd⟩ := h
  have hm : m ∉ front := fun hmem =>
    (List.nodup_append.mp hnodup).2.2 m hmem m List.mem_cons_self rfl
  rw [List.idxOf_append_of_mem hd, List.idxOf_append_of_notMem hm, List.idxOf_cons_self]
  exact Nat.lt_of_lt_of_le (List.idxOf_lt_length_of_mem hd) (Nat.le_add_right _ _)

theorem not_reachesCycle_of_processed (hm : m ∈ processed modules) :
    ¬ ReachesCycle (DependsOn modules) m := by
  have hdown : ∀ n ∈ { n | n ∈ processed modules }, ∀ d, DependsOn modules n d →
      d ∈ { n | n ∈ processed modules } ∧ (processed modules).idxOf d < (processed modules).idxOf n := by
    intro n hn d hd
    have hbefore := inOrder_processed modules n hn d hd
    refine ⟨?_, idxOf_lt_of_before (nodup_processed modules) hbefore⟩
    obtain ⟨front, back, hsplit, hmem⟩ := hbefore
    show d ∈ processed modules
    rw [hsplit]
    exact List.mem_append_left _ hmem
  exact not_reachesCycle_of_descends hdown hm

/-! ## Dictionaries in another order -/

theorem sorted_congr {xs ys : List String} (h : xs.Perm ys) : sorted xs = sorted ys := by
  refine List.Perm.eq_of_pairwise' (List.pairwise_insertionSort _ _) (List.pairwise_insertionSort _ _)
    ?_
  exact (sorted_perm xs).trans (h.trans (sorted_perm ys).symm)

section Reordered

variable {modules' : Modules} (hperm : modules'.items.Perm modules.items)

include hperm

theorem get?_reordered (name : String) : modules'.get? name = modules.get? name := by
  refine Option.ext fun info => ?_
  rw [Dict.get?_eq_some_iff, Dict.get?_eq_some_iff, hperm.mem_iff]

theorem keys_reordered : modules'.keys.Perm modules.keys := hperm.map Prod.fst

theorem knownDeps_reordered (info : ModuleInfo) : info.knownDeps modules' = info.knownDeps modules := by
  refine List.filter_congr fun d _ => ?_
  rw [decide_eq_decide, (keys_reordered hperm).mem_iff]

theorem dependentsOf_reordered (node : String) :
    sorted (dependentsOf modules' node) = sorted (dependentsOf modules node) :=
  sorted_congr (hperm.flatMap_right _)

theorem init_reordered : init modules' = init modules := by
  have hdegree : (init modules').inDegree = (init modules).inDegree := by
    funext name
    simp only [init, get?_reordered hperm, knownDeps_reordered hperm]
  have hqueue : (init modules').queue = (init modules).queue := by
    simp only [init, knownDeps_reordered hperm]
    exact sorted_congr ((hperm.filter _).map _)
  exact congrArg₂ (fun inDegree queue => (⟨inDegree, queue, []⟩ : Kahn)) hdegree hqueue

theorem loop_reordered (fuel : Nat) (s : Kahn) : Kahn.loop modules' fuel s = Kahn.loop modules fuel s := by
  induction fuel generalizing s with
  | zero => rfl
  | succ fuel ih =>
    unfold Kahn.loop
    cases s.queue with
    | nil => rfl
    | cons node queue =>
      dsimp only
      rw [dependentsOf_reordered hperm, ih]

theorem processed_reordered : processed modules' = processed modules := by
  unfold processed
  rw [init_reordered hperm, hperm.length_eq, loop_reordered hperm]

end Reordered

end Kahn

open Kahn

/-- Where nothing is left over, nothing is appended either. -/
theorem topologicalSort_eq (modules : Modules) : topologicalSort modules =
    processed modules ++ sorted (modules.keys.filter (· ∉ processed modules)) := by
  unfold topologicalSort
  dsimp only
  split
  · rfl
  · rename_i hlen
    have hsub : ∀ n ∈ processed modules, n ∈ modules.keys := fun n hn =>
      (inv_end modules).known n (List.mem_append_left _ hn)
    have hall := (List.subperm_of_subset (nodup_processed modules) hsub).perm_of_length_le (by
      simpa [Dict.keys, processed] using hlen)
    have hnone : modules.keys.filter (· ∉ processed modules) = [] := by
      rw [List.filter_eq_nil_iff]
      intro n hn
      simpa using hall.mem_iff.mpr hn
    rw [hnone]
    exact (List.append_nil _).symm

/-- **Each module once; what does not lead to a cycle behind everything that it depends on; what does
at the end, by name; and the same for every order of the dictionary.** -/
theorem topological_sort_spec (modules : Modules) :
    (topologicalSort modules).Perm modules.keys ∧
    (∀ m ∈ modules.keys, ¬ ReachesCycle (DependsOn modules) m →
      ∀ d, DependsOn modules m d → Before (topologicalSort modules) d m) ∧
    (∃ front tail, topologicalSort modules = front ++ tail ∧ tail.Pairwise (· ≤ ·) ∧
      ∀ m, m ∈ tail ↔ m ∈ modules.keys ∧ ReachesCycle (DependsOn modules) m) ∧
    ∀ modules' : Modules, modules'.items.Perm modules.items →
      topologicalSort modules' = topologicalSort modules := by
  refine ⟨topologicalSort_perm modules, ?_, ?_, ?_⟩
  · intro m hm hno d hd
    have hin : m ∈ processed modules := by
      by_contra hleft
      exact hno (reachesCycle_of_left hm hleft)
    rw [topologicalSort_eq]
    exact (inOrder_processed modules m hin d hd).append _
  · refine ⟨_, _, topologicalSort_eq modules, List.pairwise_insertionSort _ _, fun m => ?_⟩
    rw [(sorted_perm _).mem_iff, List.mem_filter, decide_eq_true_iff]
    refine and_congr_right fun hm => ?_
    exact ⟨fun hleft => reachesCycle_of_left hm hleft,
      fun hreaches hin => not_reachesCycle_of_processed hin hreaches⟩
  · intro modules' hperm
    rw [topologicalSort_eq, topologicalSort_eq, processed_reordered hperm]
    exact congrArg _ (sorted_congr ((keys_reordered hperm).filter _))

end OdooSemantic
