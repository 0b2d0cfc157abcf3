import Mathlib.Data.List.Nodup

/-!
# An insertion-ordered dictionary

The items of a Python `dict`, in iteration order. That a key occurs once is carried by the
value itself, so nothing that walks a dictionary has to ask for it.
-/

namespace OdooSemantic

structure Dict (K V : Type) where
  items : List (K × V)
  nodup : (items.map Prod.fst).Nodup

namespace Dict

variable {K V W : Type}

/-- `{}` -/
def empty : Dict K V := ⟨[], List.nodup_nil⟩

def keys (d : Dict K V) : List K := d.items.map Prod.fst

def values (d : Dict K V) : List V := d.items.map Prod.snd

theorem nodup_keys (d : Dict K V) : d.keys.Nodup := d.nodup

/-- `d.get(k)` -/
def get? [DecidableEq K] (d : Dict K V) (k : K) : Option V :=
  (d.items.find? fun i => i.1 = k).map Prod.snd

/-- `{k: v for k, v in d.items() if p(k, v)}` -/
def filter (p : K × V → Bool) (d : Dict K V) : Dict K V where
  items := d.items.filter p
  nodup := d.nodup.sublist (List.filter_sublist.map Prod.fst)

/-- `{k: f(v) for k, v in d.items()}` -/
def map (f : V → W) (d : Dict K V) : Dict K W where
  items := d.items.map fun i => (i.1, f i.2)
  nodup := by
    rw [List.map_map]
    exact d.nodup

private theorem map_fst_replace [DecidableEq K] (items : List (K × V)) (k : K) (v : V) :
    (items.map fun i => if i.1 = k then (k, v) else i).map Prod.fst = items.map Prod.fst := by
  rw [List.map_map]
  refine List.map_congr_left fun i _ => ?_
  by_cases h : i.1 = k <;> simp [h]

/-- `d[k] = v`: in place where the key is there, at the end where it is not. -/
def set [DecidableEq K] (d : Dict K V) (k : K) (v : V) : Dict K V :=
  if h : k ∈ d.keys then
    ⟨d.items.map fun i => if i.1 = k then (k, v) else i, by
      rw [map_fst_replace]
      exact d.nodup⟩
  else
    ⟨d.items ++ [(k, v)], by
      rw [List.map_append, List.nodup_append]
      refine ⟨d.nodup, by simp, ?_⟩
      intro a ha b hb hab
      have hbk : b = k := by simpa using hb
      exact h (hbk ▸ hab ▸ ha)⟩

theorem mem_items_set [DecidableEq K] {d : Dict K V} {k : K} {v : V} {i : K × V}
    (h : i ∈ (d.set k v).items) : i = (k, v) ∨ i ∈ d.items := by
  unfold set at h
  split at h
  · obtain ⟨j, hj, rfl⟩ := List.mem_map.mp h
    split
    · exact Or.inl rfl
    · exact Or.inr hj
  · rcases List.mem_append.mp h with h | h
    · exact Or.inr h
    · exact Or.inl (List.mem_singleton.mp h)

theorem mem_items_of_get? [DecidableEq K] {d : Dict K V} {k : K} {v : V}
    (h : d.get? k = some v) : (k, v) ∈ d.items := by
  obtain ⟨i, hi, rfl⟩ := Option.map_eq_some_iff.mp h
  have hk : i.1 = k := by simpa using List.find?_some hi
  rw [← hk]
  exact List.mem_of_find?_eq_some hi

theorem get?_eq_some_iff [DecidableEq K] {d : Dict K V} {k : K} {v : V} :
    d.get? k = some v ↔ (k, v) ∈ d.items := by
  refine ⟨mem_items_of_get?, fun h => ?_⟩
  cases hf : d.items.find? (fun i => i.1 = k) with
  | none =>
    have := List.find?_eq_none.mp hf (k, v) h
    simp at this
  | some i =>
    have hmem := List.mem_of_find?_eq_some hf
    have hk : i.1 = k := by simpa using List.find?_some hf
    have heq : i = (k, v) := List.inj_on_of_nodup_map d.nodup hmem h hk
    simp [get?, hf, heq]

/-- **Read what was written**, and everything else as it was. -/
theorem get?_set [DecidableEq K] (d : Dict K V) (k k' : K) (v : V) :
    (d.set k v).get? k' = if k' = k then some v else d.get? k' := by
  have hread : ∀ w, (d.set k v).get? k' = some w ↔
      (if k' = k then some v else d.get? k') = some w := by
    intro w
    rw [get?_eq_some_iff]
    unfold set
    by_cases hin : k ∈ d.keys
    · rw [dif_pos hin, List.mem_map]
      obtain ⟨i, hi, hik⟩ := List.mem_map.mp hin
      constructor
      · intro h
        obtain ⟨j, hj, hjw⟩ := h
        split at hjw
        · obtain ⟨rfl, rfl⟩ := Prod.mk.inj hjw
          rw [if_pos rfl]
        · rename_i hne
          subst hjw
          rw [if_neg hne, get?_eq_some_iff]
          exact hj
      · intro h
        by_cases hk : k' = k
        · subst hk
          rw [if_pos rfl] at h
          obtain rfl := Option.some.inj h
          exact ⟨i, hi, by rw [if_pos hik]⟩
        · rw [if_neg hk, get?_eq_some_iff] at h
          exact ⟨(k', w), h, by rw [if_neg hk]⟩
    · rw [dif_neg hin, List.mem_append, List.mem_singleton]
      by_cases hk : k' = k
      · subst hk
        rw [if_pos rfl, Option.some.injEq, Prod.mk.injEq]
        have hno : (k', w) ∉ d.items := fun h => hin (List.mem_map.mpr ⟨(k', w), h, rfl⟩)
        simp [hno, eq_comm]
      · rw [if_neg hk, get?_eq_some_iff]
        simp [hk]
  exact Option.ext hread

section Collect

variable {A : Type} [DecidableEq K] (f : A → K)

/-- `for a in as: d[f(a)] = a`: the last one of a key is kept. -/
theorem get?_foldl_set (as : List A) (d : Dict K A) (k : K) :
    (as.foldl (fun d a => d.set (f a) a) d).get? k =
      (as.reverse.find? fun a => f a = k).or (d.get? k) := by
  induction as generalizing d with
  | nil => rfl
  | cons a as ih =>
    rw [List.foldl_cons, ih, get?_set, List.reverse_cons, List.find?_append, Option.or_assoc]
    by_cases hk : k = f a
    · simp [hk]
    · simp [hk, Ne.symm hk]

/-- Everything is under its own key. -/
theorem key_foldl_set (as : List A) {d : Dict K A} (hd : ∀ i ∈ d.items, i.1 = f i.2) :
    ∀ i ∈ (as.foldl (fun d a => d.set (f a) a) d).items, i.1 = f i.2 := by
  induction as generalizing d with
  | nil => exact hd
  | cons a as ih =>
    refine ih fun i hi => ?_
    cases mem_items_set hi with
    | inl heq => rw [heq]
    | inr hmem => exact hd i hmem

/-- `{f(a): a for a in as}` -/
def collect (as : List A) : Dict K A := as.foldl (fun d a => d.set (f a) a) empty

variable {f} {as : List A} {k : K} {a : A}

/-- The last one of a key. -/
theorem get?_collect (as : List A) (k : K) :
    (collect f as).get? k = as.reverse.find? fun a => f a = k := by
  rw [collect, get?_foldl_set]
  exact Option.or_none

theorem mem_of_get?_collect (h : (collect f as).get? k = some a) : a ∈ as ∧ f a = k := by
  rw [get?_collect] at h
  refine ⟨?_, ?_⟩
  · simpa using List.mem_of_find?_eq_some h
  · simpa using List.find?_some h

theorem get?_collect_ne_none_iff : (collect f as).get? k ≠ none ↔ k ∈ as.map f := by
  rw [get?_collect, Ne, List.find?_eq_none]
  simp

theorem get?_collect_eq_none_iff : (collect f as).get? k = none ↔ k ∉ as.map f := by
  rw [← get?_collect_ne_none_iff, not_not]

theorem mem_values_collect : a ∈ (collect f as).values ↔ (collect f as).get? (f a) = some a := by
  rw [get?_eq_some_iff, values, List.mem_map]
  constructor
  · rintro ⟨i, hi, rfl⟩
    have hkey : i.1 = f i.2 := key_foldl_set f as (by simp [empty]) i hi
    rwa [← hkey]
  · intro h
    exact ⟨_, h, rfl⟩

end Collect

end Dict

end OdooSemantic
