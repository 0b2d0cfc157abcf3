import Mathlib.Data.List.AList
import Mathlib.Order.Lattice

/-!
# Keyed stores — `MERGE` on a key, and what a lookup sees of it

A store of records addressed by a key is an `AList`: at most one record a key, by
construction. The one operation a merging writer has is the *upsert*: read what is under the
key, if anything, and put back a record computed from it. Everything later modules need of
it is how a lookup reads through one upsert, and through a list of them. An `UPDATE` by key is
a *modification*, which never makes a record.

A list of upserts is folded over in list order. Where every upsert of the list runs the same
function and that function is *settled* by one application, the order and the multiplicity of
the keys stop mattering (`lookup_upsertAll`), which is the shape of a `MATCH … MERGE` over a
set of rows.
-/

namespace OdooSemantic
namespace KeyedStore

variable {K V : Type} [DecidableEq K]

/-- A store of `V`-records, one a key. -/
abbrev Store (K V : Type) := AList (fun _ : K => V)

/-- `MERGE` on the key `k`: `f none` is `ON CREATE`, `f (some v)` is `ON MATCH`. -/
def upsert (k : K) (f : Option V → V) (s : Store K V) : Store K V :=
  s.insert k (f (s.lookup k))

/-- The same upsert at every key of a list, in order. -/
def upsertAll (ks : List K) (f : Option V → V) (s : Store K V) : Store K V :=
  ks.foldl (fun s k => upsert k f s) s

/-- Delete every record whose key satisfies `p`. -/
def eraseWhere (p : K → Bool) (s : Store K V) : Store K V :=
  (s.keys.filter p).foldl (fun s k => s.erase k) s

/-- Change the record under the key, if there is one. -/
def modify (k : K) (f : V → V) (s : Store K V) : Store K V :=
  match s.lookup k with
  | some v => s.insert k (f v)
  | none => s

/-- Change every record that satisfies `p`. -/
def modifyWhere (p : V → Bool) (f : V → V) (s : Store K V) : Store K V :=
  s.keys.foldl (fun s k => modify k (fun v => if p v then f v else v) s) s

/-- `SELECT … WHERE p`, the first row. -/
def findWhere (p : V → Bool) (s : Store K V) : Option (K × V) :=
  s.keys.findSome? fun k => ((s.lookup k).filter p).map fun v => (k, v)

/-- The next value of a `SERIAL` key, where rows are never deleted. -/
def nextKey (s : Store Nat V) : Nat := s.keys.foldr max 0 + 1

/-- An upsert function that one application settles. -/
def Settled (f : Option V → V) : Prop := ∀ o, f (some (f o)) = f o

/-! ## One upsert -/

@[simp] theorem lookup_upsert_self (k : K) (f : Option V → V) (s : Store K V) :
    (upsert k f s).lookup k = some (f (s.lookup k)) := by simp [upsert]

theorem lookup_upsert_ne {k k' : K} (h : k' ≠ k) (f : Option V → V) (s : Store K V) :
    (upsert k f s).lookup k' = s.lookup k' := by simp [upsert, h]

theorem lookup_upsert (k k' : K) (f : Option V → V) (s : Store K V) :
    (upsert k f s).lookup k' = if k' = k then some (f (s.lookup k)) else s.lookup k' := by
  by_cases h : k' = k
  · subst h
    simp
  · rw [if_neg h, lookup_upsert_ne h]

@[simp] theorem mem_upsert {k k' : K} {f : Option V → V} {s : Store K V} :
    k' ∈ upsert k f s ↔ k' = k ∨ k' ∈ s := by simp [upsert]

/-! ## One change -/

theorem lookup_modify (k k' : K) (f : V → V) (s : Store K V) :
    (modify k f s).lookup k' = if k' = k then (s.lookup k).map f else s.lookup k' := by
  unfold modify
  by_cases h : k' = k
  · subst h
    cases hk : s.lookup k' with
    | none => simp [hk]
    | some v => simp
  · cases hk : s.lookup k with
    | none => simp [h]
    | some v => simp [h]

theorem lookup_modify_self (k : K) (f : V → V) (s : Store K V) :
    (modify k f s).lookup k = (s.lookup k).map f := by rw [lookup_modify, if_pos rfl]

theorem lookup_modify_ne {k k' : K} (h : k' ≠ k) (f : V → V) (s : Store K V) :
    (modify k f s).lookup k' = s.lookup k' := by rw [lookup_modify, if_neg h]

private theorem lookup_foldl_modify {ks : List K} (hks : ks.Nodup) (k' : K) (f : V → V)
    (s : Store K V) :
    (ks.foldl (fun s k => modify k f s) s).lookup k' =
      if k' ∈ ks then (s.lookup k').map f else s.lookup k' := by
  induction ks generalizing s with
  | nil => simp
  | cons k ks ih =>
    obtain ⟨hk, hks⟩ := List.nodup_cons.mp hks
    rw [List.foldl_cons, ih hks, lookup_modify]
    by_cases heq : k' = k
    · subst heq
      simp [hk]
    · simp [heq]

theorem lookup_modifyWhere (p : V → Bool) (k' : K) (f : V → V) (s : Store K V) :
    (modifyWhere p f s).lookup k' = (s.lookup k').map fun v => if p v then f v else v := by
  rw [modifyWhere, lookup_foldl_modify s.keys_nodup]
  split
  · rfl
  · rename_i hmem
    rw [AList.lookup_eq_none.mpr fun h => hmem (AList.mem_keys.mp h)]
    rfl

/-! ## Fresh keys -/

theorem lt_nextKey {s : Store Nat V} {k : Nat} (h : k ∈ s) : k < nextKey s := by
  have hle : ∀ ks : List Nat, ∀ k ∈ ks, k ≤ ks.foldr max 0 := by
    intro ks
    induction ks with
    | nil => exact fun k h => absurd h (by simp)
    | cons a ks ih =>
      intro k h
      rw [List.foldr_cons]
      cases List.mem_cons.mp h with
      | inl heq => exact heq ▸ le_max_left _ _
      | inr hmem => exact le_trans (ih k hmem) (le_max_right _ _)
  exact Nat.lt_succ_of_le (hle s.keys k (AList.mem_keys.mp h))

theorem nextKey_notMem (s : Store Nat V) : nextKey s ∉ s := fun h => absurd (lt_nextKey h) (by simp)

/-! ## Searching -/

theorem of_findWhere {p : V → Bool} {s : Store K V} {k : K} {v : V}
    (h : findWhere p s = some (k, v)) : s.lookup k = some v ∧ p v = true := by
  obtain ⟨k', -, hmap⟩ := List.exists_of_findSome?_eq_some h
  obtain ⟨v', hv', heq⟩ := Option.map_eq_some_iff.mp hmap
  obtain ⟨rfl, rfl⟩ := Prod.mk.inj heq
  exact Option.filter_eq_some_iff.mp hv'

theorem findWhere_eq_none_iff {p : V → Bool} {s : Store K V} :
    findWhere p s = none ↔ ∀ k v, s.lookup k = some v → p v = false := by
  unfold findWhere
  rw [List.findSome?_eq_none_iff]
  constructor
  · intro h k v hv
    have hmem : k ∈ s := AList.lookup_isSome.mp (by rw [hv]; rfl)
    have hnone := h k (AList.mem_keys.mp hmem)
    rw [hv, Option.map_eq_none_iff, Option.filter_eq_none_iff] at hnone
    exact Bool.not_eq_true _ ▸ hnone v rfl
  · intro h k _
    rw [Option.map_eq_none_iff, Option.filter_eq_none_iff]
    intro v hv
    simp [h k v hv]

/-! ## The same upsert over a list of keys -/

@[simp] theorem mem_upsertAll {ks : List K} {k' : K} {f : Option V → V} {s : Store K V} :
    k' ∈ upsertAll ks f s ↔ k' ∈ ks ∨ k' ∈ s := by
  induction ks generalizing s with
  | nil => simp [upsertAll]
  | cons k ks ih =>
    rw [upsertAll, List.foldl_cons, ← upsertAll, ih, mem_upsert, List.mem_cons]
    tauto

/-- **A settled upsert over a list of rows**: each listed key has been through the function
once, however often it is listed. -/
theorem lookup_upsertAll {f : Option V → V} (hf : Settled f) (ks : List K) (k' : K)
    (s : Store K V) :
    (upsertAll ks f s).lookup k' = if k' ∈ ks then some (f (s.lookup k')) else s.lookup k' := by
  induction ks generalizing s with
  | nil => simp [upsertAll]
  | cons k ks ih =>
    rw [upsertAll, List.foldl_cons, ← upsertAll, ih, lookup_upsert]
    by_cases hk : k' = k
    · subst hk
      have hs : f (some (f (s.lookup k'))) = f (s.lookup k') := hf _
      by_cases hks : k' ∈ ks <;> simp [hks, hs]
    · simp [hk]

/-! ## Records put over what is there -/

section Overwrite

variable {A : Type} {key : A → K} {val : A → V}

/-- The last record of a key stays. -/
theorem lookup_foldl_overwrite (as : List A) (k : K) (s : Store K V) :
    (as.foldl (fun s a => upsert (key a) (fun _ => val a) s) s).lookup k =
      ((as.reverse.find? fun a => key a = k).map val).or (s.lookup k) := by
  induction as generalizing s with
  | nil => rfl
  | cons a as ih =>
    rw [List.foldl_cons, ih, lookup_upsert, List.reverse_cons, List.find?_append]
    by_cases hk : k = key a
    · subst hk
      cases as.reverse.find? fun b => key b = key a with
      | none => simp
      | some b => simp
    · cases as.reverse.find? fun b => key b = k with
      | none => simp [hk, Ne.symm hk]
      | some b => simp

/-- Where no two have a key in common, all of them stay. -/
theorem lookup_foldl_overwrite_of_mem {as : List A} {a : A}
    (hkeys : as.Pairwise fun a b => key a ≠ key b) (ha : a ∈ as) (s : Store K V) :
    (as.foldl (fun s a => upsert (key a) (fun _ => val a) s) s).lookup (key a) = some (val a) := by
  rw [lookup_foldl_overwrite]
  cases hfind : as.reverse.find? fun b => key b = key a with
  | none =>
    rw [List.find?_eq_none] at hfind
    exact absurd (hfind a (List.mem_reverse.mpr ha)) (by simp)
  | some b =>
    have hkey : key b = key a := by simpa using List.find?_some hfind
    have hmem : b ∈ as := List.mem_reverse.mp (List.mem_of_find?_eq_some hfind)
    have hnodup : (as.map key).Nodup := List.pairwise_map.mpr hkeys
    rw [List.inj_on_of_nodup_map hnodup ha hmem hkey.symm]
    rfl

end Overwrite

/-! ## Deletion -/

private theorem lookup_foldl_erase (ks : List K) (k' : K) (s : Store K V) :
    (ks.foldl (fun s k => s.erase k) s).lookup k' = if k' ∈ ks then none else s.lookup k' := by
  induction ks generalizing s with
  | nil => simp
  | cons k ks ih =>
    rw [List.foldl_cons, ih]
    by_cases hks : k' ∈ ks
    · simp [hks]
    · by_cases hk : k' = k
      · subst hk
        simp [hks]
      · simp [hks, hk, AList.lookup_erase_ne]

theorem lookup_eraseWhere (p : K → Bool) (k' : K) (s : Store K V) :
    (eraseWhere p s).lookup k' = if p k' then none else s.lookup k' := by
  rw [eraseWhere, lookup_foldl_erase]
  by_cases hp : p k'
  · by_cases hs : k' ∈ s
    · simp [hp, ← AList.mem_keys, hs]
    · simp [hp, AList.lookup_eq_none.mpr hs]
  · simp [hp]

theorem mem_eraseWhere {p : K → Bool} {k : K} {s : Store K V} :
    k ∈ eraseWhere p s ↔ k ∈ s ∧ p k = false := by
  rw [← AList.lookup_isSome, ← AList.lookup_isSome, lookup_eraseWhere]
  cases p k <;> simp

end KeyedStore
end OdooSemantic
