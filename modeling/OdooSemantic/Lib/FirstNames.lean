import Mathlib.Data.List.Induction
import Mathlib.Data.List.Perm.Basic
import Mathlib.Data.List.Pairwise
import Mathlib.Data.List.Nodup

/-!
# The first item of each key, and the names of what is kept

A list is gone through, and an item is kept unless one with its key has been (`firstOf`).

Or some of its items are kept, and their names are noted in the order in which each is first kept
(`firstNames`). Three facts say which list that is (`eq_firstNames`): it has the names of the
kept items, it has none of them twice, and a name that is ahead of another in it is first kept ahead
of the other.
-/

namespace OdooSemantic

section FirstOf

variable {α κ : Type} [DecidableEq κ] (key : α → κ)

/-- One item. -/
def keepFirst (kept : List α) (a : α) : List α :=
  if key a ∈ kept.map key then kept else kept ++ [a]

def firstOf (as : List α) : List α := as.foldl (keepFirst key) []

variable {key} {as : List α} {a : α}

theorem firstOf_concat (as : List α) (a : α) :
    firstOf key (as ++ [a]) = keepFirst key (firstOf key as) a := by
  rw [firstOf, List.foldl_append]
  rfl

theorem mem_of_mem_firstOf (h : a ∈ firstOf key as) : a ∈ as := by
  induction as using List.reverseRecOn with
  | nil => exact h
  | append_singleton as b ih =>
    rw [firstOf_concat, keepFirst] at h
    split at h
    · exact List.mem_append_left _ (ih h)
    · rcases List.mem_append.mp h with h | h
      · exact List.mem_append_left _ (ih h)
      · exact List.mem_append_right _ h

/-- No key is missing. -/
theorem exists_mem_firstOf (h : a ∈ as) : ∃ b ∈ firstOf key as, key b = key a := by
  induction as using List.reverseRecOn with
  | nil => exact absurd h List.not_mem_nil
  | append_singleton as c ih =>
    rw [firstOf_concat, keepFirst]
    rcases List.mem_append.mp h with h | h
    · obtain ⟨b, hb, hkey⟩ := ih h
      split
      · exact ⟨b, hb, hkey⟩
      · exact ⟨b, List.mem_append_left _ hb, hkey⟩
    · obtain rfl := List.mem_singleton.mp h
      split
      · rename_i hin
        exact List.mem_map.mp hin
      · exact ⟨a, by simp, rfl⟩

/-- And none is there twice. -/
theorem pairwise_firstOf (as : List α) : (firstOf key as).Pairwise fun a b => key a ≠ key b := by
  induction as using List.reverseRecOn with
  | nil => exact List.Pairwise.nil
  | append_singleton as a ih =>
    rw [firstOf_concat, keepFirst]
    split
    · exact ih
    · rename_i hnew
      rw [List.pairwise_append]
      refine ⟨ih, List.pairwise_singleton _ _, ?_⟩
      intro b hb c hc heq
      obtain rfl := List.mem_singleton.mp hc
      exact hnew (List.mem_map.mpr ⟨b, hb, heq⟩)

end FirstOf

section FirstNames

variable {α κ : Type} [DecidableEq κ] (name : α → κ) (keep : α → Bool)

/-- One item. -/
def noteFirst (names : List κ) (a : α) : List κ :=
  if name a ∈ names then names else if keep a then names ++ [name a] else names

def firstNames (as : List α) : List κ := as.foldl (noteFirst name keep) []

/-- An item called `k` is kept, and none called `l` ahead of it. -/
def KeptAhead (as : List α) (k l : κ) : Prop :=
  ∃ front a back, as = front ++ a :: back ∧ name a = k ∧ keep a = true ∧
    ∀ b ∈ front, keep b = true → name b ≠ l

variable {name keep} {as : List α} {k l : κ}

theorem firstNames_concat (as : List α) (a : α) :
    firstNames name keep (as ++ [a]) = noteFirst name keep (firstNames name keep as) a :=
  List.foldl_concat ..

theorem mem_firstNames : k ∈ firstNames name keep as ↔ ∃ a ∈ as, name a = k ∧ keep a = true := by
  induction as using List.reverseRecOn with
  | nil => simp [firstNames]
  | append_singleton as a ih =>
    have hsplit : (∃ b ∈ as ++ [a], name b = k ∧ keep b = true) ↔
        k ∈ firstNames name keep as ∨ (name a = k ∧ keep a = true) := by
      rw [ih]
      simp [or_and_right, exists_or]
    rw [firstNames_concat, hsplit, noteFirst]
    by_cases hin : name a ∈ firstNames name keep as
    · rw [if_pos hin]
      constructor
      · exact Or.inl
      · rintro (h | ⟨rfl, -⟩)
        · exact h
        · exact hin
    · rw [if_neg hin]
      cases hkeep : keep a with
      | true => simp [eq_comm]
      | false => simp

theorem nodup_firstNames (as : List α) : (firstNames name keep as).Nodup := by
  induction as using List.reverseRecOn with
  | nil => exact List.nodup_nil
  | append_singleton as a ih =>
    rw [firstNames_concat, noteFirst]
    by_cases hin : name a ∈ firstNames name keep as
    · rwa [if_pos hin]
    · rw [if_neg hin]
      cases keep a with
      | true => exact List.nodup_append.mpr ⟨ih, List.nodup_singleton _, by
          intro b hb c hc
          rw [List.mem_singleton.mp hc]
          exact fun heq => hin (heq ▸ hb)⟩
      | false => exact ih

omit [DecidableEq κ] in
/-- What comes behind does not matter. -/
theorem KeptAhead.append (h : KeptAhead name keep as k l) (bs : List α) :
    KeptAhead name keep (as ++ bs) k l := by
  obtain ⟨front, a, back, rfl, hname, hkeep, hfront⟩ := h
  exact ⟨front, a, back ++ bs, by simp, hname, hkeep, hfront⟩

theorem keptAhead_of_mem (hk : k ∈ firstNames name keep as) (hl : l ∉ firstNames name keep as) :
    KeptAhead name keep as k l := by
  obtain ⟨a, ha, hname, hkeep⟩ := mem_firstNames.mp hk
  obtain ⟨front, back, rfl⟩ := List.append_of_mem ha
  refine ⟨front, a, back, rfl, hname, hkeep, fun b hb hkept hlname => hl ?_⟩
  exact mem_firstNames.mpr ⟨b, List.mem_append_left _ hb, hlname, hkept⟩

theorem pairwise_firstNames (as : List α) :
    (firstNames name keep as).Pairwise (KeptAhead name keep as) := by
  induction as using List.reverseRecOn with
  | nil => exact List.Pairwise.nil
  | append_singleton as a ih =>
    have hbefore : (firstNames name keep as).Pairwise (KeptAhead name keep (as ++ [a])) :=
      ih.imp fun h => h.append [a]
    rw [firstNames_concat, noteFirst]
    by_cases hin : name a ∈ firstNames name keep as
    · rwa [if_pos hin]
    · rw [if_neg hin]
      cases keep a with
      | true =>
        refine List.pairwise_append.mpr ⟨hbefore, List.pairwise_singleton _ _, fun k hk l hl => ?_⟩
        rw [List.mem_singleton.mp hl]
        exact (keptAhead_of_mem hk hin).append [a]
      | false => exact hbefore

omit [DecidableEq κ] in
/-- Of two names only one is first. -/
theorem KeptAhead.antisymm (hkl : KeptAhead name keep as k l) (hlk : KeptAhead name keep as l k) :
    k = l := by
  obtain ⟨front, a, back, rfl, rfl, hkeep, hfront⟩ := hkl
  obtain ⟨front', b, back', heq, rfl, hkeep', hfront'⟩ := hlk
  rcases List.append_eq_append_iff.mp heq with ⟨mid, hmid, hback⟩ | ⟨mid, hmid, hback⟩
  · cases mid with
    | nil => rw [(List.cons.inj hback).1]
    | cons c mid =>
      obtain rfl := (List.cons.inj hback).1
      exact absurd rfl (hfront' a (by rw [hmid]; simp) hkeep)
  · cases mid with
    | nil => rw [(List.cons.inj hback).1]
    | cons c mid =>
      obtain rfl := (List.cons.inj hback).1
      exact absurd rfl (hfront b (by rw [hmid]; simp) hkeep')

/-- **There is one such list.** -/
theorem eq_firstNames {names : List κ}
    (hmem : ∀ k, k ∈ names ↔ ∃ a ∈ as, name a = k ∧ keep a = true) (hnodup : names.Nodup)
    (hahead : names.Pairwise (KeptAhead name keep as)) : names = firstNames name keep as := by
  have hperm : names.Perm (firstNames name keep as) :=
    (List.perm_ext_iff_of_nodup hnodup (nodup_firstNames as)).mpr fun k =>
      (hmem k).trans mem_firstNames.symm
  exact hperm.eq_of_pairwise (fun _ _ _ _ => KeptAhead.antisymm) hahead (pairwise_firstNames as)

/-- What is first kept ahead of another is ahead of it in the list. -/
theorem ahead_of_keptAhead {keep' : α → Bool} (hne : k ≠ l) (hk : k ∈ firstNames name keep as)
    (hl : l ∈ firstNames name keep as)
    (hahead : (firstNames name keep as).Pairwise (KeptAhead name keep' as))
    (h : KeptAhead name keep as k l) : KeptAhead name keep' as k l := by
  obtain ⟨front, back, hsplit⟩ := List.append_of_mem hk
  have hsorted := @pairwise_firstNames _ _ _ name keep as
  rw [hsplit] at hl hahead hsorted
  rcases List.mem_append.mp hl with hfront | hback
  · have hlk := (List.pairwise_append.mp hsorted).2.2 l hfront k List.mem_cons_self
    exact absurd (h.antisymm hlk) hne
  · have hback := (List.mem_cons.mp hback).resolve_left (Ne.symm hne)
    exact (List.pairwise_cons.mp (List.pairwise_append.mp hahead).2.1).1 l hback

end FirstNames
end OdooSemantic
