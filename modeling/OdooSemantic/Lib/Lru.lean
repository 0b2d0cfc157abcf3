import Mathlib.Data.List.Nodup

/-!
# Least recently used, seen from a log

What a bounded cache holds is determined by what has happened to it: what was put under a key last
and not evicted since (`lastPut`), and how long ago each key was used (`lastUse`). The log is newest
first.

The items of such a cache stand in the order of their last use (`Mirrors`), so that the first one
is the one to go. There is one lemma for each thing that may happen to the items.
-/

namespace OdooSemantic
namespace Lru

inductive Event (K V : Type) where
  | put (k : K) (v : V)
  | hit (k : K)
  /-- Found too old, and taken out. -/
  | expired (k : K)
  /-- Taken out for want of room, of these keys. -/
  | evicted (k : K) (held : List K)
  | cleared

variable {K V : Type} [DecidableEq K]

def Event.uses (k : K) : Event K V → Bool
  | put k' _ => k' = k
  | hit k' => k' = k
  | expired _ => false
  | evicted _ _ => false
  | cleared => false

/-- The place in the log of the last put or hit. -/
def lastUse (k : K) : List (Event K V) → Nat
  | [] => 0
  | e :: older => if e.uses k then older.length + 1 else lastUse k older

/-- What was put under the key last, if it was not evicted since; to clear is to evict them all. -/
def lastPut (k : K) : List (Event K V) → Option V
  | [] => none
  | .put k' v :: older => if k' = k then some v else lastPut k older
  | .evicted k' _ :: older => if k' = k then none else lastPut k older
  | .cleared :: _ => none
  | .hit _ :: older => lastPut k older
  | .expired _ :: older => lastPut k older

/-- Whatever was evicted was the key used least recently, of those held. -/
def Fair (log : List (Event K V)) : Prop :=
  ∀ newer k held older, log = newer ++ .evicted k held :: older →
    k ∈ held ∧ ∀ k' ∈ held, k' ≠ k → lastUse k older < lastUse k' older

variable {log : List (Event K V)} {items : List (K × V)} {stale stale' : V → Prop} {k : K} {v : V}
  {e : Event K V}

theorem lastUse_le (k : K) (log : List (Event K V)) : lastUse k log ≤ log.length := by
  induction log with
  | nil => exact Nat.le_refl _
  | cons e older ih =>
    rw [lastUse, List.length_cons]
    split
    · exact Nat.le_refl _
    · omega

theorem lastUse_cons_of_not_uses (h : e.uses k = false) (log : List (Event K V)) :
    lastUse k (e :: log) = lastUse k log := by
  rw [lastUse, h]
  rfl

theorem fair_nil : Fair ([] : List (Event K V)) := fun newer _ _ _ h => absurd h (by simp)

/-- What evicts nothing is fair. -/
theorem Fair.cons (h : Fair log) (he : ∀ k held, e ≠ .evicted k held) : Fair (e :: log) := by
  intro newer k held older heq
  cases newer with
  | nil => exact absurd (List.cons.inj heq).1 (he k held)
  | cons f newer => exact h newer k held older (List.cons.inj heq).2

/-- The items are what was put last, in the order of their last use; what is missing is stale. -/
structure Mirrors (stale : V → Prop) (log : List (Event K V)) (items : List (K × V)) : Prop where
  ordered : items.Pairwise fun i j => lastUse i.1 log < lastUse j.1 log
  stored : ∀ i ∈ items, lastPut i.1 log = some i.2
  missing : ∀ k v, lastPut k log = some v → k ∉ items.map Prod.fst → stale v
  fair : Fair log

theorem mirrors_nil : Mirrors stale ([] : List (Event K V)) [] where
  ordered := .nil
  stored i hi := absurd hi (by simp)
  missing k v h := absurd h (by simp [lastPut])
  fair := fair_nil

theorem Mirrors.mono (h : Mirrors stale log items) (hmono : ∀ v, stale v → stale' v) :
    Mirrors stale' log items :=
  { h with missing := fun k v hv hk => hmono v (h.missing k v hv hk) }

/-- **To the end**: the key that is used, with its new value. -/
theorem Mirrors.use (h : Mirrors stale log items) (huses : ∀ k', e.uses k' = true ↔ k' = k)
    (hself : lastPut k (e :: log) = some v)
    (hothers : ∀ k', k' ≠ k → lastPut k' (e :: log) = lastPut k' log) :
    Mirrors stale (e :: log) (items.filter (fun i => i.1 ≠ k) ++ [(k, v)]) := by
  have hother : ∀ k', k' ≠ k → lastUse k' (e :: log) = lastUse k' log := fun k' hk' =>
    lastUse_cons_of_not_uses (Bool.eq_false_iff.mpr fun hu => hk' ((huses k').mp hu)) log
  have hne : ∀ i ∈ items.filter (fun i => i.1 ≠ k), i ∈ items ∧ i.1 ≠ k := by
    intro i hi
    simpa using List.mem_filter.mp hi
  refine ⟨List.pairwise_append.mpr ⟨?_, by simp, fun i hi j hj => ?_⟩, fun i hi => ?_,
    fun k' w hw hmem => ?_, h.fair.cons fun k' held heq => ?_⟩
  · refine (h.ordered.sublist List.filter_sublist).imp_of_mem fun {i j} hi hj hij => ?_
    rw [hother _ (hne i hi).2, hother _ (hne j hj).2]
    exact hij
  · obtain rfl := List.mem_singleton.mp hj
    rw [hother _ (hne i hi).2, lastUse, if_pos ((huses k).mpr rfl)]
    exact Nat.lt_succ_of_le (lastUse_le i.1 log)
  · cases List.mem_append.mp hi with
    | inl hold =>
      rw [hothers _ (hne i hold).2]
      exact h.stored i (hne i hold).1
    | inr hnew =>
      obtain rfl := List.mem_singleton.mp hnew
      exact hself
  · by_cases hk : k' = k
    · exact absurd (by simp [hk]) hmem
    · rw [hothers k' hk] at hw
      refine h.missing k' w hw fun hold => hmem ?_
      obtain ⟨i, hi, rfl⟩ := List.mem_map.mp hold
      exact List.mem_map.mpr ⟨i, List.mem_append_left _ (List.mem_filter.mpr ⟨hi, by simp [hk]⟩), rfl⟩
  · have := (huses k).mpr rfl
    rw [heq] at this
    exact absurd this (by simp [Event.uses])

theorem Mirrors.put (h : Mirrors stale log items) (k : K) (v : V) :
    Mirrors stale (.put k v :: log) (items.filter (fun i => i.1 ≠ k) ++ [(k, v)]) := by
  refine h.use (fun k' => ?_) (by simp [lastPut]) fun k' hk' => ?_
  · simp [Event.uses, eq_comm]
  · simp [lastPut, Ne.symm hk']

theorem Mirrors.hit (h : Mirrors stale log items) (hmem : (k, v) ∈ items) :
    Mirrors stale (.hit k :: log) (items.filter (fun i => i.1 ≠ k) ++ [(k, v)]) := by
  refine h.use (fun k' => ?_) (h.stored _ hmem) fun k' _ => rfl
  simp [Event.uses, eq_comm]

/-- What is found too old, is stale. -/
theorem Mirrors.expire (h : Mirrors stale log items) (hmem : (k, v) ∈ items) (hstale : stale v) :
    Mirrors stale (.expired k :: log) (items.filter fun i => i.1 ≠ k) := by
  refine ⟨?_, fun i hi => h.stored i (List.mem_of_mem_filter hi), fun k' w hw hk' => ?_,
    h.fair.cons fun _ _ => by simp⟩
  · exact (h.ordered.sublist List.filter_sublist).imp fun {i j} hij => by
      rwa [lastUse_cons_of_not_uses rfl, lastUse_cons_of_not_uses rfl]
  · by_cases hk : k' = k
    · subst hk
      obtain rfl := Option.some.inj ((h.stored _ hmem).symm.trans hw)
      exact hstale
    · refine h.missing k' w hw fun hold => hk' ?_
      obtain ⟨i, hi, rfl⟩ := List.mem_map.mp hold
      exact List.mem_map.mpr ⟨i, List.mem_filter.mpr ⟨hi, by simp [hk]⟩, rfl⟩

/-- **The first one goes**: it is the one used least recently. -/
theorem Mirrors.pop {i : K × V} (h : Mirrors stale log (i :: items)) :
    Mirrors stale (.evicted i.1 (i.1 :: items.map Prod.fst) :: log) items := by
  obtain ⟨hfirst, hordered⟩ := List.pairwise_cons.mp h.ordered
  have hne : ∀ j ∈ items, i.1 ≠ j.1 := fun j hj heq => by
    have := hfirst j hj
    rw [heq] at this
    exact Nat.lt_irrefl _ this
  refine ⟨hordered.imp fun {j j'} hjj' => ?_, fun j hj => ?_, fun k v hv hk => ?_,
    fun newer k held older heq => ?_⟩
  · rwa [lastUse_cons_of_not_uses rfl, lastUse_cons_of_not_uses rfl]
  · rw [lastPut, if_neg (hne j hj)]
    exact h.stored j (List.mem_cons_of_mem _ hj)
  · rw [lastPut] at hv
    split at hv
    · exact absurd hv (by simp)
    · rename_i hki
      refine h.missing k v hv fun hmem => ?_
      cases List.mem_cons.mp hmem with
      | inl heq => exact hki heq.symm
      | inr hmem => exact hk hmem
  · cases newer with
    | cons e newer => exact h.fair newer k held older (List.cons.inj heq).2
    | nil =>
      obtain ⟨hevicted, rfl⟩ := List.cons.inj heq
      obtain ⟨rfl, rfl⟩ := Event.evicted.inj hevicted
      refine ⟨List.mem_cons_self, fun k' hk' hne' => ?_⟩
      cases List.mem_cons.mp hk' with
      | inl heq => exact absurd heq hne'
      | inr hmem =>
        obtain ⟨j, hj, rfl⟩ := List.mem_map.mp hmem
        exact hfirst j hj

theorem Mirrors.clear (h : Mirrors stale log items) : Mirrors stale (.cleared :: log) [] where
  ordered := .nil
  stored i hi := absurd hi (by simp)
  missing k v hv := absurd hv (by simp [lastPut])
  fair := h.fair.cons fun _ _ => by simp

end Lru
end OdooSemantic
