import Mathlib.Data.Finset.Dedup
import Mathlib.Data.Finset.Order
import Mathlib.Data.List.Induction
import Mathlib.Tactic.Linarith
import OdooSemantic.Lib.Lru
import OdooSemantic.Mcp.Resources

/-!
# What the cache of resource bodies holds

The order of the `OrderedDict` is the order of use (`Lru.Mirrors`), through hits, misses, hits on
what is too old, overwrites and evictions. So the cache answers what the log of its operations says
it should: what was put last, for as long as it may live, unless it had to go; and what had to go
was what nobody had used for the longest time.
-/

namespace OdooSemantic

open Lru

namespace Dict

variable {K V : Type} [DecidableEq K] {d : Dict K V} {k : K} {v : V}

theorem items_moveToEnd (h : d.get? k = some v) :
    (d.moveToEnd k).items = d.items.filter (fun i => i.1 ≠ k) ++ [(k, v)] := by
  rw [moveToEnd, h]
  have hgone : k ∉ (d.pop k).keys := by simp [pop, keys, filter]
  simp only [set, hgone, dif_neg, not_false_iff]
  rfl

theorem items_set_of_notMem (h : k ∉ d.keys) :
    (d.set k v).items = d.items.filter (fun i => i.1 ≠ k) ++ [(k, v)] := by
  rw [set, dif_neg h, List.filter_eq_self.mpr]
  intro i hi
  have : i.1 ≠ k := fun heq => h (heq ▸ List.mem_map_of_mem hi)
  simpa using this

/-- To the end, and then in place. -/
theorem items_set_moveToEnd {w : V} (h : d.get? k = some w) :
    ((d.moveToEnd k).set k v).items = d.items.filter (fun i => i.1 ≠ k) ++ [(k, v)] := by
  have hmem : k ∈ (d.moveToEnd k).keys := by simp [keys, items_moveToEnd h]
  rw [set, dif_pos hmem]
  simp only [items_moveToEnd h, List.map_append, List.map_cons, List.map_nil, if_true]
  congr 1
  refine List.map_congr_left (g := id) (fun i hi => ?_) |>.trans (List.map_id _)
  have : i.1 ≠ k := by simpa using (List.mem_filter.mp hi).2
  rw [if_neg this, id]

end Dict

/-! ## The operations, and what they log -/

/-- A cache and its log. -/
structure CacheRun where
  cache : ResourceCache
  log : List (Lru.Event String CacheEntry) := []

inductive CacheOp where
  | get (now : ℚ) (key : String)
  | put (now : ℚ) (key value mimeType : String)
  | getOrCompute (now : ℚ) (key : String) (computed : Option (String × String)) (later : ℚ)
  | clear

/-- The times that the operation reads off `now_fn`. -/
def CacheOp.times : CacheOp → List ℚ
  | get now _ => [now]
  | put now _ _ _ => [now]
  | getOrCompute now _ _ later => [now, later]
  | clear => []

namespace CacheRun

variable (s : CacheRun)

def get (now : ℚ) (key : String) : CacheRun :=
  let (answer, cache) := s.cache.get now key
  let seen : List (Lru.Event String CacheEntry) :=
    if answer.isSome then [.hit key]
    else if key ∈ s.cache.data.keys then [.expired key]
    else []
  { cache, log := seen ++ s.log }

def put (now : ℚ) (key value mimeType : String) : CacheRun :=
  let (popped, cache) := s.cache.put now key value mimeType
  { cache
    log := popped.foldl (fun log p => .evicted p.1 p.2 :: log)
      (.put key { value, mimeType, fetchedAt := now } :: s.log) }

def exec (s : CacheRun) : CacheOp → CacheRun
  | .get now key => s.get now key
  | .put now key value mimeType => s.put now key value mimeType
  | .getOrCompute now key computed later =>
      match (s.cache.get now key).1, computed with
      | none, some (value, mimeType) => (s.get now key).put later key value mimeType
      | _, _ => s.get now key
  | .clear => { cache := s.cache.clear, log := .cleared :: s.log }

def execAll (c : ResourceCache) (ops : List CacheOp) : CacheRun := ops.foldl exec { cache := c }

/-- `get_or_compute` is the `get` and the `put` that are logged. -/
theorem cache_getOrCompute (now : ℚ) (key : String) (computed : Option (String × String))
    (later : ℚ) :
    (s.exec (.getOrCompute now key computed later)).cache =
      (s.cache.getOrCompute now key computed later).2.2 := by
  simp only [exec, ResourceCache.getOrCompute]
  rcases hget : s.cache.get now key with ⟨_ | content, c⟩ <;> cases computed <;>
    simp [get, put, hget]

/-! ## What every operation keeps -/

/-- The entry has outlived the lifetime. -/
def Stale (ttl clock : ℚ) (entry : CacheEntry) : Prop := ttl < clock - entry.fetchedAt

/-- No more than there is room for, and what the log says. -/
structure Kept (capacity : Nat) (ttl clock : ℚ) (s : CacheRun) : Prop where
  capacity_eq : s.cache.capacity = capacity
  ttl_eq : s.cache.ttl = ttl
  length_le : s.cache.data.items.length ≤ capacity
  mirrors : Mirrors (Stale ttl clock) s.log s.cache.data.items

variable {s : CacheRun} {capacity : Nat} {ttl clock now : ℚ} {key value mimeType : String}
  {entry : CacheEntry}

theorem Kept.later (h : Kept capacity ttl clock s) (hnow : clock ≤ now) :
    Kept capacity ttl now s :=
  { h with mirrors := h.mirrors.mono fun entry hstale => by unfold Stale at hstale ⊢; linarith }

theorem length_filter_of_mem {items : List (String × CacheEntry)}
    (hmem : (key, entry) ∈ items) : (items.filter fun i => i.1 ≠ key).length + 1 ≤ items.length :=
  List.length_filter_lt_length_iff_exists.mpr ⟨_, hmem, by simp⟩

theorem Kept.get (h : Kept capacity ttl now s) (key : String) :
    Kept capacity ttl now (s.get now key) := by
  rw [CacheRun.get, ResourceCache.get]
  cases hentry : s.cache.data.get? key with
  | none =>
    have hno : key ∉ s.cache.data.keys := fun hmem => by
      obtain ⟨i, hi, rfl⟩ := List.mem_map.mp hmem
      exact absurd (hentry.symm.trans (Dict.get?_eq_some_iff.mpr hi)) (by simp)
    simp only [Option.isSome_none, Bool.false_eq_true, if_false, hno, List.nil_append]
    exact h
  | some entry =>
    have hmem := Dict.mem_items_of_get? hentry
    have hkey : key ∈ s.cache.data.keys := List.mem_map_of_mem hmem
    have hlength := (length_filter_of_mem hmem).trans h.length_le
    by_cases hold : now - entry.fetchedAt > s.cache.ttl
    · simp only [hold, if_true, Option.isSome_none, Bool.false_eq_true, if_false, hkey]
      refine ⟨h.capacity_eq, h.ttl_eq, (Nat.le_succ _).trans hlength, h.mirrors.expire hmem ?_⟩
      rw [Stale, ← h.ttl_eq]
      exact hold
    · simp only [hold, if_false, Option.isSome_some, if_true]
      refine ⟨h.capacity_eq, h.ttl_eq, ?_, ?_⟩
      · rw [Dict.items_moveToEnd hentry, List.length_append]
        exact hlength
      · rw [Dict.items_moveToEnd hentry]
        exact h.mirrors.hit hmem

/-- **The loop of evictions**, one after the other, until there is room. -/
theorem mirrors_popWhileOver {items : List (String × CacheEntry)}
    {log : List (Lru.Event String CacheEntry)} (h : Mirrors (Stale ttl now) log items) :
    Mirrors (Stale ttl now)
      ((Dict.popWhileOver capacity items).1.foldl (fun log p => .evicted p.1 p.2 :: log) log)
      (Dict.popWhileOver capacity items).2 := by
  induction items generalizing log with
  | nil => exact h
  | cons i rest ih =>
    rw [Dict.popWhileOver]
    split
    · exact ih h.pop
    · exact h

theorem length_popWhileOver (capacity : Nat) (items : List (String × CacheEntry)) :
    (Dict.popWhileOver capacity items).2.length ≤ capacity := by
  induction items with
  | nil => exact Nat.zero_le _
  | cons i rest ih =>
    rw [Dict.popWhileOver]
    split
    · exact ih
    · rw [List.length_cons]
      omega

theorem Kept.put (h : Kept capacity ttl now s) (key value mimeType : String) :
    Kept capacity ttl now (s.put now key value mimeType) := by
  have hmirrors := h.mirrors.put key { value, mimeType, fetchedAt := now }
  rw [CacheRun.put, ResourceCache.put]
  by_cases hkey : key ∈ s.cache.data.keys
  · obtain ⟨⟨k, old⟩, hmem, rfl⟩ := List.mem_map.mp hkey
    simp only [hkey, if_true, List.foldl_nil]
    have hitems := Dict.items_set_moveToEnd (v := { value, mimeType, fetchedAt := now })
      (Dict.get?_eq_some_iff.mpr hmem)
    refine ⟨h.capacity_eq, h.ttl_eq, ?_, ?_⟩
    · rw [hitems, List.length_append]
      exact (length_filter_of_mem hmem).trans h.length_le
    · rw [hitems]
      exact hmirrors
  · simp only [hkey, if_false]
    refine ⟨h.capacity_eq, h.ttl_eq, ?_, ?_⟩
    · rw [← h.capacity_eq]
      exact length_popWhileOver _ _
    · refine mirrors_popWhileOver ?_
      rw [Dict.items_set_of_notMem hkey]
      exact hmirrors

theorem Kept.clear (h : Kept capacity ttl clock s) : Kept capacity ttl clock (s.exec .clear) :=
  ⟨h.capacity_eq, h.ttl_eq, Nat.zero_le _, h.mirrors.clear⟩

/-- Whatever the time, once all these times have passed. -/
def KeptFrom (capacity : Nat) (ttl : ℚ) (before : List ℚ) (s : CacheRun) : Prop :=
  ∀ now, (∀ t ∈ before, t ≤ now) → Kept capacity ttl now s

theorem KeptFrom.exec {before : List ℚ} (h : KeptFrom capacity ttl before s) {op : CacheOp}
    (hclock : (before ++ op.times).Pairwise (· ≤ ·)) :
    KeptFrom capacity ttl (before ++ op.times) (s.exec op) := by
  intro now hnow
  obtain ⟨-, hsorted, hafter⟩ := List.pairwise_append.mp hclock
  have hbegin : ∀ t ∈ op.times, Kept capacity ttl t s := fun t ht =>
    h t fun u hu => hafter u hu t ht
  have hend : ∀ t ∈ op.times, t ≤ now := fun t ht => hnow t (List.mem_append_right _ ht)
  cases op with
  | get t key =>
    have ht : t ∈ (CacheOp.get t key).times := List.mem_singleton_self t
    exact ((hbegin t ht).get key).later (hend t ht)
  | put t key value mimeType =>
    have ht : t ∈ (CacheOp.put t key value mimeType).times := List.mem_singleton_self t
    exact ((hbegin t ht).put key value mimeType).later (hend t ht)
  | getOrCompute t key computed later =>
    have hget := (hbegin t List.mem_cons_self).get key
    have hlater : t ≤ later := by simpa [CacheOp.times] using hsorted
    have hlast : later ≤ now := hend later (by simp [CacheOp.times])
    simp only [CacheRun.exec]
    split
    · exact ((hget.later hlater).put key _ _).later hlast
    · exact hget.later (hlater.trans hlast)
  | clear => exact (h now fun t ht => hnow t (List.mem_append_left _ ht)).clear

theorem kept_execAll {c : ResourceCache} (hempty : c.data = .empty) {ops : List CacheOp}
    (hclock : (ops.flatMap CacheOp.times).Pairwise (· ≤ ·)) :
    KeptFrom c.capacity c.ttl (ops.flatMap CacheOp.times) (execAll c ops) := by
  induction ops using List.reverseRecOn with
  | nil =>
    refine fun now _ => ⟨rfl, rfl, ?_, ?_⟩
    · simp [execAll, hempty, Dict.empty]
    · simpa [execAll, hempty, Dict.empty] using mirrors_nil
  | append_singleton ops op ih =>
    rw [List.flatMap_append, List.flatMap_singleton] at hclock ⊢
    rw [execAll, List.foldl_append]
    exact KeptFrom.exec (ih (List.pairwise_append.mp hclock).1) hclock

/-- What a `get` answers: what was put last, unless it was evicted or is stale. -/
theorem Kept.get_eq_some_iff (h : Kept capacity ttl now s) {content : String × String} :
    (s.cache.get now key).1 = some content ↔ ∃ entry, lastPut key s.log = some entry ∧
      (entry.value, entry.mimeType) = content ∧ now - entry.fetchedAt ≤ ttl := by
  rw [ResourceCache.get]
  cases hentry : s.cache.data.get? key with
  | none =>
    refine iff_of_false (by simp) ?_
    rintro ⟨entry, hlast, -, hfresh⟩
    have hmissing := h.mirrors.missing key entry hlast fun hmem => by
      obtain ⟨i, hi, rfl⟩ := List.mem_map.mp hmem
      exact absurd (hentry.symm.trans (Dict.get?_eq_some_iff.mpr hi)) (by simp)
    exact absurd hfresh (not_le.mpr hmissing)
  | some entry =>
    have hstored := h.mirrors.stored _ (Dict.mem_items_of_get? hentry)
    simp only [hstored, Option.some.injEq, exists_eq_left', h.ttl_eq]
    by_cases hold : now - entry.fetchedAt > ttl
    · rw [if_pos hold]
      exact iff_of_false (by simp) fun h => absurd h.2 (not_le.mpr hold)
    · rw [if_neg hold, Option.some.injEq]
      exact (and_iff_left (not_lt.mp hold)).symm

end CacheRun

/-- **The cache refines its log.** Whatever capacity and lifetime it was made with, and whatever
    operations came, in the order of the clock:

    there is never more in it than its capacity;
    a `get` returns what was put last under the key, if that is no older than the lifetime and was
    not evicted since, and nothing else, and `get_or_compute` returns the same or what it computes;
    and every key that was evicted was the one, of all that were held, whose last put or successful
    `get` was the oldest. -/
theorem resource_cache_refines {capacity : Int} {ttl : ℚ} {c : ResourceCache}
    (hc : ResourceCache.init capacity ttl = some c) {ops : List CacheOp}
    (hclock : (ops.flatMap CacheOp.times).Pairwise (· ≤ ·)) :
    let s := CacheRun.execAll c ops
    (s.cache.data.items.length : Int) ≤ capacity ∧
    (∀ now, (∀ t ∈ ops.flatMap CacheOp.times, t ≤ now) → ∀ key,
      (∀ content, (s.cache.get now key).1 = some content ↔
        ∃ entry, lastPut key s.log = some entry ∧
          (entry.value, entry.mimeType) = content ∧ now - entry.fetchedAt ≤ ttl) ∧
      ∀ computed later, (s.cache.getOrCompute now key computed later).1 =
        (s.cache.get now key).1.or computed) ∧
    Fair s.log := by
  have hinit : (c.capacity : Int) = capacity ∧ c.ttl = ttl ∧ c.data = .empty := by
    unfold ResourceCache.init at hc
    split at hc
    · rename_i hargs
      obtain rfl := Option.some.inj hc
      exact ⟨Int.toNat_of_nonneg (by omega), rfl, rfl⟩
    · exact absurd hc (by simp)
  obtain ⟨rfl, rfl, hempty⟩ := hinit
  have hkept := CacheRun.kept_execAll hempty hclock
  obtain ⟨last, hlast⟩ := (ops.flatMap CacheOp.times).toFinset.exists_le
  simp only [List.mem_toFinset] at hlast
  refine ⟨?_, fun now hnow key => ⟨fun content => ?_, fun computed later => ?_⟩, ?_⟩
  · exact Int.ofNat_le.mpr (hkept last hlast).length_le
  · exact (hkept now hnow).get_eq_some_iff
  · rw [ResourceCache.getOrCompute]
    split
    · rename_i hget
      rw [hget]
      rfl
    · rename_i hget
      rw [hget]
      cases computed <;> rfl
  · exact (hkept last hlast).mirrors.fair

namespace TwoSlots

/-- `ResourceCache(capacity=2, ttl=10)` -/
def cache : ResourceCache where
  capacity := 2
  ttl := 10
  one_le_capacity := by decide
  ttl_pos := by decide

/-- The second key goes, since the first one was read again; and at ten seconds the first one is
    still good. -/
def ops : List CacheOp :=
  [.put 0 "a" "1" "text/plain", .put 1 "b" "2" "text/plain", .get 2 "a",
    .getOrCompute 3 "c" (some ("3", "text/plain")) 4]

theorem resource_cache_two_slots :
    (CacheRun.execAll cache ops).cache.data.keys = ["a", "c"] ∧
    ((CacheRun.execAll cache ops).cache.get 10 "a").1 = some ("1", "text/plain") ∧
    ((CacheRun.execAll cache ops).cache.get (101 / 10) "a").1 = none ∧
    ((CacheRun.execAll cache ops).cache.data.items.length : Int) ≤ 2 ∧
    Fair (CacheRun.execAll cache ops).log := by
  have h := @resource_cache_refines 2 10 cache (by rfl) ops (by decide)
  exact ⟨by decide +kernel, by decide +kernel, by decide +kernel, h.1, h.2.2⟩

end TwoSlots

end OdooSemantic
