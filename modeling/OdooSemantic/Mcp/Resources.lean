import Mathlib.Algebra.Order.Ring.Rat
import OdooSemantic.Lib.Dict

/-!
# `src/mcp/resources.py` — the cache of resource bodies

`ResourceCache` is an `OrderedDict` whose order is the order of use: what is used goes to the end,
and what is one too many goes from the front. An entry has a lifetime; one that is found too old is
taken out by whoever finds it.

A lock is held around each operation but not around `compute_fn`, so `get_or_compute` is a `get`
and, later, a `put`. Times are in seconds of `now_fn`.
-/

namespace OdooSemantic

structure CacheEntry where
  value : String
  mimeType : String
  fetchedAt : ℚ
deriving DecidableEq

namespace Dict

variable {K V : Type}

/-- `d.pop(k, None)` -/
def pop [DecidableEq K] (d : Dict K V) (k : K) : Dict K V := d.filter fun i => i.1 ≠ k

/-- `d.move_to_end(k)`, where the key is there. -/
def moveToEnd [DecidableEq K] (d : Dict K V) (k : K) : Dict K V :=
  match d.get? k with
  | none => d
  | some v => (d.pop k).set k v

/-- `while len(d) > capacity: d.popitem(last=False)`, as items; first what was popped, each with the
    keys that were held. -/
def popWhileOver (capacity : Nat) : List (K × V) → List (K × List K) × List (K × V)
  | [] => ([], [])
  | i :: rest =>
      if capacity < rest.length + 1 then
        let (popped, left) := popWhileOver capacity rest
        ((i.1, i.1 :: rest.map Prod.fst) :: popped, left)
      else ([], i :: rest)

theorem popWhileOver_sublist (capacity : Nat) (items : List (K × V)) :
    (popWhileOver capacity items).2.Sublist items := by
  induction items with
  | nil => exact .slnil
  | cons i rest ih =>
    rw [popWhileOver]
    split
    · exact ih.cons i
    · exact .refl _

end Dict

/-- What `__init__` lets through. -/
structure ResourceCache where
  capacity : Nat := 1000
  ttl : ℚ := 300
  data : Dict String CacheEntry := .empty
  one_le_capacity : 1 ≤ capacity
  ttl_pos : 0 < ttl

namespace ResourceCache

variable (c : ResourceCache)

/-- `__init__(capacity=…, ttl=…)`; `none` is the `ValueError`. -/
def init (capacity : Int) (ttl : ℚ) : Option ResourceCache :=
  if h : 1 ≤ capacity ∧ 0 < ttl then
    some { capacity := capacity.toNat, ttl, one_le_capacity := by omega, ttl_pos := h.2 }
  else none

/-- `get(key)`, at the time it reads off `now_fn`. -/
def get (now : ℚ) (key : String) : Option (String × String) × ResourceCache :=
  match c.data.get? key with
  | none => (none, c)
  | some entry =>
      if now - entry.fetchedAt > c.ttl then (none, { c with data := c.data.pop key })
      else (some (entry.value, entry.mimeType), { c with data := c.data.moveToEnd key })

/-- `put(key, value, mime_type)`, and the keys that have gone for it. -/
def put (now : ℚ) (key value : String) (mimeType : String := "text/markdown") :
    List (String × List String) × ResourceCache :=
  let entry : CacheEntry := { value, mimeType, fetchedAt := now }
  if key ∈ c.data.keys then ([], { c with data := (c.data.moveToEnd key).set key entry })
  else
    let grown := c.data.set key entry
    let popped := Dict.popWhileOver c.capacity grown.items
    (popped.1, { c with
      data := ⟨popped.2, grown.nodup.sublist ((Dict.popWhileOver_sublist _ _).map Prod.fst)⟩ })

/-- `get_or_compute(key, compute_fn)`: what is returned, the keys that have gone, and the cache.
    What is computed arrives later, or not at all where `compute_fn` raises. -/
def getOrCompute (now : ℚ) (key : String) (computed : Option (String × String)) (later : ℚ) :
    Option (String × String) × List (String × List String) × ResourceCache :=
  match c.get now key with
  | (some content, c') => (some content, [], c')
  | (none, c') =>
      match computed with
      | none => (none, [], c')
      | some content => (some content, c'.put later key content.1 content.2)

/-- `clear()` -/
def clear : ResourceCache := { c with data := .empty }

end ResourceCache

end OdooSemantic
