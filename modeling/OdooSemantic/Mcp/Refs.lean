import Mathlib.Algebra.Order.Ring.Rat
import Mathlib.Data.List.Sort
import Mathlib.Data.Prod.Lex
import Mathlib.Data.String.Basic
import OdooSemantic.Lib.Dict
import OdooSemantic.Lib.KeyedStore

/-!
# `src/mcp/refs.py` — short names for the rows of an answer

`RefMinter.mint` names the dicts that a tool has listed, and `resolve` finds a dict again under its
name. Each tenant has a store of its own: the names with their dicts, a counter for each prefix,
and an index from the hash of a dict to its name, by which a dict that is listed again gets the name
it has. A name lives for `ttl` seconds from its last mint, and each call begins with a sweep.

The values of the dicts are those of the graph; of them only `str` matters. The hash is Python's,
which is as good as arbitrary.
-/

namespace OdooSemantic

open KeyedStore

/-- The interpreter, as far as `_canonical_hash` uses it. -/
structure PyRuntime (V : Type) where
  /-- `str(v)`; `none` where it raises. -/
  str : V → Option String
  /-- `hash(tuple(…))` -/
  hash : List (String × String) → Int

/-- A dict, and its `id`. -/
structure RefItem (V : Type) where
  oid : Int
  data : Dict String V

namespace RefItem

variable {V : Type}

/-- `==` on dicts: the order of the keys does not count. -/
def Same (a b : RefItem V) : Prop := ∀ k, a.data.get? k = b.data.get? k

instance [DecidableEq V] (a b : RefItem V) : Decidable (a.Same b) :=
  decidable_of_iff (∀ k ∈ a.data.keys ++ b.data.keys, a.data.get? k = b.data.get? k) <| by
    refine ⟨fun h k => ?_, fun h k _ => h k⟩
    by_cases hk : k ∈ a.data.keys ++ b.data.keys
    · exact h k hk
    · have hnone : ∀ d : Dict String V, k ∉ d.keys → d.get? k = none := fun d hd => by
        refine Option.eq_none_iff_forall_ne_some.mpr fun v hv => hd ?_
        exact List.mem_map_of_mem (Dict.mem_items_of_get? hv)
      rw [List.mem_append, not_or] at hk
      rw [hnone _ hk.1, hnone _ hk.2]

/-- `_canonical_hash(item)` -/
def canonicalHash (py : PyRuntime V) (item : RefItem V) : Int :=
  match item.data.items.mapM fun i => (py.str i.2).map fun s => (i.1, s) with
  | some pairs => py.hash (pairs.insertionSort fun a b => toLex a ≤ toLex b)
  | none => item.oid

end RefItem

/-! ## Kinds -/

inductive RefValueError where
  /-- `kind='auto' but item shape is ambiguous` -/
  | ambiguous (keys : List String)
  /-- `Unknown kind …` -/
  | unknownKind (kind : String)
deriving DecidableEq

/-- `PREFIX_BY_KIND` -/
def prefixByKind : List (String × String) :=
  [("field", "f"), ("method", "m"), ("view", "v"), ("pattern", "p"), ("module", "x")]

/-- `_KIND_DETECTOR` -/
def kindDetector : List (String × String) :=
  [("field_name", "field"), ("method_name", "method"), ("xmlid", "view"),
    ("pattern_name", "pattern"), ("module_name", "module")]

section Kinds

variable {V : Type}

/-- `_infer_kind(item)` -/
def inferKind (item : RefItem V) : Except RefValueError String :=
  match kindDetector.find? fun e => e.1 ∈ item.data.keys with
  | some e => .ok e.2
  | none => .error (.ambiguous item.data.keys)

/-- The prefix that the kind, or the shape of the item, asks for. -/
def prefixFor (kind : String) (item : RefItem V) : Except RefValueError String :=
  match if kind = "auto" then inferKind item else .ok kind with
  | .error e => .error e
  | .ok effectiveKind =>
      match prefixByKind.lookup effectiveKind with
      | some pre => .ok pre
      | none => .error (.unknownKind effectiveKind)

end Kinds

/-! ## The store of a tenant -/

structure RefEntry (V : Type) where
  canonical : RefItem V
  expiresAt : ℚ

structure TenantStore (V : Type) where
  refs : Store String (RefEntry V) := ∅
  nextId : Store String Nat := ∅
  hashToRef : Store Int String := ∅

namespace TenantStore

variable {V : Type} (py : PyRuntime V) (ttl : ℚ) (s : TenantStore V)

/-- `_evict_expired(store, now)` -/
def evictExpired (now : ℚ) : TenantStore V :=
  let refs := eraseWhere (fun ref => (s.refs.lookup ref).any fun e => e.expiresAt ≤ now) s.refs
  { s with
    refs
    hashToRef := eraseWhere (fun ch => (s.hashToRef.lookup ch).any fun ref => ref ∉ refs)
      s.hashToRef }

/-- `store.next_id.get(prefix, 1)` -/
def counter (pre : String) : Nat := (s.nextId.lookup pre).getD 1

/-- A new ref, from the counter of its prefix. -/
def mintNew (now : ℚ) (pre : String) (item : RefItem V) : String × TenantStore V :=
  let ref := pre ++ toString (s.counter pre)
  (ref,
    { refs := s.refs.insert ref { canonical := item, expiresAt := now + ttl }
      nextId := s.nextId.insert pre (s.counter pre + 1)
      hashToRef := s.hashToRef.insert (item.canonicalHash py) ref })

/-- One item of `mint`. -/
def mintItem (now : ℚ) (pre : String) (item : RefItem V) : String × TenantStore V :=
  let ch := item.canonicalHash py
  match (s.hashToRef.lookup ch).bind fun ref => (s.refs.lookup ref).map fun e => (ref, e) with
  | some (ref, entry) =>
      if now < entry.expiresAt then
        (ref, { s with refs := s.refs.insert ref { entry with expiresAt := now + ttl } })
      else ({ s with hashToRef := s.hashToRef.erase ch } : TenantStore V).mintNew py ttl now pre item
  | none => s.mintNew py ttl now pre item

/-- The items of `mint`, from `idx` on. -/
def mintItems (now : ℚ) (kind : String) :
    Nat → List (RefItem V) → TenantStore V → Except RefValueError (List String) × TenantStore V
  | _, [], s => (.ok [], s)
  | idx, item :: rest, s =>
      if 1000 ≤ idx then
        let (refs, s) := mintItems now kind (idx + 1) rest s
        (refs.map ("exhausted" :: ·), s)
      else
        match prefixFor kind item with
        | .error e => (.error e, s)
        | .ok pre =>
            let (ref, s) := s.mintItem py ttl now pre item
            let (refs, s) := mintItems now kind (idx + 1) rest s
            (refs.map (ref :: ·), s)

end TenantStore

/-! ## The minter -/

inductive RefError where
  /-- `Ref … not found — no refs minted for this API key.` -/
  | noRefs (ref : String)
  /-- `Ref … not found or expired.` -/
  | notFound (ref : String)
deriving DecidableEq

structure RefMinter (V : Type) where
  stores : Store String (TenantStore V) := ∅

namespace RefMinter

variable {V : Type} (py : PyRuntime V) (ttl : ℚ) (m : RefMinter V)

/-- `mint(items, api_key_id, kind)`; what raises keeps what it has minted. -/
def mint (now : ℚ) (items : List (RefItem V)) (apiKeyId : String) (kind : String := "auto") :
    Except RefValueError (List String) × RefMinter V :=
  let store := ((m.stores.lookup apiKeyId).getD {}).evictExpired now
  let (refs, store) := TenantStore.mintItems py ttl now kind 0 items store
  (refs, { stores := m.stores.insert apiKeyId store })

/-- `_evict_expired` on the store of a tenant, where there is one. -/
def evict (now : ℚ) (apiKeyId : String) : RefMinter V :=
  match m.stores.lookup apiKeyId with
  | none => m
  | some store => { stores := m.stores.insert apiKeyId (store.evictExpired now) }

/-- `resolve(ref, api_key_id)` -/
def resolve (now : ℚ) (ref apiKeyId : String) : Except RefError (RefItem V) × RefMinter V :=
  match m.stores.lookup apiKeyId with
  | none => (.error (.noRefs ref), m)
  | some store =>
      let answer := match (store.evictExpired now).refs.lookup ref with
        | none => .error (.notFound ref)
        | some entry => .ok entry.canonical
      (answer, m.evict now apiKeyId)

end RefMinter

end OdooSemantic
