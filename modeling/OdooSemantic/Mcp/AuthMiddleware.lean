import Mathlib.Logic.Function.Basic
import OdooSemantic.Db.AuthRegistry
import OdooSemantic.Lib.Machine

/-!
# `src/mcp/middleware.py` — which key a request has

`AuthMiddleware.dispatch` turns the header `X-API-Key` into the id of a key. A cache answers for
five minutes what `verify_api_key` has answered once, so that not every request goes to the
database. Whoever deactivates a key takes its id out of the cache behind the `UPDATE`.

The cache is under a lock, `verify_api_key` runs in a thread of its own, and between the two a
request holds nothing. `KeyChecks.step` therefore has one step for each use of the cache and one
for each statement.
-/

namespace OdooSemantic

open KeyedStore

structure McpDeployment where
  /-- `hash_key(raw)`, the HMAC. -/
  hashKey : String → String
  /-- `hash_key_legacy_sha256(raw)` -/
  hashKeyLegacy : String → String
  /-- `auth.rate_limit_rpm` -/
  limitRpm : Int := 120

/-! ## The cache -/

/-- `_KEY_CACHE` and `_CACHE_TS`. -/
structure KeyCache where
  keyIds : Store String (Option Nat) := ∅
  timestamps : Store String Nat := ∅

namespace KeyCache

variable (c : KeyCache)

/-- `_cache_get(raw_key)`, under the hash of the key; `none` is a miss. -/
def get (now : Nat) (h : String) : Option (Option Nat) :=
  if (c.timestamps.lookup h).any fun ts => now - ts < 300 then some (c.keyIds.lookup h).join
  else none

/-- `_cache_set(raw_key, key_id)` -/
def set (now : Nat) (h : String) (keyId : Option Nat) : KeyCache where
  keyIds := c.keyIds.insert h keyId
  timestamps := c.timestamps.insert h now

/-- `_cache_invalidate_by_key_id(key_id)` -/
def invalidateByKeyId (keyId : Nat) : KeyCache :=
  let stale := fun h => c.keyIds.lookup h = some (some keyId)
  { keyIds := eraseWhere stale c.keyIds, timestamps := eraseWhere stale c.timestamps }

end KeyCache

/-- `_check_rate_limit(api_key_id, limit_rpm)`, and the bucket behind it, on any clock that counts
    in seconds. -/
def checkRpm {τ : Type} [Sub τ] [LT τ] [DecidableLT τ] [OfNat τ 60] (now : τ) (limitRpm : Int)
    (bucket : List τ) : Option Nat × List τ :=
  let bucket := bucket.dropWhile fun t => 60 < now - t
  if limitRpm ≤ bucket.length then (none, bucket)
  else (some (limitRpm - bucket.length - 1).toNat, bucket ++ [now])

/-! ## Requests -/

structure McpHttpRequest where
  path : String
  /-- `X-API-Key` -/
  rawKey : Option String
deriving DecidableEq

/-- `_PUBLIC_PATHS`, `_PUBLIC_PATH_PREFIXES` -/
def isPublicPath (path : String) : Bool := path = "/health" || "/install".toList <+: path.toList

inductive McpAnswer where
  | anonymous
  | missingKey
  | invalidKey
  /-- 503, where the pool is missing or the server is gone. -/
  | degraded
  | crashed
  | rateLimited
  /-- `call_next`, with `request.state.api_key_id`. -/
  | served (keyId remaining : Nat)
deriving DecidableEq

inductive VerifyFailure where
  /-- `PoolNotInitializedError` or `OperationalError`. -/
  | unavailable
  | other
deriving DecidableEq

def VerifyFailure.answer : VerifyFailure → McpAnswer
  | unavailable => .degraded
  | other => .crashed

/-- How far `dispatch` has come. -/
inductive KeyPhase where
  | waiting
  /-- The cache has missed. -/
  | missed
  /-- There is no active key with the HMAC. -/
  | legacy
  | found (keyId : Nat)
  /-- `verify_api_key` has returned. -/
  | verified (keyId : Option Nat)
  | answered (answer : McpAnswer)
deriving DecidableEq

inductive KeyEvent (R : Type) where
  | began (r : R)
  | authenticated (r : R) (keyId : Nat)
  /-- The `UPDATE` has met a row. -/
  | deactivated (keyId : Nat)
  /-- `_cache_invalidate_by_key_id` has returned. -/
  | invalidated (keyId : Nat)
deriving DecidableEq

inductive KeyAction (R : Type) where
  | tick (seconds : Nat)
  /-- `dispatch` up to the database, or to its end. -/
  | begin (r : R)
  /-- The `SELECT` that is next, at the time of the server. -/
  | select (r : R) (now : Nat) (failure : Option VerifyFailure)
  /-- `UPDATE api_keys SET last_used_at = NOW()` -/
  | touch (r : R) (failure : Option VerifyFailure)
  /-- `_cache_set`, and what comes behind it. -/
  | fill (r : R)
  | create (row : ApiKey)
  | deactivate (owner : Option Nat) (keyId : Nat)
  | invalidate (keyId : Nat)
  | deleteUser (userId : Nat)

/-! ## A process -/

/-- One process with any number of requests. The trace is newest first. -/
structure KeyChecks (R : Type) where
  db : AuthDb
  /-- The sequence of `api_keys.id`. -/
  sequence : Nat
  monotonic : Nat := 0
  cache : KeyCache := {}
  rateBuckets : Store Nat (List Nat) := ∅
  phase : R → KeyPhase := fun _ => .waiting
  trace : List (KeyEvent R) := []

namespace KeyChecks

variable {R : Type} [DecidableEq R] (d : McpDeployment) (requests : R → McpHttpRequest)

/-- A process that has just been started. -/
def start (db : AuthDb) : KeyChecks R where
  db := db
  sequence := nextKey db.apiKeys

def become (s : KeyChecks R) (r : R) (phase : KeyPhase) : KeyChecks R :=
  { s with phase := Function.update s.phase r phase }

def record (s : KeyChecks R) (e : KeyEvent R) : KeyChecks R := { s with trace := e :: s.trace }

/-- `dispatch`, from `if key_id is None` on. -/
def letIn (s : KeyChecks R) (r : R) : Option Nat → KeyChecks R
  | none => s.become r (.answered .invalidKey)
  | some keyId =>
      let bucket := (s.rateBuckets.lookup keyId).getD []
      let (remaining, bucket) := checkRpm s.monotonic d.limitRpm bucket
      let answer := remaining.elim .rateLimited (.served keyId)
      { s.become r (.answered answer) with
        rateBuckets := s.rateBuckets.insert keyId bucket
        trace := .authenticated r keyId :: s.trace }

/-- `dispatch` up to the database, or to its end. -/
def begin (s : KeyChecks R) (r : R) : KeyChecks R :=
  let s := (s.record (.began r)).become r .missed
  if isPublicPath (requests r).path then s.become r (.answered .anonymous)
  else
    match (requests r).rawKey.filter (· ≠ "") with
    | none => s.become r (.answered .missingKey)
    | some rawKey =>
        match s.cache.get s.monotonic (d.hashKey rawKey) with
        | some keyId => s.letIn d r keyId
        | none => s

/-- The header, where there is one. -/
def rawKey (r : R) : String := (requests r).rawKey.getD ""

def step (s : KeyChecks R) : KeyAction R → Option (KeyChecks R)
  | .tick seconds => some { s with monotonic := s.monotonic + seconds }
  | .begin r => if s.phase r = .waiting then some (s.begin d requests r) else none
  | .select r now failure =>
      match s.phase r, failure with
      | .missed, none =>
          match s.db.activeKey now (d.hashKey (rawKey requests r)) with
          | some keyId => some (s.become r (.found keyId))
          | none => some (s.become r .legacy)
      | .legacy, none =>
          match s.db.activeKey now (d.hashKeyLegacy (rawKey requests r)) with
          | some keyId => some (s.become r (.found keyId))
          | none => some (s.become r (.verified none))
      | .missed, some failure => some (s.become r (.answered failure.answer))
      | .legacy, some failure => some (s.become r (.answered failure.answer))
      | _, _ => none
  | .touch r failure =>
      match s.phase r, failure with
      | .found keyId, none => some (s.become r (.verified (some keyId)))
      | .found _, some failure => some (s.become r (.answered failure.answer))
      | _, _ => none
  | .fill r =>
      match s.phase r with
      | .verified keyId =>
          let cache := s.cache.set s.monotonic (d.hashKey (rawKey requests r)) keyId
          some ({ s with cache }.letIn d r keyId)
      | _ => none
  | .create row =>
      (s.db.insertApiKey s.sequence row).map fun db => { s with db, sequence := s.sequence + 1 }
  | .deactivate owner keyId =>
      if s.db.deactivates owner keyId then
        some { s with
          db := s.db.deactivateApiKey owner keyId
          trace := .deactivated keyId :: s.trace }
      else some s
  | .invalidate keyId =>
      some { s with
        cache := s.cache.invalidateByKeyId keyId
        trace := .invalidated keyId :: s.trace }
  | .deleteUser userId => some { s with db := s.db.deleteKeysOf userId }

end KeyChecks

end OdooSemantic
