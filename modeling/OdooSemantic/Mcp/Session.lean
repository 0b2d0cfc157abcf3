import OdooSemantic.Lib.KeyedStore
import OdooSemantic.Lib.PyText
import OdooSemantic.Lib.Threads

/-!
# `src/mcp/session.py` — the version and the profile of a key

Each key has a row with its active version and its active profile, and one `updated_at` for both. A
row that nobody has written for 24 hours is as good as none. In front of the table a process has a
cache, which answers for a minute what the table has answered once; a set takes the answer out of
the cache behind its write.

The cache is under a lock, but nothing is held from one use of it to the next. So each operation is
a program (`Threads.Prog`) that uses the clock, the cache or the table once in each step. The times
are in microseconds, those of the cache on the clock of the process and those of the table on the
clock of the server.
-/

namespace OdooSemantic

open KeyedStore Threads

/-- A row of `api_key_session_state`. -/
structure SessionRow where
  odooVersion : Option String := none
  profileName : Option String := none
  updatedAt : Nat
deriving DecidableEq

structure McpSessionState where
  apiKeyId : String
  odooVersion : Option String
  profileName : Option String
deriving DecidableEq

/-- An answer in `_cache`. -/
structure SessionEntry where
  state : Option McpSessionState
  expiresAt : Nat
deriving DecidableEq

structure SessionWorld where
  rows : Store Int SessionRow := ∅
  cache : Store String SessionEntry := ∅
  /-- `time.monotonic()` -/
  monotonic : Nat := 0
  /-- `NOW()` -/
  wall : Nat := 0

/-- What the surroundings make of a step: how much time has gone by, and whether the database
    fails. -/
structure SessionInput where
  monotonic : Nat := 0
  wall : Nat := 0
  fails : Bool := false
deriving DecidableEq

/-- The column that a set writes, and its value. -/
inductive SessionColumn where
  | odooVersion (v : String)
  | profileName (p : Option String)
deriving DecidableEq

/-- `_CACHE_TTL_SEC` -/
def cacheTtl : Nat := 60 * 1000000

/-- `INTERVAL '24 hours'` -/
def sessionTtl : Nat := 24 * 3600 * 1000000

/-- `value or None` -/
def valueOrNone (value : Option String) : Option String := value.filter (· ≠ "")

namespace SessionWorld

variable (s : SessionWorld)

def advance (x : SessionInput) : SessionWorld :=
  { s with monotonic := s.monotonic + x.monotonic, wall := s.wall + x.wall }

/-- `_cache_get(api_key_id, now)`; `none` is a miss. -/
def cacheGet (apiKeyId : String) (now : Nat) : Option (Option McpSessionState) :=
  ((s.cache.lookup apiKeyId).filter fun entry => now < entry.expiresAt).map (·.state)

/-- The row of the key, where the key is a number. -/
def row (apiKeyId : String) : Option SessionRow := (PyText.int apiKeyId).bind s.rows.lookup

/-- `_fetch_from_db(api_key_id)`, where the database answers. -/
def fetch (apiKeyId : String) : Option McpSessionState :=
  ((s.row apiKeyId).filter fun row => s.wall < row.updatedAt + sessionTtl).map fun row =>
    { apiKeyId, odooVersion := valueOrNone row.odooVersion, profileName := valueOrNone row.profileName }

/-- The `UPSERT` of a set. -/
def upsert (apiKeyId : String) (column : SessionColumn) : SessionWorld :=
  match PyText.int apiKeyId with
  | none => s
  | some id =>
      let row := (s.rows.lookup id).getD { updatedAt := s.wall }
      { s with
        rows := s.rows.insert id
          (match column with
            | .odooVersion v => { row with odooVersion := some v, updatedAt := s.wall }
            | .profileName p => { row with profileName := p, updatedAt := s.wall }) }

end SessionWorld

inductive SessionStatement where
  /-- `now = now_fn()` -/
  | clock
  | lookup (apiKeyId : String) (now : Nat)
  | fetch (apiKeyId : String)
  | fill (apiKeyId : String) (state : Option McpSessionState) (now : Nat)
  | upsert (apiKeyId : String) (column : SessionColumn)
  | invalidate (apiKeyId : String)
deriving DecidableEq

/-- What a step does, once its time has come. -/
def SessionStatement.effect (label : SessionStatement) (x : SessionInput) (s : SessionWorld) :
    SessionWorld :=
  let s := s.advance x
  match label with
  | clock => s
  | lookup _ _ => s
  | fetch _ => s
  | fill apiKeyId state now =>
      { s with cache := s.cache.insert apiKeyId { state, expiresAt := now + cacheTtl } }
  | upsert apiKeyId column => if x.fails then s else s.upsert apiKeyId column
  | invalidate apiKeyId => { s with cache := s.cache.erase apiKeyId }

/-! ## The operations -/

inductive SessionOutcome where
  | state (state : Option McpSessionState)
  | version (v : String)
  | written
  | raised
deriving DecidableEq

abbrev SessionProg := Prog SessionWorld SessionInput SessionStatement SessionOutcome

/-- The answer of the database; a failure is as good as no row. -/
def SessionInput.answer (x : SessionInput) (s : SessionWorld) (apiKeyId : String) :
    Option McpSessionState :=
  if x.fails then none else (s.advance x).fetch apiKeyId

namespace SessionProg

/-- `get_session_state(api_key_id)`, and what comes of it. -/
def getSessionState (apiKeyId : String) (next : Option McpSessionState → SessionProg) : SessionProg :=
  .step .clock fun x s =>
    let now := s.monotonic + x.monotonic
    .step (.lookup apiKeyId now) fun _ s =>
      match s.cacheGet apiKeyId now with
      | some state => next state
      | none =>
          .step (.fetch apiKeyId) fun x s =>
            let state := x.answer s apiKeyId
            .step (.fill apiKeyId state now) fun _ _ => next state

/-- `set_active_version_db` and `set_active_profile_db`; `int(api_key_id)` may raise. -/
def setActive (apiKeyId : String) (column : SessionColumn) : SessionProg :=
  .step (.upsert apiKeyId column) fun x _ =>
    if x.fails || (PyText.int apiKeyId).isNone then .done .raised
    else .step (.invalidate apiKeyId) fun _ _ => .done .written

/-- `_SENTINELS` -/
def sentinels : List String := ["auto", "default", "latest", "version", "any", ""]

/-- `normalize_version_arg(version)`; the sentinels are ASCII. -/
def normalizeVersionArg (version : Option String) : Option String :=
  version.filter fun v => (PyText.strip v).map Char.toLower ∉ sentinels

/-- `resolve_version_v2(version_arg, api_key_id, session)`, where `latest` is the newest version
    of the graph. -/
def resolveVersion (versionArg : Option String) (apiKeyId : String) (latest : Option String) :
    SessionProg :=
  match normalizeVersionArg versionArg with
  | some explicit => .done (.version explicit)
  | none =>
      getSessionState apiKeyId fun state =>
        match valueOrNone (state.bind (·.odooVersion)) with
        | some v => .done (.version v)
        | none =>
            match latest with
            | some v => .done (.version v)
            | none => .done .raised

end SessionProg

inductive SessionCall where
  | getSessionState (apiKeyId : String)
  | setActiveVersion (apiKeyId odooVersion : String)
  | setActiveProfile (apiKeyId : String) (profileName : Option String)
  | resolveVersion (versionArg : Option String) (apiKeyId : String) (latest : Option String)
deriving DecidableEq

def SessionCall.program : SessionCall → SessionProg
  | getSessionState apiKeyId => .getSessionState apiKeyId fun state => .done (.state state)
  | setActiveVersion apiKeyId odooVersion => .setActive apiKeyId (.odooVersion odooVersion)
  | setActiveProfile apiKeyId profileName => .setActive apiKeyId (.profileName profileName)
  | resolveVersion versionArg apiKeyId latest => .resolveVersion versionArg apiKeyId latest

abbrev SessionEntries (T : Type) := Entry T SessionWorld SessionInput SessionStatement

/-- The operations that are under way in one process. -/
abbrev SessionPool (T : Type) :=
  Pool T SessionWorld SessionInput SessionStatement SessionOutcome

/-- One step of one of them. -/
def SessionPool.step {T : Type} [DecidableEq T] (calls : T → SessionCall) :
    SessionPool T → Act T SessionInput → Option (SessionPool T) :=
  Pool.step SessionStatement.effect fun t => (calls t).program

end OdooSemantic
