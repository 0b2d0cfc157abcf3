import OdooSemantic.Lib.SlidingWindow
import OdooSemantic.Web.LoginRoutes

/-!
# `src/web_ui/login_attempts.py` — counting the logins that fail

`login_post` asks `check_rate_limit` before it looks at a password and tells
`record_login_attempt` how it went. Both name the client by an address that may come out of a
header, and both leave it to PostgreSQL to make an `inet` of it. What PostgreSQL does not take
is an exception, and both catch every exception: the one lets the login through, the other
leaves the row out.

The parts of a request that decide this are in `LoginRequest`; the rest of `login_post` is the
one of `LoginRoutes`.
-/

namespace OdooSemantic

open SlidingWindow

/-- Python's `ipaddress`, and the type `inet` of PostgreSQL. -/
structure AddressTypes where
  Address : Type
  Network : Type
  /-- `ipaddress.ip_address(text)`; `none` is a `ValueError`. -/
  ipAddress : String → Option Address
  /-- `ipaddress.ip_network(text, strict=False)` -/
  ipNetwork : String → Option Network
  /-- `address in network` -/
  contains : Network → Address → Bool
  Inet : Type
  inetEq : DecidableEq Inet
  /-- `text::inet`; `none` raises. -/
  inet : String → Option Inet
  inet_empty : inet "" = none

attribute [instance] AddressTypes.inetEq

def rateWindowMinutes : Nat := 15

def rateMaxFailuresPerUser : Nat := 5

def rateMaxFailuresPerIp : Nat := 20

/-- The window, in the seconds of `RequestWorld.now`. -/
def rateWindow : Nat := rateWindowMinutes * 60

/-- A parameter psycopg2 takes: no string with a NUL. -/
def isBindable (s : String) : Bool := !s.toList.contains '\x00'

namespace PyText

/-- `s.split(",")` -/
def splitCommas (s : String) : List String := (s.toList.splitOn ',').map String.ofList

end PyText

/-! ## The client's address -/

namespace AddressTypes

variable (a : AddressTypes)

/-- `_get_trusted_proxies()`, from `TRUSTED_PROXY_CIDRS`. -/
def getTrustedProxies (raw : String) : List a.Network :=
  (PyText.splitCommas raw).filterMap fun cidr =>
    let cidr := PyText.strip cidr
    if cidr = "" then none else a.ipNetwork cidr

/-- `get_client_ip(request)` -/
def getClientIp (cidrs : String) (peer forwardedFor : Option String) : String :=
  let peerStr := peer.getD "unknown"
  let proxies := a.getTrustedProxies cidrs
  if proxies.isEmpty then peerStr
  else
    match a.ipAddress peerStr with
    | none => peerStr
    | some peerAddr =>
        if proxies.any (a.contains · peerAddr) then
          let xff := PyText.strip ((PyText.splitCommas (forwardedFor.getD "")).headD "")
          if xff = "" then peerStr else xff
        else peerStr

end AddressTypes

/-! ## The table `login_attempts` -/

structure LoginAttempt (Inet : Type) where
  identifier : String
  attemptedAt : Nat
  success : Bool
  ipAddress : Option Inet
  userAgent : Option String

namespace AddressTypes

variable (a : AddressTypes) (attempts : List (LoginAttempt a.Inet)) (now : Nat)

/-- `record_login_attempt(…)`: no row where the statement raises. -/
def recordLoginAttempt (identifier : String) (success : Bool) (ipAddress userAgent : String) :
    List (LoginAttempt a.Inet) :=
  if isBindable identifier && isBindable userAgent then
    match a.inet ipAddress with
    | none => attempts
    | some address =>
        { identifier, attemptedAt := now, success, ipAddress := some address
          userAgent := some userAgent } :: attempts
  else attempts

/-- `COUNT(*) … WHERE identifier = … AND attempted_at > NOW() - … AND success = FALSE` -/
def failuresOf (identifier : String) : Nat :=
  attempts.countP fun r =>
    r.identifier = identifier && now < r.attemptedAt + rateWindow && !r.success

/-- The same, `WHERE ip_address = …`. -/
def failuresFrom (address : a.Inet) : Nat :=
  attempts.countP fun r =>
    r.ipAddress = some address && now < r.attemptedAt + rateWindow && !r.success

/-- `check_rate_limit(identifier, ip_address)`; the name is counted first. -/
def checkRateLimit (identifier ipAddress : String) : Bool :=
  if isBindable identifier then
    if rateMaxFailuresPerUser ≤ a.failuresOf attempts now identifier then true
    else if ipAddress = "" then false
    else
      match a.inet ipAddress with
      -- the exception is the one of a database that is down
      | none => false
      | some address => rateMaxFailuresPerIp ≤ a.failuresFrom attempts now address
  else false

end AddressTypes

/-! ## `login_post`, with its counter -/

/-- A request and the times it takes: `world.now` when the failures are counted, and the clock
    when the password is checked and when the attempt is recorded. -/
structure LoginRequest where
  /-- `request.client.host` -/
  peer : Option String
  /-- `X-Forwarded-For` -/
  forwardedFor : Option String := none
  /-- `User-Agent` -/
  userAgent : String := ""
  cookie : Cookie := {}
  body : LoginBody
  world : RequestWorld
  verifiedAt : Nat
  recordedAt : Nat
  counted_le : world.now ≤ verifiedAt
  verified_le : verifiedAt ≤ recordedAt

/-- `verify_password` of a password and the hash of the user. -/
structure PasswordCheck where
  username : String
  clientIp : String
  verifiedAt : Nat
  ok : Bool

/-- What the logins have to do with. -/
structure Throttle (Inet : Type) where
  db : AuthDb
  attempts : List (LoginAttempt Inet)
  /-- The checks that were made, newest first. -/
  checks : List PasswordCheck := []

/-- The checks that failed. -/
def Throttle.failed {Inet : Type} (s : Throttle Inet) : List PasswordCheck :=
  s.checks.filter fun c => !c.ok

section Login

variable (d : Deployment) (a : AddressTypes) (cidrs : String) (s : Throttle a.Inet)
  (req : LoginRequest)

/-- The `identifier`. -/
def LoginRequest.name : String := PyText.strip req.body.username

def LoginRequest.clientIp : String := a.getClientIp cidrs req.peer req.forwardedFor

/-- The password has a length the login goes on with. -/
def LoginRequest.goesOn : Bool := 12 ≤ req.body.password.length && req.body.password.length ≤ 128

def Throttle.isLimited : Bool :=
  a.checkRateLimit s.attempts req.world.now req.name (req.clientIp a cidrs)

/-- The request's surroundings; a query for a name that cannot be bound raises like any other. -/
def Throttle.world : RequestWorld :=
  { req.world with
    rateLimited := s.isLimited a cidrs req
    answers := fun q =>
      if q = .lookupUser && !isBindable req.name then .refused else req.world.answers q }

def Throttle.reply : Reply := loginPost d (s.world a cidrs req) req.cookie s.db req.body

/-- The check of the user's own hash, if it comes to that. -/
def Throttle.passwordCheck : Option PasswordCheck :=
  if req.goesOn && !s.isLimited a cidrs req then
    match ((s.world a cidrs req).read .lookupUser (s.db.userByName req.name)).join with
    | none => none
    | some (_, user) =>
        user.passwordHash.map fun hash =>
          { username := req.name, clientIp := req.clientIp a cidrs, verifiedAt := req.verifiedAt
            ok := d.verifyPassword req.body.password hash }
  else none

/-- The `success` that is recorded; `none` where `record_login_attempt` is not called. -/
def Throttle.outcome : Option Bool :=
  if req.goesOn && !s.isLimited a cidrs req then
    match (s.reply d a cidrs req).response with
    | .loggedIn _ | .mfaRequired _ => some true
    | .failed 401 _ => some false
    | _ => none
  else none

def Throttle.login : Throttle a.Inet where
  db := (s.reply d a cidrs req).db
  attempts :=
    match s.outcome d a cidrs req with
    | none => s.attempts
    | some success =>
        a.recordLoginAttempt s.attempts req.recordedAt req.name success (req.clientIp a cidrs)
          req.userAgent
  checks := (s.passwordCheck d a cidrs req).toList ++ s.checks

inductive ThrottleAct where
  | login (req : LoginRequest)
  /-- Other requests, which have nothing to do with `login_attempts`. -/
  | others (db : AuthDb)

def Throttle.step (s : Throttle a.Inet) : ThrottleAct → Option (Throttle a.Inet)
  | .login req => some (s.login d a cidrs req)
  | .others db => some { s with db }

end Login

end OdooSemantic
