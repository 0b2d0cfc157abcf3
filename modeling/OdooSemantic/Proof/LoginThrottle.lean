import Mathlib.Algebra.Group.Nat.Defs
import OdooSemantic.Lib.Machine
import OdooSemantic.Web.LoginAttempts

/-!
# The login throttle, under every header

Where the client's address is one that PostgreSQL takes, the throttle does what it is for: every
password check that fails leaves its row, so the next one counts it, and no window of fifteen
minutes holds more failures than the two thresholds allow (`login_throttled`).

Where it is not, nothing is counted at all. A trusted proxy passes on the first hop of
`X-Forwarded-For` as it came, and one word there that is no address makes the row fail, and with
it the threshold for the name, which has nothing to do with addresses (`UnknownAddress`).
-/

namespace OdooSemantic

open SlidingWindow

/-- The login is recorded, if it is not refused for its name: PostgreSQL takes the client's
    address, and the header can be a parameter. -/
def Throttle.IsRecordable (a : AddressTypes) (cidrs : String) (s : Throttle a.Inet) :
    ThrottleAct → Prop
  | .login req =>
      req.goesOn = true →
        a.failuresOf s.attempts req.world.now req.name < rateMaxFailuresPerUser →
          (a.inet (req.clientIp a cidrs)).isSome = true ∧ isBindable req.userAgent = true
  | .others _ => True

section

variable {d : Deployment} {a : AddressTypes} {cidrs : String} {s s' : Throttle a.Inet}
  {req : LoginRequest} {c : PasswordCheck}

/-! ## The rate limit -/

theorem AddressTypes.ne_empty_of_inet {ip : String} {address : a.Inet}
    (h : a.inet ip = some address) : ip ≠ "" := by
  rintro rfl
  exact absurd h (by simp [a.inet_empty])

theorem checkRateLimit_eq {attempts : List (LoginAttempt a.Inet)} {now : Nat}
    {name ip : String} {address : a.Inet} (hname : isBindable name = true)
    (hip : a.inet ip = some address) :
    a.checkRateLimit attempts now name ip =
      (decide (rateMaxFailuresPerUser ≤ a.failuresOf attempts now name) ||
        decide (rateMaxFailuresPerIp ≤ a.failuresFrom attempts now address)) := by
  unfold AddressTypes.checkRateLimit
  rw [if_pos hname, if_neg (AddressTypes.ne_empty_of_inet hip), hip]
  split
  · rename_i hmany
    simp [hmany]
  · rename_i hfew
    simp [hfew]

/-- A name that has had its failures is refused, whatever the header says. -/
theorem checkRateLimit_of_failuresOf {attempts : List (LoginAttempt a.Inet)} {now : Nat}
    {name : String} (hname : isBindable name = true)
    (hmany : rateMaxFailuresPerUser ≤ a.failuresOf attempts now name) (ip : String) :
    a.checkRateLimit attempts now name ip = true := by
  unfold AddressTypes.checkRateLimit
  rw [if_pos hname, if_pos hmany]

theorem recordLoginAttempt_eq {attempts : List (LoginAttempt a.Inet)} {now : Nat}
    {name ip userAgent : String} {success : Bool} {address : a.Inet}
    (hname : isBindable name = true) (hagent : isBindable userAgent = true)
    (hip : a.inet ip = some address) :
    a.recordLoginAttempt attempts now name success ip userAgent =
      { identifier := name, attemptedAt := now, success, ipAddress := some address
        userAgent := some userAgent } :: attempts := by
  unfold AddressTypes.recordLoginAttempt
  rw [hname, hagent, hip]
  rfl

/-- A row, or none. -/
theorem recordLoginAttempt_cases (attempts : List (LoginAttempt a.Inet)) (now : Nat)
    (name : String) (success : Bool) (ip userAgent : String) :
    a.recordLoginAttempt attempts now name success ip userAgent = attempts ∨
      ∃ row, a.recordLoginAttempt attempts now name success ip userAgent = row :: attempts := by
  unfold AddressTypes.recordLoginAttempt
  split
  · split
    · exact Or.inl rfl
    · exact Or.inr ⟨_, rfl⟩
  · exact Or.inl rfl

/-! ## One login -/

/-- What it takes for the user's own hash to be looked at. -/
structure Throttle.Checked (d : Deployment) (a : AddressTypes) (cidrs : String)
    (s : Throttle a.Inet) (req : LoginRequest) (c : PasswordCheck) : Prop where
  goesOn : req.goesOn = true
  free : s.isLimited a cidrs req = false
  bindable : isBindable req.name = true
  eq : ∃ hash, c =
    { username := req.name, clientIp := req.clientIp a cidrs, verifiedAt := req.verifiedAt
      ok := d.verifyPassword req.body.password hash } ∧
    ∃ id user, user.passwordHash = some hash ∧
      ((s.world a cidrs req).read .lookupUser (s.db.userByName req.name)).join = some (id, user)

theorem passwordCheck_cases (h : s.passwordCheck d a cidrs req = some c) :
    s.Checked d a cidrs req c := by
  unfold Throttle.passwordCheck at h
  split at h
  · rename_i hgo
    rw [Bool.and_eq_true, Bool.not_eq_true'] at hgo
    split at h
    · exact absurd h (by simp)
    · rename_i id user hrow
      obtain ⟨hash, hhash, rfl⟩ := Option.map_eq_some_iff.mp h
      refine ⟨hgo.1, hgo.2, ?_, hash, rfl, id, user, hhash, hrow⟩
      -- a name that cannot be bound is the name of nobody
      by_contra hname
      rw [Bool.not_eq_true] at hname
      simp [Throttle.world, RequestWorld.read, DbAnswer.read, hname] at hrow
  · exact absurd h (by simp)

theorem goesOn_iff : req.goesOn = true ↔
    12 ≤ req.body.password.length ∧ req.body.password.length ≤ 128 := by
  unfold LoginRequest.goesOn
  rw [Bool.and_eq_true, decide_eq_true_eq, decide_eq_true_eq]

theorem Throttle.rateLimited_world :
    (s.world a cidrs req).rateLimited = s.isLimited a cidrs req := by
  simp only [Throttle.world]

/-- The wrong password of a user. -/
theorem loginPost_of_wrong {w : RequestWorld} {cookie : Cookie} {db : AuthDb} {body : LoginBody}
    {id : Nat} {user : WebuiUser} (hlong : 12 ≤ body.password.length)
    (hshort : body.password.length ≤ 128) (hfree : w.rateLimited = false)
    (hrow : (w.read .lookupUser (db.userByName (PyText.strip body.username))).join =
      some (id, user))
    (hfits : passwordFits d user body.password = false) :
    (loginPost d w cookie db body).response = .failed 401 "invalid_credentials" := by
  have hone : ¬body.password.length < 1 := by omega
  have hmax : ¬128 < body.password.length := by omega
  have hmin : ¬body.password.length < 12 := by omega
  unfold loginPost
  simp only [hone, hmax, hmin, hfree, decide_false, Bool.or_self, Bool.false_eq_true, if_false,
    hrow, hfits, Bool.false_and]

/-- The check fails, and so does the login. -/
theorem outcome_of_failed (h : s.passwordCheck d a cidrs req = some c) (hok : c.ok = false) :
    s.outcome d a cidrs req = some false := by
  obtain ⟨hgo, hfree, -, hash, rfl, id, user, hhash, hrow⟩ := passwordCheck_cases h
  obtain ⟨hlong, hshort⟩ := goesOn_iff.mp hgo
  have hfits : passwordFits d user req.body.password = false := by
    unfold passwordFits
    rw [hhash]
    exact hok
  have hresponse : (s.reply d a cidrs req).response = .failed 401 "invalid_credentials" := by
    unfold Throttle.reply
    exact loginPost_of_wrong hlong hshort (Throttle.rateLimited_world.trans hfree) hrow hfits
  unfold Throttle.outcome
  rw [if_pos (by rw [hgo, hfree]; rfl), hresponse]
  rfl

/-- Where the login is recordable, an address comes out of the header. -/
theorem inet_of_recordable (hrec : s.IsRecordable a cidrs (.login req))
    (hgo : req.goesOn = true) (hname : isBindable req.name = true)
    (hfree : s.isLimited a cidrs req = false) :
    ∃ address, a.inet (req.clientIp a cidrs) = some address ∧ isBindable req.userAgent = true := by
  have hfew : a.failuresOf s.attempts req.world.now req.name < rateMaxFailuresPerUser := by
    by_contra hmany
    have htrue := checkRateLimit_of_failuresOf hname (not_lt.mp hmany) (req.clientIp a cidrs)
    exact absurd (hfree.symm.trans htrue) (by simp)
  obtain ⟨hip, hagent⟩ := hrec hgo hfew
  obtain ⟨address, haddress⟩ := Option.isSome_iff_exists.mp hip
  exact ⟨address, haddress, hagent⟩

/-- What the login does, it also records. -/
theorem attempts_login (hrec : s.IsRecordable a cidrs (.login req))
    (hname : isBindable req.name = true) {success : Bool}
    (h : s.outcome d a cidrs req = some success) :
    (s.login d a cidrs req).attempts =
      { identifier := req.name, attemptedAt := req.recordedAt, success
        ipAddress := a.inet (req.clientIp a cidrs), userAgent := some req.userAgent } ::
        s.attempts := by
  have hgo : (req.goesOn && !s.isLimited a cidrs req) = true := by
    by_contra hno
    unfold Throttle.outcome at h
    rw [if_neg hno] at h
    exact absurd h (by simp)
  rw [Bool.and_eq_true, Bool.not_eq_true'] at hgo
  obtain ⟨address, hip, hagent⟩ := inet_of_recordable hrec hgo.1 hname hgo.2
  unfold Throttle.login
  rw [h]
  dsimp only
  rw [recordLoginAttempt_eq hname hagent hip, hip]

/-- The limit is the one of the thresholds. -/
theorem isLimited_iff (hrec : s.IsRecordable a cidrs (.login req)) (hgo : req.goesOn = true)
    (hname : isBindable req.name = true) :
    s.isLimited a cidrs req = true ↔
      rateMaxFailuresPerUser ≤ a.failuresOf s.attempts req.world.now req.name ∨
        ∃ address, a.inet (req.clientIp a cidrs) = some address ∧
          rateMaxFailuresPerIp ≤ a.failuresFrom s.attempts req.world.now address := by
  by_cases hmany : rateMaxFailuresPerUser ≤ a.failuresOf s.attempts req.world.now req.name
  · -- the name alone decides, and the address is not looked at
    have htrue := checkRateLimit_of_failuresOf hname hmany (req.clientIp a cidrs)
    exact ⟨fun _ => Or.inl hmany, fun _ => htrue⟩
  · obtain ⟨hip, -⟩ := hrec hgo (not_le.mp hmany)
    obtain ⟨address, haddress⟩ := Option.isSome_iff_exists.mp hip
    unfold Throttle.isLimited
    rw [checkRateLimit_eq hname haddress, haddress]
    simp [hmany]

/-! ## What holds between two logins -/

/-- The row of a check that failed. -/
structure HasRow (a : AddressTypes) (c : PasswordCheck) (row : LoginAttempt a.Inet) : Prop where
  identifier : row.identifier = c.username
  address : row.ipAddress = a.inet c.clientIp
  failed : row.success = false
  later : c.verifiedAt ≤ row.attemptedAt

/-- The failures are in the table, and were few enough whenever one was added. -/
structure Throttle.Keeps (a : AddressTypes) (s : Throttle a.Inet) : Prop where
  recorded : List.SublistForall₂ (HasRow a) s.failed s.attempts
  perUser : ∀ name, Limited PasswordCheck.verifiedAt rateWindow rateMaxFailuresPerUser
    (s.failed.filter fun c => c.username = name)
  perAddress : ∀ address, Limited PasswordCheck.verifiedAt rateWindow rateMaxFailuresPerIp
    (s.failed.filter fun c => a.inet c.clientIp = some address)

theorem length_recent_filter {E : Type} (time : E → Nat) (window now : Nat) (p : E → Bool)
    (log : List E) :
    (recent time window now (log.filter p)).length =
      log.countP fun e => now < time e + window && p e := by
  unfold recent
  rw [List.filter_filter, List.countP_eq_length_filter]

/-- The failures with a name, counted when the next password is checked, are no more than the
    rows that were counted before. -/
theorem failures_le_failuresOf (h : s.Keeps a) {name : String} {now at' : Nat} (hle : now ≤ at') :
    (recent PasswordCheck.verifiedAt rateWindow at'
      (s.failed.filter fun c => c.username = name)).length ≤ a.failuresOf s.attempts now name := by
  rw [length_recent_filter]
  refine countP_le_of_sublistForall₂ (fun c row hrow hc => ?_) h.recorded
  rw [Bool.and_eq_true, decide_eq_true_eq, decide_eq_true_eq] at hc
  have hlater := hrow.later
  have hnow : now < row.attemptedAt + rateWindow := by omega
  simp [hrow.identifier, hrow.failed, hc.2, hnow]

theorem failures_le_failuresFrom (h : s.Keeps a) {address : a.Inet} {now at' : Nat}
    (hle : now ≤ at') :
    (recent PasswordCheck.verifiedAt rateWindow at'
      (s.failed.filter fun c => a.inet c.clientIp = some address)).length ≤
      a.failuresFrom s.attempts now address := by
  rw [length_recent_filter]
  refine countP_le_of_sublistForall₂ (fun c row hrow hc => ?_) h.recorded
  rw [Bool.and_eq_true, decide_eq_true_eq, decide_eq_true_eq] at hc
  have hlater := hrow.later
  have hnow : now < row.attemptedAt + rateWindow := by omega
  simp [hrow.address, hrow.failed, hc.2, hnow]

theorem Throttle.failed_login :
    (s.login d a cidrs req).failed =
      ((s.passwordCheck d a cidrs req).toList.filter fun c => !c.ok) ++ s.failed :=
  List.filter_append _ _

theorem attempts_login_cases :
    (s.login d a cidrs req).attempts = s.attempts ∨
      ∃ row, (s.login d a cidrs req).attempts = row :: s.attempts := by
  unfold Throttle.login
  dsimp only
  split
  · exact Or.inl rfl
  · exact recordLoginAttempt_cases ..

/-- A login without a failing check. -/
theorem Throttle.Keeps.login_of_failed_eq (h : s.Keeps a)
    (heq : (s.login d a cidrs req).failed = s.failed) : (s.login d a cidrs req).Keeps a := by
  refine ⟨?_, ?_, ?_⟩
  · rw [heq]
    obtain hsame | ⟨row, hrow⟩ := @attempts_login_cases d a cidrs s req
    · rw [hsame]
      exact h.recorded
    · rw [hrow]
      exact .cons_right h.recorded
  · rw [heq]
    exact h.perUser
  · rw [heq]
    exact h.perAddress

theorem keeps_login (hrec : s.IsRecordable a cidrs (.login req)) (h : s.Keeps a) :
    (s.login d a cidrs req).Keeps a := by
  cases hcheck : s.passwordCheck d a cidrs req with
  | none => exact h.login_of_failed_eq (by rw [Throttle.failed_login, hcheck]; rfl)
  | some c =>
    cases hok : c.ok with
    | true => exact h.login_of_failed_eq (by rw [Throttle.failed_login, hcheck]; simp [hok])
    | false =>
      have hfailed : (s.login d a cidrs req).failed = c :: s.failed := by
        rw [Throttle.failed_login, hcheck]
        simp [hok]
      have hattempts := attempts_login hrec (passwordCheck_cases hcheck).bindable
        (outcome_of_failed hcheck hok)
      obtain ⟨hgo, hfree, hname, hash, rfl, -⟩ := passwordCheck_cases hcheck
      -- the limit was asked before the password was checked
      have hnot := mt (isLimited_iff hrec hgo hname).mpr (by simp [hfree])
      rw [not_or] at hnot
      refine ⟨?_, fun name => ?_, fun address => ?_⟩
      · rw [hfailed, hattempts]
        exact .cons ⟨rfl, rfl, rfl, req.verified_le⟩ h.recorded
      · rw [hfailed]
        refine (h.perUser name).filter_cons fun hc => ?_
        obtain rfl := of_decide_eq_true hc
        have hle := @failures_le_failuresOf a s h req.name _ _ req.counted_le
        exact lt_of_le_of_lt hle (not_le.mp hnot.1)
      · rw [hfailed]
        refine (h.perAddress address).filter_cons fun hc => ?_
        have hle := @failures_le_failuresFrom a s h address _ _ req.counted_le
        refine lt_of_le_of_lt hle (not_le.mp fun hmany => ?_)
        exact hnot.2 ⟨address, of_decide_eq_true hc, hmany⟩

theorem keeps_step {act : ThrottleAct} (hstep : s.step d a cidrs act = some s')
    (hrec : s.IsRecordable a cidrs act) (h : s.Keeps a) : s'.Keeps a := by
  cases act with
  | login req =>
    obtain rfl := Option.some.inj hstep
    exact keeps_login hrec h
  | others db =>
    obtain rfl := Option.some.inj hstep
    exact ⟨h.recorded, h.perUser, h.perAddress⟩

end

/-- **The thresholds hold in every window**, if every login is recordable. A login that is
    recordable is recorded, and it is let in exactly below the thresholds. -/
theorem login_throttled (d : Deployment) (a : AddressTypes) (cidrs : String) (db : AuthDb)
    (attempts : List (LoginAttempt a.Inet)) {acts : List ThrottleAct} {s : Throttle a.Inet}
    (hrun : Machine.Runs (Throttle.step d a cidrs) (Throttle.IsRecordable a cidrs)
      { db, attempts } acts s) :
    (∀ name start, (within PasswordCheck.verifiedAt rateWindow start
      (s.failed.filter fun c => c.username = name)).length ≤ rateMaxFailuresPerUser) ∧
    (∀ address start, (within PasswordCheck.verifiedAt rateWindow start
      (s.failed.filter fun c => a.inet c.clientIp = some address)).length ≤
        rateMaxFailuresPerIp) ∧
    ∀ req, s.IsRecordable a cidrs (.login req) → isBindable req.name = true →
      (∀ success, s.outcome d a cidrs req = some success →
        (s.login d a cidrs req).attempts =
          { identifier := req.name, attemptedAt := req.recordedAt, success
            ipAddress := a.inet (req.clientIp a cidrs), userAgent := some req.userAgent } ::
            s.attempts) ∧
      (req.goesOn = true →
        (s.isLimited a cidrs req = true ↔
          rateMaxFailuresPerUser ≤ a.failuresOf s.attempts req.world.now req.name ∨
            ∃ address, a.inet (req.clientIp a cidrs) = some address ∧
              rateMaxFailuresPerIp ≤ a.failuresFrom s.attempts req.world.now address)) := by
  have hstart : Throttle.Keeps a { db, attempts } :=
    ⟨.nil, fun _ => .nil, fun _ => .nil⟩
  have hend := hrun.invariant (fun _ _ _ hstep hrec h => keeps_step hstep hrec h) hstart
  refine ⟨fun name start => (hend.perUser name).length_within_le start,
    fun address start => (hend.perAddress address).length_within_le start,
    fun req hrec hname => ⟨fun success => attempts_login hrec hname, fun hgo =>
      isLimited_iff hrec hgo hname⟩⟩

/-! ## An address that is none

A proxy in `10.0.0.0/8` is trusted, and appends to `X-Forwarded-For` what it has received it
from. Somebody tries passwords for `alice`. -/

namespace UnknownAddress

def octet (cs : List Char) : Option Nat :=
  if cs ≠ [] ∧ cs.length ≤ 3 ∧ cs.all Char.isDigit = true then
    some (cs.foldl (fun n c => 10 * n + (c.toNat - 48)) 0) |>.filter (· < 256)
  else none

/-- Four octets. -/
def dotted (cs : List Char) : Option Nat :=
  match (cs.splitOn '.').mapM octet with
  | some [a, b, c, d] => some (((a * 256 + b) * 256 + c) * 256 + d)
  | _ => none

/-- The addresses of IPv4. -/
def ipv4 : AddressTypes where
  Address := Nat
  Network := Nat × Nat
  ipAddress := fun text => dotted text.toList
  ipNetwork := fun text =>
    match text.toList.splitOn '/' with
    | [address, bits] => (dotted address).bind fun n => (octet bits).map fun b => (n, b)
    | _ => none
  contains := fun net address => address / 2 ^ (32 - net.2) = net.1 / 2 ^ (32 - net.2)
  Inet := Nat
  inetEq := inferInstance
  inet := fun text => dotted text.toList
  inet_empty := rfl

def cidrs : String := "10.0.0.0/8"

def db : AuthDb where
  users := AList.insert 7 { username := "alice", passwordHash := some "bcrypt:correct horse" } ∅

def site : Deployment where
  verifyPassword := fun password hash => hash = "bcrypt:" ++ password
  hashPassword := fun password _ => some ("bcrypt:" ++ password)
  dummyHash := "bcrypt:dummy-for-timing-defense"
  isCommon := fun _ => false
  fernet :=
    { Key := Unit, key := fun _ => .ok (), encrypt := fun _ _ _ => "", decrypt := fun _ _ => none }
  fernetKey := none
  totpValid := fun _ _ _ => false
  hmac := fun text => "hmac:" ++ text
  sha256 := fun text => "sha256:" ++ text
  lower := id
  floatText := PyText.str
  expired := fun _ _ => none

/-- The n-th try, n seconds after the first, under the first hop that the client has sent. -/
def guess (hop : String) (n : Nat) : LoginRequest where
  peer := some "10.0.0.1"
  forwardedFor := some (hop ++ ", 203.0.113.9")
  body := { username := "alice", password := "a wrong guess" }
  world := { now := 1000 + n, sessionId := "s" }
  verifiedAt := 1000 + n
  recordedAt := 1000 + n
  counted_le := le_refl _
  verified_le := le_refl _

def tries (hop : String) (count : Nat) : List ThrottleAct :=
  (List.range count).map fun n => .login (guess hop n)

def next (s : Throttle Nat) (act : ThrottleAct) : Throttle Nat :=
  (Throttle.step site ipv4 cidrs s act).getD s

def after (acts : List ThrottleAct) : Throttle Nat := acts.foldl next { db, attempts := [] }

/-- Every request is answered. -/
theorem run_foldl {ok : Throttle Nat → ThrottleAct → Prop} {acts : List ThrottleAct}
    (hok : ∀ act ∈ acts, ∀ s, ok s act) (s : Throttle Nat) :
    Machine.Runs (Throttle.step site ipv4 cidrs) ok s acts (acts.foldl next s) := by
  induction acts generalizing s with
  | nil => exact .nil s
  | cons act acts ih =>
    have hrest := ih (fun b hb => hok b (List.mem_cons_of_mem _ hb)) (next s act)
    have hstep : Throttle.step site ipv4 cidrs s act = some (next s act) := by
      cases act <;> rfl
    exact .cons hstep (hok act List.mem_cons_self s) hrest

theorem run_after (acts : List ThrottleAct) :
    Machine.Runs (Throttle.step site ipv4 cidrs) (fun _ _ => True) { db, attempts := [] } acts
      (after acts) :=
  run_foldl (fun _ _ _ => trivial) _

def hop : String := "198.51.100.7"

theorem isRecordable_hop (n : Nat) (s : Throttle Nat) :
    Throttle.IsRecordable ipv4 cidrs s (.login (guess hop n)) := by
  intro _ _
  have hip : (ipv4.inet (ipv4.getClientIp cidrs (some "10.0.0.1")
      (some (hop ++ ", 203.0.113.9")))).isSome = true := by decide
  exact ⟨hip, rfl⟩

/-- Six tries under one address, and then a seventh. -/
theorem login_throttled_sixth :
    (within PasswordCheck.verifiedAt rateWindow 999
      ((after (tries hop 6)).failed.filter fun c => c.username = "alice")).length ≤
        rateMaxFailuresPerUser ∧
    (after (tries hop 6)).isLimited ipv4 cidrs (guess hop 6) = true := by
  have hok : ∀ act ∈ tries hop 6, ∀ s, Throttle.IsRecordable ipv4 cidrs s act := by
    intro act hact s
    obtain ⟨n, -, rfl⟩ := List.mem_map.mp hact
    exact isRecordable_hop n s
  have h := login_throttled site ipv4 cidrs db [] (run_foldl hok { db, attempts := [] })
  have hseventh := h.2.2 (guess hop 6) (isRecordable_hop 6 _) rfl
  exact ⟨h.1 "alice" 999, (hseventh.2 rfl).mpr (Or.inl (by decide))⟩

/-- **A word that is no address**, and nothing is counted: neither threshold holds, and an
    attempt that fails leaves no row. -/
theorem attempts_unrecorded :
    (¬∀ acts s, Machine.Runs (Throttle.step site ipv4 cidrs) (fun _ _ => True)
      { db, attempts := [] } acts s → ∀ name start,
        (within PasswordCheck.verifiedAt rateWindow start
          (s.failed.filter fun c => c.username = name)).length ≤ rateMaxFailuresPerUser) ∧
    (¬∀ acts s, Machine.Runs (Throttle.step site ipv4 cidrs) (fun _ _ => True)
      { db, attempts := [] } acts s → ∀ ip start,
        (within PasswordCheck.verifiedAt rateWindow start
          (s.failed.filter fun c => c.clientIp = ip)).length ≤ rateMaxFailuresPerIp) ∧
    Throttle.outcome site ipv4 cidrs { db, attempts := [] } (guess "unknown" 0) = some false ∧
    (Throttle.login site ipv4 cidrs { db, attempts := [] } (guess "unknown" 0)).attempts = [] := by
  refine ⟨fun h => ?_, fun h => ?_, rfl, rfl⟩
  · have hle := h _ (after (tries "unknown" 6)) (run_after _) "alice" 999
    exact absurd hle (by decide)
  · have hle := h _ (after (tries "unknown" 21)) (run_after _) "unknown" 999
    exact absurd hle (by decide +kernel)

end UnknownAddress

end OdooSemantic
