import OdooSemantic.Cli.RotateFernet

/-!
# What a key rotation leaves readable

Whoever rotates a key throws the old one away. So a rotation that reports success has to leave
nothing behind that only the old key reads, and one that fails nothing that only the new key
reads. The transaction takes care of `ssh_key_pairs` up to the commit. It does not know of
`totp_secrets`, whose secrets stay under the old key; and an exception behind the commit is a
failure that has changed every row. `rotation_law_iff` says that these are the only two gaps.
-/

namespace OdooSemantic

open KeyedStore

/-! ## The law -/

/-- What is read with `k` before is read with `k'` after, and is the same. -/
def Carried (F : Fernet) (k k' : F.Key) (db db' : AuthDb) : Prop :=
  ∀ column token data, db.ciphertext column = some token → F.decrypt k token = some data →
    ∃ token', db'.ciphertext column = some token' ∧ F.decrypt k' token' = some data

section Keys

variable (F : Fernet) (w : RotateWorld) (args : RotateArgs)

/-- The old key, where the arguments and the environment have one. -/
def oldKey : Option F.Key :=
  (resolveKey w.env args.oldKey args.oldKeyEnv).bind fun text => (F.key text).toOption

def newKey : Option F.Key :=
  (resolveKey w.env args.newKey args.newKeyEnv).bind fun text => (F.key text).toOption

/-- **What is promised of a rotation.** -/
structure RotationLaw (db : AuthDb) : Prop where
  complete : (rotateFernet F w args db).1.succeeded = true → ∀ old new, oldKey F w args = some old →
    newKey F w args = some new → Carried F old new db (rotateFernet F w args db).2
  atomic : (rotateFernet F w args db).1.succeeded = false → ∀ old, oldKey F w args = some old →
    Carried F old old db (rotateFernet F w args db).2

/-- Everything up to the commit goes through, and the commit takes effect. -/
structure Commits (old : F.Key) (db : AuthDb) : Prop where
  dsn : w.dsn ≠ ""
  connects : w.connects = true
  begun : w.answers .begin = true
  selected : w.answers .select = true
  readable : ∀ id token, db.ciphertext (.sshKey id) = some token → F.Readable old token
  updated : ∀ id token, db.ciphertext (.sshKey id) = some token → w.answers (.update id) = true
  inserted : w.answers .insert = true
  committed : w.commit ≠ .refused

/-- Nothing raises at the commit or behind it. -/
def RotateWorld.Concludes : Prop := w.commit = .applied ∧ w.concludes = true

/-- Where two different keys are given and the commit takes effect: there is no secret under the
    old key, if the command then succeeds, and no SSH key, if it does not. -/
def RotationSafe (db : AuthDb) : Prop :=
  ∀ old new, oldKey F w args = some old → newKey F w args = some new → old ≠ new →
    Commits F w old db →
      (w.Concludes → ∀ userId token, db.ciphertext (.totpSecret userId) = some token →
        ¬ F.Readable old token) ∧
      (¬ w.Concludes → ∀ id, db.ciphertext (.sshKey id) = none)

end Keys

/-! ## The loop -/

section Loop

variable {F : Fernet} {old new : F.Key} {w : RotateWorld} {rows : List (Nat × String)}
  {st st' : RotateState}

/-- The failures are the rows the old key does not read. -/
theorem failures_rotateRows (h : rotateRows F old new w rows st = some st') :
    st'.failures = st.failures ++
      (rows.filter fun row => ¬ F.Readable old row.2).map Prod.fst := by
  fun_induction rotateRows F old new w rows st with
  | case1 st =>
    obtain rfl := Option.some.inj h
    simp
  | case2 id token rows st hnone ih =>
    have hread : ¬ F.Readable old token := by simp [Fernet.Readable, hnone]
    rw [ih h]
    simp [hread]
  | case3 id token rows st data hdata hanswer token' ih =>
    have hread : F.Readable old token := by simp [Fernet.Readable, hdata]
    rw [ih h]
    simp [hread]
  | case4 id token rows st data hdata hanswer => exact absurd h (by simp)

/-- The loop goes through if every `UPDATE` it makes is answered. -/
theorem isSome_rotateRows_iff :
    (rotateRows F old new w rows st).isSome ↔
      ∀ row ∈ rows, F.Readable old row.2 → w.answers (.update row.1) = true := by
  fun_induction rotateRows F old new w rows st with
  | case1 st => simp
  | case2 id token rows st hnone ih =>
    have hread : ¬ F.Readable old token := by simp [Fernet.Readable, hnone]
    simp [ih, hread]
  | case3 id token rows st data hdata hanswer token' ih => simp [ih, hanswer]
  | case4 id token rows st data hdata hanswer =>
    have hread : F.Readable old token := by simp [Fernet.Readable, hdata]
    simp [hread, hanswer]

theorem lookup_rotateRows_of_notMem (h : rotateRows F old new w rows st = some st') {id : Nat}
    (hid : id ∉ rows.map Prod.fst) : st'.table.lookup id = st.table.lookup id := by
  fun_induction rotateRows F old new w rows st with
  | case1 st =>
    obtain rfl := Option.some.inj h
    rfl
  | case2 id' token rows st hnone ih =>
    rw [List.map_cons, List.mem_cons, not_or] at hid
    exact ih h hid.2
  | case3 id' token rows st data hdata hanswer token' ih =>
    rw [List.map_cons, List.mem_cons, not_or] at hid
    rw [ih h hid.2]
    exact lookup_modify_ne hid.1 _ _
  | case4 id' token rows st data hdata hanswer => exact absurd h (by simp)

/-- **One row of the loop**: what the old key reads is encrypted anew. -/
theorem lookup_rotateRows_of_mem (h : rotateRows F old new w rows st = some st')
    (hrows : (rows.map Prod.fst).Nodup) {id : Nat} {token : String} (hmem : (id, token) ∈ rows)
    {data : Bytes} (hdata : F.decrypt old token = some data) :
    st'.table.lookup id =
      (st.table.lookup id).map (SshKeyPair.reencrypted (F.encrypt new (w.seed id) data)) := by
  fun_induction rotateRows F old new w rows st with
  | case1 st => exact absurd hmem (by simp)
  | case2 id' token' rows st hnone ih =>
    rw [List.map_cons, List.nodup_cons] at hrows
    cases List.mem_cons.mp hmem with
    | inl heq =>
      obtain ⟨rfl, rfl⟩ := Prod.mk.inj heq
      exact absurd (hnone.symm.trans hdata) (by simp)
    | inr hmem => exact ih h hrows.2 hmem
  | case3 id' token' rows st data' hdata' hanswer reencrypted ih =>
    rw [List.map_cons, List.nodup_cons] at hrows
    cases List.mem_cons.mp hmem with
    | inl heq =>
      obtain ⟨rfl, rfl⟩ := Prod.mk.inj heq
      obtain rfl := Option.some.inj (hdata.symm.trans hdata')
      rw [lookup_rotateRows_of_notMem h hrows.1]
      exact lookup_modify_self _ _ _
    | inr hrest =>
      have hne : id ≠ id' := by
        intro heq
        subst heq
        exact hrows.1 (List.mem_map.mpr ⟨_, hrest, rfl⟩)
      rw [ih h hrows.2 hrest]
      exact congrArg _ (lookup_modify_ne hne _ _)
  | case4 id' token' rows st data' hdata' hanswer => exact absurd h (by simp)

end Loop

/-! ## The whole command -/

section Command

variable {F : Fernet} {w : RotateWorld} {args : RotateArgs} {db : AuthDb}

/-- A commit that takes effect: every SSH key is under the new key, nothing else has changed, and
    the command succeeds if nothing raises from the commit on. -/
structure Rotated (F : Fernet) (w : RotateWorld) (old new : F.Key) (db : AuthDb)
    (r : RotateExit × AuthDb) : Prop where
  succeeded : r.1.succeeded = true ↔ w.Concludes
  sshKeys : ∀ id token data, db.ciphertext (.sshKey id) = some token →
    F.decrypt old token = some data →
      r.2.ciphertext (.sshKey id) = some (F.encrypt new (w.seed id) data)
  totpSecrets : r.2.totpSecrets = db.totpSecrets

/-- There are no failures just where the old key reads every row. -/
theorem failures_eq_nil_iff {st : RotateState} {old new : F.Key}
    (h : rotateRows F old new w db.encryptedSshKeys { table := db.sshKeyPairs } = some st) :
    st.failures = [] ↔
      ∀ id token, db.ciphertext (.sshKey id) = some token → F.Readable old token := by
  rw [failures_rotateRows h, List.nil_append, List.map_eq_nil_iff, List.filter_eq_nil_iff]
  constructor
  · intro hall id token htoken
    simpa using hall _ (AuthDb.mem_encryptedSshKeys.mpr htoken)
  · intro hall row hmem
    simpa using hall row.1 row.2 (AuthDb.mem_encryptedSshKeys.mp hmem)

/-- What is in the table when the loop is through without a failure. -/
theorem ciphertext_rotateRows {st : RotateState} {old new : F.Key} {db' : AuthDb}
    (h : rotateRows F old new w db.encryptedSshKeys { table := db.sshKeyPairs } = some st)
    (htable : db'.sshKeyPairs = st.table) {id : Nat} {token : String} {data : Bytes}
    (htoken : db.ciphertext (.sshKey id) = some token) (hdata : F.decrypt old token = some data) :
    db'.ciphertext (.sshKey id) = some (F.encrypt new (w.seed id) data) := by
  have hlookup := lookup_rotateRows_of_mem h db.nodup_encryptedSshKeys
    (AuthDb.mem_encryptedSshKeys.mpr htoken) hdata
  obtain ⟨row, hrow, -⟩ := Option.bind_eq_some_iff.mp htoken
  simp only [AuthDb.ciphertext, htable, hlookup, hrow, Option.map_some, Option.bind_some,
    SshKeyPair.reencrypted]

/-- **The transaction is all or nothing.** -/
theorem rotateKeys_cases (old new : F.Key) (logged : Nat → KeyRotation) (db : AuthDb)
    (hdsn : w.dsn ≠ "") :
    Commits F w old db ∧ Rotated F w old new db (rotateKeys F old new w logged db) ∨
    ¬ Commits F w old db ∧ (rotateKeys F old new w logged db).1.succeeded = false ∧
      (rotateKeys F old new w logged db).2 = db := by
  unfold rotateKeys
  split
  · rename_i hstop
    refine Or.inr ⟨fun hc => ?_, rfl, rfl⟩
    simp [hc.connects, hc.begun, hc.selected] at hstop
  rename_i hgo
  simp only [Bool.or_eq_true, Bool.not_eq_true', not_or, Bool.not_eq_false] at hgo
  have hloop : Commits F w old db →
      (rotateRows F old new w db.encryptedSshKeys { table := db.sshKeyPairs }).isSome := by
    intro hc
    rw [isSome_rotateRows_iff]
    exact fun row hmem _ => hc.updated row.1 row.2 (AuthDb.mem_encryptedSshKeys.mp hmem)
  split
  · rename_i hnone
    refine Or.inr ⟨fun hc => ?_, rfl, rfl⟩
    rw [hnone] at hloop
    exact absurd (hloop hc) (by simp)
  rename_i st hst
  have hkeys : ∀ db' : AuthDb, db'.sshKeyPairs = st.table → ∀ id token data,
      db.ciphertext (.sshKey id) = some token → F.decrypt old token = some data →
        db'.ciphertext (.sshKey id) = some (F.encrypt new (w.seed id) data) :=
    fun db' htable id token data htoken hdata =>
      ciphertext_rotateRows hst htable htoken hdata
  split
  · -- a row was refused, and everything is rolled back
    rename_i hfailures
    have hnot : ¬ Commits F w old db :=
      fun hc => hfailures ((failures_eq_nil_iff hst).mpr hc.readable)
    split
    · exact Or.inr ⟨hnot, rfl, rfl⟩
    · exact Or.inr ⟨hnot, rfl, rfl⟩
  rename_i hfailures
  have hreadable := (failures_eq_nil_iff hst).mp (not_not.mp hfailures)
  split
  · rename_i hinsert
    refine Or.inr ⟨fun hc => ?_, rfl, rfl⟩
    simp [hc.inserted] at hinsert
  rename_i hinsert
  have hupdated : ∀ id token, db.ciphertext (.sshKey id) = some token →
      w.answers (.update id) = true := by
    intro id token htoken
    have hall := isSome_rotateRows_iff.mp (by rw [hst]; rfl)
    exact hall (id, token) (AuthDb.mem_encryptedSshKeys.mpr htoken) (hreadable id token htoken)
  have hcommits : w.commit ≠ .refused → Commits F w old db := fun hcommit =>
    ⟨hdsn, hgo.1.1, hgo.1.2, hgo.2, hreadable, hupdated, by simpa using hinsert, hcommit⟩
  cases hcommit : w.commit with
  | refused => exact Or.inr ⟨fun hc => hc.committed hcommit, rfl, rfl⟩
  | lost =>
    refine Or.inl ⟨hcommits (by simp [hcommit]), ?_, hkeys _ rfl, rfl⟩
    simp [RotateExit.succeeded, RotateWorld.Concludes, hcommit]
  | applied =>
    refine Or.inl ⟨hcommits (by simp [hcommit]), ?_⟩
    cases hconcludes : w.concludes with
    | false =>
      refine ⟨?_, hkeys _ rfl, rfl⟩
      simp [RotateExit.succeeded, RotateWorld.Concludes, hconcludes]
    | true =>
      refine ⟨?_, hkeys _ rfl, rfl⟩
      simp [RotateExit.succeeded, RotateWorld.Concludes, hcommit, hconcludes]

/-- The command either rotates under the keys it was given, or fails and changes nothing. -/
theorem rotateFernet_cases (F : Fernet) (w : RotateWorld) (args : RotateArgs) (db : AuthDb) :
    (∃ old new, oldKey F w args = some old ∧ newKey F w args = some new ∧ Commits F w old db ∧
      Rotated F w old new db (rotateFernet F w args db)) ∨
    ((rotateFernet F w args db).1.succeeded = false ∧ (rotateFernet F w args db).2 = db ∧
      ∀ old new, oldKey F w args = some old → newKey F w args = some new → old ≠ new →
        ¬ Commits F w old db) := by
  unfold rotateFernet oldKey newKey
  cases hold : resolveKey w.env args.oldKey args.oldKeyEnv with
  | none => exact Or.inr ⟨rfl, rfl, fun old new h => absurd h (by simp)⟩
  | some oldText =>
    cases hnew : resolveKey w.env args.newKey args.newKeyEnv with
    | none => exact Or.inr ⟨rfl, rfl, fun old new _ h => absurd h (by simp)⟩
    | some newText =>
      dsimp only [Option.bind_some]
      by_cases htext : oldText = newText
      · rw [if_pos htext]
        refine Or.inr ⟨rfl, rfl, fun old new hold hnew hne => absurd ?_ hne⟩
        rw [htext] at hold
        exact Option.some.inj (hold.symm.trans hnew)
      rw [if_neg htext]
      cases hkold : F.key oldText with
      | error e => exact Or.inr ⟨rfl, rfl, fun old new h => absurd h (by simp [Except.toOption])⟩
      | ok old =>
        cases hknew : F.key newText with
        | error e =>
          exact Or.inr ⟨rfl, rfl, fun old new _ h => absurd h (by simp [Except.toOption])⟩
        | ok new =>
          dsimp only [Except.toOption]
          by_cases hdsn : w.dsn = ""
          · rw [if_pos hdsn]
            exact Or.inr ⟨rfl, rfl, fun _ _ _ _ _ hc => hc.dsn hdsn⟩
          rw [if_neg hdsn]
          rcases rotateKeys_cases old new _ db hdsn with ⟨hc, hr⟩ | ⟨hnot, hfail, hsame⟩
          · exact Or.inl ⟨old, new, rfl, rfl, hc, hr⟩
          · refine Or.inr ⟨hfail, hsame, fun old' new' h _ _ => ?_⟩
            obtain rfl := Option.some.inj h
            exact hnot

theorem Carried.refl (k : F.Key) (db : AuthDb) : Carried F k k db db :=
  fun _ token _ htoken hdata => ⟨token, htoken, hdata⟩

/-- What a rotation does to the columns it does not know of. -/
theorem Rotated.ciphertext_totpSecret {old new : F.Key} {r : RotateExit × AuthDb}
    (h : Rotated F w old new db r) (userId : Nat) :
    r.2.ciphertext (.totpSecret userId) = db.ciphertext (.totpSecret userId) := by
  unfold AuthDb.ciphertext
  rw [h.totpSecrets]

/-- After a rotation the new key reads the SSH keys, and the secrets if it reads them before. -/
theorem Rotated.carried (hF : F.Lawful) {old new : F.Key} {r : RotateExit × AuthDb}
    (h : Rotated F w old new db r)
    (hsecrets : ∀ userId token data, db.ciphertext (.totpSecret userId) = some token →
      F.decrypt old token = some data → F.decrypt new token = some data) :
    Carried F old new db r.2 := by
  intro column token data htoken hdata
  cases column with
  | sshKey id =>
    exact ⟨_, h.sshKeys id token data htoken hdata, hF.decrypt_encrypt new _ data⟩
  | totpSecret userId =>
    rw [h.ciphertext_totpSecret]
    exact ⟨token, htoken, hsecrets userId token data htoken hdata⟩

/-- **A rotation keeps its promise just where it is safe.** -/
theorem rotation_law_iff (hF : F.Lawful) : RotationLaw F w args db ↔ RotationSafe F w args db := by
  constructor
  · intro hlaw old new hold hnew hne hc
    rcases rotateFernet_cases F w args db with ⟨old', new', hold', hnew', -, hr⟩ | ⟨-, -, hnot⟩
    · obtain rfl := Option.some.inj (hold.symm.trans hold')
      obtain rfl := Option.some.inj (hnew.symm.trans hnew')
      constructor
      · intro hconcludes userId token htoken hread
        obtain ⟨data, hdata⟩ := Fernet.readable_iff.mp hread
        have hcarried := hlaw.complete (hr.succeeded.mpr hconcludes) old new hold hnew
        obtain ⟨token', htoken', hdata'⟩ := hcarried _ token data htoken hdata
        -- the secret is where it was, and only the old key reads it
        rw [hr.ciphertext_totpSecret, htoken] at htoken'
        obtain rfl := Option.some.inj htoken'
        rw [hF.decrypt_other old new token data hdata hne.symm] at hdata'
        exact absurd hdata' (by simp)
      · intro hraises id
        cases htoken : db.ciphertext (.sshKey id) with
        | none => rfl
        | some token =>
          obtain ⟨data, hdata⟩ := Fernet.readable_iff.mp (hc.readable id token htoken)
          have hfailed : (rotateFernet F w args db).1.succeeded = false := by
            rw [← Bool.not_eq_true]
            exact fun h => hraises (hr.succeeded.mp h)
          obtain ⟨token', htoken', hdata'⟩ :=
            hlaw.atomic hfailed old hold _ token data htoken hdata
          -- the row is under the new key by now
          rw [hr.sshKeys id token data htoken hdata] at htoken'
          obtain rfl := Option.some.inj htoken'
          exact absurd (Fernet.readable_iff.mpr ⟨data, hdata'⟩)
            (hF.not_readable_encrypt hne _ data)
    · exact absurd hc (hnot old new hold hnew hne)
  · intro hsafe
    rcases rotateFernet_cases F w args db with ⟨old, new, hold, hnew, hc, hr⟩ | ⟨hfail, hsame, -⟩
    · constructor
      · intro hsucceeded old' new' hold' hnew'
        obtain rfl := Option.some.inj (hold.symm.trans hold')
        obtain rfl := Option.some.inj (hnew.symm.trans hnew')
        refine hr.carried hF fun userId token data htoken hdata => ?_
        by_cases heq : old = new
        · exact heq ▸ hdata
        · have hnone := (hsafe old new hold hnew heq hc).1 (hr.succeeded.mp hsucceeded)
          exact absurd (Fernet.readable_iff.mpr ⟨data, hdata⟩) (hnone userId token htoken)
      · intro hfailed old' hold'
        obtain rfl := Option.some.inj (hold.symm.trans hold')
        by_cases heq : old = new
        · subst heq
          exact hr.carried hF fun _ _ _ _ hdata => hdata
        · have hraises : ¬ w.Concludes := fun h => by simp [hr.succeeded.mpr h] at hfailed
          have hnone := (hsafe old new hold hnew heq hc).2 hraises
          intro column token data htoken hdata
          cases column with
          | sshKey id => exact absurd ((hnone id).symm.trans htoken) (by simp)
          | totpSecret userId =>
            exact ⟨token, (hr.ciphertext_totpSecret userId).trans htoken, hdata⟩
    · constructor
      · intro hsucceeded
        exact absurd (hfail.symm.trans hsucceeded) (by simp)
      · intro _ old _
        rw [hsame]
        exact Carried.refl old db

end Command

/-! ## One user with a second factor -/

namespace SecondFactor

/-- A token that begins with its key. -/
def box : Fernet where
  Key := { text : String // text.toList.length = 44 }
  key := fun text =>
    if h : text.toList.length = 44 then .ok ⟨text, h⟩
    else .error "Fernet key must be 32 url-safe base64-encoded bytes."
  encrypt := fun k _ data => String.ofList (k.1.toList ++ data.map fun b => Char.ofNat b.toNat)
  decrypt := fun k token =>
    if token.toList.take 44 = k.1.toList then
      some ((token.toList.drop 44).map fun c => UInt8.ofNat c.toNat)
    else none

theorem ofNat_toNat_byte (b : UInt8) : UInt8.ofNat (Char.ofNat b.toNat).toNat = b := by
  have hvalid : b.toNat.isValidChar := Or.inl (by have := b.toNat_lt; omega)
  have htoNat : (Char.ofNat b.toNat).toNat = b.toNat := by
    rw [Char.ofNat, dif_pos hvalid]
    rfl
  rw [htoNat]
  exact UInt8.ofNat_toNat

theorem box_lawful : box.Lawful where
  decrypt_encrypt := by
    intro k seed data
    obtain ⟨text, hlength⟩ := k
    have htake : (text.toList ++ data.map fun b => Char.ofNat b.toNat).take 44 = text.toList :=
      List.take_left' hlength
    have hdrop : (text.toList ++ data.map fun b => Char.ofNat b.toNat).drop 44 =
        data.map fun b => Char.ofNat b.toNat := List.drop_left' hlength
    simp [box, htake, hdrop, Function.comp_def, ofNat_toNat_byte]
  decrypt_other := by
    intro k k' token data hdata hne
    simp only [box] at hdata ⊢
    split at hdata
    · rename_i htake
      rw [if_neg]
      intro htake'
      exact hne (Subtype.ext (String.toList_inj.mp (htake'.symm.trans htake)))
    · exact absurd hdata (by simp)

def oldText : String := "OLD-4567890123456789012345678901234567890123"

def newText : String := "NEW-4567890123456789012345678901234567890123"

def world : RotateWorld where
  env := fun name =>
    if name = "OLD_FERNET_KEY" then some oldText
    else if name = "NEW_FERNET_KEY" then some newText else none
  dsn := "postgresql://osm@localhost/osm"
  fingerprint := fun key => String.ofList (key.toList.take 3)

/-- The message is written to a pipe that nobody reads any more. -/
def brokenPipe : RotateWorld := { world with concludes := false }

def token : String := oldText ++ "A"

/-- One SSH key. -/
def keys : AuthDb where
  sshKeyPairs := AList.insert 1 ⟨"deploy", "ssh-ed25519 AAAA", some token, some 1⟩ ∅

/-- And a user who has enrolled. -/
def enrolled : AuthDb := { keys with totpSecrets := AList.insert 7 { secretEncrypted := token } ∅ }

/-- **Two rotations that break the promise**: a successful one loses the second factor of user 7,
    and one that fails behind the commit has changed the SSH key. -/
theorem rotation_law_fails :
    (rotateFernet box world {} enrolled).1 = .returned 0 "Rotated 1 key(s)." ∧
    ¬ RotationLaw box world {} enrolled ∧
    (rotateFernet box brokenPipe {} keys).1 = .raised ∧ ¬ RotationLaw box brokenPipe {} keys := by
  refine ⟨rfl, fun h => ?_, rfl, fun h => ?_⟩
  · obtain ⟨token', htoken', hdata'⟩ :=
      h.complete rfl ⟨oldText, rfl⟩ ⟨newText, rfl⟩ rfl rfl (.totpSecret 7) token [65] rfl rfl
    cases htoken'
    exact absurd hdata' (by decide)
  · obtain ⟨token', htoken', hdata'⟩ :=
      h.atomic rfl ⟨oldText, rfl⟩ rfl (.sshKey 1) token [65] rfl rfl
    cases htoken'
    exact absurd hdata' (by decide)

/-- Nobody has enrolled, and the rotation keeps its promise. -/
theorem rotation_law_keys : RotationLaw box world {} keys := by
  refine (rotation_law_iff box_lawful).mpr fun old new hold _ _ _ => ⟨fun _ userId t ht => ?_, ?_⟩
  · cases ht
  · exact fun hraises => absurd ⟨rfl, rfl⟩ hraises

end SecondFactor

end OdooSemantic
