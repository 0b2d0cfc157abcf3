import OdooSemantic.Web.LoginRoutes

/-!
# `src/web_ui/routes/signup.py` — opening an account

`register` takes an e-mail address on trust: the account is there at once, with a password, and
the address is verified later or never. A password login does not ask. `verify_email` is in
`LoginRoutes`.
-/

namespace OdooSemantic

open KeyedStore

/-- `_COMMON_PASSWORDS` of `signup.py`; `login.py` has a list of its own. -/
def commonPasswords : List String :=
  ["password", "password1", "password12", "password123", "123456", "12345678", "123456789",
    "1234567890", "qwerty", "qwerty123", "qwertyuiop", "abc123", "abcdefgh", "letmein", "welcome",
    "monkey", "dragon", "master", "sunshine", "princess", "iloveyou", "admin123", "admin1234",
    "superman", "batman", "football", "baseball", "soccer", "hockey", "trustno1", "shadow",
    "michael", "jessica", "jennifer", "daniel", "pass", "passw0rd", "p@ssword", "p@ssw0rd",
    "login", "starwars", "hello", "charlie", "donald", "pepper", "696969", "1q2w3e", "1q2w3e4r",
    "zxcvbnm", "asdfgh", "asdfghjkl", "111111", "111111111", "000000", "123123", "7777777",
    "1234567", "12345", "1234", "55555", "666666", "777777", "888888", "999999", "test",
    "test1234", "testing", "changeme", "newpassword", "newpass", "root", "rootroot", "toor",
    "admin", "administrator", "user", "guest", "demo", "sample", "default", "blank", "nothing",
    "hunter2", "correct", "horse", "battery", "staple", "wifi", "internet", "google", "facebook",
    "twitter", "instagram", "linkedin", "apple", "windows", "linux", "ubuntu", "raspberry",
    "letmein1", "welcome1", "pass123", "pass1234", "pass12345"]

structure RegisterBody where
  email : String
  username : String
  password : String
  confirmPassword : String
  hcaptchaToken : String := ""

/-- What a registration meets, besides what every request meets. -/
structure SignupWorld extends RequestWorld where
  /-- `_verify_hcaptcha(token, remote_ip)` -/
  verifyHcaptcha : String → Bool := fun _ => true
  /-- The `secrets.token_urlsafe(32)` that is mailed. -/
  rawToken : String

section Register

variable (d : Deployment) (w : SignupWorld) (cookie : Cookie) (db : AuthDb)

/-- `_validate_password(password)` -/
def validatePassword (password : String) : Option String :=
  if password.length < 12 then some "Password must be at least 12 characters."
  else if d.lower password ∈ commonPasswords then
    some "Password is too common. Please choose a stronger password."
  else none

/-- `SELECT 1 FROM webui_users WHERE email = …` -/
def AuthDb.emailTaken (email : String) : Bool :=
  (findWhere (fun u => u.email = some email) db.users).isSome

/-- `INSERT INTO email_verifications (token, user_id, purpose, expires_at)`; `none` is a violation
    of the key. -/
def AuthDb.insertVerification (tokenHash : String) (row : EmailVerification) : Option AuthDb :=
  if tokenHash ∈ db.emailVerifications then none
  else some { db with emailVerifications := db.emailVerifications.insert tokenHash row }

/-- What follows the new user: the token, and the mail. -/
def sendVerification (userId : Nat) : Reply :=
  match db.insertVerification (d.sha256 w.rawToken)
      { userId, purpose := .emailVerify, expiresAt := w.now + 24 * 3600 } with
  | none => ⟨.crashed, cookie, db⟩
  | some db' =>
      match w.write .insertVerification db db' with
      | (false, db) => ⟨.crashed, cookie, db⟩
      | (true, db) => ⟨.verificationEmailSent, cookie, db⟩

/-- What follows the checks. -/
def createAccount (email username hash : String) : Reply :=
  match db.insertUser
      { username, passwordHash := some hash, email := some email, createdAt := some w.now } with
  | none => ⟨.crashed, cookie, db⟩
  | some db' =>
      match w.write .insertSignup db db' with
      | (false, db) => ⟨.crashed, cookie, db⟩
      | (true, db') => sendVerification d w cookie db' db.nextUserId

/-- `register(body, request)` -/
def register (body : RegisterBody) : Reply :=
  let email := d.lower (PyText.strip body.email)
  let username := PyText.strip body.username
  let refused : Nat → String → Reply := fun status error => ⟨.failed status error, cookie, db⟩
  if email = "" || !email.toList.contains '@' then refused 400 "Invalid email address."
  else if username.length < 2 || 64 < username.length then
    refused 400 "Username must be between 2 and 64 characters."
  else if body.password ≠ body.confirmPassword then refused 400 "Passwords do not match."
  else
    match validatePassword d body.password with
    | some error => refused 400 error
    | none =>
        if w.verifyHcaptcha body.hcaptchaToken then
          match d.hashPassword body.password w.seed with
          | none => ⟨.crashed, cookie, db⟩
          | some hash =>
              match w.read .signupUser (db.userByName username).isSome,
                w.read .signupEmail (db.emailTaken email) with
              | some false, some false => createAccount d w cookie db email username hash
              | some _, some _ =>
                  refused 409
                    "Email or username already registered. If this is yours, try logging in."
              | _, _ => ⟨.crashed, cookie, db⟩
        else refused 400 "Captcha verification failed."

end Register

end OdooSemantic
