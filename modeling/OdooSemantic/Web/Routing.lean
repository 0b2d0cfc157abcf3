import OdooSemantic.Web.LoginRoutes

/-!
# `src/web_ui/app.py` — from the path of a request to its handler

The router looks a path up in the table of routes. In front of it is the middleware, which sees
the path in another form (`request.url.path`), and lets a request pass unseen if that begins
with `/api/auth/`. What is below this prefix has to look after itself.

The handlers of the routes behind the middleware are not modelled here, nor are `register` and
`resend_verification`, which are open to anybody: each of them may leave any tables behind.
-/

namespace OdooSemantic

open KeyedStore

/-! ## Paths -/

/-- A part of the path of a route: a text, `{name}` or `{name:path}`. -/
inductive PathPart where
  | text (s : String)
  | param
  | path
deriving DecidableEq

/-- What follows a text. -/
def afterText : List Char → List Char → Option (List Char)
  | [], cs => some cs
  | _ :: _, [] => none
  | c :: text, c' :: cs => if c = c' then afterText text cs else none

/-- The regular expression that a route is compiled to. Its `$` lets a newline pass. -/
def PathPart.fits : List PathPart → List Char → Bool
  | [], cs => cs = [] || cs = ['\n']
  | .text s :: parts, cs =>
      match afterText s.toList cs with
      | some rest => fits parts rest
      | none => false
  | .param :: parts, cs =>
      cs.takeWhile (· ≠ '/') ≠ [] && fits parts (cs.dropWhile (· ≠ '/'))
  | .path :: parts, cs => fits parts (cs.dropWhile (· ≠ '\n'))

inductive Method where
  | get
  | post
  | patch
  | delete
  | other
deriving DecidableEq

inductive Endpoint where
  | login
  | logout
  | resetPassword
  | verify
  | oauthLogin
  | register
  | verifyEmail
  | resendVerification
  | totpSetup
  | totpVerify
  | totpDisable
  | totpStatus
  | totpLogin
  | health
  | openapi
  /-- By the name of the function. -/
  | guarded (handler : String)
deriving DecidableEq

structure Route where
  method : Method
  parts : List PathPart
  endpoint : Endpoint

/-- A route whose path is a text. -/
def Route.exact (method : Method) (path : String) (endpoint : Endpoint) : Route :=
  ⟨method, [.text path], endpoint⟩

/-- A route with one parameter, between two texts. -/
def Route.at (method : Method) (before after : String) (handler : String) : Route :=
  ⟨method, [.text before, .param, .text after], .guarded handler⟩

/-- `create_app()`, in the order of `include_router`. -/
def routes : List Route :=
  [.exact .get "/openapi.json" .openapi,
    .exact .post "/api/auth/login" .login,
    .exact .post "/api/auth/logout" .logout,
    .exact .post "/api/auth/reset-password" .resetPassword,
    .exact .get "/api/auth/verify" .verify,
    .exact .post "/api/auth/oauth-login" .oauthLogin,
    .exact .post "/api/auth/register" .register,
    .exact .post "/api/auth/verify-email" .verifyEmail,
    .exact .post "/api/auth/resend-verification" .resendVerification,
    .exact .get "/api/dashboard/stats" (.guarded "dashboard_stats"),
    .exact .get "/api/repos/profiles" (.guarded "list_profiles"),
    .exact .post "/api/repos/profiles" (.guarded "create_profile"),
    .at .patch "/api/repos/profiles/" "/parent" "set_profile_parent",
    .at .patch "/api/repos/profiles/" "" "update_profile",
    .at .delete "/api/repos/profiles/" "" "delete_profile",
    .exact .post "/api/repos/repos" (.guarded "add_repo"),
    .exact .get "/api/repos/ssh-keys-list" (.guarded "ssh_keys_list"),
    .at .patch "/api/repos/repos/" "" "update_repo",
    .at .delete "/api/repos/repos/" "" "delete_repo",
    .at .post "/api/repos/profiles/" "/clone-all" "clone_all_pending",
    .at .get "/api/repos/repos/" "/clone-status" "clone_status",
    .at .post "/api/repos/repos/" "/index" "index_repo",
    .at .post "/api/repos/repos/" "/reset-embed" "reset_embed",
    .exact .post "/api/repos/index-all" (.guarded "index_all"),
    .at .get "/api/repos/repos/" "/core-symbol-counts" "core_symbol_counts",
    .exact .get "/api/api-keys" (.guarded "list_api_keys"),
    .exact .post "/api/api-keys" (.guarded "create_api_key"),
    .at .post "/api/api-keys/" "/deactivate" "deactivate_api_key",
    .exact .get "/api/ssh-keys" (.guarded "list_ssh_keys"),
    .exact .post "/api/ssh-keys" (.guarded "create_ssh_key"),
    .exact .post "/api/ssh-keys/import" (.guarded "import_ssh_key"),
    .at .delete "/api/ssh-keys/" "" "delete_ssh_key",
    .at .get "/api/jobs/" "/status" "job_status",
    .at .post "/api/jobs/" "/reset" "reset_stuck_job",
    .exact .post "/api/feedback" (.guarded "submit_feedback"),
    ⟨.get, [.text "/api/feedback/", .path], .guarded "get_feedback"⟩,
    .exact .get "/api/operations/presets" (.guarded "list_presets"),
    .exact .post "/api/operations/index-core" (.guarded "post_index_core"),
    .exact .post "/api/operations/seed-patterns" (.guarded "post_seed_patterns"),
    .exact .post "/api/operations/apply-preset" (.guarded "post_apply_preset"),
    .exact .post "/api/operations/backup" (.guarded "trigger_backup"),
    .at .get "/api/operations/backup/" "/stream" "backup_stream",
    .at .get "/api/operations/backup/" "/status" "backup_status",
    .exact .post "/api/operations/restore" (.guarded "trigger_restore"),
    .exact .post "/api/auth/totp/setup" .totpSetup,
    .exact .post "/api/auth/totp/verify" .totpVerify,
    .exact .post "/api/auth/totp/disable" .totpDisable,
    .exact .get "/api/auth/totp/status" .totpStatus,
    .exact .post "/api/auth/totp/login" .totpLogin,
    .exact .get "/api/admin/users" (.guarded "list_users"),
    .at .post "/api/admin/users/" "/deactivate" "deactivate_user",
    .at .post "/api/admin/users/" "/reactivate" "reactivate_user",
    .at .post "/api/admin/users/" "/reset-password-link" "reset_password_link",
    .at .patch "/api/admin/users/" "/admin" "set_user_admin_route",
    .at .patch "/api/admin/api-keys/" "/owner" "assign_key_owner_route",
    .exact .get "/api/admin/migrations" (.guarded "list_migrations"),
    .exact .get "/api/health" .health]

/-- The body, as the model of its endpoint has it. -/
inductive RequestBody where
  | login (body : LoginBody)
  | reset (token newPassword : String)
  | oauth (body : OAuthLoginBody)
  | token (token : String)
  | code (code : String)
  | disable (password code : String)
  | mfaLogin (body : MfaLoginBody)
  | none

structure HttpRequest where
  method : Method
  /-- `scope["path"]`, without its percent signs. -/
  path : String
  body : RequestBody := .none

def HttpRequest.route (r : HttpRequest) : Option Endpoint :=
  (routes.find? fun route =>
    route.method = r.method && PathPart.fits route.parts r.path.toList).map (·.endpoint)

/-! ## The middleware -/

/-- `_is_exempt(path)` -/
def isExempt (path : String) : Bool :=
  path ∈ ["/health", "/api/health", "/openapi.json", "/docs", "/redoc"] ||
    "/api/auth/".toList.isPrefixOf path.toList

/-! ## The handlers -/

inductive Answer where
  | reply (response : Response)
  | verified (username : String) (isAdmin : Bool)
  | health
  | openapi
  /-- The handler is not modelled. -/
  | handled
  | notFound
  | unprocessable
deriving DecidableEq

/-- Data of a user, or what may be. -/
def Answer.showsUser : Answer → Bool
  | reply (.failed _ _) | reply .crashed | reply .ok | health | openapi | notFound
  | unprocessable => false
  | reply _ | verified _ _ | handled => true

/-- The request of an endpoint; `none` where the body does not fit. -/
def Endpoint.request : Endpoint → RequestBody → Option AuthRequest
  | login, .login body => some (.login body)
  | logout, _ => some .logout
  | resetPassword, .reset token newPassword => some (.resetPassword token newPassword)
  | oauthLogin, .oauth body => some (.oauthLogin body)
  | verifyEmail, .token token => some (.verifyEmail token)
  | totpSetup, _ => some .totpSetup
  | totpVerify, .code code => some (.totpVerify code)
  | totpDisable, .disable password code => some (.totpDisable password code)
  | totpLogin, .mfaLogin body => some (.totpLogin body)
  | _, _ => none

section Handlers

variable (w : RequestWorld) (cookie : Cookie) (db : AuthDb)

/-- `totp_status(request)` -/
def totpStatus : Reply :=
  withSessionUser w cookie db fun userId =>
    match w.read .totpRow (db.totpSecrets.lookup userId) with
    | none => ⟨.crashed, cookie, db⟩
    | some row => ⟨.totpStatus (row.any (·.enabled)) row.isSome, cookie, db⟩

/-- `verify_session(request)`, which has the checks of the middleware once more. -/
def verifySession : Answer :=
  if sessionValid w cookie && (cookie.sessionId.filter (· ≠ "")).all (serverSessionValid w db) then
    let name := cookie.username.getD ""
    let isAdmin :=
      ((w.read .resolveAdmin (db.userByName name)).join).any fun found =>
        (w.read .isAdmin (db.isAdmin found.1)).getD false
    .verified name isAdmin
  else .reply (.failed 401 "not_authenticated")

end Handlers

/-! ## The application -/

structure HttpCall where
  world : RequestWorld
  cookie : Cookie
  request : HttpRequest
  /-- What a handler that is not modelled leaves behind. -/
  elsewhere : AuthDb

structure HttpReply where
  answer : Answer
  cookie : Cookie
  db : AuthDb

def Reply.http (r : Reply) : HttpReply := ⟨.reply r.response, r.cookie, r.db⟩

namespace HttpCall

variable (d : Deployment) (urlPath : String → String) (call : HttpCall) (db : AuthDb)

def run (endpoint : Endpoint) : HttpReply :=
  match endpoint with
  | .verify => ⟨verifySession call.world call.cookie db, call.cookie, db⟩
  | .totpStatus => (totpStatus call.world call.cookie db).http
  | .health => ⟨.health, call.cookie, db⟩
  | .openapi => ⟨.openapi, call.cookie, db⟩
  | .register | .resendVerification | .guarded _ => ⟨.handled, call.cookie, call.elsewhere⟩
  | endpoint =>
      match endpoint.request call.request.body with
      | none => ⟨.unprocessable, call.cookie, db⟩
      | some r => (handle d call.world call.cookie db r).http

/-- The middleware, the router, the handler. `urlPath` is the path of `request.url` for a
    path. -/
def dispatch : HttpReply :=
  if isExempt (urlPath call.request.path) || authRequired call.world call.cookie db then
    match call.request.route with
    | none => ⟨.notFound, call.cookie, db⟩
    | some endpoint => call.run d db endpoint
  else ⟨.reply (.failed 401 "not_authenticated"), call.cookie, db⟩

end HttpCall

end OdooSemantic
