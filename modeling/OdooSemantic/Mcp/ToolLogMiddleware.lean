import Mathlib.Logic.Function.Basic
import OdooSemantic.Lib.Machine

/-!
# `src/mcp/tool_log_middleware.py` — whose call it is

The tools are plain functions, and ask `_get_api_key_id()` for the tenant they work for. The
answer is in a thread-local: `UsageLogMiddleware` writes the key id of the request there, awaits
the rest of the chain with the tool at its end, and deletes the value behind it. One event loop
runs all its requests in one thread, so to them the thread-local is a cell they share, and an
`await` is where another request may go on.

`EventLoop.step` takes the requests apart at their awaits. The two hooks differ in what comes
after the value has been deleted: `on_call_tool` logs the call, under the id it holds in a local
variable of its own.
-/

namespace OdooSemantic

/-! ## The thread-local -/

/-- What `_get_api_key_id()` returns: a key id, or `"default"`. -/
inductive ApiKeyId where
  | key (id : Nat)
  | default
deriving DecidableEq

/-- `_api_key_id_local`; `none` is an attribute that is not set. -/
structure ApiKeyIdLocal where
  value : Option Nat := none
deriving DecidableEq

/-- `_get_api_key_id()` -/
def getApiKeyId (cell : ApiKeyIdLocal) : ApiKeyId :=
  match cell.value with
  | some id => .key id
  | none => .default

/-- `_set_server_api_key(api_key_id)`; to delete what is not set is no error. -/
def setServerApiKey (apiKeyId : Option Nat) (cell : ApiKeyIdLocal) : ApiKeyIdLocal :=
  match apiKeyId with
  | some id => { cell with value := some id }
  | none => { cell with value := none }

@[simp] theorem value_setServerApiKey (apiKeyId : Option Nat) (cell : ApiKeyIdLocal) :
    (setServerApiKey apiKeyId cell).value = apiKeyId := by
  cases apiKeyId <;> rfl

/-! ## Requests -/

inductive McpCall where
  /-- `tools/call`, with `context.message.name`. -/
  | toolsCall (name : String)
  /-- `resources/read` -/
  | resourcesRead
deriving DecidableEq

structure McpRequest where
  /-- `request.state.api_key_id`, where `AuthMiddleware` has attached one. -/
  apiKeyId : Option Nat
  call : McpCall
deriving DecidableEq

/-- How far a hook has come. -/
inductive HookPhase where
  | waiting
  /-- In `await call_next(context)`. -/
  | suspended
  | finished
deriving DecidableEq

/-- What has happened at the thread-local. -/
inductive HookEvent (R : Type) where
  | entered (r : R)
  | read (r : R) (answer : ApiKeyId)
  | left (r : R)
deriving DecidableEq

inductive HookAction (R : Type) where
  /-- The hook, up to its `await`. -/
  | enter (r : R)
  /-- The body behind the `await` asks for the id. It may do so more than once. -/
  | body (r : R)
  /-- The hook from its `await` on; the chain has returned, or raised. -/
  | leave (r : R) (raised : Bool)

/-! ## The event loop -/

/-- Any number of requests in one thread. The trace is newest first. -/
structure EventLoop (R : Type) where
  apiKeyIdLocal : ApiKeyIdLocal := {}
  phase : R → HookPhase := fun _ => .waiting
  trace : List (HookEvent R) := []
  /-- The arguments of `_log_tool_call_async`, but for the milliseconds. -/
  usageLog : List (Option Nat × String) := []

namespace EventLoop

variable {R : Type} [DecidableEq R] (requests : R → McpRequest)

/-- The row that `on_call_tool` logs, and `on_read_resource` does not. -/
def usage (request : McpRequest) (raised : Bool) : List (Option Nat × String) :=
  match request.call, raised with
  | .toolsCall name, false => [(request.apiKeyId, name)]
  | _, _ => []

/-- `on_call_tool` and `on_read_resource`, between one `await` and the next. -/
def step (s : EventLoop R) : HookAction R → Option (EventLoop R)
  | .enter r =>
      if s.phase r = .waiting then
        some { s with
          apiKeyIdLocal := setServerApiKey (requests r).apiKeyId s.apiKeyIdLocal
          phase := Function.update s.phase r .suspended
          trace := .entered r :: s.trace }
      else none
  | .body r =>
      if s.phase r = .suspended then
        some { s with trace := .read r (getApiKeyId s.apiKeyIdLocal) :: s.trace }
      else none
  | .leave r raised =>
      if s.phase r = .suspended then
        some { s with
          apiKeyIdLocal := setServerApiKey none s.apiKeyIdLocal
          phase := Function.update s.phase r .finished
          trace := .left r :: s.trace
          usageLog := usage (requests r) raised ++ s.usageLog }
      else none

end EventLoop

end OdooSemantic
