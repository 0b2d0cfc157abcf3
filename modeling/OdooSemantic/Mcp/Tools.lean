import OdooSemantic.Mcp.Inspect
import OdooSemantic.Mcp.Session

/-!
# The tools of a key

What a key can call: `model_inspect`, `module_inspect` and `entity_lookup`, which read the graph,
and `set_active_version` and `set_active_profile`, which write the session of the key. A reading
tool looks into the session as well, by `_resolve_version`.
-/

namespace OdooSemantic

open KeyedStore Paging Threads

/-! ## Where a call goes -/

/-- The arguments of `entity_lookup`. -/
structure EntityLookup where
  kind : String
  odooVersion : String := "auto"
  profileName : Option String := none
  model : Option String := none
  field : Option String := none
  methodName : Option String := none
  xmlid : Option String := none
  name : Option String := none
  fromModule : Option String := none
deriving DecidableEq

inductive ReadCall where
  | inspect (call : InspectCall)
  | lookup (args : EntityLookup)
deriving DecidableEq

/-- The functions of `server.py` that begin with `_resolve_version`. -/
inductive GraphQuery where
  | resolveModel (model : String) (profileName fromModule : Option String)
  | resolveField (model field : String) (profileName fromModule : Option String)
  | resolveMethod (model name : String) (profileName : Option String)
  | resolveView (xmlid : String) (profileName : Option String)
  | describeModule (name : String) (profileName : Option String)
  | list (call : InspectCall)

/-- What a call comes down to. -/
inductive Inspection where
  | text (text : String)
  /-- `template.format(name=name)` -/
  | format (template name : String)
  | query (query : GraphQuery)

/-- `_MODEL_METHODS`, sorted -/
def modelMethods : List String := ["field", "fields", "method", "methods", "summary", "views"]

/-- `_MODULE_METHODS`, sorted -/
def moduleMethods : List String := ["fields", "js", "methods", "owl", "qweb", "summary", "views"]

/-- `_ENTITY_KINDS`, sorted -/
def entityKinds : List String := ["field", "method", "model", "module", "pattern", "view"]

/-- `_invalid_method_error(router_name, method, valid)` -/
def invalidMethodError (routerName method : String) (valid : List String) : String :=
  s!"Error: unknown method '{method}'. Valid for {routerName}: " ++ ", ".intercalate valid ++ "."

/-- `_invalid_kind_error(kind)` -/
def invalidKindError (kind : String) : String :=
  s!"Error: unknown kind '{kind}'. Valid: " ++ ", ".intercalate entityKinds ++ "."

/-- An argument that must be there, and not be empty. -/
def required (value : Option String) (error : String) (next : String → Inspection) : Inspection :=
  match valueOrNone value with
  | some x => next x
  | none => .text error

/-- `_model_inspect(…)` -/
def ModelInspect.inspection (args : ModelInspect) : Inspection :=
  if args.method ∉ modelMethods then
    .text (invalidMethodError "model_inspect" args.method modelMethods)
  else if args.method = "summary" then
    .query (.resolveModel args.model args.profileName args.fromModule)
  else if args.method = "field" then
    required args.field "Error: model_inspect(method='field') requires field='<field_name>'."
      fun field => .query (.resolveField args.model field args.profileName args.fromModule)
  else if args.method = "method" then
    required args.methodName
      "Error: model_inspect(method='method') requires method_name='<method_name>'."
      fun name => .query (.resolveMethod args.model name args.profileName)
  else .query (.list (.model args))

/-- The template for what `module_inspect` cannot list; the last `name` in it is not replaced in
    the f-string. -/
def moduleStub (name method : String) : String :=
  s!"module_inspect(name='{name}', method='{method}') — " ++
    s!"use model_inspect(model=<model>, method='{method}', odoo_version=...) " ++
    s!"for model-scoped {method}, " ++ "or describe_module(name='\x7bname\x7d') for counts."

/-- `_module_inspect(…)`; the era is looked at before the version. -/
def ModuleInspect.inspection (args : ModuleInspect) : Inspection :=
  if args.method ∉ moduleMethods then
    .text (invalidMethodError "module_inspect" args.method moduleMethods)
  else if args.method = "summary" then .query (.describeModule args.name args.profileName)
  else if args.method = "fields" ∨ args.method = "methods" then
    .format (moduleStub args.name args.method) args.name
  else if args.method = "js" then
    match (Graph.listJsPatches {} "" args.name args.target args.era args.profileName).refusal with
    | some text => .text text
    | none => .query (.list (.module args))
  else .query (.list (.module args))

/-- `_entity_lookup(…)`; `none` is left to `_suggest_pattern`. -/
def EntityLookup.inspection (args : EntityLookup) : Option Inspection :=
  let requires (kind what : String) := s!"Error: entity_lookup(kind='{kind}') requires {what}."
  let model (kind : String) := required args.model (requires kind "model='<model_name>'")
  if args.kind ∉ entityKinds then some (.text (invalidKindError args.kind))
  else if args.kind = "model" then
    some (model "model" fun m => .query (.resolveModel m args.profileName args.fromModule))
  else if args.kind = "field" then
    some (model "field" fun m => required args.field (requires "field" "field='<field_name>'")
      fun field => .query (.resolveField m field args.profileName args.fromModule))
  else if args.kind = "method" then
    some (model "method" fun m => required args.methodName
      (requires "method" "method_name='<method_name>'") fun name =>
        .query (.resolveMethod m name args.profileName))
  else if args.kind = "view" then
    some (required args.xmlid (requires "view" "xmlid='<xml.id>'") fun xmlid =>
      .query (.resolveView xmlid args.profileName))
  else if args.kind = "module" then
    some (required args.name (requires "module" "name='<module_name>'") fun name =>
      .query (.describeModule name args.profileName))
  else
    match valueOrNone args.name with
    | some _ => none
    | none => some (.text (requires "pattern" "name='<pattern_intent_string>'"))

/-- The same call, with another `profile_name=`. -/
def InspectCall.withProfile (profileName : Option String) : InspectCall → InspectCall
  | model args => model { args with profileName }
  | module args => module { args with profileName }

namespace ReadCall

def inspection : ReadCall → Option Inspection
  | inspect (.model args) => some args.inspection
  | inspect (.module args) => some args.inspection
  | lookup args => args.inspection

def odooVersion : ReadCall → String
  | inspect call => call.odooVersion
  | lookup args => args.odooVersion

def profileName : ReadCall → Option String
  | inspect call => call.profileName
  | lookup args => args.profileName

/-- The same call, with another `profile_name=`. -/
def withProfile (profileName : Option String) : ReadCall → ReadCall
  | inspect call => inspect (call.withProfile profileName)
  | lookup args => lookup { args with profileName }

end ReadCall

/-! ## Answers -/

inductive ToolError where
  /-- No version can be worked out. -/
  | version
  | listing (e : ListingError)
  /-- `str.format` raises. -/
  | format
deriving DecidableEq

/-- What one call meets. -/
structure ToolExec where
  orders : QueryOrders
  py : PyRuntime String
  oid : Nat → Int
  ttl : ℚ
  now : ℚ
  /-- `template.format(name=name)`; `none` where it raises. -/
  format : String → String → Option String
  /-- For the steps of the session. -/
  inputs : Nat → SessionInput
  /-- `profiles`; what raises where it cannot be read. -/
  profiles : Except String (List String)
  /-- The second reading of `profiles` fails. -/
  unlisted : Bool
  /-- The text of what a set raises. -/
  raised : String

/-- The session of the key, and its refs. -/
structure KeyWorld where
  session : SessionWorld
  minter : RefMinter String := {}

abbrev ToolAnswer := Except ToolError String

def answerOfPage (minter : RefMinter String) :
    Except ListingError (ListingPage × RefMinter String) → ToolAnswer × RefMinter String
  | .ok (page, minter) => (.ok page.text, minter)
  | .error err => (.error (.listing err), minter)

section Tools

variable (g : Graph) (apiKeyId : String) (e : ToolExec)

/-- The answer, once the version is known. -/
def GraphQuery.answer (v : String) (minter : RefMinter String) :
    GraphQuery → ToolAnswer × RefMinter String
  | resolveModel model profileName fromModule =>
      (.ok (g.resolveModel e.orders model v profileName fromModule), minter)
  | resolveField model field profileName fromModule =>
      (.ok (g.resolveField e.orders model field v profileName fromModule), minter)
  | resolveMethod model name profileName =>
      (.ok (g.resolveMethod e.orders model name v profileName), minter)
  | resolveView xmlid profileName => (.ok (g.resolveView e.orders xmlid v profileName), minter)
  | describeModule name profileName =>
      (.ok (g.describeModule e.orders name v profileName), minter)
  | list call =>
      match call.listing g v with
      | none => (.ok "", minter)
      | some l =>
          answerOfPage minter (l.page { e with order := e.orders.order 0 _, minter, apiKeyId }
            call.limit call.startIndex)

/-- `_resolve_version(odoo_version, session)`; `none` where it raises. -/
def resolveVersion (odooVersion : String) (s : SessionWorld) : Option String × SessionWorld :=
  match (SessionProg.resolveVersion (some odooVersion) apiKeyId
      (g.latestVersion e.orders)).runWith SessionStatement.effect e.inputs s with
  | (.version v, s) => (some v, s)
  | (_, s) => (none, s)

def Inspection.answer (odooVersion : String) (w : KeyWorld) : Inspection → ToolAnswer × KeyWorld
  | text t => (.ok t, w)
  | format template name =>
      ((match e.format template name with | some t => .ok t | none => .error .format), w)
  | query q =>
      match resolveVersion g apiKeyId e odooVersion w.session with
      | (none, session) => (.error .version, { w with session })
      | (some v, session) =>
          let (answer, minter) := q.answer g apiKeyId e v w.minter
          (answer, { session, minter })

/-- A call of a reading tool. -/
def ReadCall.answer (call : ReadCall) (w : KeyWorld) : Option (ToolAnswer × KeyWorld) :=
  call.inspection.map fun inspection => inspection.answer g apiKeyId e call.odooVersion w

/-- A set in the session of the key. -/
def setActive (column : SessionColumn) (done failed : String) (w : KeyWorld) :
    ToolAnswer × KeyWorld :=
  match (SessionProg.setActive apiKeyId column).runWith SessionStatement.effect e.inputs
      w.session with
  | (.written, session) => (.ok done, { w with session })
  | (_, session) => (.ok failed, { w with session })

/-- The names, or what is said where there are none. -/
def hintLine (label : String) (names : List String) (none : String) : String :=
  if names = [] then none else s!"{label}: " ++ ", ".intercalate names

/-- `set_active_version(odoo_version)` -/
def setActiveVersion (odooVersion : String) (w : KeyWorld) : ToolAnswer × KeyWorld :=
  match SessionProg.normalizeVersionArg (some odooVersion) with
  | none =>
      (.ok <| "\n".intercalate
        [s!"Error: '{odooVersion}' is a sentinel placeholder, not a real version.",
          "Pass a concrete version like '17.0' or '16.0'.",
          "Use list_available_versions() to see what is indexed."], w)
  | some v =>
      if v ∉ g.modules.keys.map (·.odooVersion) then
        (.ok <| "\n".intercalate
          [s!"Error: version '{v}' is not indexed in this knowledge base.",
            "├─ " ++ hintLine "Indexed versions" (g.indexedVersions e.orders)
              "No versions indexed yet — run the indexer first.",
            "└─ Use list_available_versions() to see what is available."], w)
      else
        setActive apiKeyId e (.odooVersion v)
          (s!"Active version set to '{v}' for this API key (TTL 24h).\n" ++
            "Subsequent tool calls that omit odoo_version= will resolve to this version.")
          s!"Error persisting session version: {e.raised}" w

/-- The receipt of `set_active_profile`. -/
def profileReceipt : Option String → String
  | none => "Active profile cleared for this API key.\n" ++
      "Subsequent tool calls will query across all profiles."
  | some p => s!"Active profile set to '{p}' for this API key (TTL 24h).\n" ++
      "Subsequent tool calls that omit profile_name= will filter to this profile."

/-- Why a profile is not pinned, if there is a reason. -/
def profileRefusal : Option String → Option String
  | none => none
  | some p =>
      match e.profiles with
      | .error exc => some s!"Error checking profiles: {exc}"
      | .ok names =>
          if p ∈ names then none
          else
            let available := if e.unlisted then [] else e.orders.ordered 0 id names
            some <| "\n".intercalate
              [s!"Error: profile '{p}' is not registered.",
                "├─ " ++ hintLine "Registered profiles" available
                  "No profiles registered yet — use the admin UI or manager CLI.",
                "└─ Use list_available_profiles() to see what is available."]

/-- `set_active_profile(profile_name)` -/
def setActiveProfile (profileName : Option String) (w : KeyWorld) : ToolAnswer × KeyWorld :=
  match profileRefusal e profileName with
  | some text => (.ok text, w)
  | none =>
      setActive apiKeyId e (.profileName profileName) (profileReceipt profileName)
        s!"Error persisting session profile: {e.raised}" w

end Tools

/-! ## Runs -/

inductive ToolCall where
  | setActiveVersion (odooVersion : String)
  | setActiveProfile (profileName : Option String)
  | read (call : ReadCall)
deriving DecidableEq

def ToolCall.answer (g : Graph) (apiKeyId : String) (e : ToolExec) (call : ToolCall)
    (w : KeyWorld) : Option (ToolAnswer × KeyWorld) :=
  match call with
  | .setActiveVersion v => some (OdooSemantic.setActiveVersion g apiKeyId e v w)
  | .setActiveProfile p => some (OdooSemantic.setActiveProfile apiKeyId e p w)
  | .read call => call.answer g apiKeyId e w

/-- A call that has been answered. -/
structure Served where
  call : ToolCall
  exec : ToolExec
  before : KeyWorld
  answer : ToolAnswer
  /-- `NOW()`, behind it. -/
  finished : Nat

/-- What a key has called so far, newest first. -/
structure KeySession where
  world : KeyWorld
  log : List Served := []

inductive KeyAct where
  /-- Time goes by. -/
  | wait (x : SessionInput)
  | call (e : ToolExec) (call : ToolCall)

/-- One call after the other. -/
def KeySession.step (g : Graph) (apiKeyId : String) (s : KeySession) :
    KeyAct → Option KeySession
  | .wait x => some { s with world.session := s.world.session.advance x }
  | .call e call =>
      (call.answer g apiKeyId e s.world).map fun r =>
        { world := r.2
          log := ⟨call, e, s.world, r.1, r.2.session.wall⟩ :: s.log }

end OdooSemantic
