import OdooSemantic.Mcp.Tools

/-!
# The active profile

`set_active_profile` writes the profile of a key into its session and says that the calls that omit
`profile_name=` will filter to it. But the session is read for the version only: a call that omits
`profile_name=` does not filter at all.

So such a call has the answer it would have with the active profile only where a filter by that
profile would keep all that its queries match (`active_profile_honoured`).
-/

namespace OdooSemantic

open KeyedStore Paging Threads

/-! ## What the active profile is -/

/-- The profile that a call has set, if it is a `set_active_profile` that has succeeded. -/
def Served.profileSet (s : Served) : Option (Option String) :=
  match s.call with
  | .setActiveProfile p => if s.answer = .ok (profileReceipt p) then some p else none
  | _ => none

/-- The profile that was set last and has not been cleared, for 24 hours. -/
def activeProfile (log : List Served) (now : Nat) : Option String :=
  (log.findSome? fun s => s.profileSet.map fun p => (p, s.finished)).bind fun set =>
    set.1.filter fun _ => now < set.2 + sessionTtl

section Statements

variable (g : Graph) (apiKeyId : String)

/-- A reading call that omits the profile has the answer of the call with the active one. -/
def Served.Honours (s : Served) (older : List Served) : Prop :=
  ∀ call p, s.call = .read call → call.profileName = none →
    activeProfile older s.before.session.wall = some p →
    ((call.withProfile (some p)).answer g apiKeyId s.exec s.before).map (·.1) = some s.answer

/-- **The active profile is honoured.** -/
def ProfileHonoured : List Served → Prop
  | [] => True
  | s :: older => s.Honours g apiKeyId older ∧ ProfileHonoured older

/-- The fields that are listed, and those that the magic fields are held against. -/
def Graph.fieldsAsked (model v : String) (module kind : Option String) (startIndex : Int) :
    List (MemberKey × FieldProps) :=
  g.fieldsOf model v module kind none ++
    if startIndex = 0 ∧ module = none then g.fieldsOf model v none none none else []

/-- The profiles of the nodes that a query matches where no profile is asked for. -/
def InspectCall.asked (v : String) : InspectCall → List (Option (List String))
  | model args =>
      if args.method = "fields" then
        (g.fieldsAsked args.model v args.fromModule args.kind args.startIndex).map (·.2.profile)
      else if args.method = "methods" then
        (g.methodsOf args.model v none none).map (·.2.profile)
      else if args.method = "views" then
        (g.viewsOf args.model none v args.viewType none).map (·.profile)
      else []
  | module args =>
      if args.method = "views" then (g.viewsOf none args.name v args.viewType none).map (·.profile)
      else if args.method = "owl" then
        if Graph.isWidgetEra v then []
        else (g.owlCompsOf args.name v args.boundModel none).map (·.2.profile)
      else if args.method = "qweb" then (g.qwebsOf args.name v none).map (·.profile)
      else if args.method = "js" then
        (g.jsPatchesOf v args.target args.name (args.era.bind Graph.eraFilter) none).map (·.2.profile)
      else []

def GraphQuery.asked (v : String) : GraphQuery → List (Option (List String))
  | resolveModel model _ fromModule => (g.layersOf model v none fromModule).map (·.1.2.profile)
  | resolveField model field _ fromModule =>
      (g.fieldNamed model field v none fromModule).map (·.2.profile)
  | resolveMethod model name _ => (g.methodNamed model name v none).map (·.2.profile)
  | resolveView xmlid _ =>
      (g.viewNamed xmlid v none).map (·.profile) ++
        if g.viewNamed xmlid v none = [] then []
        else (g.extensionsOf xmlid v none).map (·.profile)
  | describeModule name _ =>
      match g.moduleNamed name v none with
      | none => []
      | some mod =>
          mod.profile :: (g.modelsIn name v true none ++ g.modelsIn name v false none).map
            (·.2.profile) ++ (g.viewsIn name v none).map (·.profile) ++
            (g.patchesIn name v none).map (·.2.profile)
  | list call => call.asked g v

/-- All that the queries of the call match, without a profile, is in this one. -/
def ReadCall.Within (call : ReadCall) (e : ToolExec) (s : SessionWorld) (p : String) : Prop :=
  ∀ q v, call.inspection = some (.query q) →
    (resolveVersion g apiKeyId e call.odooVersion s).1 = some v →
    ∀ profile ∈ q.asked g v, inProfile (some p) profile = true

/-- A reading call that omits the profile matches nothing outside of the active one. -/
def MatchesWithin (s : KeySession) : KeyAct → Prop
  | .call e (.read call) => call.profileName = none →
      ∀ p, activeProfile s.log s.world.session.wall = some p →
        call.Within g apiKeyId e s.world.session p
  | _ => True

end Statements

/-! ## Where a filter changes nothing -/

section Filters

variable {g : Graph} {p : String}

/-- A filter that keeps all there is. -/
theorem filter_inProfile {A : Type} {xs : List A} {keep keep' : A → Bool}
    {profile : A → Option (List String)}
    (hkeep : ∀ a, keep' a = (keep a && inProfile (some p) (profile a)))
    (h : ∀ o ∈ (xs.filter keep).map profile, inProfile (some p) o = true) :
    xs.filter keep' = xs.filter keep := by
  refine List.filter_congr fun a ha => ?_
  rw [hkeep a]
  cases hk : keep a with
  | false => rfl
  | true => exact h _ (List.mem_map_of_mem (List.mem_filter.mpr ⟨ha, hk⟩))

@[simp] theorem inProfile_none (profile : Option (List String)) : inProfile none profile = true := rfl

theorem layersOf_within {model v : String} {fromModule : Option String}
    (h : ∀ o ∈ (g.layersOf model v none fromModule).map (·.1.2.profile), inProfile (some p) o = true) :
    g.layersOf model v (some p) fromModule = g.layersOf model v none fromModule :=
  filter_inProfile (fun l => by rw [inProfile_none, Bool.and_true]; ac_rfl) h

theorem fieldNamed_within {model name v : String} {fromModule : Option String}
    (h : ∀ o ∈ (g.fieldNamed model name v none fromModule).map (·.2.profile),
      inProfile (some p) o = true) :
    g.fieldNamed model name v (some p) fromModule = g.fieldNamed model name v none fromModule :=
  filter_inProfile (fun f => by rw [inProfile_none, Bool.and_true]; ac_rfl) h

theorem methodNamed_within {model name v : String}
    (h : ∀ o ∈ (g.methodNamed model name v none).map (·.2.profile), inProfile (some p) o = true) :
    g.methodNamed model name v (some p) = g.methodNamed model name v none :=
  filter_inProfile (fun m => by rw [inProfile_none, Bool.and_true]) h

theorem viewNamed_within {xmlid v : String}
    (h : ∀ o ∈ (g.viewNamed xmlid v none).map (·.profile), inProfile (some p) o = true) :
    g.viewNamed xmlid v (some p) = g.viewNamed xmlid v none :=
  filter_inProfile (fun n => by rw [inProfile_none, Bool.and_true]) h

theorem extensionsOf_within {xmlid v : String}
    (h : ∀ o ∈ (g.extensionsOf xmlid v none).map (·.profile), inProfile (some p) o = true) :
    g.extensionsOf xmlid v (some p) = g.extensionsOf xmlid v none :=
  filter_inProfile (fun n => by rw [inProfile_none, Bool.and_true]) h

theorem modelsIn_within {name v : String} {defined : Bool}
    (h : ∀ o ∈ (g.modelsIn name v defined none).map (·.2.profile), inProfile (some p) o = true) :
    g.modelsIn name v defined (some p) = g.modelsIn name v defined none :=
  filter_inProfile (fun m => by rw [inProfile_none, Bool.and_true]) h

theorem viewsIn_within {name v : String}
    (h : ∀ o ∈ (g.viewsIn name v none).map (·.profile), inProfile (some p) o = true) :
    g.viewsIn name v (some p) = g.viewsIn name v none :=
  filter_inProfile (fun n => by rw [inProfile_none, Bool.and_true]) h

theorem patchesIn_within {name v : String}
    (h : ∀ o ∈ (g.patchesIn name v none).map (·.2.profile), inProfile (some p) o = true) :
    g.patchesIn name v (some p) = g.patchesIn name v none :=
  filter_inProfile (fun j => by rw [inProfile_none, Bool.and_true]) h

theorem fieldsOf_within {model v : String} {module kind : Option String}
    (h : ∀ o ∈ (g.fieldsOf model v module kind none).map (·.2.profile),
      inProfile (some p) o = true) :
    g.fieldsOf model v module kind (some p) = g.fieldsOf model v module kind none :=
  filter_inProfile (fun f => by rw [inProfile_none, Bool.and_true]; ac_rfl) h

theorem methodsOf_within {model v : String} {module : Option String}
    (h : ∀ o ∈ (g.methodsOf model v module none).map (·.2.profile), inProfile (some p) o = true) :
    g.methodsOf model v module (some p) = g.methodsOf model v module none :=
  filter_inProfile (fun m => by rw [inProfile_none, Bool.and_true]; ac_rfl) h

theorem viewsOf_within {model module : Option String} {v : String} {viewType : Option String}
    (h : ∀ o ∈ (g.viewsOf model module v viewType none).map (·.profile),
      inProfile (some p) o = true) :
    g.viewsOf model module v viewType (some p) = g.viewsOf model module v viewType none :=
  filter_inProfile (fun n => by rw [inProfile_none, Bool.and_true]; ac_rfl) h

theorem owlCompsOf_within {module v : String} {boundModel : Option String}
    (h : ∀ o ∈ (g.owlCompsOf module v boundModel none).map (·.2.profile),
      inProfile (some p) o = true) :
    g.owlCompsOf module v boundModel (some p) = g.owlCompsOf module v boundModel none :=
  filter_inProfile (fun c => by rw [inProfile_none, Bool.and_true]; ac_rfl) h

theorem qwebsOf_within {module v : String}
    (h : ∀ o ∈ (g.qwebsOf module v none).map (·.profile), inProfile (some p) o = true) :
    g.qwebsOf module v (some p) = g.qwebsOf module v none :=
  filter_inProfile (fun t => by rw [inProfile_none, Bool.and_true]; ac_rfl) h

theorem jsPatchesOf_within {v : String} {target module era : Option String}
    (h : ∀ o ∈ (g.jsPatchesOf v target module era none).map (·.2.profile),
      inProfile (some p) o = true) :
    g.jsPatchesOf v target module era (some p) = g.jsPatchesOf v target module era none :=
  filter_inProfile (fun j => by rw [inProfile_none, Bool.and_true]; ac_rfl) h

theorem moduleNamed_within {name v : String} {mod : ModuleProps}
    (hmod : g.moduleNamed name v none = some mod) (h : inProfile (some p) mod.profile = true) :
    g.moduleNamed name v (some p) = some mod := by
  have hlookup := (Option.filter_eq_some_iff.mp hmod).1
  exact Option.filter_eq_some_iff.mpr ⟨hlookup, h⟩

theorem magicPrelude_within {model v : String} {module kind : Option String} {startIndex : Int}
    (h : startIndex = 0 ∧ module = none → ∀ o ∈ (g.fieldsOf model v none none none).map
      (·.2.profile), inProfile (some p) o = true) :
    g.magicPrelude model v module kind (some p) startIndex =
      g.magicPrelude model v module kind none startIndex := by
  unfold Graph.magicPrelude
  by_cases hfirst : startIndex = 0 ∧ module = none
  · rw [if_pos hfirst, if_pos hfirst, fieldsOf_within (h hfirst)]
  · rw [if_neg hfirst, if_neg hfirst]

end Filters

/-! ## The answers -/

/-- The same query, with another profile. -/
def GraphQuery.withProfile (profileName : Option String) : GraphQuery → GraphQuery
  | resolveModel model _ fromModule => resolveModel model profileName fromModule
  | resolveField model field _ fromModule => resolveField model field profileName fromModule
  | resolveMethod model name _ => resolveMethod model name profileName
  | resolveView xmlid _ => resolveView xmlid profileName
  | describeModule name _ => describeModule name profileName
  | list call => list (call.withProfile profileName)

def Inspection.withProfile (profileName : Option String) : Inspection → Inspection
  | text t => text t
  | format template name => format template name
  | query q => query (q.withProfile profileName)

section Answers

variable {g : Graph} {p : String} {apiKeyId : String} {e : ToolExec} {v : String}

/-- Where there are no components yet, nothing is asked. -/
theorem owl_page_of_era (hera : Graph.isWidgetEra v = true) (module : String)
    (boundModel o o' : Option String) (x : ListingExec) (limit startIndex : Int) :
    (g.listOwlComponents module v boundModel o).page x limit startIndex =
      (g.listOwlComponents module v boundModel o').page x limit startIndex := by
  unfold Listing.page
  simp only [Graph.listOwlComponents, hera, if_true]

theorem listFields_within {model : String} {module kind : Option String} {startIndex : Int}
    (h : ∀ o ∈ (g.fieldsAsked model v module kind startIndex).map (·.2.profile),
      inProfile (some p) o = true) :
    g.listFields model v module kind (some p) startIndex =
      g.listFields model v module kind none startIndex := by
  unfold Graph.fieldsAsked at h
  rw [List.map_append] at h
  have hrows := fieldsOf_within fun o ho => h o (List.mem_append_left _ ho)
  have hmagic : g.magicPrelude model v module kind (some p) startIndex =
      g.magicPrelude model v module kind none startIndex := by
    refine magicPrelude_within fun hfirst o ho => h o (List.mem_append_right _ ?_)
    rw [if_pos hfirst]
    exact ho
  unfold Graph.listFields
  rw [hrows, hmagic]

theorem modelListing_within {args : ModelInspect}
    (h : ∀ o ∈ (InspectCall.model args).asked g v, inProfile (some p) o = true) :
    ModelInspect.listing g v { args with profileName := some p } =
      ModelInspect.listing g v { args with profileName := none } := by
  unfold ModelInspect.listing
  unfold InspectCall.asked at h
  dsimp only at h ⊢
  split_ifs at h ⊢ with hfields hmethods hviews
  · rw [listFields_within h]
  · unfold Graph.listMethods Graph.overrideNames
    rw [methodsOf_within h]
  · unfold Graph.listViews Graph.listViewsCore
    rw [viewsOf_within h]
  · rfl

/-- The listings of a module, and the one that may refuse before it asks the database. -/
theorem moduleListing_within {args : ModuleInspect}
    (h : ∀ o ∈ (InspectCall.module args).asked g v, inProfile (some p) o = true) :
    (args.method = "owl" ∧ Graph.isWidgetEra v = true) ∨
      ModuleInspect.listing g v { args with profileName := some p } =
        ModuleInspect.listing g v { args with profileName := none } := by
  by_cases hera : args.method = "owl" ∧ Graph.isWidgetEra v = true
  · exact Or.inl hera
  apply Or.inr
  unfold ModuleInspect.listing
  unfold InspectCall.asked at h
  dsimp only at h ⊢
  split_ifs at h ⊢ with hviews howl hwidget hqweb hjs
  · unfold Graph.listViewsByModule Graph.listViewsCore
    rw [viewsOf_within h]
  · exact absurd ⟨howl, hwidget⟩ hera
  · unfold Graph.listOwlComponents
    rw [owlCompsOf_within h]
  · unfold Graph.listQwebTemplates
    rw [qwebsOf_within h]
  · unfold Graph.listJsPatches
    rw [jsPatchesOf_within h]
  · rfl

theorem list_within {call : InspectCall} {minter : RefMinter String}
    (h : ∀ o ∈ call.asked g v, inProfile (some p) o = true) :
    (GraphQuery.list (call.withProfile (some p))).answer g apiKeyId e v minter =
      (GraphQuery.list (call.withProfile none)).answer g apiKeyId e v minter := by
  cases call with
  | model args =>
    have hlisting : (InspectCall.withProfile (some p) (.model args)).listing g v =
        (InspectCall.withProfile none (.model args)).listing g v := modelListing_within h
    simp only [GraphQuery.answer, hlisting]
    rfl
  | module args =>
    cases moduleListing_within h with
    | inl hera =>
      have hlisting : ∀ o, (InspectCall.withProfile o (.module args)).listing g v =
          some (g.listOwlComponents args.name v args.boundModel o) := fun o => by
        simp [InspectCall.withProfile, InspectCall.listing, ModuleInspect.listing, hera.1]
      simp only [GraphQuery.answer, hlisting]
      exact congrArg (answerOfPage minter) (owl_page_of_era hera.2 _ _ _ _ _ _ _)
    | inr hlisting =>
      have hlisting : (InspectCall.withProfile (some p) (.module args)).listing g v =
        (InspectCall.withProfile none (.module args)).listing g v := hlisting
      simp only [GraphQuery.answer, hlisting]
      rfl

theorem unordered_nil {R : Type} (q : QueryOrders) (query : Nat) :
    q.unordered query ([] : List R) = [] := rfl

theorem describeModule_within {name : String}
    (h : ∀ o ∈ (GraphQuery.describeModule name none).asked g v, inProfile (some p) o = true) :
    g.describeModule e.orders name v (some p) = g.describeModule e.orders name v none := by
  unfold Graph.describeModule
  simp only [GraphQuery.asked] at h
  cases hmod : g.moduleNamed name v none with
  | none =>
    have hnone : g.moduleNamed name v (some p) = none := by
      unfold Graph.moduleNamed at hmod ⊢
      rw [Option.filter_eq_none_iff] at hmod ⊢
      intro m hm
      exact absurd rfl (hmod m hm)
    rw [hnone]
  | some mod =>
    rw [hmod] at h
    simp only [List.map_append, List.mem_append, List.mem_cons] at h
    have hmodels : ∀ defined, g.modelsIn name v defined (some p) = g.modelsIn name v defined none := by
      intro defined
      refine modelsIn_within fun o ho => h o ?_
      cases defined with
      | true => exact Or.inl (Or.inl (Or.inr (Or.inl ho)))
      | false => exact Or.inl (Or.inl (Or.inr (Or.inr ho)))
    rw [moduleNamed_within hmod (h _ (Or.inl (Or.inl (Or.inl rfl))))]
    simp only [hmodels, viewsIn_within fun o ho => h o (Or.inl (Or.inr ho)),
      patchesIn_within fun o ho => h o (Or.inr ho)]

theorem resolveView_within {xmlid : String}
    (h : ∀ o ∈ (GraphQuery.resolveView xmlid none).asked g v, inProfile (some p) o = true) :
    g.resolveView e.orders xmlid v (some p) = g.resolveView e.orders xmlid v none := by
  simp only [GraphQuery.asked] at h
  have hviews := viewNamed_within fun o ho => h o (List.mem_append_left _ ho)
  unfold Graph.resolveView
  rw [hviews]
  by_cases hempty : g.viewNamed xmlid v none = []
  · rw [hempty]
    dsimp only
    rw [List.flatMap_nil, unordered_nil]
  · rw [if_neg hempty] at h
    rw [extensionsOf_within fun o ho => h o (List.mem_append_right _ ho)]

/-- **A profile that all that is matched is in makes no difference.** -/
theorem answer_within {q : GraphQuery} {minter : RefMinter String}
    (h : ∀ o ∈ q.asked g v, inProfile (some p) o = true) :
    (q.withProfile (some p)).answer g apiKeyId e v minter =
      (q.withProfile none).answer g apiKeyId e v minter := by
  cases q with
  | resolveModel model o fromModule =>
    have hlayers := layersOf_within h
    simp only [GraphQuery.withProfile, GraphQuery.answer, Graph.resolveModel, hlayers]
  | resolveField model field o fromModule =>
    have hfields := fieldNamed_within h
    simp only [GraphQuery.withProfile, GraphQuery.answer, Graph.resolveField, hfields]
  | resolveMethod model name o =>
    have hmethods := methodNamed_within h
    simp only [GraphQuery.withProfile, GraphQuery.answer, Graph.resolveMethod, hmethods]
  | resolveView xmlid o =>
    simp only [GraphQuery.withProfile, GraphQuery.answer, resolveView_within h]
  | describeModule name o =>
    simp only [GraphQuery.withProfile, GraphQuery.answer, describeModule_within h]
  | list call => exact list_within h

end Answers

/-! ## Calls -/

theorem required_withProfile {value : Option String} {error : String} {next next' : String → Inspection}
    {o : Option String} (h : ∀ x, next' x = (next x).withProfile o) :
    required value error next' = (required value error next).withProfile o := by
  unfold required
  cases valueOrNone value with
  | none => rfl
  | some x => exact h x

theorem modelInspection_withProfile (args : ModelInspect) (o : Option String) :
    ModelInspect.inspection { args with profileName := o } = args.inspection.withProfile o := by
  unfold ModelInspect.inspection
  dsimp only
  split_ifs with hmethod hsummary hfield hname
  · rfl
  · exact required_withProfile fun field => rfl
  · exact required_withProfile fun name => rfl
  · rfl
  · rfl

theorem moduleInspection_withProfile (args : ModuleInspect) (o : Option String) :
    ModuleInspect.inspection { args with profileName := o } = args.inspection.withProfile o := by
  unfold ModuleInspect.inspection
  dsimp only
  split_ifs with hmethod hsummary hstub hjs
  · rfl
  · rfl
  · have hrefusal : (Graph.listJsPatches {} "" args.name args.target args.era o).refusal =
        (Graph.listJsPatches {} "" args.name args.target args.era args.profileName).refusal := rfl
    rw [hrefusal]
    split <;> rfl
  · rfl
  · rfl

theorem lookupInspection_withProfile (args : EntityLookup) (o : Option String) :
    EntityLookup.inspection { args with profileName := o } =
      args.inspection.map (Inspection.withProfile o) := by
  unfold EntityLookup.inspection
  dsimp only
  split_ifs with hkind hmodel hfield hmethod hview hmodule
  · exact congrArg some (required_withProfile fun m => rfl)
  · refine congrArg some (required_withProfile fun m => ?_)
    exact required_withProfile fun field => rfl
  · refine congrArg some (required_withProfile fun m => ?_)
    exact required_withProfile fun name => rfl
  · exact congrArg some (required_withProfile fun xmlid => rfl)
  · exact congrArg some (required_withProfile fun name => rfl)
  · split <;> rfl
  · rfl

/-- The profile goes on with the call, wherever it goes. -/
theorem inspection_withProfile (call : ReadCall) (o : Option String) :
    (call.withProfile o).inspection = call.inspection.map (Inspection.withProfile o) := by
  cases call with
  | inspect call =>
    cases call with
    | model args => exact congrArg some (modelInspection_withProfile args o)
    | module args => exact congrArg some (moduleInspection_withProfile args o)
  | lookup args => exact lookupInspection_withProfile args o

theorem withProfile_self (call : ReadCall) : call.withProfile call.profileName = call := by
  cases call with
  | inspect call => cases call <;> rfl
  | lookup args => rfl

theorem odooVersion_withProfile (call : ReadCall) (o : Option String) :
    (call.withProfile o).odooVersion = call.odooVersion := by
  cases call with
  | inspect call => cases call <;> rfl
  | lookup args => rfl

section Runs

variable {g : Graph} {apiKeyId : String}

/-- A call that matches nothing outside of a profile has the answer of the call with it. -/
theorem answer_withProfile {call : ReadCall} {e : ToolExec} {w : KeyWorld} {p : String}
    (hnone : call.profileName = none) (h : call.Within g apiKeyId e w.session p) :
    (call.withProfile (some p)).answer g apiKeyId e w = call.answer g apiKeyId e w := by
  have hself : call.inspection = call.inspection.map (Inspection.withProfile none) := by
    rw [← inspection_withProfile, ← hnone, withProfile_self]
  unfold ReadCall.answer
  rw [odooVersion_withProfile, inspection_withProfile]
  cases hinspection : call.inspection with
  | none => rfl
  | some inspection =>
    rw [hinspection] at hself
    rw [Option.map_some, Option.map_some, Option.map_some]
    rw [Option.map_some, Option.some.injEq] at hself
    rw [Option.some.injEq]
    cases inspection with
    | text t => rfl
    | format template name => rfl
    | query q =>
      have hq : q = q.withProfile none := Inspection.query.inj hself
      rw [Inspection.withProfile]
      unfold Inspection.answer
      dsimp only
      cases hversion : resolveVersion g apiKeyId e call.odooVersion w.session with
      | mk version session =>
        cases version with
        | none => rfl
        | some v =>
          have hasked := h q v hinspection (by rw [hversion])
          dsimp only
          rw [answer_within hasked, ← hq]

/-- One call more. -/
theorem honoured_step {s s' : KeySession} {a : KeyAct} (hstep : s.step g apiKeyId a = some s')
    (hwithin : MatchesWithin g apiKeyId s a) (h : ProfileHonoured g apiKeyId s.log) :
    ProfileHonoured g apiKeyId s'.log := by
  cases a with
  | wait x =>
    obtain rfl := Option.some.inj hstep
    exact h
  | call e call =>
    obtain ⟨r, hanswer, rfl⟩ := Option.map_eq_some_iff.mp hstep
    refine ⟨fun read p hread hnone hactive => ?_, h⟩
    dsimp only at hread hactive ⊢
    subst hread
    have hsame := answer_withProfile hnone (hwithin hnone p hactive)
    rw [hsame]
    exact congrArg (Option.map (·.1)) hanswer

/-- **The active profile is honoured by the calls that match nothing outside of it.** In every run
of calls of a key, whatever they are and however much time goes by between them: if each reading
call that omits the profile while one is active matches only what is in that profile, each has the
answer of the call with it. -/
theorem active_profile_honoured {world : KeyWorld} {acts : List KeyAct} {s : KeySession}
    (h : Machine.Runs (KeySession.step g apiKeyId) (MatchesWithin g apiKeyId) { world } acts s) :
    ProfileHonoured g apiKeyId s.log :=
  h.invariant (fun _ _ _ => honoured_step) trivial

end Runs

namespace OneField

/-- A model with one field, which is indexed for this profile. -/
def graph (profile : String) : Graph where
  fields := AList.singleton ⟨"vat", "res.partner", "base", "17.0"⟩
    { ttype := "char", related := none, compute := none, stored := true, required := false,
      comodelName := none, profile := some [profile] }

def exec : ToolExec where
  orders := { shuffle := fun _ _ => Equiv.refl _ }
  py := { str := some, hash := fun _ => 0 }
  oid := fun n => n
  ttl := 3600
  now := 0
  format := fun template name => some (template.replace "\x7bname\x7d" name)
  inputs := fun _ => {}
  profiles := .ok ["odoo_17", "viindoo_17"]
  unlisted := false
  raised := ""

def read : ReadCall :=
  .inspect (.model { model := "res.partner", method := "field", field := some "vat",
                     odooVersion := "17.0" })

/-- The profile is set, and the field asked for. -/
def acts : List KeyAct := [.call exec (.setActiveProfile (some "odoo_17")), .call exec (.read read)]

def start : KeySession := { world := { session := {} } }

/-- What there is behind the set, and what the read is answered then. -/
def pinned : KeySession :=
  let r := setActiveProfile "1" exec (some "odoo_17") start.world
  { world := r.2
    log := [⟨.setActiveProfile (some "odoo_17"), exec, start.world, r.1, r.2.session.wall⟩] }

def answered (profile : String) : Option (ToolAnswer × KeyWorld) :=
  read.answer (graph profile) "1" exec pinned.world

theorem active_pinned : activeProfile pinned.log pinned.world.session.wall = some "odoo_17" := by
  decide +kernel

/-- The set and the read, where the read has this answer. -/
theorem runs_acts {profile : String} {r : ToolAnswer × KeyWorld} (h : answered profile = some r)
    {ok : KeySession → KeyAct → Prop} (hset : ok start (.call exec (.setActiveProfile (some "odoo_17"))))
    (hread : ok pinned (.call exec (.read read))) :
    Machine.Runs (KeySession.step (graph profile) "1") ok start acts
      { world := r.2
        log := ⟨.read read, exec, pinned.world, r.1, r.2.session.wall⟩ :: pinned.log } := by
  have hsets : KeySession.step (graph profile) "1" start
      (.call exec (.setActiveProfile (some "odoo_17"))) = some pinned := rfl
  refine .cons hsets hset (.cons ?_ hread (.nil _))
  unfold KeySession.step ToolCall.answer
  dsimp only
  unfold answered at h
  rw [h, Option.map_some]

/-- In the profile that is set, the field is found either way. -/
theorem active_profile_within : ∃ s : KeySession,
    Machine.Runs (KeySession.step (graph "odoo_17") "1") (MatchesWithin (graph "odoo_17") "1") start
      acts s ∧ s.log.length = 2 ∧ ProfileHonoured (graph "odoo_17") "1" s.log := by
  obtain ⟨r, hr⟩ : ∃ r, answered "odoo_17" = some r := ⟨_, rfl⟩
  have hread : MatchesWithin (graph "odoo_17") "1" pinned (.call exec (.read read)) := by
    intro _ p hactive q v hq hv
    rw [active_pinned] at hactive
    obtain rfl := Option.some.inj hactive
    obtain rfl := Inspection.query.inj (Option.some.inj hq)
    have hversion : (resolveVersion (graph "odoo_17") "1" exec "17.0" pinned.world.session).1 =
        some "17.0" := by decide +kernel
    obtain rfl := Option.some.inj (hversion.symm.trans hv)
    decide
  have hrun := runs_acts hr trivial hread
  exact ⟨_, hrun, rfl, active_profile_honoured hrun⟩

def size (r : Option (ToolAnswer × KeyWorld)) : Option Nat :=
  (r.map (·.1)).bind fun answer => answer.toOption.map (·.utf8ByteSize)

/-- The field is one answer, that there is no such field another one. -/
theorem size_ne : size (answered "viindoo_17") ≠
    size ((read.withProfile (some "odoo_17")).answer (graph "viindoo_17") "1" exec pinned.world) := by
  decide +kernel

/-- **The profile is set, and the field of another one is shown.** -/
theorem active_profile_ignored : ¬∀ (g : Graph) (apiKeyId : String) (world : KeyWorld)
    (acts : List KeyAct) (s : KeySession),
    Machine.Runs (KeySession.step g apiKeyId) (fun _ _ => True) { world } acts s →
      ProfileHonoured g apiKeyId s.log := by
  intro h
  obtain ⟨r, hr⟩ : ∃ r, answered "viindoo_17" = some r := ⟨_, rfl⟩
  have hlog := (h _ _ _ _ _ (runs_acts hr trivial trivial)).1
  have hhonours : ((read.withProfile (some "odoo_17")).answer (graph "viindoo_17") "1" exec
      pinned.world).map (·.1) = some r.1 := hlog read "odoo_17" rfl rfl active_pinned
  apply size_ne
  unfold size
  rw [hhonours, hr]
  rfl

end OneField

end OdooSemantic
