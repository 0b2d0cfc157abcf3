import Mathlib.Data.List.Induction
import OdooSemantic.Indexer.ModelNodes
import OdooSemantic.Indexer.ParserPython
import OdooSemantic.Lib.Folds

/-!
# The flags of a model

A model is declared by several classes of a module, and what they are written in has no meaning. Two
flags of its node are ored and so do not depend on the order; the other two are those of the last
declaration (`flagsAfter_eq`), so they do unless all declarations have the same
(`flags_order_free_iff`).
-/

namespace OdooSemantic

open KeyedStore CodeStmt

/-! ## What a class says -/

/-- The assignments to names in the body, in order. -/
def ClassStmt.assignments : ClassStmt → List (String × PyNode)
  | .assign targets value => targets.filterMap fun target =>
      match target with
      | .name id => some (id, value)
      | _ => none
  | _ => []

namespace ClassDef

/-- What the last assignment to the name says, of those that say something. -/
def lastAssigned {β : Type} (c : ClassDef) (attr : String) (read : PyNode → Option β) : Option β :=
  (c.body.flatMap ClassStmt.assignments).reverse.findSome? fun a =>
    if a.1 = attr then read a.2 else none

/-- `_name`, where it is a text. -/
def explicitName (c : ClassDef) : Option String :=
  truthy ((c.lastAssigned "_name" fun value => some value.extractString).getD none)

/-- `_inherit`, as a list. -/
def inheritList (c : ClassDef) : List String :=
  (c.lastAssigned "_inherit" fun value => some value.extractInherit).getD []

/-- `_abstract`, or what the base class says. -/
def abstractMark (c : ClassDef) : Bool :=
  (c.lastAssigned "_abstract" PyNode.constantTruth).getD ("AbstractModel" ∈ c.baseClassNames)

/-- `_transient`, or what the base class says. -/
def transientMark (c : ClassDef) : Bool :=
  (c.lastAssigned "_transient" PyNode.constantTruth).getD ("TransientModel" ∈ c.baseClassNames)

end ClassDef

section Read

variable {unparse : PyArguments → Option String} {scope : Dict String String}
  {localDefs : List String} {β : Type} {part : ClassRead → β} {attr : String}
  {read : PyNode → Option β}

/-- A variable that assignments to one name set, and nothing else. -/
structure SetBy (part : ClassRead → β) (attr : String) (read : PyNode → Option β) : Prop where
  assign : ∀ r value id, part (ClassRead.assign value r (.name id)) =
    (if id = attr then read value else none).getD (part r)
  members : ∀ (r : ClassRead) fields methods,
    part { r with fields := fields, methods := methods } = part r

theorem SetBy.targets (h : SetBy part attr read) (value : PyNode) (targets : List PyNode)
    (r : ClassRead) : part (targets.foldl (ClassRead.assign value) r) =
      ((ClassStmt.assign targets value).assignments.reverse.findSome? fun a =>
        if a.1 = attr then read a.2 else none).getD (part r) := by
  induction targets using List.reverseRecOn with
  | nil => rfl
  | append_singleton targets target ih =>
    rw [List.foldl_concat]
    have hother : (∀ id, target ≠ .name id) →
        part (ClassRead.assign value (targets.foldl (ClassRead.assign value) r) target) =
          ((ClassStmt.assign (targets ++ [target]) value).assignments.reverse.findSome? fun a =>
            if a.1 = attr then read a.2 else none).getD (part r) := by
      intro hname
      cases target with
      | name id => exact absurd rfl (hname id)
      | _ => simpa [ClassRead.assign, ClassStmt.assignments] using ih
    cases target with
    | name id =>
      rw [h.assign, ih]
      simp only [ClassStmt.assignments, List.filterMap_append, List.filterMap_cons,
        List.filterMap_nil, List.reverse_append, List.reverse_singleton, List.singleton_append,
        List.findSome?_cons]
      cases (if id = attr then read value else none) with
      | none => rfl
      | some b => rfl
    | _ => exact hother (by simp)

theorem SetBy.stmt (h : SetBy part attr read) (s : ClassStmt) (r : ClassRead) :
    part (ClassRead.stmt unparse scope localDefs r s) =
      (s.assignments.reverse.findSome? fun a => if a.1 = attr then read a.2 else none).getD
        (part r) := by
  cases s with
  | assign targets value =>
    rw [ClassRead.stmt, ← h.targets]
    exact h.members _ _ _
  | functionDef f =>
    rw [ClassRead.stmt]
    split
    · rfl
    · exact h.members _ _ _
  | other => rfl

/-- What the variable is at the end. -/
theorem SetBy.readClass (h : SetBy part attr read) (c : ClassDef) :
    part (readClass unparse scope localDefs c) =
      (c.lastAssigned attr read).getD (part
        { isAbstract := "AbstractModel" ∈ c.baseClassNames
          isTransient := "TransientModel" ∈ c.baseClassNames }) := by
  unfold OdooSemantic.readClass ClassDef.lastAssigned
  generalize ({ isAbstract := _, isTransient := _ } : ClassRead) = r
  induction c.body using List.reverseRecOn with
  | nil => rfl
  | append_singleton body s ih =>
    rw [List.foldl_concat, h.stmt, ih, List.flatMap_append, List.reverse_append,
      List.findSome?_append]
    simp only [List.flatMap_singleton]
    cases s.assignments.reverse.findSome? fun a => if a.1 = attr then read a.2 else none with
    | none => rfl
    | some b => rfl

theorem ClassRead.addColumns_eq (r : ClassRead) (value : PyNode) :
    ∃ fields columns, r.addColumns value = { r with fields := fields, hasColumnsDict := columns } := by
  cases value with
  | dict keys values => exact ⟨_, _, rfl⟩
  | _ => exact ⟨_, _, rfl⟩

/-- An assignment to another name leaves what it does not set. -/
theorem setBy_of {part : ClassRead → β}
    (hset : ∀ r value, part (ClassRead.assign value r (.name attr)) = (read value).getD (part r))
    (hkeep : ∀ r value id, id ≠ attr → part (ClassRead.assign value r (.name id)) = part r)
    (hmembers : ∀ (r : ClassRead) fields methods,
      part { r with fields := fields, methods := methods } = part r) : SetBy part attr read := by
  refine ⟨fun r value id => ?_, hmembers⟩
  by_cases hid : id = attr
  · rw [if_pos hid, hid]
    exact hset r value
  · rw [if_neg hid]
    exact hkeep r value id hid

theorem setBy_name : SetBy ClassRead.name "_name" (fun value => some value.extractString) := by
  refine setBy_of (fun r value => rfl) (fun r value id hid => ?_) fun r fields methods => rfl
  obtain ⟨fields, columns, heq⟩ := r.addColumns_eq value
  rw [ClassRead.assign, if_neg hid, heq]
  split_ifs <;> rfl

theorem setBy_inherit :
    SetBy ClassRead.inherit "_inherit" (fun value => some value.extractInherit) := by
  refine setBy_of (fun r value => rfl) (fun r value id hid => ?_) fun r fields methods => rfl
  obtain ⟨fields, columns, heq⟩ := r.addColumns_eq value
  rw [ClassRead.assign, if_neg hid, heq]
  split_ifs <;> rfl

theorem setBy_isAbstract : SetBy ClassRead.isAbstract "_abstract" PyNode.constantTruth := by
  refine setBy_of (fun r value => rfl) (fun r value id hid => ?_) fun r fields methods => rfl
  obtain ⟨fields, columns, heq⟩ := r.addColumns_eq value
  rw [ClassRead.assign, if_neg hid, heq]
  split_ifs <;> rfl

theorem setBy_isTransient : SetBy ClassRead.isTransient "_transient" PyNode.constantTruth := by
  refine setBy_of (fun r value => rfl) (fun r value id hid => ?_) fun r fields methods => rfl
  obtain ⟨fields, columns, heq⟩ := r.addColumns_eq value
  rw [ClassRead.assign, if_neg hid, heq]
  split_ifs <;> rfl

/-- A text that is assigned to `_name` is noted. -/
theorem hadExplicitName_of_name (c : ClassDef)
    (h : (readClass unparse scope localDefs c).name.isSome = true) :
    (readClass unparse scope localDefs c).hadExplicitName = true := by
  let Noted (r : ClassRead) : Prop := r.name.isSome = true → r.hadExplicitName = true
  have hassign : ∀ value target r, Noted r → Noted (ClassRead.assign value r target) := by
    intro value target r hr
    cases target with
    | name id =>
      obtain ⟨fields, columns, heq⟩ := r.addColumns_eq value
      rw [ClassRead.assign, heq]
      split_ifs
      · intro hname
        exact Bool.or_eq_true _ _ ▸ Or.inr hname
      all_goals exact hr
    | _ => exact hr
  have hstmt : ∀ s r, Noted r → Noted (ClassRead.stmt unparse scope localDefs r s) := by
    intro s r hr
    cases s with
    | assign targets value => exact Folds.foldl_keeps (fun target _ r => hassign value target r) hr
    | functionDef f =>
      rw [ClassRead.stmt]
      split
      · exact hr
      · exact hr
    | other => exact hr
  have hstart : Noted
      { isAbstract := "AbstractModel" ∈ c.baseClassNames
        isTransient := "TransientModel" ∈ c.baseClassNames } := fun hname => absurd hname (by simp)
  exact (Folds.foldl_keeps (P := Noted) (fun s _ r => hstmt s r) hstart) h

variable {m : ModuleInfo} {c : ClassDef} {info : ModelInfo}

/-- The model is what the variables say at the end. -/
theorem parseClass_cases (h : parseClass unparse scope localDefs m c = some info) :
    ∃ r, readClass unparse scope localDefs c = r ∧
      truthy ((truthy r.name).or r.inherit.head?) = some info.name ∧
      info.key = ⟨info.name, m.name, m.odooVersion⟩ ∧ info.inherit = r.inherit ∧
      info.hadExplicitName = r.hadExplicitName ∧ info.isAbstract = r.isAbstract ∧
      info.isTransient = r.isTransient := by
  unfold parseClass at h
  dsimp only at h
  refine ⟨_, rfl, ?_⟩
  split at h
  · exact absurd h (by simp)
  · rename_i name hname
    split at h
    · obtain rfl := Option.some.inj h
      exact ⟨hname, rfl, rfl, rfl, rfl, rfl⟩
    · exact absurd h (by simp)

/-- What is not empty is a text. -/
theorem truthy_eq_some {s : Option String} {t : String} (h : truthy s = some t) : s = some t ∧ t ≠ "" := by
  obtain ⟨hs, ht⟩ := Option.filter_eq_some_iff.mp h
  exact ⟨hs, of_decide_eq_true ht⟩

/-- **A class defines its model where it names it, and does not inherit from that name.** -/
theorem defines_iff (h : parseClass unparse scope localDefs m c = some info) :
    info.defines = true ↔ ∃ name, c.explicitName = some name ∧ name ∉ c.inheritList := by
  obtain ⟨r, hr, hname, -, hinherit, hhad, -⟩ := parseClass_cases h
  have hread : truthy r.name = c.explicitName := by
    rw [← hr, setBy_name.readClass c]
    rfl
  have hlist : r.inherit = c.inheritList := by
    rw [← hr]
    exact setBy_inherit.readClass c
  have hnoted : r.name.isSome = true → r.hadExplicitName = true := by
    rw [← hr]
    exact hadExplicitName_of_name c
  rw [ModelInfo.defines, hinherit, hhad, hlist, Bool.and_eq_true, Bool.not_eq_true',
    decide_eq_false_iff_not]
  cases hexplicit : c.explicitName with
  | none =>
    -- the name is the first of the list
    rw [hread, hexplicit, Option.none_or, hlist] at hname
    refine ⟨fun hdef => absurd ?_ hdef.2, fun ⟨name, hsome, _⟩ => absurd hsome (by simp)⟩
    exact List.mem_of_mem_head? (truthy_eq_some hname).1
  | some name =>
    rw [hread, hexplicit, Option.some_or] at hname
    obtain rfl := Option.some.inj (truthy_eq_some hname).1
    rw [hexplicit] at hread
    have hsome : r.name.isSome = true := by rw [(truthy_eq_some hread).1, Option.isSome_some]
    constructor
    · exact fun hdef => ⟨_, rfl, hdef.2⟩
    · rintro ⟨name, hname, hnot⟩
      rw [← Option.some.inj hname] at hnot
      exact ⟨hnoted hsome, hnot⟩

theorem marks_of_parseClass (h : parseClass unparse scope localDefs m c = some info) :
    info.isAbstract = c.abstractMark ∧ info.isTransient = c.transientMark := by
  obtain ⟨r, rfl, -, -, -, -, habstract, htransient⟩ := parseClass_cases h
  exact ⟨habstract.trans (setBy_isAbstract.readClass c),
    htransient.trans (setBy_isTransient.readClass c)⟩

end Read

/-! ## The node -/

/-- The four flags, each `null` where it is not set. -/
structure ModelFlags where
  hadExplicitName : Option Bool
  isDefinition : Option Bool
  isAbstract : Option Bool
  isTransient : Option Bool
deriving DecidableEq

def ModelProps.flags (p : ModelProps) : ModelFlags where
  hadExplicitName := p.hadExplicitName
  isDefinition := p.isDefinition
  isAbstract := p.isAbstract
  isTransient := p.isTransient

/-- The flags that these declarations leave, written one after the other. -/
def writtenFlags (ws : List ModelInfo) : Option ModelFlags :=
  ws.getLast?.map fun last =>
    { hadExplicitName := some (ws.any (·.hadExplicitName))
      isDefinition := some (ws.any (·.defines))
      isAbstract := some last.isAbstract
      isTransient := some last.isTransient }

def ModelMerge.written : ModelMerge → Option ModelInfo
  | .write m => some m
  | .stub => none

/-- What is known of the node while it is merged. -/
structure FlagsOf (ws : List ModelInfo) (o : Option ModelProps) : Prop where
  had : (o.bind (·.hadExplicitName)).getD false = ws.any (·.hadExplicitName)
  definition : (o.bind (·.isDefinition)).getD false = ws.any (·.defines)
  flags : ws ≠ [] → o.map (·.flags) = writtenFlags ws

theorem FlagsOf.write {ps : List String} {ws : List ModelInfo} {o : Option ModelProps}
    (h : FlagsOf ws o) (w : ModelInfo) : FlagsOf (ws ++ [w]) (some (ModelProps.write ps w o)) := by
  obtain ⟨hhad, hdef, -⟩ := h
  have hvalues : (ModelProps.write ps w o).flags =
      { hadExplicitName := some ((ws ++ [w]).any (·.hadExplicitName))
        isDefinition := some ((ws ++ [w]).any (·.defines))
        isAbstract := some w.isAbstract
        isTransient := some w.isTransient } := by
    rw [List.any_append, List.any_append, ← hhad, ← hdef]
    cases o with
    | none => simp [ModelProps.write, ModelProps.flags]
    | some p => simp [ModelProps.write, ModelProps.flags]
  refine ⟨?_, ?_, fun _ => ?_⟩
  · exact congrArg (fun f : ModelFlags => f.hadExplicitName.getD false) hvalues
  · exact congrArg (fun f : ModelFlags => f.isDefinition.getD false) hvalues
  · rw [Option.map_some, hvalues, writtenFlags, List.getLast?_concat]
    rfl

theorem FlagsOf.stub {ps : List String} {ws : List ModelInfo} {o : Option ModelProps}
    (h : FlagsOf ws o) : FlagsOf ws (some (ModelProps.stub ps o)) := by
  cases o with
  | some p => exact ⟨h.had, h.definition, h.flags⟩
  | none =>
    refine ⟨h.had, h.definition, fun hne => ?_⟩
    have hflags := h.flags hne
    rw [writtenFlags, List.getLast?_eq_some_getLast hne] at hflags
    exact absurd hflags (by simp)

theorem flagsOf_applyMerges (ps : List String) (ts : List ModelMerge) :
    FlagsOf (ts.filterMap ModelMerge.written) (applyMerges ps ts none) := by
  induction ts using List.reverseRecOn with
  | nil => exact ⟨rfl, rfl, fun h => absurd rfl h⟩
  | append_singleton ts t ih =>
    rw [applyMerges, List.foldl_concat, List.filterMap_append]
    cases t with
    | write w => exact ih.write w
    | stub =>
      rw [show List.filterMap ModelMerge.written [ModelMerge.stub] = [] from rfl, List.append_nil]
      exact ih.stub

/-! ## The runs -/

/-- The declaration of the model that a statement writes. -/
def CodeStmt.writtenAt (k : ModelKey) : CodeStmt → Option ModelInfo
  | mergeModel m => if m.key = k then some m else none
  | _ => none

theorem written_modelMerges (ps : List String) (k : ModelKey) (ss : List CodeStmt) (g : Graph) :
    (modelMerges ps k ss g).filterMap ModelMerge.written = ss.filterMap (CodeStmt.writtenAt k) := by
  induction ss generalizing g with
  | nil => rfl
  | cons st ss ih =>
    rw [modelMerges, List.filterMap_append, ih, List.filterMap_cons]
    cases st with
    | mergeModel m =>
      by_cases hk : m.key = k
      · simp [CodeStmt.modelMerge, CodeStmt.writtenAt, ModelMerge.written, hk]
      · simp [CodeStmt.modelMerge, CodeStmt.writtenAt, hk, Ne.symm hk]
    | inheritParent m parent order =>
      by_cases hc : g.resolvedModels parent m.odooVersion = [] <;>
        by_cases hk : k = stubModel parent m.odooVersion <;>
        simp [CodeStmt.modelMerge, CodeStmt.writtenAt, ModelMerge.written, hc, hk]
    | delegateTo m delegated via =>
      by_cases hc : g.resolvedModels delegated m.odooVersion = [] <;>
        by_cases hk : k = stubModel delegated m.odooVersion <;>
        simp [CodeStmt.modelMerge, CodeStmt.writtenAt, ModelMerge.written, hc, hk]
    | _ => rfl

theorem writtenAt_modelStmts (k : ModelKey) (m : ModelInfo) :
    (modelStmts m).filterMap (CodeStmt.writtenAt k) = if m.key = k then [m] else [] := by
  have hnone : ∀ st ∈ (modelStmts m).tail, st.writtenAt k = none := by
    intro st hst
    simp only [modelStmts, inheritStmts, List.cons_append, List.tail_cons, List.mem_append,
      List.mem_map, List.mem_flatMap, List.mem_cons] at hst
    rcases hst with ((⟨p, -, rfl⟩ | ⟨p, -, rfl⟩) | ⟨f, -, rfl⟩) | ⟨f, -, rfl | ⟨r, -, rfl⟩⟩
    · split <;> rfl
    all_goals rfl
  have htail : (modelStmts m).tail.filterMap (CodeStmt.writtenAt k) = [] :=
    List.filterMap_eq_nil_iff.mpr hnone
  show (mergeModel m :: (modelStmts m).tail).filterMap (CodeStmt.writtenAt k) = _
  rw [List.filterMap_cons, htail, CodeStmt.writtenAt]
  by_cases hk : m.key = k
  · simp [hk]
  · simp [hk]

theorem writtenAt_parseResultStmts (k : ModelKey) (r : ParseResult) :
    (parseResultStmts r).filterMap (CodeStmt.writtenAt k) =
      r.models.filter fun m => m.key = k := by
  have hmodule : ∀ st ∈ mergeModule r.module ::
      r.module.depends.map (fun dep => mergeDependency r.module.key dep), st.writtenAt k = none := by
    intro st hst
    rcases List.mem_cons.mp hst with rfl | hst
    · rfl
    · obtain ⟨dep, -, rfl⟩ := List.mem_map.mp hst
      rfl
  rw [parseResultStmts, List.filterMap_append, List.filterMap_eq_nil_iff.mpr hmodule,
    List.nil_append, List.filterMap_flatMap]
  simp only [writtenAt_modelStmts]
  induction r.models with
  | nil => rfl
  | cons m ms ih =>
    rw [List.flatMap_cons, ih, List.filter_cons]
    by_cases hk : m.key = k
    · simp [hk]
    · simp [hk]

/-- The flags of a model's node after a run. -/
def flagsAfter (ps : List String) (rs : List ParseResult) (g : Graph) (k : ModelKey) :
    Option ModelFlags := ((writeResults ps rs g).models.lookup k).map ModelProps.flags

/-- The declarations of the model in a run. -/
def declarationsIn (k : ModelKey) (rs : List ParseResult) : List ModelInfo :=
  (rs.flatMap (·.models)).filter fun m => m.key = k

/-- **What a run leaves in the flags**, of a model that it declares and that was not there. -/
theorem flagsAfter_eq {ps : List String} {rs : List ParseResult} {g : Graph} {k : ModelKey}
    (hno : k ∉ g.models) (hsome : declarationsIn k rs ≠ []) :
    flagsAfter ps rs g k = writtenFlags (declarationsIn k rs) := by
  have hmerges := flagsOf_applyMerges ps (modelMerges ps k (rs.flatMap parseResultStmts) g)
  have hws : (rs.flatMap parseResultStmts).filterMap (CodeStmt.writtenAt k) = declarationsIn k rs := by
    rw [List.filterMap_flatMap, declarationsIn, List.filter_flatMap]
    exact congrArg (fun f => List.flatMap f rs)
      (funext fun r => writtenAt_parseResultStmts k r)
  rw [written_modelMerges, hws] at hmerges
  rw [flagsAfter, writeResults_eq, lookup_models_execAll, AList.lookup_eq_none.mpr hno]
  exact hmerges.flags hsome

theorem flagsAfter_of_no_models {ps : List String} {rs : List ParseResult} {g : Graph} {k : ModelKey}
    (hno : k ∉ g.models) (hnone : rs.flatMap (·.models) = []) : flagsAfter ps rs g k = none := by
  have hmerge : ∀ st ∈ rs.flatMap parseResultStmts, ∀ g, st.modelMerge g = none := by
    intro st hst g
    obtain ⟨r, hr, hst⟩ := List.mem_flatMap.mp hst
    rw [parseResultStmts, List.flatMap_eq_nil_iff.mp hnone r hr, List.flatMap_nil,
      List.append_nil] at hst
    rcases List.mem_cons.mp hst with rfl | hst
    · rfl
    · obtain ⟨dep, -, rfl⟩ := List.mem_map.mp hst
      rfl
  have hmerges : ∀ (ss : List CodeStmt), (∀ st ∈ ss, ∀ g, st.modelMerge g = none) →
      ∀ g, modelMerges ps k ss g = [] := by
    intro ss hss
    induction ss with
    | nil => exact fun _ => rfl
    | cons st ss ih =>
      intro g
      rw [modelMerges, hss st List.mem_cons_self, ih fun st' hst' => hss st' (List.mem_cons_of_mem _ hst')]
      rfl
  rw [flagsAfter, writeResults_eq, lookup_models_execAll, hmerges _ hmerge,
    AList.lookup_eq_none.mpr hno]
  rfl

/-! ## Order -/

section Order

variable (unparse : PyArguments → Option String) (m : ModuleInfo) (name : String)

/-- A class of the module that declares the model, in some file. -/
structure ModelClass where
  cls : ClassDef
  scope : Dict String String
  localDefs : List String
  info : ModelInfo
  parsed : parseClass unparse scope localDefs m cls = some info
  named : info.name = name

variable {unparse m name}

/-- The results, one after the other, declare what the classes declare, in some order. -/
def WritesClasses (cs : List (ModelClass unparse m name)) (rs : List ParseResult) : Prop :=
  (rs.flatMap (·.models)).Perm (cs.map ModelClass.info)

/-- **The flags of the model are no matter of the order** in which its classes are written, and it is
defined where one of them defines it. -/
structure FlagsOrderFree (cs : List (ModelClass unparse m name)) : Prop where
  order : ∀ ps g rs rs', ⟨name, m.name, m.odooVersion⟩ ∉ g.models → WritesClasses cs rs → WritesClasses cs rs' →
    flagsAfter ps rs g ⟨name, m.name, m.odooVersion⟩ = flagsAfter ps rs' g ⟨name, m.name, m.odooVersion⟩
  definition : ∀ ps g rs, ⟨name, m.name, m.odooVersion⟩ ∉ g.models → WritesClasses cs rs →
    ((flagsAfter ps rs g ⟨name, m.name, m.odooVersion⟩).bind (·.isDefinition) = some true ↔
      ∃ c ∈ cs, ∃ explicit, c.cls.explicitName = some explicit ∧ explicit ∉ c.cls.inheritList)

variable {cs : List (ModelClass unparse m name)} {ps : List String} {rs : List ParseResult}
  {g : Graph}

theorem ModelClass.key_info (c : ModelClass unparse m name) :
    c.info.key = ⟨name, m.name, m.odooVersion⟩ := by
  obtain ⟨r, -, -, hkey, -⟩ := parseClass_cases c.parsed
  rw [hkey, c.named]

/-- The node's flags are those of what is written, in its order. -/
theorem flagsAfter_of_writes (hno : ⟨name, m.name, m.odooVersion⟩ ∉ g.models) (hw : WritesClasses cs rs) :
    flagsAfter ps rs g ⟨name, m.name, m.odooVersion⟩ = writtenFlags (rs.flatMap (·.models)) := by
  have hall : declarationsIn ⟨name, m.name, m.odooVersion⟩ rs = rs.flatMap (·.models) := by
    refine List.filter_eq_self.mpr fun info hinfo => ?_
    obtain ⟨c, -, rfl⟩ := List.mem_map.mp (hw.mem_iff.mp hinfo)
    exact decide_eq_true c.key_info
  by_cases hnone : rs.flatMap (·.models) = []
  · rw [flagsAfter_of_no_models hno hnone, hnone]
    rfl
  · rw [← hall] at hnone ⊢
    exact flagsAfter_eq hno hnone

/-- Of flags that all declarations share, the order of these leaves nothing to see. -/
theorem writtenFlags_perm {ws ws' : List ModelInfo} (hperm : ws.Perm ws')
    (hsame : ∀ v ∈ ws, ∀ w ∈ ws, v.isAbstract = w.isAbstract ∧ v.isTransient = w.isTransient) :
    writtenFlags ws = writtenFlags ws' := by
  unfold writtenFlags
  cases hlast : ws.getLast? with
  | none =>
    rw [List.getLast?_eq_none_iff] at hlast
    rw [hlast] at hperm
    rw [hperm.nil_eq.symm]
    rfl
  | some v =>
    cases hlast' : ws'.getLast? with
    | none =>
      rw [List.getLast?_eq_none_iff] at hlast'
      rw [hlast'] at hperm
      rw [hperm.eq_nil] at hlast
      exact absurd hlast (by simp)
    | some w =>
      have hv := List.mem_of_getLast? hlast
      have hw := hperm.mem_iff.mpr (List.mem_of_getLast? hlast')
      obtain ⟨habstract, htransient⟩ := hsame v hv w hw
      rw [Option.map_some, Option.map_some, hperm.any_eq, hperm.any_eq, habstract, htransient]

/-- With a declaration written last, two of the flags are its own. -/
theorem exists_writes_last {c : ModelClass unparse m name} (hc : c ∈ cs) :
    ∃ rs front, WritesClasses cs rs ∧ rs.flatMap (·.models) = front ++ [c.info] := by
  obtain ⟨front, back, rfl⟩ := List.append_of_mem hc
  refine ⟨[⟨m, (front ++ back).map ModelClass.info ++ [c.info]⟩],
    (front ++ back).map ModelClass.info, ?_, by simp⟩
  have hperm : ((front ++ back) ++ [c]).Perm (front ++ c :: back) := by
    rw [List.append_assoc]
    exact (List.perm_append_singleton c back).append_left front
  have hmap := hperm.map ModelClass.info
  rw [List.map_append] at hmap
  simpa [WritesClasses] using hmap

/-- **The flags are no matter of the order exactly where all classes agree on being abstract and on
being transient.** -/
theorem flags_order_free_iff (cs : List (ModelClass unparse m name)) : FlagsOrderFree cs ↔
    ∀ c ∈ cs, ∀ d ∈ cs, c.cls.abstractMark = d.cls.abstractMark ∧
      c.cls.transientMark = d.cls.transientMark := by
  constructor
  · intro h c hc d hd
    obtain ⟨rs, front, hrs, hlast⟩ := exists_writes_last hc
    obtain ⟨rs', front', hrs', hlast'⟩ := exists_writes_last hd
    have hno : ⟨name, m.name, m.odooVersion⟩ ∉ ({} : Graph).models := AList.notMem_empty _
    have heq := h.order [] {} rs rs' hno hrs hrs'
    rw [flagsAfter_of_writes hno hrs, flagsAfter_of_writes hno hrs', hlast, hlast', writtenFlags,
      writtenFlags, List.getLast?_concat, List.getLast?_concat] at heq
    have hflags := Option.some.inj heq
    obtain ⟨habstract, htransient⟩ := marks_of_parseClass c.parsed
    obtain ⟨habstract', htransient'⟩ := marks_of_parseClass d.parsed
    rw [← habstract, ← htransient, ← habstract', ← htransient']
    exact ⟨Option.some.inj (congrArg ModelFlags.isAbstract hflags),
      Option.some.inj (congrArg ModelFlags.isTransient hflags)⟩
  · intro h
    constructor
    · intro ps g rs rs' hno hrs hrs'
      rw [flagsAfter_of_writes hno hrs, flagsAfter_of_writes hno hrs']
      refine writtenFlags_perm (hrs.trans hrs'.symm) fun v hv w hw => ?_
      obtain ⟨c, hc, rfl⟩ := List.mem_map.mp (hrs.mem_iff.mp hv)
      obtain ⟨d, hd, rfl⟩ := List.mem_map.mp (hrs.mem_iff.mp hw)
      obtain ⟨habstract, htransient⟩ := marks_of_parseClass c.parsed
      obtain ⟨habstract', htransient'⟩ := marks_of_parseClass d.parsed
      rw [habstract, htransient, habstract', htransient']
      exact h c hc d hd
    · intro ps g rs hno hrs
      have hdefines : (rs.flatMap (·.models)).any (·.defines) = true ↔
          ∃ c ∈ cs, ∃ explicit, c.cls.explicitName = some explicit ∧
            explicit ∉ c.cls.inheritList := by
        rw [hrs.any_eq, List.any_map, List.any_eq_true]
        simp only [Function.comp_apply, defines_iff (ModelClass.parsed _)]
      rw [flagsAfter_of_writes hno hrs, ← hdefines]
      unfold writtenFlags
      cases hlast : (rs.flatMap (·.models)).getLast? with
      | none =>
        rw [List.getLast?_eq_none_iff.mp hlast]
        simp
      | some last => simp

end Order

namespace MailThread

def module : ModuleInfo where
  name := "mail"
  odooVersion := "17.0"
  repo := "odoo"
  path := "/git/odoo/addons/mail"
  depends := []

/-- `class MailThread(models.AbstractModel): _name = "mail.thread"` -/
def base : ClassDef where
  name := "MailThread"
  bases := [.attr (.name "models") "AbstractModel"]
  body := [.assign [.name "_name"] (.constant (.str "mail.thread"))]

/-- `class MailThreadRating(models.Model): _inherit = "mail.thread"` -/
def extension : ClassDef where
  name := "MailThreadRating"
  bases := [.attr (.name "models") "Model"]
  body := [.assign [.name "_inherit"] (.constant (.str "mail.thread"))]

def declare (isAbstract hadExplicitName : Bool) (inherit : List String) : ModelInfo where
  name := "mail.thread"
  module := "mail"
  odooVersion := "17.0"
  isAbstract := isAbstract
  inherit := inherit
  hadExplicitName := hadExplicitName

def classes : List (ModelClass (fun _ => none) module "mail.thread") :=
  [⟨base, Dict.empty, [], declare true true [], by decide, rfl⟩,
    ⟨extension, Dict.empty, [], declare false false ["mail.thread"], by decide, rfl⟩]

/-- **A model is abstract or not by the file that is written last.** -/
theorem abstract_by_order : ¬∀ (unparse : PyArguments → Option String) (m : ModuleInfo)
    (name : String) (cs : List (ModelClass unparse m name)), FlagsOrderFree cs := by
  intro h
  have horder := (h _ _ _ classes).order [] {} [⟨module, classes.map ModelClass.info⟩]
    [⟨module, classes.reverse.map ModelClass.info⟩] (AList.notMem_empty _)
    (by simp [WritesClasses]) (by simp [WritesClasses, List.reverse_perm])
  exact absurd horder (by decide)

end MailThread
end OdooSemantic
