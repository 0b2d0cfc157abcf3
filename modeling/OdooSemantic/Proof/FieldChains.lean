import OdooSemantic.Mcp.Orm

/-!
# What a field path is

A path is a walk through the models: each name is a field of the model that has been reached, and
each but the last leads on to a model. The traversal finds just these paths, and of the others the
first name where there is no walk (`traversal_exact`).

The names are those that the code keeps: it leaves out the empty ones before it begins, so it takes
`partner_id..name` for `partner_id.name`.
-/

namespace OdooSemantic

section Walks

variable (lookup : FieldLookup)

/-- The model that a field leads to. -/
def hop (model name : String) : Option String :=
  (lookup model name).bind fun info => if info.isRelational then truthy info.comodel else none

/-- The model that the names lead to. -/
def reach (model : String) : List String → Option String
  | [] => some model
  | name :: names => (hop lookup model name).bind fun comodel => reach comodel names

/-- The names lead to a field. -/
def IsWalk (model : String) (names : List String) : Prop :=
  ∃ front last at', names = front ++ [last] ∧ reach lookup model front = some at' ∧
    (lookup at' last).isSome

/-- What there is at the name with this number, where all before it lead on and it does not. -/
def Offends (model : String) (names : List String) (err : ChainError) : Prop :=
  names[err.step]? = some err.field ∧ reach lookup model (names.take err.step) = some err.model ∧
    match err.reason with
    | .missing => lookup err.model err.field = none ∧ err.ttype = none
    | .notRelational => err.step + 1 < names.length ∧
        ∃ info, lookup err.model err.field = some info ∧ info.ttype = err.ttype ∧
          info.isRelational = false
    | .danglingComodel => err.step + 1 < names.length ∧
        ∃ info, lookup err.model err.field = some info ∧ info.ttype = err.ttype ∧
          info.isRelational = true ∧ truthy info.comodel = none

/-- **The traversal of these names is exact.** -/
structure TraversesExactly (model : String) (names : List String) (chain : FieldChain) : Prop where
  ok : chain.error = none ↔ IsWalk lookup model names
  /-- The steps are those of the names, -/
  steps : ∀ k step, chain.steps[k]? = some step →
    names[k]? = some step.field ∧ reach lookup model (names.take k) = some step.model ∧
      lookup step.model step.field = some ⟨step.ttype, step.comodel⟩
  /-- and as many as there is a walk of. -/
  longest : chain.steps.length ≤ names.length ∧
    ∀ k, 0 < k → k ≤ names.length → (IsWalk lookup model (names.take k) ↔ k ≤ chain.steps.length)
  terminal : chain.terminal = if chain.error = none then chain.steps.getLast? else none
  error : ∀ err, chain.error = some err → Offends lookup model names err

end Walks

section Cons

variable {lookup : FieldLookup} {model name : String} {names : List String}

theorem not_isWalk_nil : ¬IsWalk lookup model [] := by
  rintro ⟨front, last, -, hnil, -⟩
  exact absurd hnil (by simp)

/-- A walk is a field, or a hop and a walk. -/
theorem isWalk_cons_iff : IsWalk lookup model (name :: names) ↔
    (names = [] ∧ (lookup model name).isSome) ∨
      ∃ comodel, hop lookup model name = some comodel ∧ IsWalk lookup comodel names := by
  constructor
  · rintro ⟨front, last, at', hsplit, hreach, hfound⟩
    cases front with
    | nil =>
      obtain ⟨rfl, rfl⟩ := List.cons.inj hsplit
      obtain rfl := Option.some.inj hreach
      exact Or.inl ⟨rfl, hfound⟩
    | cons first front =>
      obtain ⟨rfl, rfl⟩ := List.cons.inj hsplit
      obtain ⟨comodel, hhop, hreach⟩ := Option.bind_eq_some_iff.mp hreach
      exact Or.inr ⟨comodel, hhop, front, last, at', rfl, hreach, hfound⟩
  · rintro (⟨rfl, hfound⟩ | ⟨comodel, hhop, front, last, at', rfl, hreach, hfound⟩)
    · exact ⟨[], name, model, rfl, rfl, hfound⟩
    · exact ⟨name :: front, last, at', rfl, Option.bind_eq_some_iff.mpr ⟨comodel, hhop, hreach⟩, hfound⟩

theorem reach_cons {comodel : String} (hhop : hop lookup model name = some comodel) :
    reach lookup model (name :: names) = reach lookup comodel names := by
  rw [reach, hhop, Option.bind_some]

end Cons

/-! ## The loop -/

section Loop

variable {lookup : FieldLookup}

/-- What there is behind a step. -/
def FieldChain.behind (step : ChainStep) (chain : FieldChain) : FieldChain where
  steps := step :: chain.steps
  terminal := chain.terminal
  error := chain.error.map fun err => { err with step := err.step + 1 }

def FieldHit.step (info : FieldHit) (model field : String) : ChainStep where
  model := model
  field := field
  ttype := info.ttype
  comodel := info.comodel

/-- One turn of the loop. -/
theorem traverseParts_cons (i : Nat) (steps : List ChainStep) (model part : String)
    (rest : List String) :
    traverseParts lookup i steps model (part :: rest) =
      match lookup model part with
      | none =>
          { steps, terminal := none
            error := some { step := i, model, field := part, ttype := none, reason := .missing } }
      | some info =>
          let failed (reason : ChainReason) : FieldChain :=
            { steps := steps ++ [info.step model part], terminal := none
              error := some { step := i, model, field := part, ttype := info.ttype, reason } }
          if rest = [] then
            { steps := steps ++ [info.step model part], terminal := some (info.step model part)
              error := none }
          else if !info.isRelational then failed .notRelational
          else
            match truthy info.comodel with
            | none => failed .danglingComodel
            | some comodel =>
                traverseParts lookup (i + 1) (steps ++ [info.step model part]) comodel rest :=
  rfl

/-- The steps so far are in front, and the parts so far are counted. -/
theorem traverseParts_eq (i : Nat) (steps : List ChainStep) (model : String) {parts : List String}
    (hne : parts ≠ []) :
    traverseParts lookup i steps model parts =
      { steps := steps ++ (traverseParts lookup 0 [] model parts).steps
        terminal := (traverseParts lookup 0 [] model parts).terminal
        error := (traverseParts lookup 0 [] model parts).error.map fun err =>
          { err with step := err.step + i } } := by
  induction parts generalizing i steps model with
  | nil => exact absurd rfl hne
  | cons part rest ih =>
    rw [traverseParts_cons, traverseParts_cons]
    cases hfound : lookup model part with
    | none => simp
    | some info =>
      dsimp only
      by_cases hrest : rest = []
      · rw [if_pos hrest, if_pos hrest]
        simp
      · rw [if_neg hrest, if_neg hrest]
        by_cases hrelational : info.isRelational = true
        · simp only [hrelational, Bool.not_true, Bool.false_eq_true, if_false]
          cases hcomodel : truthy info.comodel with
          | none => simp
          | some comodel =>
            dsimp only
            rw [ih (i + 1) _ comodel hrest, ih (0 + 1) _ comodel hrest]
            simp only [List.nil_append, List.append_assoc, Option.map_map, FieldChain.mk.injEq,
              true_and]
            refine Option.map_congr fun err _ => ?_
            simp only [Function.comp_apply, ChainError.mk.injEq, and_self, and_true]
            omega
        · simp [hrelational]

variable {model part : String} {rest : List String} {info : FieldHit}

/-- What stops the walk at a field that is there. -/
def FieldHit.stops (info : FieldHit) : ChainReason → Prop
  | .missing => False
  | .notRelational => info.isRelational = false
  | .danglingComodel => info.isRelational = true ∧ truthy info.comodel = none

theorem traverse_missing (hfound : lookup model part = none) :
    traverseParts lookup 0 [] model (part :: rest) =
      { steps := [], terminal := none
        error := some { step := 0, model, field := part, ttype := none, reason := .missing } } := by
  rw [traverseParts_cons, hfound]

theorem traverse_last (hfound : lookup model part = some info) :
    traverseParts lookup 0 [] model [part] =
      { steps := [info.step model part], terminal := some (info.step model part), error := none } := by
  rw [traverseParts_cons, hfound]
  rfl

theorem traverse_stopped (hfound : lookup model part = some info) (hrest : rest ≠ [])
    (hhop : hop lookup model part = none) : ∃ reason, info.stops reason ∧
      traverseParts lookup 0 [] model (part :: rest) =
        { steps := [info.step model part], terminal := none
          error := some { step := 0, model, field := part, ttype := info.ttype, reason } } := by
  unfold hop at hhop
  rw [hfound, Option.bind_some] at hhop
  rw [traverseParts_cons, hfound]
  dsimp only
  rw [if_neg hrest]
  cases hrelational : info.isRelational with
  | false => exact ⟨.notRelational, hrelational, rfl⟩
  | true =>
    rw [hrelational, if_pos rfl] at hhop
    refine ⟨.danglingComodel, ⟨hrelational, hhop⟩, ?_⟩
    rw [hhop]
    rfl

theorem traverse_hop (hfound : lookup model part = some info) (hrest : rest ≠ []) {comodel : String}
    (hhop : hop lookup model part = some comodel) :
    traverseParts lookup 0 [] model (part :: rest) =
      (traverseParts lookup 0 [] comodel rest).behind (info.step model part) := by
  unfold hop at hhop
  rw [hfound, Option.bind_some] at hhop
  rw [traverseParts_cons, hfound]
  dsimp only
  rw [if_neg hrest]
  cases hrelational : info.isRelational with
  | false =>
    rw [hrelational] at hhop
    exact absurd hhop (by simp)
  | true =>
    rw [hrelational, if_pos rfl] at hhop
    rw [hhop]
    exact traverseParts_eq _ _ _ hrest

end Loop

/-! ## Exactness -/

section Exact

variable {lookup : FieldLookup} {model name : String} {names : List String} {info : FieldHit}

theorem hop_eq_none (hfound : lookup model name = none) : hop lookup model name = none := by
  rw [hop, hfound, Option.bind_none]

/-- The walk does not get behind a name that leads nowhere. -/
theorem isWalk_take_of_stopped (hhop : hop lookup model name = none) {k : Nat} :
    IsWalk lookup model ((name :: names).take (k + 1)) ↔
      names.take k = [] ∧ (lookup model name).isSome := by
  rw [List.take_succ_cons, isWalk_cons_iff]
  simp [hhop]

theorem exact_missing (hfound : lookup model name = none) :
    TraversesExactly lookup model (name :: names)
      (traverseParts lookup 0 [] model (name :: names)) := by
  rw [traverse_missing hfound]
  have hhop := hop_eq_none hfound
  refine ⟨⟨fun h => absurd h (by simp), fun h => ?_⟩, fun k step h => absurd h (by simp),
    ⟨by simp, fun k hpos _ => ⟨fun h => ?_, fun h => absurd hpos (by simp at h; omega)⟩⟩, rfl,
    fun err h => ?_⟩
  · rw [isWalk_cons_iff, hhop, hfound] at h
    simp at h
  · obtain ⟨k, rfl⟩ := Nat.exists_eq_succ_of_ne_zero hpos.ne'
    have hwalk := (isWalk_take_of_stopped hhop).mp h
    rw [hfound] at hwalk
    exact absurd hwalk.2 (by simp)
  · obtain rfl := Option.some.inj h
    exact ⟨rfl, rfl, hfound, rfl⟩

theorem exact_last (hfound : lookup model name = some info) :
    TraversesExactly lookup model [name] (traverseParts lookup 0 [] model [name]) := by
  rw [traverse_last hfound]
  have hwalk : IsWalk lookup model [name] :=
    isWalk_cons_iff.mpr (Or.inl ⟨rfl, by rw [hfound, Option.isSome_some]⟩)
  refine ⟨⟨fun _ => hwalk, fun _ => rfl⟩, fun k step h => ?_, ⟨Nat.le_refl _, fun k hpos hle => ?_⟩,
    rfl, fun err h => absurd h (by simp)⟩
  · cases k with
    | zero =>
      obtain rfl := Option.some.inj h
      exact ⟨rfl, rfl, hfound⟩
    | succ k => exact absurd h (by simp)
  · obtain rfl : k = 1 := by
      have hone : [name].length = 1 := rfl
      omega
    exact ⟨fun _ => Nat.le_refl _, fun _ => hwalk⟩

theorem exact_stopped (hfound : lookup model name = some info) (hnames : names ≠ [])
    (hhop : hop lookup model name = none) :
    TraversesExactly lookup model (name :: names)
      (traverseParts lookup 0 [] model (name :: names)) := by
  obtain ⟨reason, hstops, heq⟩ := traverse_stopped hfound hnames hhop
  rw [heq]
  refine ⟨⟨fun h => absurd h (by simp), fun h => ?_⟩, fun k step h => ?_,
    ⟨by simp, fun k hpos hle => ?_⟩, rfl, fun err h => ?_⟩
  · rw [isWalk_cons_iff, hhop] at h
    simp [hnames] at h
  · cases k with
    | zero =>
      obtain rfl := Option.some.inj h
      exact ⟨rfl, rfl, hfound⟩
    | succ k => exact absurd h (by simp)
  · obtain ⟨k, rfl⟩ := Nat.exists_eq_succ_of_ne_zero hpos.ne'
    rw [isWalk_take_of_stopped hhop, hfound]
    simp [hnames]
  · obtain rfl := Option.some.inj h
    refine ⟨rfl, rfl, ?_⟩
    have hmore : 0 + 1 < (name :: names).length := by
      have hpos := List.length_pos_of_ne_nil hnames
      rw [List.length_cons]
      omega
    cases reason with
    | missing => exact absurd hstops id
    | notRelational => exact ⟨hmore, info, hfound, rfl, hstops⟩
    | danglingComodel => exact ⟨hmore, info, hfound, rfl, hstops⟩

/-- A step in front of an exact traversal. -/
theorem TraversesExactly.behind {chain : FieldChain} {comodel : String}
    (h : TraversesExactly lookup comodel names chain) (hfound : lookup model name = some info)
    (hnames : names ≠ []) (hhop : hop lookup model name = some comodel) :
    TraversesExactly lookup model (name :: names) (chain.behind (info.step model name)) := by
  have hwalk : ∀ names' : List String, names' ≠ [] →
      (IsWalk lookup model (name :: names') ↔ IsWalk lookup comodel names') := by
    intro names' hne
    rw [isWalk_cons_iff, hhop]
    simp [hne]
  have herror : (chain.behind (info.step model name)).error = none ↔ chain.error = none :=
    Option.map_eq_none_iff
  refine ⟨?_, fun k step hstep => ?_, ⟨?_, fun k hpos hle => ?_⟩, ?_, fun err herr => ?_⟩
  · rw [herror, hwalk names hnames]
    exact h.ok
  · cases k with
    | zero =>
      obtain rfl := Option.some.inj hstep
      exact ⟨rfl, rfl, hfound⟩
    | succ k =>
      obtain ⟨hname, hreach, hlookup⟩ := h.steps k step hstep
      refine ⟨hname, ?_, hlookup⟩
      rw [List.take_succ_cons, reach_cons hhop]
      exact hreach
  · exact Nat.succ_le_succ h.longest.1
  · obtain ⟨k, rfl⟩ := Nat.exists_eq_succ_of_ne_zero hpos.ne'
    have hle : k ≤ names.length := Nat.le_of_succ_le_succ hle
    rw [List.take_succ_cons]
    show _ ↔ k + 1 ≤ chain.steps.length + 1
    cases k with
    | zero =>
      rw [List.take_zero, isWalk_cons_iff, hfound]
      simp
    | succ k =>
      have hne : names.take (k + 1) ≠ [] := by
        cases names with
        | nil => exact absurd rfl hnames
        | cons first rest => simp
      rw [hwalk _ hne, h.longest.2 (k + 1) (Nat.succ_pos k) hle]
      omega
  · show chain.terminal = _
    rw [h.terminal]
    simp only [herror]
    by_cases hok : chain.error = none
    · rw [if_pos hok, if_pos hok]
      have hall : names.length ≤ chain.steps.length := by
        refine (h.longest.2 names.length (List.length_pos_of_ne_nil hnames) (Nat.le_refl _)).mp ?_
        rw [List.take_length]
        exact h.ok.mp hok
      have hsteps : chain.steps ≠ [] := by
        intro hnil
        rw [hnil] at hall
        exact hnames (List.length_eq_zero_iff.mp (Nat.le_zero.mp hall))
      exact (List.getLast?_cons_of_ne_nil hsteps).symm
    · rw [if_neg hok, if_neg hok]
  · obtain ⟨err', herr', rfl⟩ := Option.map_eq_some_iff.mp herr
    obtain ⟨hname, hreach, hreason⟩ := h.error err' herr'
    refine ⟨hname, ?_, ?_⟩
    · dsimp only
      rw [List.take_succ_cons, reach_cons hhop]
      exact hreach
    · dsimp only
      rw [List.length_cons]
      cases hr : err'.reason <;> rw [hr] at hreason
      · exact hreason
      · exact ⟨Nat.succ_lt_succ hreason.1, hreason.2⟩
      · exact ⟨Nat.succ_lt_succ hreason.1, hreason.2⟩

theorem traverseParts_exact (hnames : names ≠ []) :
    TraversesExactly lookup model names (traverseParts lookup 0 [] model names) := by
  induction names generalizing model with
  | nil => exact absurd rfl hnames
  | cons name rest ih =>
    cases hfound : lookup model name with
    | none => exact exact_missing hfound
    | some info =>
      by_cases hrest : rest = []
      · subst hrest
        exact exact_last hfound
      · cases hhop : hop lookup model name with
        | none => exact exact_stopped hfound hrest hhop
        | some comodel =>
          rw [traverse_hop hfound hrest hhop]
          exact (ih hrest).behind hfound hrest hhop

/-- **The traversal of a path is exact**, for the names in it that are not empty; a path without a
name is missing as a whole. -/
theorem traversal_exact (lookup : FieldLookup) (model path : String) :
    (pathParts path = [] → traverseFieldChain lookup model path =
      { steps := [], terminal := none
        error := some { step := 0, model, field := path, ttype := none, reason := .missing } }) ∧
    (pathParts path ≠ [] →
      TraversesExactly lookup model (pathParts path) (traverseFieldChain lookup model path)) := by
  unfold traverseFieldChain
  constructor
  · intro hempty
    rw [if_pos hempty]
  · intro hne
    rw [if_neg hne]
    exact traverseParts_exact hne

end Exact

/-- A path as it is written: all of its names, and none of them empty. -/
def IsPath (lookup : FieldLookup) (model path : String) : Prop :=
  (∀ name ∈ dottedSegments path, name ≠ "") ∧ IsWalk lookup model (dottedSegments path)

/-- **Two dots are taken for one.** -/
theorem double_dot_ok : ¬∀ (lookup : FieldLookup) (model path : String),
    (traverseFieldChain lookup model path).error = none ↔ IsPath lookup model path := by
  intro h
  have hpath := (h (fun _ _ => some ⟨some "many2one", some "res.partner"⟩) "sale.order"
    "partner_id..name").mp (by decide)
  exact hpath.1 "" (by decide) rfl

end OdooSemantic
