import OdooSemantic.Mcp.Session

/-!
# What a session reads behind its own writes

A set writes its row and then takes the answer out of the cache. What is in the cache afterwards was
put there later; but it may have been read earlier, by a get that has taken its time between the
table and the cache. Nothing stops it from putting back what the set has just taken out, and from
then on every get is told the old value, for as long as the cache holds it.

Where no get does that, and none keeps an error for an answer, a get behind a set reads what was set
(`read_your_writes`).
-/

namespace OdooSemantic

open KeyedStore Threads

/-! ## Sets and gets in a trace -/

namespace SessionColumn

/-- The same column. -/
def same : SessionColumn → SessionColumn → Bool
  | odooVersion _, odooVersion _ => true
  | profileName _, profileName _ => true
  | _, _ => false

/-- An empty value reads as `NULL`. -/
def plain : SessionColumn → Bool
  | odooVersion v => v ≠ ""
  | profileName p => p ≠ some ""

/-- The row has the value. -/
def InRow (row : SessionRow) : SessionColumn → Prop
  | odooVersion v => row.odooVersion = some v
  | profileName p => row.profileName = p

/-- The answer has the value. -/
def InState (state : McpSessionState) : SessionColumn → Prop
  | odooVersion v => state.odooVersion = some v
  | profileName p => state.profileName = p

end SessionColumn

section Traces

variable {T : Type}

/-- The time of the server at a step. -/
def SessionEntries.time (e : SessionEntries T) : Nat := e.before.wall + e.input.wall

/-- The step writes this column of the row. -/
def Writes (id : Int) (column : SessionColumn) (e : SessionEntries T) : Prop :=
  ∃ key column', e.label = .upsert key column' ∧ PyText.int key = some id ∧
    column'.same column = true ∧ e.input.fails = false

/-- Before `g` began, a set of the key has written the column and returned, at this time, and no
    other set has written it since. -/
def SetBefore (trace : List (SessionEntries T)) (g : T) (key : String) (column : SessionColumn)
    (time : Nat) : Prop :=
  ∃ newer i mid u older, trace = newer ++ i :: (mid ++ u :: older) ∧
    (u.label = .upsert key column ∧ u.input.fails = false ∧ SessionEntries.time u = time) ∧
    (i.label = .invalidate key ∧ i.thread = u.thread) ∧
    (∀ e ∈ i :: (mid ++ u :: older), e.thread ≠ g) ∧
    ∀ e ∈ newer ++ i :: mid, ∀ id, PyText.int key = some id → ¬Writes id column e

/-- **A get behind a set reads what was set**, within 24 hours. -/
def SessionPool.ReadsYourWrites (calls : T → SessionCall) (p : SessionPool T) : Prop :=
  ∀ g key column time answer, calls g = .getSessionState key →
    SetBefore p.trace g key column time → p.threads g = some (.done (.state answer)) →
      p.state.wall < time + sessionTtl → ∃ state, answer = some state ∧ column.InState state

variable [DecidableEq T]

/-- **The answer is still good when it is put in the cache**: it was no error where there was
    something to read, and no set of the key has both written and returned since it was read. And
    what is set is not empty. -/
def SessionEntries.undisturbed (e : SessionEntries T) (older : List (SessionEntries T)) : Bool :=
  match e.label with
  | .upsert _ column => column.plain
  | .fill key _ _ =>
      let since := older.takeWhile fun f => f.thread ≠ e.thread
      ((older.find? fun f => f.thread = e.thread).all fun f =>
        !f.input.fails || (f.before.advance f.input).fetch key = none) &&
      since.all fun i => i.label ≠ .invalidate key || since.all fun u =>
        u.thread ≠ i.thread || match u.label with
          | .upsert _ _ => false
          | _ => true
  | _ => true

def SessionPool.undisturbed (p : SessionPool T) : Act T SessionInput → Bool
  | .begin _ => true
  | .take t x =>
      match p.threads t with
      | some (.step label _) => SessionEntries.undisturbed ⟨t, label, x, p.state⟩ p.trace
      | _ => true

end Traces

/-! ## What the table and the cache say about the trace -/

section Rows

variable {T : Type}

/-- The table has what was written last, and the cache what was put in last. -/
structure SessionTracks (trace : List (SessionEntries T)) (s : SessionWorld) : Prop where
  time : ∀ e ∈ trace, SessionEntries.time e ≤ s.wall
  row : ∀ newer u older key column id, trace = newer ++ u :: older →
    u.label = .upsert key column → PyText.int key = some id → u.input.fails = false →
      (∀ e ∈ newer, ¬Writes id column e) → ∃ row, s.rows.lookup id = some row ∧
        column.InRow row ∧ SessionEntries.time u ≤ row.updatedAt
  cache : ∀ key entry, s.cache.lookup key = some entry → ∃ newer c older now,
    trace = newer ++ c :: older ∧ c.label = .fill key entry.state now ∧
      entry.expiresAt = now + cacheTtl ∧ ∀ e ∈ newer, e.label ≠ .invalidate key

theorem session_tracks_start {s : SessionWorld} (hcache : s.cache = ∅) :
    SessionTracks ([] : List (SessionEntries T)) s where
  time e he := absurd he (by simp)
  row newer u older key column id h := absurd h (by simp)
  cache key entry h := absurd h (by simp [hcache])

theorem lookup_upsert_session {s : SessionWorld} {key : String} {column : SessionColumn} {id : Int}
    (hid : PyText.int key = some id) : ∃ row, (s.upsert key column).rows.lookup id = some row ∧
      column.InRow row ∧ row.updatedAt = s.wall ∧ ∀ column' old, s.rows.lookup id = some old →
        column.same column' = false → column'.InRow old → column'.InRow row := by
  unfold SessionWorld.upsert
  rw [hid]
  refine ⟨_, AList.lookup_insert _, ?_⟩
  cases column with
  | odooVersion v =>
    refine ⟨rfl, rfl, fun column' old hold hsame hrow => ?_⟩
    cases column' with
    | odooVersion v' => exact absurd hsame (by simp [SessionColumn.same])
    | profileName p' =>
      rw [hold]
      exact hrow
  | profileName p =>
    refine ⟨rfl, rfl, fun column' old hold hsame hrow => ?_⟩
    cases column' with
    | profileName p' => exact absurd hsame (by simp [SessionColumn.same])
    | odooVersion v' =>
      rw [hold]
      exact hrow

theorem lookup_upsert_session_ne {s : SessionWorld} {key : String} {column : SessionColumn}
    {id : Int} (hid : PyText.int key ≠ some id) :
    (s.upsert key column).rows.lookup id = s.rows.lookup id := by
  unfold SessionWorld.upsert
  split
  · rfl
  · rename_i id' hid'
    have hne : id ≠ id' := by
      rintro rfl
      exact hid hid'
    exact AList.lookup_insert_ne hne

/-- A step that is no write leaves the rows. -/
theorem rows_effect_of_not_upsert {label : SessionStatement} (x : SessionInput) (s : SessionWorld)
    (h : ∀ key column, label ≠ .upsert key column) : (label.effect x s).rows = s.rows := by
  cases label with
  | upsert key column => exact absurd rfl (h key column)
  | _ => rfl

theorem wall_effect (label : SessionStatement) (x : SessionInput) (s : SessionWorld) :
    (label.effect x s).wall = s.wall + x.wall := by
  cases label with
  | upsert key column =>
    simp only [SessionStatement.effect]
    split
    · rfl
    · unfold SessionWorld.upsert
      split <;> rfl
  | _ => rfl

theorem cache_effect_of_upsert (key : String) (column : SessionColumn) (x : SessionInput)
    (s : SessionWorld) : ((SessionStatement.upsert key column).effect x s).cache = s.cache := by
  simp only [SessionStatement.effect]
  split
  · rfl
  · unfold SessionWorld.upsert
    split <;> rfl

/-- **What a step leaves of a row that was written before it**: the column, unless the step writes
    it, and the time, or a later one. -/
theorem row_effect {e : SessionEntries T} {id : Int} {column : SessionColumn} {time : Nat}
    {row : SessionRow} (hrow : e.before.rows.lookup id = some row) (hcolumn : column.InRow row)
    (htime : time ≤ row.updatedAt) (hwall : time ≤ e.before.wall) (hno : ¬Writes id column e) :
    ∃ row', (e.after SessionStatement.effect).rows.lookup id = some row' ∧ column.InRow row' ∧
      time ≤ row'.updatedAt := by
  unfold Entry.after
  by_cases hupsert : ∃ key column', e.label = .upsert key column'
  · obtain ⟨key, column', hlabel⟩ := hupsert
    rw [hlabel]
    simp only [SessionStatement.effect]
    split
    · exact ⟨row, hrow, hcolumn, htime⟩
    · rename_i hanswers
      by_cases hid : PyText.int key = some id
      · have hsame : column'.same column = false := by
          refine Bool.eq_false_iff.mpr fun hsame => hno ⟨key, column', hlabel, hid, hsame, ?_⟩
          exact Bool.eq_false_iff.mpr hanswers
        obtain ⟨row', hlookup, -, hupdated, hkeeps⟩ :=
          @lookup_upsert_session (e.before.advance e.input) key column' id hid
        refine ⟨row', hlookup, hkeeps column row hrow hsame hcolumn, ?_⟩
        rw [hupdated]
        exact Nat.le_trans hwall (Nat.le_add_right _ _)
      · rw [lookup_upsert_session_ne hid]
        exact ⟨row, hrow, hcolumn, htime⟩
  · rw [rows_effect_of_not_upsert e.input e.before fun key column' h => hupsert ⟨key, column', h⟩]
    exact ⟨row, hrow, hcolumn, htime⟩

theorem session_tracks_step {e : SessionEntries T} {trace : List (SessionEntries T)}
    (h : SessionTracks trace e.before) :
    SessionTracks (e :: trace) (e.after SessionStatement.effect) := by
  have hwall : (e.after SessionStatement.effect).wall = SessionEntries.time e := wall_effect _ _ _
  refine ⟨fun f hf => ?_, fun newer u older key column id heq hlabel hid hanswers hno => ?_,
    fun key entry hentry => ?_⟩
  · rw [hwall]
    cases List.mem_cons.mp hf with
    | inl hnew => exact hnew ▸ Nat.le_refl _
    | inr hold => exact Nat.le_trans (h.time f hold) (Nat.le_add_right _ _)
  · cases append_of_cons_eq heq with
    | inl hnew =>
      obtain ⟨-, rfl, rfl⟩ := hnew
      obtain ⟨row, hlookup, hcolumn, hupdated, -⟩ :=
        @lookup_upsert_session (e.before.advance e.input) key column id hid
      refine ⟨row, ?_, hcolumn, hupdated.ge⟩
      rw [Entry.after, hlabel]
      simp only [SessionStatement.effect, hanswers]
      rw [if_neg Bool.false_ne_true]
      exact hlookup
    | inr hold =>
      obtain ⟨newer', rfl, rfl⟩ := hold
      obtain ⟨row, hrow, hcolumn, htime⟩ := h.row newer' u older key column id rfl hlabel hid hanswers
        fun f hf => hno f (List.mem_cons_of_mem _ hf)
      exact row_effect hrow hcolumn htime (h.time u (by simp)) (hno e List.mem_cons_self)
  · have hold : e.before.cache.lookup key = some entry → e.label ≠ .invalidate key →
        ∃ newer c older now, e :: trace = newer ++ c :: older ∧
          c.label = .fill key entry.state now ∧ entry.expiresAt = now + cacheTtl ∧
            ∀ f ∈ newer, f.label ≠ .invalidate key := by
      intro hlookup hne
      obtain ⟨newer, c, older, now, rfl, hlabel, hexpires, hnewer⟩ := h.cache key entry hlookup
      refine ⟨e :: newer, c, older, now, rfl, hlabel, hexpires, fun f hf => ?_⟩
      cases List.mem_cons.mp hf with
      | inl heq => exact heq ▸ hne
      | inr hmem => exact hnewer f hmem
    unfold Entry.after at hentry
    cases hlabel : e.label with
    | fill key' state now =>
      rw [hlabel] at hentry hold
      by_cases hk : key = key'
      · subst hk
        simp only [SessionStatement.effect, AList.lookup_insert] at hentry
        rw [← Option.some.inj hentry]
        exact ⟨[], e, trace, now, rfl, hlabel, rfl, fun f hf => absurd hf (by simp)⟩
      · simp only [SessionStatement.effect, AList.lookup_insert_ne hk] at hentry
        exact hold hentry (by simp)
    | invalidate key' =>
      rw [hlabel] at hentry hold
      by_cases hk : key = key'
      · subst hk
        simp only [SessionStatement.effect, AList.lookup_erase] at hentry
        exact absurd hentry (by simp)
      · simp only [SessionStatement.effect, AList.lookup_erase_ne hk] at hentry
        exact hold hentry fun heq => hk (SessionStatement.invalidate.inj heq).symm
    | upsert key' column =>
      rw [hlabel, cache_effect_of_upsert] at hentry
      rw [hlabel] at hold
      exact hold hentry (by simp)
    | clock =>
      rw [hlabel] at hentry hold
      exact hold hentry (by simp)
    | lookup key' now =>
      rw [hlabel] at hentry hold
      exact hold hentry (by simp)
    | fetch key' =>
      rw [hlabel] at hentry hold
      exact hold hentry (by simp)

end Rows

/-! ## What the operations say about their own steps -/

section Steps

variable {T : Type}

/-- The time of the process at a step. -/
def SessionEntries.clock (e : SessionEntries T) : Nat := e.before.monotonic + e.input.monotonic

/-- What is put in the cache has just been read, and for a minute from a time before that; what is
    taken out of it has just been written. -/
def SessionStatement.Grounded (h : List (SessionEntries T)) : SessionStatement → Prop
  | fill key state now => ∃ f rest, h = f :: rest ∧ f.label = .fetch key ∧
      state = f.input.answer f.before key ∧ ∃ c ∈ rest, now = SessionEntries.clock c
  | invalidate key => (PyText.int key).isSome
  | _ => True

/-- A get answers what the cache had, or what it has put there. -/
def SessionCall.Answers (call : SessionCall) (h : List (SessionEntries T)) (outcome : SessionOutcome) :
    Prop :=
  ∀ key answer, call = .getSessionState key → outcome = .state answer →
    ∃ e rest now, h = e :: rest ∧ (∃ c ∈ rest, now = SessionEntries.clock c) ∧
      (e.label = .fill key answer now ∨
        e.label = .lookup key now ∧ e.before.cacheGet key now = some answer)

abbrev SessionProg.Keeps (t : T) (call : SessionCall) (prog : SessionProg)
    (h : List (SessionEntries T)) : Prop :=
  prog.Meets t SessionStatement.Grounded call.Answers h

/-- Whoever reads the state goes on from the cache's answer, or from what is in the cache now. -/
theorem keeps_get {t : T} {call : SessionCall} {key : String}
    {next : Option McpSessionState → SessionProg} {h : List (SessionEntries T)}
    (hnext : ∀ state e rest now, (∃ c ∈ rest, now = SessionEntries.clock c) →
      (e.label = .fill key state now ∨
        e.label = .lookup key now ∧ e.before.cacheGet key now = some state) →
      (next state).Keeps t call (e :: rest)) :
    (SessionProg.getSessionState key next).Keeps t call h := by
  refine ⟨trivial, fun x s => ⟨trivial, fun x' s' => ?_⟩⟩
  dsimp only
  cases hcache : s'.cacheGet key (s.monotonic + x.monotonic) with
  | some state => exact hnext state _ _ _ ⟨_, List.mem_cons_self, rfl⟩ (Or.inr ⟨rfl, hcache⟩)
  | none =>
    have hclock : ∃ c ∈ (⟨t, .lookup key (s.monotonic + x.monotonic), x', s'⟩ ::
        ⟨t, .clock, x, s⟩ :: h : List (SessionEntries T)),
        s.monotonic + x.monotonic = SessionEntries.clock c :=
      ⟨_, List.mem_cons_of_mem _ List.mem_cons_self, rfl⟩
    refine ⟨trivial, fun x'' s'' => ⟨⟨_, _, rfl, rfl, rfl, hclock⟩, fun x₃ s₃ => ?_⟩⟩
    obtain ⟨c, hc, heq⟩ := hclock
    exact hnext _ _ _ _ ⟨c, List.mem_cons_of_mem _ hc, heq⟩ (Or.inl rfl)

theorem keeps_set {t : T} {call : SessionCall} {key : String} {column : SessionColumn}
    (hcall : ∀ key', call ≠ .getSessionState key') {h : List (SessionEntries T)} :
    (SessionProg.setActive key column).Keeps t call h := by
  refine ⟨trivial, fun x s => ?_⟩
  dsimp only
  split
  · exact fun key' answer heq => absurd heq (hcall key')
  · rename_i hwritten
    rw [Bool.or_eq_true, not_or] at hwritten
    refine ⟨?_, fun _ _ key' answer heq => absurd heq (hcall key')⟩
    show (PyText.int key).isSome
    rw [← Option.not_isNone, Bool.not_eq_true']
    exact Bool.eq_false_iff.mpr hwritten.2

theorem keeps_resolve {t : T} {call : SessionCall} {versionArg : Option String} {key : String}
    {latest : Option String} (hcall : ∀ key', call ≠ .getSessionState key')
    {h : List (SessionEntries T)} :
    (SessionProg.resolveVersion versionArg key latest).Keeps t call h := by
  have hdone : ∀ (outcome : SessionOutcome) (h : List (SessionEntries T)),
      SessionProg.Keeps t call (.done outcome) h :=
    fun _ _ key' answer heq => absurd heq (hcall key')
  unfold SessionProg.resolveVersion
  split
  · exact hdone _ _
  · refine keeps_get fun state e rest now _ _ => ?_
    split
    · exact hdone _ _
    · split
      · exact hdone _ _
      · exact hdone _ _

theorem keeps_program (t : T) (call : SessionCall) : call.program.Keeps t call [] := by
  cases call with
  | getSessionState key =>
    refine keeps_get fun state e rest now hclock hstate key' answer hcall houtcome => ?_
    obtain rfl := SessionCall.getSessionState.inj hcall
    obtain rfl := SessionOutcome.state.inj houtcome
    exact ⟨e, rest, now, rfl, hclock, hstate⟩
  | setActiveVersion key v => exact keeps_set fun _ heq => absurd heq (by simp)
  | setActiveProfile key p => exact keeps_set fun _ heq => absurd heq (by simp)
  | resolveVersion versionArg key latest => exact keeps_resolve fun _ heq => absurd heq (by simp)

end Steps

/-! ## Reading behind a write -/

section Reads

variable {T : Type} [DecidableEq T]

/-- What is put in the cache was no error, and no set has written and returned since it was read. -/
theorem undisturbed_fill {c f : SessionEntries T} {n o : List (SessionEntries T)} {key : String}
    {state : Option McpSessionState} {now : Nat} (hlabel : c.label = .fill key state now)
    (hn : ∀ e ∈ n, e.thread ≠ c.thread) (hf : f.thread = c.thread)
    (h : c.undisturbed (n ++ f :: o) = true) :
    (f.input.fails = true → (f.before.advance f.input).fetch key = none) ∧
      ∀ i ∈ n, i.label = .invalidate key → ∀ u ∈ n, u.thread = i.thread → ∀ key' column,
        u.label ≠ .upsert key' column := by
  have hsince : (n ++ f :: o).takeWhile (fun e => e.thread ≠ c.thread) = n := by
    rw [List.takeWhile_append_of_pos fun e he => decide_eq_true (hn e he),
      List.takeWhile_cons_of_neg (by simpa using hf), List.append_nil]
  have hread : (n ++ f :: o).find? (fun e => e.thread = c.thread) = some f := by
    rw [List.find?_append, List.find?_eq_none.mpr fun e he => by simpa using hn e he,
      List.find?_cons_of_pos (by simpa using hf), Option.none_or]
  unfold SessionEntries.undisturbed at h
  rw [hlabel] at h
  dsimp only at h
  rw [hsince, hread, Bool.and_eq_true, List.all_eq_true] at h
  refine ⟨fun hfails => ?_, fun i hi hinvalidate u hu hthread key' column hupsert => ?_⟩
  · simpa [hfails] using h.1
  · have hall := h.2 i hi
    rw [hinvalidate] at hall
    simp only [ne_eq, not_true_eq_false, decide_false, Bool.false_or, List.all_eq_true] at hall
    have hno := hall u hu
    rw [hthread, hupsert] at hno
    exact absurd hno (by simp)

variable {calls : T → SessionCall}

/-- What is known of a run, at every step of it. -/
structure SessionPool.Sound (calls : T → SessionCall) (p : SessionPool T) : Prop where
  steps : p.Obeys (fun _ => SessionStatement.Grounded) fun t => (calls t).Answers
  traced : p.Traced SessionTracks fun e older => SessionEntries.undisturbed e older = true

theorem sound_run {s₀ : SessionWorld} {acts : List (Act T SessionInput)} {p : SessionPool T}
    (hcache : s₀.cache = ∅) (hrun : Machine.Runs (SessionPool.step calls)
      (fun p a => p.undisturbed a = true) { state := s₀ } acts p) : p.Sound calls := by
  refine ⟨obeys_run (fun t => keeps_program t (calls t)) hrun, ?_⟩
  refine traced_run (session_tracks_start hcache) (fun e trace h _ => session_tracks_step h) ?_ hrun
  intro p t x label next hok hthread
  simp only [SessionPool.undisturbed, hthread] at hok
  exact hok

/-- Where what is in the cache comes from. -/
theorem SessionPool.Sound.read {p : SessionPool T} (h : p.Sound calls) {newer older : _}
    {c : SessionEntries T} {key : String} {state : Option McpSessionState} {now : Nat}
    (htrace : p.trace = newer ++ c :: older) (hlabel : c.label = .fill key state now) :
    ∃ n f o, older = n ++ f :: o ∧ f.thread = c.thread ∧ f.label = .fetch key ∧
      state = f.input.answer f.before key ∧
      (f.input.fails = true → (f.before.advance f.input).fetch key = none) ∧
      ∀ i ∈ n, i.label = .invalidate key → ∀ u ∈ n, u.thread = i.thread → ∀ key' column,
        u.label ≠ .upsert key' column := by
  have hsteps := h.steps.trace newer c older htrace
  rw [hlabel] at hsteps
  obtain ⟨f, rest, hhistory, hfetch, hstate, -⟩ := hsteps
  obtain ⟨n, o, rfl, hthread, hn, -⟩ := history_split hhistory
  obtain ⟨-, hundisturbed⟩ := h.traced.before newer c _ htrace
  exact ⟨n, f, o, rfl, hthread, hfetch, hstate, undisturbed_fill hlabel hn hthread hundisturbed⟩

/-- **A read behind a set**, with no other set in between, answers what was set. -/
theorem SessionPool.Sound.fresh {p : SessionPool T} (h : p.Sound calls)
    {n m older : List (SessionEntries T)} {f u : SessionEntries T} {key : String} {id : Int}
    {column : SessionColumn} (htrace : p.trace = n ++ f :: (m ++ u :: older))
    (hid : PyText.int key = some id)
    (hu : u.label = .upsert key column ∧ u.input.fails = false)
    (hm : ∀ e ∈ m, ¬Writes id column e)
    (hfails : f.input.fails = true → (f.before.advance f.input).fetch key = none)
    (hlive : p.state.wall < SessionEntries.time u + sessionTtl) :
    ∃ state, f.input.answer f.before key = some state ∧ column.InState state := by
  have hplain : column.plain = true := by
    have hok := (h.traced.before (n ++ f :: m) u older (by simp [htrace])).2
    unfold SessionEntries.undisturbed at hok
    rwa [hu.1] at hok
  obtain ⟨row, hrow, hcolumn, hupdated⟩ := (h.traced.before n f _ htrace).1.row m u older key column
    id rfl hu.1 hid hu.2 hm
  -- the clock at the read is behind that at the end
  have htime : (f.before.advance f.input).wall < row.updatedAt + sessionTtl := by
    have hwall : SessionEntries.time f ≤ p.state.wall := h.traced.now.time f (by simp [htrace])
    show SessionEntries.time f < _
    omega
  have hfetch : (f.before.advance f.input).fetch key = some
      { apiKeyId := key, odooVersion := valueOrNone row.odooVersion,
        profileName := valueOrNone row.profileName } := by
    have hsome : (f.before.advance f.input).row key = some row := by
      unfold SessionWorld.row
      rw [hid]
      exact hrow
    unfold SessionWorld.fetch
    rw [hsome, Option.filter_some, if_pos (decide_eq_true htime), Option.map_some]
  have hanswers : f.input.fails = false := by
    refine Bool.eq_false_iff.mpr fun hfails' => ?_
    rw [hfails hfails'] at hfetch
    exact absurd hfetch (by simp)
  have hanswer : f.input.answer f.before key = (f.before.advance f.input).fetch key := by
    unfold SessionInput.answer
    rw [hanswers]
    rfl
  refine ⟨_, hanswer.trans hfetch, ?_⟩
  cases column with
  | odooVersion v =>
    show valueOrNone row.odooVersion = some v
    rw [show row.odooVersion = some v from hcolumn]
    simpa [valueOrNone, SessionColumn.plain] using hplain
  | profileName profile =>
    show valueOrNone row.profileName = profile
    rw [show row.profileName = profile from hcolumn]
    cases profile with
    | none => rfl
    | some profile => simpa [valueOrNone, SessionColumn.plain] using hplain

omit [DecidableEq T] in
/-- What is in between two steps is in between an older and a newer one. -/
theorem mem_append_cons_append {w e : SessionEntries T} {xs ys zs : List (SessionEntries T)}
    (h : w ∈ ys ++ zs) : w ∈ (xs ++ e :: ys) ++ zs := by
  rw [List.append_assoc]
  exact List.mem_append_right _ (List.mem_cons_of_mem _ h)

/-- **In a run that leaves the cache undisturbed, a get behind a set reads what was set.** -/
theorem read_your_writes {s₀ : SessionWorld} {acts : List (Act T SessionInput)} {p : SessionPool T}
    (hcache : s₀.cache = ∅) (hrun : Machine.Runs (SessionPool.step calls)
      (fun p a => p.undisturbed a = true) { state := s₀ } acts p) : p.ReadsYourWrites calls := by
  have h : p.Sound calls := sound_run hcache hrun
  rintro g key column time answer hcall ⟨newer, i, mid, u, older, htrace, ⟨hlabel, hanswers, rfl⟩,
    ⟨hinvalidate, hthread⟩, hbefore, hno⟩ hdone hlive
  obtain ⟨id, hid⟩ : ∃ id, PyText.int key = some id := by
    have hsteps := h.steps.trace newer i _ htrace
    rw [hinvalidate] at hsteps
    exact Option.isSome_iff_exists.mp hsteps
  -- what the get did last, it did behind the set
  obtain ⟨e, rest, now, hhistory, -, he⟩ := h.steps.threads g _ hdone key answer hcall rfl
  obtain ⟨n, o, hlast, heg, -⟩ := history_split hhistory
  obtain ⟨zs, rfl, rfl⟩ := append_cons_split_of_notMem (hlast.symm.trans htrace) fun hmem =>
    hbefore e hmem heg
  cases he with
  | inl hfill =>
    obtain ⟨n', f, o', heq, hfg, -, rfl, hfails, -⟩ := h.read hlast hfill
    obtain ⟨zs', rfl, rfl⟩ := append_cons_split_of_notMem heq.symm fun hmem =>
      hbefore f hmem (hfg.trans heg)
    have hread : p.trace = (n ++ e :: n') ++ f :: ((zs' ++ i :: mid) ++ u :: older) := by
      simp [hlast]
    refine h.fresh hread hid ⟨hlabel, hanswers⟩ (fun w hw => hno w ?_ id hid) hfails hlive
    exact mem_append_cons_append (mem_append_cons_append hw)
  | inr hhit =>
    obtain ⟨hlookup, hhit⟩ := hhit
    obtain ⟨entry, hentry, rfl⟩ := Option.map_eq_some_iff.mp hhit
    -- what the get found was put there behind the set
    obtain ⟨newer', c, older', now', heq, hfill, -, hkept⟩ :=
      (h.traced.before n e _ hlast).1.cache key entry (Option.filter_eq_some_iff.mp hentry).1
    obtain ⟨zs', rfl, rfl⟩ | ⟨rfl, -⟩ | ⟨zs', rfl, -⟩ := append_cons_split heq
    · have hfilled : p.trace = (n ++ e :: newer') ++ c :: (zs' ++ i :: (mid ++ u :: older)) := by
        simp [hlast]
      obtain ⟨n', f, o', heq', -, hfetch, hstate, hfails, hsince⟩ := h.read hfilled hfill
      have hsplit : (zs' ++ i :: mid) ++ u :: older = n' ++ f :: o' := by simpa using heq'
      obtain ⟨m, hm, rfl⟩ | ⟨rfl, -⟩ | ⟨zs₃, rfl, -⟩ := append_cons_split hsplit
      · rw [hstate]
        have hread : p.trace = (n ++ e :: newer' ++ c :: n') ++ f :: (m ++ u :: older) := by
          simp [hfilled, heq']
        refine h.fresh hread hid ⟨hlabel, hanswers⟩ (fun w hw => hno w ?_ id hid) hfails hlive
        have hmem : w ∈ zs' ++ i :: mid := by
          rw [hm]
          exact List.mem_append_right _ (List.mem_cons_of_mem _ hw)
        exact mem_append_cons_append (mem_append_cons_append hmem)
      · rw [hlabel] at hfetch
        exact absurd hfetch (by simp)
      -- it was read before the set wrote
      · exact absurd hlabel (hsince i (by simp) hinvalidate u (by simp) hthread.symm key column)
    · rw [hinvalidate] at hfill
      exact absurd hfill (by simp)
    · exact absurd hinvalidate (hkept i (by simp))

end Reads

namespace SlowReader

inductive Caller where
  | reader
  | writer
  | behind
deriving DecidableEq

/-- A get, a set of another version, and a get behind the set. -/
def call : Caller → SessionCall
  | .reader => .getSessionState "1"
  | .writer => .setActiveVersion "1" "17.0"
  | .behind => .getSessionState "1"

def world : SessionWorld where
  rows := AList.singleton 1 { odooVersion := some "16.0", updatedAt := 0 }

def steps (n : Nat) (t : Caller) : List (Act Caller SessionInput) := List.replicate n (.take t {})

/-- One after the other. -/
def inTurn : List (Act Caller SessionInput) :=
  .begin .reader :: steps 4 .reader ++ .begin .writer :: steps 2 .writer ++
    .begin .behind :: steps 4 .behind

/-- The reader has its answer from the table when the set begins, and puts it in the cache when the
    set has returned. -/
def slow : List (Act Caller SessionInput) :=
  .begin .reader :: steps 3 .reader ++ .begin .writer :: steps 2 .writer ++ steps 1 .reader ++
    .begin .behind :: steps 2 .behind

/-- What these actions leave, where `free` or not disturbed. -/
def after (acts : List (Act Caller SessionInput)) (free : Bool) : SessionPool Caller :=
  (Machine.replay (SessionPool.step call) (fun p a => free || p.undisturbed a) acts
    { state := world }).getD { state := world }

theorem run_after (acts : List (Act Caller SessionInput)) (free : Bool)
    (h : (Machine.replay (SessionPool.step call) (fun p a => free || p.undisturbed a) acts
      { state := world }).isSome) :
    Machine.Runs (SessionPool.step call) (fun p a => (free || p.undisturbed a) = true)
      { state := world } acts (after acts free) := by
  obtain ⟨p, hp⟩ := Option.isSome_iff_exists.mp h
  rw [after, hp]
  exact Machine.runs_of_replay hp

/-- One after the other, the second get is told what was set. -/
theorem read_your_writes_inTurn :
    (after inTurn false).threads .behind = some (.done (.state (some ⟨"1", some "17.0", none⟩))) ∧
      (after inTurn false).ReadsYourWrites call :=
  ⟨rfl, read_your_writes rfl ((run_after inTurn false (by decide)).imp fun _ _ => id)⟩

/-- **Behind the slow reader, the second get is told what was there before the set.** -/
theorem read_your_writes_fails :
    Machine.Runs (SessionPool.step call) (fun _ _ => True) { state := world } slow
      (after slow true) ∧ ¬(after slow true).ReadsYourWrites call := by
  refine ⟨(run_after slow true (by decide)).imp fun _ _ _ => trivial, fun h => ?_⟩
  have hset : SetBefore (after slow true).trace .behind "1" (.odooVersion "17.0") 0 := by
    refine ⟨(after slow true).trace.take 3, ⟨.writer, .invalidate "1", {}, _⟩, [],
      ⟨.writer, .upsert "1" (.odooVersion "17.0"), {}, _⟩, (after slow true).trace.drop 5, rfl,
      ⟨rfl, rfl, rfl⟩, ⟨rfl, rfl⟩, ?_, ?_⟩
    · decide
    · intro e he id _ hwrites
      obtain ⟨key, column, hlabel, -⟩ := hwrites
      have hmem := List.mem_map_of_mem (f := Entry.label) he
      rw [hlabel] at hmem
      exact absurd hmem nofun
  obtain ⟨state, hstate, hversion⟩ := h .behind "1" (.odooVersion "17.0") 0
    (some ⟨"1", some "16.0", none⟩) rfl hset rfl (by decide)
  rw [← Option.some.inj hstate] at hversion
  exact absurd hversion (by simp [SessionColumn.InState])

end SlowReader

end OdooSemantic
