import OdooSemantic.Proof.ReadYourWrites

/-!
# When a session is over

A session goes out of date 24 hours after the last set of its key. Which column was set does not
matter: version and profile share one `updated_at`, so the profile keeps the version alive and the
version the profile. And the cache goes on for up to a minute with what it was told in time.

Behind those 24 hours and that minute the key has no state any more, until it is set again
(`session_expires`).
-/

namespace OdooSemantic

open KeyedStore Threads

section Statements

variable {T : Type}

/-- The step writes the row of the key. -/
def SetsRow (id : Int) (e : SessionEntries T) : Prop :=
  ∃ key column, e.label = .upsert key column ∧ PyText.int key = some id ∧ e.input.fails = false

/-- At this time, nobody has written the row for 24 hours and a minute. -/
def Idle (s₀ : SessionWorld) (trace : List (SessionEntries T)) (key : String) (time : Nat) : Prop :=
  ∀ id, PyText.int key = some id →
    (∀ row, s₀.rows.lookup id = some row → row.updatedAt + sessionTtl + cacheTtl ≤ time) ∧
    ∀ u ∈ trace, SetsRow id u → SessionEntries.time u + sessionTtl + cacheTtl ≤ time

/-- **A get that begins when the key has been idle for so long finds no state.** -/
def SessionPool.Expires (calls : T → SessionCall) (s₀ : SessionWorld) (p : SessionPool T) : Prop :=
  ∀ g key answer, calls g = .getSessionState key → p.threads g = some (.done (.state answer)) →
    (∀ e ∈ p.trace, e.thread = g → Idle s₀ p.trace key (SessionEntries.time e)) → answer = none

/-- The step sets the version of the key. -/
def SessionEntries.setsVersion (key : String) (e : SessionEntries T) : Bool :=
  match e.label with
  | .upsert key' (.odooVersion _) => key' = key
  | _ => false

/-- A get does not tell a version that was set last more than 24 hours before. -/
def SessionPool.VersionExpires (calls : T → SessionCall) (p : SessionPool T) : Prop :=
  ∀ g key state, calls g = .getSessionState key →
    p.threads g = some (.done (.state (some state))) →
    (∀ e ∈ p.trace, e.thread = g → ∀ u ∈ p.trace, SessionEntries.setsVersion key u = true →
      SessionEntries.time u + sessionTtl < SessionEntries.time e) → state.odooVersion = none

/-- The process and the server have one clock. -/
def OneClock : Act T SessionInput → Prop
  | .begin _ => True
  | .take _ x => x.monotonic = x.wall

instance : (a : Act T SessionInput) → Decidable (OneClock a)
  | .begin _ => .isTrue trivial
  | .take _ x => inferInstanceAs (Decidable (x.monotonic = x.wall))

end Statements

section Ages

variable {T : Type}

/-- The clocks go alike, and each row has the age of its last set. -/
structure SessionAges (s₀ : SessionWorld) (trace : List (SessionEntries T)) (s : SessionWorld) :
    Prop where
  clocks : s.monotonic + s₀.wall = s.wall + s₀.monotonic
  rows : ∀ id row, s.rows.lookup id = some row →
    (∃ row₀, s₀.rows.lookup id = some row₀ ∧ row₀.updatedAt = row.updatedAt) ∨
      ∃ u ∈ trace, SetsRow id u ∧ SessionEntries.time u = row.updatedAt

theorem ages_start (s₀ : SessionWorld) : SessionAges s₀ ([] : List (SessionEntries T)) s₀ where
  clocks := Nat.add_comm _ _
  rows _ row hrow := Or.inl ⟨row, hrow, rfl⟩

theorem monotonic_effect (label : SessionStatement) (x : SessionInput) (s : SessionWorld) :
    (label.effect x s).monotonic = s.monotonic + x.monotonic := by
  cases label with
  | upsert key column =>
    simp only [SessionStatement.effect]
    split
    · rfl
    · unfold SessionWorld.upsert
      split <;> rfl
  | _ => rfl

theorem ages_step {s₀ : SessionWorld} {e : SessionEntries T} {trace : List (SessionEntries T)}
    (h : SessionAges s₀ trace e.before) (hclock : e.input.monotonic = e.input.wall) :
    SessionAges s₀ (e :: trace) (e.after SessionStatement.effect) := by
  refine ⟨?_, fun id row hrow => ?_⟩
  · have hclocks := h.clocks
    rw [Entry.after, monotonic_effect, wall_effect]
    omega
  · have hold : e.before.rows.lookup id = some row →
        (∃ row₀, s₀.rows.lookup id = some row₀ ∧ row₀.updatedAt = row.updatedAt) ∨
          ∃ u ∈ e :: trace, SetsRow id u ∧ SessionEntries.time u = row.updatedAt := by
      intro hlookup
      cases h.rows id row hlookup with
      | inl hstart => exact Or.inl hstart
      | inr hset =>
        obtain ⟨u, hu, hrest⟩ := hset
        exact Or.inr ⟨u, List.mem_cons_of_mem _ hu, hrest⟩
    unfold Entry.after at hrow
    by_cases hupsert : ∃ key column, e.label = .upsert key column
    · obtain ⟨key, column, hlabel⟩ := hupsert
      rw [hlabel] at hrow
      simp only [SessionStatement.effect] at hrow
      split at hrow
      · exact hold hrow
      · rename_i hanswers
        by_cases hid : PyText.int key = some id
        · obtain ⟨row', hlookup, -, hupdated, -⟩ :=
            @lookup_upsert_session (e.before.advance e.input) key column id hid
          rw [hlookup] at hrow
          obtain rfl := Option.some.inj hrow
          exact Or.inr ⟨e, List.mem_cons_self,
            ⟨key, column, hlabel, hid, Bool.eq_false_iff.mpr hanswers⟩, hupdated.symm⟩
        · rw [lookup_upsert_session_ne hid] at hrow
          exact hold hrow
    · rw [rows_effect_of_not_upsert e.input e.before fun key column h => hupsert ⟨key, column, h⟩]
        at hrow
      exact hold hrow

end Ages

section Expiry

variable {T : Type} [DecidableEq T] {calls : T → SessionCall} {s₀ : SessionWorld}
  {p : SessionPool T}

omit [DecidableEq T] in
/-- A table that still answers has been written within 24 hours, and so was read a minute or more
    before the key is idle. -/
theorem read_of_idle {f : SessionEntries T} {older : List (SessionEntries T)}
    (hages : SessionAges s₀ older f.before) (holder : ∀ e ∈ older, e ∈ p.trace) {key : String}
    {time : Nat} (hidle : Idle s₀ p.trace key time) {state : McpSessionState}
    (hanswer : f.input.answer f.before key = some state) :
    SessionEntries.time f + cacheTtl < time := by
  unfold SessionInput.answer at hanswer
  split at hanswer
  · exact absurd hanswer (by simp)
  · obtain ⟨row, hrow, -⟩ := Option.map_eq_some_iff.mp hanswer
    obtain ⟨hrow, hlive⟩ := Option.filter_eq_some_iff.mp hrow
    obtain ⟨id, hid, hlookup⟩ := Option.bind_eq_some_iff.mp hrow
    have hlive : SessionEntries.time f < row.updatedAt + sessionTtl := of_decide_eq_true hlive
    have hold : row.updatedAt + sessionTtl + cacheTtl ≤ time := by
      cases hages.rows id row hlookup with
      | inl hstart =>
        obtain ⟨row₀, hrow₀, heq⟩ := hstart
        exact heq ▸ (hidle id hid).1 row₀ hrow₀
      | inr hset =>
        obtain ⟨u, hu, hset, heq⟩ := hset
        exact heq ▸ (hidle id hid).2 u (holder u hu) hset
    omega

/-- **Behind its 24 hours and the minute of the cache, a key has no state until it is set again.** -/
theorem session_expires {acts : List (Act T SessionInput)} (hcache : s₀.cache = ∅)
    (hrun : Machine.Runs (SessionPool.step calls) (fun _ a => OneClock a) { state := s₀ } acts p) :
    p.Expires calls s₀ := by
  have hsteps : p.Obeys (fun _ => SessionStatement.Grounded) fun t => (calls t).Answers :=
    obeys_run (fun t => keeps_program t (calls t)) hrun
  have htraced : p.Traced (fun trace s => SessionTracks trace s ∧ SessionAges s₀ trace s)
      fun e _ => e.input.monotonic = e.input.wall := by
    refine traced_run ⟨session_tracks_start hcache, ages_start s₀⟩ (fun e trace h hclock => ?_) ?_
      hrun
    · exact ⟨session_tracks_step h.1, ages_step h.2 hclock⟩
    · exact fun _ _ _ _ _ hclock _ => hclock
  -- the clock of the process, told by that of the server
  have hclock : ∀ e ∈ p.trace, SessionEntries.clock e + s₀.wall =
      SessionEntries.time e + s₀.monotonic := by
    intro e he
    obtain ⟨newer, older, heq⟩ := List.append_of_mem he
    obtain ⟨⟨-, hages⟩, hinput⟩ := htraced.before newer e older heq
    have hclocks := hages.clocks
    unfold SessionEntries.clock SessionEntries.time
    omega
  intro g key answer hcall hdone hidle
  cases answer with
  | none => rfl
  | some state =>
    exfalso
    obtain ⟨e, rest, now, hhistory, ⟨c, hc, rfl⟩, he⟩ := hsteps.threads g _ hdone key _ hcall rfl
    obtain ⟨n, o, htrace, heg, -, rfl⟩ := history_split hhistory
    obtain ⟨hc, hcg⟩ := mem_history.mp hc
    have hcmem : c ∈ p.trace := by
      rw [htrace]
      exact List.mem_append_right _ (List.mem_cons_of_mem _ hc)
    cases he with
    | inl hfill =>
      have hfilled := hsteps.trace n e o htrace
      rw [hfill] at hfilled
      obtain ⟨f, rest, hbefore, -, hstate, -⟩ := hfilled
      obtain ⟨n', o', rfl, hfe, -⟩ := history_split hbefore
      have hread : p.trace = (n ++ e :: n') ++ f :: o' := by simp [htrace]
      have hlate := read_of_idle (htraced.before _ f o' hread).1.2
        (fun w hw => by simp [hread, hw]) (hidle f (by simp [hread]) (hfe.trans heg)) hstate.symm
      omega
    | inr hhit =>
      obtain ⟨-, hhit⟩ := hhit
      obtain ⟨entry, hentry, hstate⟩ := Option.map_eq_some_iff.mp hhit
      obtain ⟨hentry, hgood⟩ := Option.filter_eq_some_iff.mp hentry
      have hgood : SessionEntries.clock c < entry.expiresAt := of_decide_eq_true hgood
      obtain ⟨newer, w, older, now, rfl, hfill, hexpires, -⟩ :=
        (htraced.before n e o htrace).1.1.cache key entry hentry
      have hfilled := hsteps.trace (n ++ e :: newer) w older (by simp [htrace])
      rw [hfill] at hfilled
      obtain ⟨f, rest, hbefore, -, hread, d, hd, rfl⟩ := hfilled
      obtain ⟨n', o', rfl, -, -, rfl⟩ := history_split hbefore
      have hread' : p.trace = (n ++ e :: newer ++ w :: n') ++ f :: o' := by simp [htrace]
      obtain ⟨htracks, hages⟩ := (htraced.before _ f o' hread').1
      have hlate := read_of_idle hages (fun w hw => by simp [hread', hw]) (hidle c hcmem hcg)
        (hread.symm.trans hstate)
      -- the cache counts its minute from before the read
      have hearly : SessionEntries.time d ≤ f.before.wall := htracks.time d (mem_history.mp hd).1
      have hbehind : f.before.wall ≤ SessionEntries.time f := Nat.le_add_right _ _
      have hreading := hclock c hcmem
      have hfirst := hclock d (by simp [hread', (mem_history.mp hd).1])
      omega

end Expiry

namespace OneDay

inductive Caller where
  | version
  | profile
  | again
  | early
  | late
deriving DecidableEq

/-- Sets of one key, and gets. -/
def call : Caller → SessionCall
  | .version => .setActiveVersion "1" "17.0"
  | .profile => .setActiveProfile "1" (some "base")
  | .again => .setActiveProfile "1" (some "shop")
  | .early => .getSessionState "1"
  | .late => .getSessionState "1"

/-- A call as soon as so many seconds have gone by. -/
def after (seconds n : Nat) (t : Caller) : List (Act Caller SessionInput) :=
  .begin t :: .take t { monotonic := seconds * 1000000, wall := seconds * 1000000 } ::
    List.replicate n (.take t {})

/-- A version, and nothing for a day and two minutes. -/
def idle : List (Act Caller SessionInput) := after 0 1 .version ++ after (24 * 3600 + 120) 3 .late

/-- A version, a profile 23 hours later, another one 30 hours later, and a get on the third day. -/
def alive : List (Act Caller SessionInput) :=
  after 0 1 .version ++ after (23 * 3600) 1 .profile ++ after (7 * 3600) 1 .again ++
    after (20 * 3600) 3 .late

/-- A get in the last second of the day, and one half a minute later. -/
def cached : List (Act Caller SessionInput) :=
  after 0 1 .version ++ after (24 * 3600 - 1) 3 .early ++ after 31 1 .late

def run (acts : List (Act Caller SessionInput)) : Option (SessionPool Caller) :=
  Machine.replay (SessionPool.step call) (fun _ a => OneClock a) acts { state := {} }

/-- What these actions leave. -/
def pool (acts : List (Act Caller SessionInput)) : SessionPool Caller :=
  (run acts).getD { state := {} }

theorem runs_pool (acts : List (Act Caller SessionInput)) (h : (run acts).isSome) :
    Machine.Runs (SessionPool.step call) (fun _ a => OneClock a) { state := {} } acts
      (pool acts) := by
  obtain ⟨p, hp⟩ := Option.isSome_iff_exists.mp h
  rw [pool, hp]
  exact (Machine.runs_of_replay hp).imp fun _ _ => of_decide_eq_true

/-- A day and two minutes later, the version is gone. -/
theorem session_expires_idle :
    (pool idle).threads .late = some (.done (.state none)) ∧ (pool idle).Expires call {} :=
  ⟨rfl, session_expires rfl (runs_pool idle (by decide))⟩

/-- **A day is not the end of a version**: the profiles have kept it, or the cache has it still. -/
theorem version_outlives_day :
    (Machine.Runs (SessionPool.step call) (fun _ a => OneClock a) { state := {} } alive
      (pool alive) ∧ ¬(pool alive).VersionExpires call) ∧
    Machine.Runs (SessionPool.step call) (fun _ a => OneClock a) { state := {} } cached
      (pool cached) ∧ ¬(pool cached).VersionExpires call := by
  refine ⟨⟨runs_pool alive (by decide), fun h => ?_⟩, runs_pool cached (by decide), fun h => ?_⟩
  · have hnone := h .late "1" ⟨"1", some "17.0", some "shop"⟩ rfl rfl (by decide)
    exact absurd hnone (by simp)
  · have hnone := h .late "1" ⟨"1", some "17.0", none⟩ rfl rfl (by decide)
    exact absurd hnone (by simp)

end OneDay

end OdooSemantic
