import OdooSemantic.Mcp.AuthMiddleware

/-!
# When a key stops working

A deactivated key is in no answer of the database, and the invalidation takes it out of the
cache. What is left are the requests under way: one that has read the key before the `UPDATE`
writes it into the cache when it comes to that, and if by then the invalidation has run, nobody
will take it out again. For the next five minutes the cache answers with it.

`FillsFresh` excludes that one step, and `revocation_effective` says that nothing else is in the
way.
-/

namespace OdooSemantic

open KeyedStore

/-! ## The statements -/

theorem of_activeKey {db : AuthDb} {now keyId : Nat} {h : String}
    (hkey : db.activeKey now h = some keyId) :
    ∃ row, db.apiKeys.lookup keyId = some row ∧ row.active = true := by
  obtain ⟨⟨id, row⟩, hfind, rfl⟩ := Option.map_eq_some_iff.mp hkey
  obtain ⟨hrow, hfits⟩ := of_findWhere hfind
  simp only [Bool.and_eq_true] at hfits
  exact ⟨row, hrow, hfits.1.2⟩

theorem lookup_deactivateApiKey {db : AuthDb} {owner : Option Nat} {keyId k : Nat}
    (h : db.deactivates owner keyId = true) :
    (db.deactivateApiKey owner keyId).apiKeys.lookup k =
      if k = keyId then (db.apiKeys.lookup keyId).map fun key => { key with active := false }
      else db.apiKeys.lookup k := by
  rw [AuthDb.deactivateApiKey, if_pos h, lookup_modify]

namespace KeyCache

theorem of_get {c : KeyCache} {now keyId : Nat} {h : String}
    (hget : c.get now h = some (some keyId)) : c.keyIds.lookup h = some (some keyId) := by
  unfold get at hget
  split at hget
  · exact Option.join_eq_some_iff.mp (Option.some.inj hget)
  · exact absurd hget (by simp)

theorem of_lookup_invalidateByKeyId {c : KeyCache} {keyId k : Nat} {h : String}
    (hk : (c.invalidateByKeyId keyId).keyIds.lookup h = some (some k)) :
    k ≠ keyId ∧ c.keyIds.lookup h = some (some k) := by
  simp only [invalidateByKeyId, lookup_eraseWhere] at hk
  split at hk
  · exact absurd hk (by simp)
  · rename_i hstale
    exact ⟨fun heq => hstale (by simp [hk, heq]), hk⟩

end KeyCache

namespace KeyChecks

variable {R : Type}

/-! ## Before and after -/

/-- The key has been deactivated, and after that the invalidation has returned. -/
def Revoked (keyId : Nat) : List (KeyEvent R) → Prop :=
  Machine.Since (fun e older => e = .invalidated keyId ∧ .deactivated keyId ∈ older) fun _ => False

/-- The request has begun when the key was revoked. -/
def TooLate (r : R) (keyId : Nat) : List (KeyEvent R) → Prop :=
  Machine.Since (fun e older => e = .began r ∧ Revoked keyId older) fun _ => False

theorem revoked_append {keyId : Nat} {older : List (KeyEvent R)}
    (h : .deactivated keyId ∈ older) (newer : List (KeyEvent R)) :
    Revoked keyId (newer ++ .invalidated keyId :: older) :=
  Machine.Since.append (.here ⟨rfl, h⟩) fun _ _ => id

theorem tooLate_append {r : R} {keyId : Nat} {older newer : List (KeyEvent R)}
    (h : .deactivated keyId ∈ older) (hr : .began r ∈ newer) :
    TooLate r keyId (newer ++ .invalidated keyId :: older) := by
  obtain ⟨latest, earlier, rfl⟩ := List.mem_iff_append.mp hr
  rw [List.append_assoc, List.cons_append]
  exact Machine.Since.append (.here ⟨rfl, revoked_append h earlier⟩) fun _ _ => id

theorem Revoked.deactivated {keyId : Nat} {trace : List (KeyEvent R)} (h : Revoked keyId trace) :
    .deactivated keyId ∈ trace := by
  obtain ⟨newer, e, older, rfl, ⟨-, hmem⟩, -⟩ := Machine.Since.split h
  exact List.mem_append_right _ (List.mem_cons_of_mem _ hmem)

theorem TooLate.revoked {r : R} {keyId : Nat} {trace : List (KeyEvent R)}
    (h : TooLate r keyId trace) : Revoked keyId trace := by
  obtain ⟨newer, e, older, rfl, ⟨-, hrevoked⟩, -⟩ := Machine.Since.split h
  exact Machine.Since.append (.later hrevoked id) fun _ _ => id

theorem TooLate.began_mem {r : R} {keyId : Nat} {trace : List (KeyEvent R)}
    (h : TooLate r keyId trace) : .began r ∈ trace := by
  obtain ⟨newer, e, older, rfl, ⟨rfl, -⟩, -⟩ := Machine.Since.split h
  simp

/-- Only an invalidation revokes. -/
theorem Revoked.of_cons {keyId : Nat} {e : KeyEvent R} {trace : List (KeyEvent R)}
    (h : Revoked keyId (e :: trace)) (he : e ≠ .invalidated keyId) : Revoked keyId trace :=
  Machine.Since.of_cons h fun h' => he h'.1

/-- Only a beginning is too late. -/
theorem TooLate.of_cons {r : R} {keyId : Nat} {e : KeyEvent R} {trace : List (KeyEvent R)}
    (h : TooLate r keyId (e :: trace)) (he : e ≠ .began r) : TooLate r keyId trace :=
  Machine.Since.of_cons h fun h' => he h'.1

/-- **No fill is stale**: what a request has read is not revoked when it writes it down. -/
def FillsFresh (s : KeyChecks R) : KeyAction R → Prop
  | .fill r => ∀ keyId, s.phase r = .verified (some keyId) → ¬Revoked keyId s.trace
  | _ => True

/-! ## What every such run keeps -/

structure Revoking (s : KeyChecks R) : Prop where
  sequence : ∀ keyId ∈ s.db.apiKeys, keyId < s.sequence
  inactive : ∀ keyId, .deactivated keyId ∈ s.trace → keyId < s.sequence ∧
    ∀ row, s.db.apiKeys.lookup keyId = some row → row.active = false
  uncached : ∀ keyId, Revoked keyId s.trace → ∀ h, s.cache.keyIds.lookup h ≠ some (some keyId)
  waiting : ∀ r, s.phase r = .waiting → .began r ∉ s.trace ∧ ∀ keyId, .authenticated r keyId ∉ s.trace
  refused : ∀ r keyId, TooLate r keyId s.trace → s.phase r ≠ .found keyId ∧
    s.phase r ≠ .verified (some keyId) ∧ .authenticated r keyId ∉ s.trace

theorem revoking_start (db : AuthDb) : Revoking (start db : KeyChecks R) where
  sequence := fun _ h => lt_nextKey h
  inactive := fun _ h => absurd h (by simp [start])
  uncached := fun _ h => absurd h.deactivated (by simp [start])
  waiting := fun _ _ => by simp [start]
  refused := fun _ _ h => absurd h.began_mem (by simp [start])

/-- A revoked key is in no answer of the database. -/
theorem Revoking.activeKey_ne {s : KeyChecks R} (hs : s.Revoking) {r : R} {keyId now : Nat}
    {h : String} (hkey : s.db.activeKey now h = some keyId) : ¬TooLate r keyId s.trace := by
  intro hlate
  obtain ⟨row, hrow, hactive⟩ := of_activeKey hkey
  have hinactive := (hs.inactive keyId hlate.revoked.deactivated).2 row hrow
  exact absurd (hactive.symm.trans hinactive) (by simp)

theorem revoking_invalidate {s : KeyChecks R} {keyId : Nat} (hs : s.Revoking) :
    ({ s with cache := s.cache.invalidateByKeyId keyId, trace := .invalidated keyId :: s.trace } :
      KeyChecks R).Revoking := by
  refine ⟨hs.sequence, fun k hk => hs.inactive k (by simpa using hk), fun k hk h hcached => ?_,
    fun r hr => by simpa using hs.waiting r hr, fun r k hk => ?_⟩
  · obtain ⟨hne, hcached⟩ := KeyCache.of_lookup_invalidateByKeyId hcached
    exact hs.uncached k (hk.of_cons (by simp [Ne.symm hne])) h hcached
  · simpa using hs.refused r k (hk.of_cons (by simp))

theorem revoking_deleteUser {s : KeyChecks R} {userId : Nat} (hs : s.Revoking) :
    ({ s with db := s.db.deleteKeysOf userId } : KeyChecks R).Revoking := by
  refine { hs with sequence := fun k hk => ?_, inactive := fun k hk => ?_ }
  · exact hs.sequence k (mem_eraseWhere.mp hk).1
  · obtain ⟨hlt, hrow⟩ := hs.inactive k hk
    refine ⟨hlt, fun row hrow' => hrow row ?_⟩
    simp only [AuthDb.deleteKeysOf, lookup_eraseWhere] at hrow'
    split at hrow'
    · exact absurd hrow' (by simp)
    · exact hrow'

/-- A request that is authenticated. -/
theorem Revoking.authenticated {s : KeyChecks R} (hs : s.Revoking) {r : R} {keyId : Nat}
    (hphase : s.phase r ≠ .waiting) (hlate : ¬TooLate r keyId s.trace) :
    (s.record (.authenticated r keyId)).Revoking := by
  refine ⟨hs.sequence, fun k hk => hs.inactive k (by simpa [record] using hk),
    fun k hk => hs.uncached k (hk.of_cons (by simp)), fun r' hr' => ?_, fun r' k hk => ?_⟩
  · have hne : r' ≠ r := fun heq => hphase (heq ▸ hr')
    simpa [record, hne] using hs.waiting r' hr'
  · have hk : TooLate r' k s.trace := hk.of_cons (by simp)
    obtain ⟨hfound, hverified, hauth⟩ := hs.refused r' k hk
    refine ⟨hfound, hverified, fun hmem => ?_⟩
    cases List.mem_cons.mp hmem with
    | inl heq =>
      injection heq with hr hkey
      exact hlate (hr ▸ hkey ▸ hk)
    | inr hold => exact hauth hold

variable [DecidableEq R]

theorem become_phase (s : KeyChecks R) (r r' : R) (phase : KeyPhase) :
    (s.become r phase).phase r' = if r' = r then phase else s.phase r' := by
  by_cases h : r' = r <;> simp [KeyChecks.become, h]

theorem Revoking.become {s : KeyChecks R} (hs : s.Revoking) {r : R} {phase : KeyPhase}
    (hwaiting : phase ≠ .waiting)
    (hlate : ∀ keyId, phase = .found keyId ∨ phase = .verified (some keyId) →
      ¬TooLate r keyId s.trace) : (s.become r phase).Revoking := by
  refine { hs with waiting := fun r' hr' => ?_, refused := fun r' keyId h => ?_ }
  · rw [become_phase] at hr'
    split at hr'
    · exact absurd hr' hwaiting
    · exact hs.waiting r' hr'
  · obtain ⟨hfound, hverified, hauth⟩ := hs.refused r' keyId h
    rw [become_phase]
    split
    · rename_i heq
      subst heq
      exact ⟨fun h' => hlate keyId (Or.inl h') h, fun h' => hlate keyId (Or.inr h') h, hauth⟩
    · exact ⟨hfound, hverified, hauth⟩

/-- A request that comes to an answer without a key. -/
theorem Revoking.answered {s : KeyChecks R} (hs : s.Revoking) (r : R) (answer : McpAnswer) :
    (s.become r (.answered answer)).Revoking :=
  hs.become (by simp) fun keyId h => by simp at h

theorem Revoking.letIn {s : KeyChecks R} (hs : s.Revoking) (d : McpDeployment) {r : R}
    {keyId : Option Nat} (hphase : s.phase r ≠ .waiting)
    (hlate : ∀ k, keyId = some k → ¬TooLate r k s.trace) : (s.letIn d r keyId).Revoking := by
  cases keyId with
  | none => exact hs.answered r _
  | some k =>
    have hauth := hs.authenticated hphase (hlate k rfl)
    exact { hauth.answered r _ with }

/-! ## The steps -/

theorem Revoking.began {s : KeyChecks R} (hs : s.Revoking) {r : R} (hr : s.phase r = .waiting) :
    ((s.record (.began r)).become r .missed).Revoking := by
  refine ⟨hs.sequence, fun k hk => hs.inactive k ?_,
    fun k hk => hs.uncached k (hk.of_cons (by simp)), fun r' hr' => ?_, fun r' k hk => ?_⟩
  · simpa [record, KeyChecks.become] using hk
  · rw [become_phase] at hr'
    split at hr'
    · exact absurd hr' (by simp)
    · rename_i hne
      simpa [record, KeyChecks.become, hne] using hs.waiting r' hr'
  · rw [become_phase]
    split
    · rename_i heq
      subst heq
      exact ⟨by simp, by simp, by simpa [record, KeyChecks.become] using (hs.waiting r' hr).2 k⟩
    · rename_i hne
      have hk : TooLate r' k s.trace := hk.of_cons (by simp [Ne.symm hne])
      simpa [record, KeyChecks.become] using hs.refused r' k hk

theorem revoking_begin {s : KeyChecks R} {d : McpDeployment} {requests : R → McpHttpRequest}
    {r : R} (hr : s.phase r = .waiting) (hs : s.Revoking) : (s.begin d requests r).Revoking := by
  have hbegan := hs.began hr
  unfold KeyChecks.begin
  split
  · exact hbegan.answered r _
  · split
    · exact hbegan.answered r _
    · dsimp only
      split
      · rename_i keyId hget
        refine hbegan.letIn d (by simp [become_phase]) fun k hk hlate => ?_
        -- the cache has answered with a key, so that key has not been revoked
        subst hk
        exact hbegan.uncached k hlate.revoked _ (KeyCache.of_get hget)
      · exact hbegan

theorem revoking_select {s s' : KeyChecks R} {d : McpDeployment} {requests : R → McpHttpRequest}
    {r : R} {now : Nat} {failure : Option VerifyFailure}
    (hstep : s.step d requests (.select r now failure) = some s') (hs : s.Revoking) :
    s'.Revoking := by
  have hfound : ∀ {h : String} {keyId : Nat}, s.db.activeKey now h = some keyId →
      (s.become r (.found keyId)).Revoking := by
    intro h keyId hkey
    refine hs.become (by simp) fun k hk => ?_
    obtain rfl : keyId = k := by simpa using hk
    exact hs.activeKey_ne hkey
  unfold KeyChecks.step at hstep
  dsimp only at hstep
  split at hstep
  · split at hstep <;> obtain rfl := Option.some.inj hstep
    · exact hfound ‹_›
    · exact hs.become (by simp) (by simp)
  · split at hstep <;> obtain rfl := Option.some.inj hstep
    · exact hfound ‹_›
    · exact hs.become (by simp) (by simp)
  · obtain rfl := Option.some.inj hstep
    exact hs.answered r _
  · obtain rfl := Option.some.inj hstep
    exact hs.answered r _
  · exact absurd hstep (by simp)

theorem revoking_touch {s s' : KeyChecks R} {d : McpDeployment} {requests : R → McpHttpRequest}
    {r : R} {failure : Option VerifyFailure}
    (hstep : s.step d requests (.touch r failure) = some s') (hs : s.Revoking) : s'.Revoking := by
  unfold KeyChecks.step at hstep
  dsimp only at hstep
  split at hstep
  · rename_i keyId hphase
    obtain rfl := Option.some.inj hstep
    refine hs.become (by simp) fun k hk hlate => ?_
    obtain rfl : keyId = k := by simpa using hk
    exact (hs.refused r keyId hlate).1 hphase
  · obtain rfl := Option.some.inj hstep
    exact hs.answered r _
  · exact absurd hstep (by simp)

/-- The only step that puts an id into the cache. -/
theorem revoking_fill {s s' : KeyChecks R} {d : McpDeployment} {requests : R → McpHttpRequest}
    {r : R} (hstep : s.step d requests (.fill r) = some s') (hfresh : s.FillsFresh (.fill r))
    (hs : s.Revoking) : s'.Revoking := by
  unfold KeyChecks.step at hstep
  dsimp only at hstep
  split at hstep
  · rename_i keyId hphase
    obtain rfl := Option.some.inj hstep
    have hset : ({ s with cache := s.cache.set s.monotonic (d.hashKey (rawKey requests r)) keyId } :
        KeyChecks R).Revoking := by
      refine { hs with uncached := fun k hk h hcached => ?_ }
      simp only [KeyCache.set] at hcached
      by_cases heq : h = d.hashKey (rawKey requests r)
      · subst heq
        rw [AList.lookup_insert] at hcached
        obtain rfl := Option.some.inj hcached
        exact hfresh k hphase hk
      · rw [AList.lookup_insert_ne heq] at hcached
        exact hs.uncached k hk h hcached
    refine hset.letIn d (by simp [hphase]) fun k hk hlate => ?_
    subst hk
    exact (hs.refused r k hlate).2.1 hphase
  · exact absurd hstep (by simp)

theorem revoking_create {s s' : KeyChecks R} {d : McpDeployment} {requests : R → McpHttpRequest}
    {row : ApiKey} (hstep : s.step d requests (.create row) = some s') (hs : s.Revoking) :
    s'.Revoking := by
  obtain ⟨db, hinsert, rfl⟩ := Option.map_eq_some_iff.mp hstep
  unfold AuthDb.insertApiKey at hinsert
  split at hinsert
  · exact absurd hinsert (by simp)
  · obtain rfl := Option.some.inj hinsert
    refine { hs with sequence := fun k hk => ?_, inactive := fun k hk => ?_ }
    · cases (AList.mem_insert _).mp hk with
      | inl heq => exact heq ▸ Nat.lt_succ_self _
      | inr hold => exact Nat.lt_succ_of_lt (hs.sequence k hold)
    · obtain ⟨hlt, hrow⟩ := hs.inactive k hk
      refine ⟨Nat.lt_succ_of_lt hlt, fun row' hrow' => hrow row' ?_⟩
      rwa [AList.lookup_insert_ne (Nat.ne_of_lt hlt)] at hrow'

theorem revoking_deactivate {s s' : KeyChecks R} {d : McpDeployment}
    {requests : R → McpHttpRequest} {owner : Option Nat} {keyId : Nat}
    (hstep : s.step d requests (.deactivate owner keyId) = some s') (hs : s.Revoking) :
    s'.Revoking := by
  unfold KeyChecks.step at hstep
  dsimp only at hstep
  split at hstep
  · rename_i hmeets
    obtain rfl := Option.some.inj hstep
    have hmem : ∀ k, k ∈ (s.db.deactivateApiKey owner keyId).apiKeys → k ∈ s.db.apiKeys := by
      intro k hk
      rw [← AList.lookup_isSome, lookup_deactivateApiKey hmeets] at hk
      split at hk
      · rename_i heq
        rw [heq, ← AList.lookup_isSome]
        simpa using hk
      · exact AList.lookup_isSome.mp hk
    refine ⟨fun k hk => hs.sequence k (hmem k hk), fun k hk => ?_,
      fun k hk => hs.uncached k (hk.of_cons (by simp)), fun r hr => ?_, fun r k hk => ?_⟩
    · dsimp only
      rw [lookup_deactivateApiKey hmeets]
      by_cases heq : k = keyId
      · subst heq
        refine ⟨hs.sequence k (AList.lookup_isSome.mp ?_), fun row hrow => ?_⟩
        · unfold AuthDb.deactivates at hmeets
          cases hk : s.db.apiKeys.lookup k with
          | none => simp [hk] at hmeets
          | some row => rfl
        · rw [if_pos rfl] at hrow
          obtain ⟨row', -, rfl⟩ := Option.map_eq_some_iff.mp hrow
          rfl
      · rw [if_neg heq]
        exact hs.inactive k (by simpa [heq] using hk)
    · simpa using hs.waiting r hr
    · simpa using hs.refused r k (hk.of_cons (by simp))
  · obtain rfl := Option.some.inj hstep
    exact hs

theorem revoking_step {s s' : KeyChecks R} {d : McpDeployment} {requests : R → McpHttpRequest}
    {act : KeyAction R} (hstep : s.step d requests act = some s') (hfresh : s.FillsFresh act)
    (hs : s.Revoking) : s'.Revoking := by
  cases act with
  | tick seconds =>
    obtain rfl := Option.some.inj hstep
    exact { hs with }
  | begin r =>
    unfold KeyChecks.step at hstep
    dsimp only at hstep
    split at hstep
    · obtain rfl := Option.some.inj hstep
      exact revoking_begin ‹_› hs
    · exact absurd hstep (by simp)
  | select r now failure => exact revoking_select hstep hs
  | touch r failure => exact revoking_touch hstep hs
  | fill r => exact revoking_fill hstep hfresh hs
  | create row => exact revoking_create hstep hs
  | deactivate owner keyId => exact revoking_deactivate hstep hs
  | invalidate keyId =>
    obtain rfl := Option.some.inj hstep
    exact revoking_invalidate hs
  | deleteUser userId =>
    obtain rfl := Option.some.inj hstep
    exact revoking_deleteUser hs

/-- **A revoked key stays revoked**: where no fill is stale, a request that begins after a key has
    been deactivated and invalidated is not authenticated as that key. -/
theorem revocation_effective (d : McpDeployment) (requests : R → McpHttpRequest) (db : AuthDb)
    {acts : List (KeyAction R)} {s : KeyChecks R}
    (hrun : Machine.Runs (step d requests) FillsFresh (start db) acts s) :
    ∀ newer keyId older, s.trace = newer ++ .invalidated keyId :: older →
      .deactivated keyId ∈ older → ∀ r, .began r ∈ newer → .authenticated r keyId ∉ s.trace := by
  intro newer keyId older htrace hdead r hr
  have hs : s.Revoking :=
    hrun.invariant (fun _ _ _ hstep hfresh h => revoking_step hstep hfresh h) (revoking_start db)
  refine (hs.refused r keyId ?_).2.2
  rw [htrace]
  exact tooLate_append hdead hr

/-- A request that the cache answers. -/
theorem begin_of_hit {s : KeyChecks R} {d : McpDeployment} {requests : R → McpHttpRequest} {r : R}
    {rawKey : String} {keyId : Option Nat} (hpath : isPublicPath (requests r).path = false)
    (hkey : (requests r).rawKey = some rawKey) (hne : rawKey ≠ "")
    (hget : s.cache.get s.monotonic (d.hashKey rawKey) = some keyId) :
    s.begin d requests r = ((s.record (.began r)).become r .missed).letIn d r keyId := by
  have hfilter : (some rawKey).filter (· ≠ "") = some rawKey := by simp [hne]
  unfold KeyChecks.begin
  rw [if_neg (by simp [hpath]), hkey, hfilter]
  simp [record, KeyChecks.become, hget]

/-- A fill answers the next request with the same header, whatever has become of the key. -/
theorem authenticated_of_fill {s s' : KeyChecks R} {d : McpDeployment}
    {requests : R → McpHttpRequest} {r r' : R} {keyId : Nat} {rawKey : String}
    (hstep : s.step d requests (.fill r) = some s') (hphase : s.phase r = .verified (some keyId))
    (hkey : (requests r).rawKey = some rawKey) (hwaiting : s.phase r' = .waiting)
    (hkey' : (requests r').rawKey = some rawKey) (hne : rawKey ≠ "")
    (hpath : isPublicPath (requests r').path = false) :
    ∃ s'', s'.step d requests (.begin r') = some s'' ∧ .authenticated r' keyId ∈ s''.trace := by
  unfold KeyChecks.step at hstep
  simp only [hphase, Option.some.injEq] at hstep
  subst hstep
  have hr : r' ≠ r := by
    rintro rfl
    exact absurd (hphase.symm.trans hwaiting) (by simp)
  have hget : (s.cache.set s.monotonic (d.hashKey (KeyChecks.rawKey requests r)) (some keyId)).get
      s.monotonic (d.hashKey rawKey) = some (some keyId) := by
    simp [KeyChecks.rawKey, hkey, KeyCache.get, KeyCache.set]
  refine ⟨_, if_pos ?_, ?_⟩
  · simpa [KeyChecks.letIn, KeyChecks.become, hr] using hwaiting
  · rw [begin_of_hit hpath hkey' hne (by simpa [KeyChecks.letIn, KeyChecks.become] using hget)]
    exact List.mem_cons_self

end KeyChecks

/-! ## A request that is slow -/

namespace SlowRequest

open KeyChecks

def deployment : McpDeployment where
  hashKey := id
  hashKeyLegacy := id

/-- Two requests of one client. -/
def requests : Bool → McpHttpRequest := fun _ => { path := "/mcp", rawKey := some "osm_7" }

def db : AuthDb where
  apiKeys := AList.insert 1 { name := "laptop", keyHash := "osm_7", keyPrefix := "osm_7" } ∅

/-- The first request is answered, then the key is deactivated and the cache cleared, and the
    second begins. -/
def inTurn : List (KeyAction Bool) :=
  [.begin false, .select false 0 none, .touch false none, .fill false, .deactivate none 1,
    .invalidate 1, .begin true, .select true 1 none, .select true 1 none, .fill true]

/-- The first request has read the key, and writes it into the cache when all of that is over. -/
def overtaken : List (KeyAction Bool) :=
  [.begin false, .select false 0 none, .deactivate none 1, .invalidate 1, .touch false none,
    .fill false, .begin true]

/-- A fill that no deactivation of its key has come before. -/
def fillsBefore (s : KeyChecks Bool) : KeyAction Bool → Bool
  | .fill r =>
      match s.phase r with
      | .verified (some keyId) => .deactivated keyId ∉ s.trace
      | _ => true
  | _ => true

theorem fillsFresh_of_fillsBefore (s : KeyChecks Bool) (act : KeyAction Bool)
    (h : fillsBefore s act = true) : s.FillsFresh act := by
  cases act with
  | fill r =>
    intro keyId hphase hrevoked
    simp only [fillsBefore, hphase, decide_eq_true_eq] at h
    exact h hrevoked.deactivated
  | _ => trivial

def after (acts : List (KeyAction Bool)) : KeyChecks Bool :=
  (Machine.replay (step deployment requests) (fun _ _ => true) acts (start db)).getD (start db)

theorem revocation_effective_inTurn : .authenticated true 1 ∉ (after inTurn).trace :=
  revocation_effective deployment requests db
    ((@Machine.runs_of_replay _ _ (step deployment requests) fillsBefore inTurn _ _ rfl).imp
      fillsFresh_of_fillsBefore)
    [.began true] 1 _ rfl (by decide) true (by decide)

/-- **The key that was revoked still works**: the second request begins when the invalidation has
    returned, and is served. -/
theorem revocation_ineffective :
    ¬∀ acts (s : KeyChecks Bool),
      Machine.Runs (step deployment requests) (fun _ _ => True) (start db) acts s →
        ∀ newer keyId older, s.trace = newer ++ .invalidated keyId :: older →
          .deactivated keyId ∈ older → ∀ r, .began r ∈ newer →
            .authenticated r keyId ∉ s.trace := by
  intro h
  have hrun : Machine.Runs (step deployment requests) (fun _ _ => True) (start db) overtaken
      (after overtaken) :=
    (@Machine.runs_of_replay _ _ (step deployment requests) (fun _ _ => true) overtaken _ _
      rfl).imp fun _ _ _ => trivial
  exact h _ _ hrun [.authenticated true 1, .began true, .authenticated false 1] 1 _ rfl
    (by decide) true (by decide) (by decide)

end SlowRequest

end OdooSemantic
