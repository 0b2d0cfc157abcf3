import OdooSemantic.Db.ProfileStatements
import OdooSemantic.Lib.Forest

/-!
# The forest of profiles

Every call checks with queries what it is about to write, and writes in a statement of its own. As
long as no other call has changed what the checks rest on by the time of the write, the parents are
a forest in which every edge joins two profiles of one version, and the recursive queries come to
an end (`profile_forest_run`).

Nothing makes that so. Two calls that hang two profiles below each other, each behind the checks
of the other one, leave a cycle, and the query for the ancestors does not end.
-/

namespace OdooSemantic

open KeyedStore Threads

/-! ## The invariant -/

namespace Db

variable {db : Db} {id a b : Nat} {p : ProfileRow}

def parentOf (db : Db) (id : Nat) : Option Nat := (db.profiles.lookup id).bind (·.parentProfileId)

/-- The parents are a forest, and every edge joins two profiles of one version. -/
structure IsForest (db : Db) : Prop where
  acyclic : Forest.Acyclic db.parentOf
  sameVersion : ∀ a p, db.profiles.lookup a = some p → ∀ b, p.parentProfileId = some b →
    db.versionOf b = some p.odooVersion

/-- The rows that a row of the recursive query for the ancestors adds. -/
def ancestorRows (db : Db) (id : Nat) : List Nat :=
  ((db.parentOf id).filter fun b => b ∈ db.profiles).toList

/-- The rows that a row of the recursive query for the descendants adds. -/
def descendantRows (db : Db) (id : Nat) : List Nat :=
  db.profiles.keys.filter fun a => db.parentOf a = some id

/-- The recursive queries come to an end, wherever they begin. -/
def QueriesTerminate (db : Db) : Prop :=
  ∀ start, Forest.Terminates db.ancestorRows start ∧ Forest.Terminates db.descendantRows start

theorem parentOf_eq_some : db.parentOf a = some b ↔
    ∃ p, db.profiles.lookup a = some p ∧ p.parentProfileId = some b := Option.bind_eq_some_iff

theorem mem_of_versionOf {v : String} (h : db.versionOf b = some v) : b ∈ db.profiles := by
  obtain ⟨p, hp, -⟩ := Option.map_eq_some_iff.mp h
  exact AList.lookup_isSome.mp (by rw [hp]; rfl)

theorem IsForest.mem_of_parentOf (h : db.IsForest) (hab : db.parentOf a = some b) :
    b ∈ db.profiles := by
  obtain ⟨p, hp, hb⟩ := parentOf_eq_some.mp hab
  exact mem_of_versionOf (h.sameVersion a p hp b hb)

theorem IsForest.queriesTerminate (h : db.IsForest) : db.QueriesTerminate := by
  have hkeys : ∀ a b, db.parentOf a = some b → b ∈ db.profiles.keys.toFinset := by
    intro a b hab
    rw [List.mem_toFinset]
    exact AList.mem_keys.mp (h.mem_of_parentOf hab)
  refine fun start => ⟨h.acyclic.terminates_up hkeys (fun a b hb => ?_) start,
    h.acyclic.terminates_down hkeys (fun a b hb => ?_) start⟩
  · exact (Option.filter_eq_some_iff.mp (Option.mem_toList.mp hb)).1
  · simpa using (List.mem_filter.mp hb).2

theorem isForest_empty : IsForest {} where
  acyclic := Forest.acyclic_none
  sameVersion a p hp := absurd hp (by simp)

/-! ## The recursive query of `_validate_parent` -/

/-- Behind as many rounds as there are ancestors, the walk has found every one of them. -/
theorem IsForest.mem_chain (h : db.IsForest) {keys : Finset Nat}
    (hkeys : ∀ a ∈ db.profiles, a ∈ keys) (ha : a ∈ db.profiles) {n : Nat}
    (hreach : Relation.ReflTransGen (Forest.Up db.parentOf) b a)
    (hn : Forest.height db.parentOf keys b < n) :
    a ∈ (db.chain n (some b)).map Prod.fst := by
  induction hreach using Relation.ReflTransGen.head_induction_on generalizing n with
  | refl =>
    obtain ⟨p, hp⟩ := Option.isSome_iff_exists.mp (AList.lookup_isSome.mpr ha)
    cases n with
    | zero => exact absurd hn (Nat.not_lt_zero _)
    | succ n => simp [chain, hp]
  | head hstep hrest ih =>
    rename_i b c
    obtain ⟨p, hp, hc⟩ := parentOf_eq_some.mp hstep
    cases n with
    | zero => exact absurd hn (Nat.not_lt_zero _)
    | succ n =>
      have hlt := h.acyclic.height_lt (hkeys c (h.mem_of_parentOf hstep)) hstep
      have := ih (n := n) (by omega)
      simp only [chain, hp, hc, List.map_cons, List.mem_cons]
      exact Or.inr this

/-- **No answer, no way up**: the edge that the check lets through closes no cycle. -/
theorem IsForest.not_reach (h : db.IsForest) (ha : a ∈ db.profiles)
    (hno : db.isAncestor b a = false) :
    ¬Relation.ReflTransGen (Forest.Up db.parentOf) b a := by
  intro hreach
  have hheight : Forest.height db.parentOf db.profiles.keys.toFinset b < db.fuel := by
    have hle : Forest.height db.parentOf db.profiles.keys.toFinset b ≤ _ := Forest.height_le b
    rw [List.toFinset_card_of_nodup db.profiles.keys_nodup] at hle
    exact Nat.lt_succ_of_le hle
  have hkeys : ∀ a ∈ db.profiles, a ∈ db.profiles.keys.toFinset := fun a ha =>
    List.mem_toFinset.mpr (AList.mem_keys.mp ha)
  have hmem := h.mem_chain hkeys ha hreach hheight
  exact absurd hno (by simp [isAncestor, hmem])

theorem not_otherDescendant {v : String} (hno : db.otherDescendant b v = false)
    (hab : db.profiles.lookup a = some p) (hb : p.parentProfileId = some b) (hmem : b ∈ db.profiles) :
    p.odooVersion = v := by
  obtain ⟨q, hq⟩ := Option.isSome_iff_exists.mp (AList.lookup_isSome.mpr hmem)
  have hentry : ⟨a, p⟩ ∈ db.profiles.entries := AList.mem_lookup_iff.mp hab
  have hchain : b ∈ (db.chain db.fuel p.parentProfileId).map Prod.fst := by
    simp [chain, fuel, hb, hq]
  have := List.any_eq_false.mp hno _ hentry
  simpa [hchain] using this

end Db

/-! ## What the checks in front of a statement establish -/

/-- What a call takes from the answer to a query. -/
inductive Seen where
  | version (v : Option String)
  | row (p : Option (String × Option Nat))
  | found (b : Bool)
  | nothing
deriving DecidableEq

def ProfileQuery.seen (db : Db) : ProfileQuery → Seen
  | version id => .version (db.versionOf id)
  | row id => .row ((db.profiles.lookup id).map fun p => (p.odooVersion, p.parentProfileId))
  | ancestor parentId profileId => .found (db.isAncestor parentId profileId)
  | descendant profileId v => .found (db.otherDescendant profileId v)
  | indexedRepos _ => .nothing
  | repos _ => .nothing

namespace ProfileStatement

/-- It puts in an edge, or a version at the end of one. -/
def links : ProfileStatement → Bool
  | insert row => row.parentProfileId.isSome
  | setParent _ parentId => parentId.isSome
  | update _ columns => columns.version.isSome
  | select _ => false
  | delete _ => false

/-- The checks in front of the statement, where `holds q s` says that `s` was the answer to `q`. -/
def Backed (holds : ProfileQuery → Seen → Prop) : ProfileStatement → Prop
  | insert row => ∀ b, row.parentProfileId = some b →
      holds (.version b) (.version (some row.odooVersion))
  | setParent a parentId => ∀ b, parentId = some b → ∃ v, holds (.version a) (.version (some v)) ∧
      holds (.version b) (.version (some v)) ∧ holds (.ancestor b a) (.found false) ∧ b ≠ a
  | update a columns => ∀ v, columns.version = some v → ∃ p, holds (.row a) (.row (some p)) ∧
      (∀ b, p.2 = some b → ∃ w, holds (.version b) (.version w) ∧ ∀ u, w = some u → u = v) ∧
      holds (.descendant a v) (.found false)
  | select _ => True
  | delete _ => True

variable {holds holds' : ProfileQuery → Seen → Prop} {label : ProfileStatement}

theorem Backed.mono (h : label.Backed holds) (hmono : ∀ q s, holds q s → holds' q s) :
    label.Backed holds' := by
  cases label with
  | select q => trivial
  | insert row => exact fun b hb => hmono _ _ (h b hb)
  | setParent a parentId =>
    intro b hb
    obtain ⟨v, hchild, hparent, hancestor, hne⟩ := h b hb
    exact ⟨v, hmono _ _ hchild, hmono _ _ hparent, hmono _ _ hancestor, hne⟩
  | update a columns =>
    intro v hv
    obtain ⟨p, hrow, hparent, hdescendant⟩ := h v hv
    refine ⟨p, hmono _ _ hrow, fun b hb => ?_, hmono _ _ hdescendant⟩
    obtain ⟨w, hw, huniform⟩ := hparent b hb
    exact ⟨w, hmono _ _ hw, huniform⟩
  | delete id => trivial

/-- What puts in nothing needs no check. -/
theorem backed_of_not_links (h : label.links = false) : label.Backed holds := by
  cases label with
  | select q => trivial
  | insert row =>
    intro b hb
    simp [links, hb] at h
  | setParent a parentId =>
    intro b hb
    simp [links, hb] at h
  | update a columns =>
    intro v hv
    simp [links, hv] at h
  | delete id => trivial

end ProfileStatement

/-! ## What a statement leaves behind -/

namespace Db

variable {db : Db} {a b : Nat} {p : ProfileRow}

/-- The row of this id is now `p`. -/
def put (db : Db) (a : Nat) (p : ProfileRow) : Db :=
  { db with profiles := db.profiles.insert a p }

theorem lookup_put (db : Db) (a : Nat) (p : ProfileRow) (c : Nat) :
    (db.put a p).profiles.lookup c = if c = a then some p else db.profiles.lookup c := by
  by_cases h : c = a
  · subst h
    simp [put]
  · simp [put, h, AList.lookup_insert_ne h]

theorem updateProfileRow_eq (hp : db.profiles.lookup a = some p) (f : ProfileRow → ProfileRow) :
    db.updateProfileRow a f = db.put a (f p) := by
  rw [updateProfileRow, hp]
  rfl

/-- **One row**, new or rewritten: its parent has its version and is not below it, and so have
    its children. -/
theorem IsForest.put (h : db.IsForest)
    (hup : ∀ b, p.parentProfileId = some b → db.versionOf b = some p.odooVersion ∧
      ¬Relation.ReflTransGen (Forest.Up db.parentOf) b a)
    (hdown : ∀ c q, db.profiles.lookup c = some q → q.parentProfileId = some a →
      q.odooVersion = p.odooVersion) : (db.put a p).IsForest := by
  have hedge : ∀ c d, (db.put a p).parentOf c = some d →
      db.parentOf c = some d ∨ c = a ∧ p.parentProfileId = some d := by
    intro c d hcd
    obtain ⟨q, hq, hd⟩ := parentOf_eq_some.mp hcd
    rw [lookup_put] at hq
    split at hq
    · obtain rfl := Option.some.inj hq
      exact Or.inr ⟨‹_›, hd⟩
    · exact Or.inl (parentOf_eq_some.mpr ⟨q, hq, hd⟩)
  constructor
  · cases hparent : p.parentProfileId with
    | none => exact h.acyclic.mono fun c d hcd =>
        (hedge c d hcd).resolve_right fun hnew => absurd (hparent.symm.trans hnew.2) (by simp)
    | some b =>
      refine h.acyclic.link (fun c d hcd => ?_) (hup b hparent).2
      exact (hedge c d hcd).imp_right fun hnew =>
        ⟨hnew.1, (Option.some.inj (hparent.symm.trans hnew.2)).symm⟩
  · intro c q hq d hd
    rw [lookup_put] at hq
    rw [versionOf, lookup_put]
    split at hq
    · obtain rfl := Option.some.inj hq
      obtain ⟨hversion, hback⟩ := hup d hd
      rw [if_neg (by rintro rfl; exact hback .refl)]
      exact hversion
    · split
      · rename_i heq
        subst heq
        rw [hdown c q hq hd]
        rfl
      · exact h.sameVersion c q hq d hd

theorem IsForest.erase (h : db.IsForest) (hleaf : ∀ c, db.parentOf c ≠ some a) :
    ({ db with profiles := db.profiles.erase a } : Db).IsForest := by
  have hold : ∀ c q, (db.profiles.erase a).lookup c = some q → db.profiles.lookup c = some q := by
    intro c q hq
    by_cases hc : c = a
    · subst hc
      exact absurd hq (by simp)
    · rwa [AList.lookup_erase_ne hc] at hq
  constructor
  · refine h.acyclic.mono fun c d hcd => ?_
    obtain ⟨q, hq, hd⟩ := parentOf_eq_some.mp hcd
    exact parentOf_eq_some.mpr ⟨q, hold c q hq, hd⟩
  · intro c q hq d hd
    have hne : d ≠ a := by
      rintro rfl
      exact hleaf c (parentOf_eq_some.mpr ⟨q, hold c q hq, hd⟩)
    rw [versionOf, AList.lookup_erase_ne hne]
    exact h.sameVersion c q (hold c q hq) d hd

end Db

namespace ProfileTable

/-- A forest, and the sequence is ahead of it. -/
structure Planted (s : ProfileTable) : Prop where
  forest : s.db.IsForest
  fresh : ∀ a ∈ s.db.profiles, a < s.nextId

variable {s : ProfileTable} {a : Nat} {p q : ProfileRow}

theorem Planted.rewrite (h : s.Planted) (hp : s.db.profiles.lookup a = some p)
    (hforest : (s.db.put a q).IsForest) : ({ s with db := s.db.put a q } : ProfileTable).Planted where
  forest := hforest
  fresh c hc := by
    have hmem : c ∈ s.db.profiles := by
      cases (AList.mem_insert _).mp hc with
      | inl heq =>
        subst heq
        exact AList.lookup_isSome.mp (by rw [hp]; rfl)
      | inr hold => exact hold
    exact h.fresh c hmem

/-- A new row is a leaf. -/
theorem Planted.insert (h : s.Planted)
    (hbacked : (ProfileStatement.insert q).Backed fun x seen => x.seen s.db = seen) :
    (s.insert q).2.Planted := by
  have hsequence : ({ s with nextId := s.nextId + 1 } : ProfileTable).Planted :=
    ⟨h.forest, fun c hc => Nat.lt_succ_of_lt (h.fresh c hc)⟩
  have hnew : s.nextId ∉ s.db.profiles := fun hmem => absurd (h.fresh _ hmem) (Nat.lt_irrefl _)
  have hleaf : ∀ c, s.db.parentOf c ≠ some s.nextId := fun c hc =>
    hnew (h.forest.mem_of_parentOf hc)
  unfold ProfileTable.insert
  split
  · exact hsequence
  split
  · exact hsequence
  refine ⟨h.forest.put (fun b hb => ?_) (fun c r hr hc => ?_), fun c hc => ?_⟩
  · have hversion : s.db.versionOf b = some q.odooVersion := Seen.version.inj (hbacked b hb)
    refine ⟨hversion, fun hreach => ?_⟩
    cases Relation.ReflTransGen.cases_tail hreach with
    | inl heq => exact hnew (heq ▸ Db.mem_of_versionOf hversion)
    | inr hstep =>
      obtain ⟨c, -, hc⟩ := hstep
      exact hleaf c hc
  · exact absurd (Db.parentOf_eq_some.mpr ⟨r, hr, hc⟩) (hleaf c)
  · cases (AList.mem_insert _).mp hc with
    | inl heq => exact heq ▸ Nat.lt_succ_self _
    | inr hold => exact Nat.lt_succ_of_lt (h.fresh c hold)

theorem Planted.setParent (h : s.Planted) {parentId : Option Nat}
    (hbacked : (ProfileStatement.setParent a parentId).Backed fun x seen => x.seen s.db = seen) :
    (s.setParent a parentId).2.Planted := by
  unfold ProfileTable.setParent
  split
  · exact h
  rename_i p hp
  split
  · exact h
  split
  · exact h
  rw [Db.updateProfileRow_eq hp]
  refine h.rewrite hp (h.forest.put (fun b hb => ?_) fun c r hr hc => ?_)
  · obtain ⟨v, hchild, hparent, hancestor, -⟩ := hbacked b hb
    have hchild : s.db.versionOf a = some v := Seen.version.inj hchild
    have hparent : s.db.versionOf b = some v := Seen.version.inj hparent
    refine ⟨?_, h.forest.not_reach (Db.mem_of_versionOf hchild) (Seen.found.inj hancestor)⟩
    rw [hparent, ← hchild, Db.versionOf, hp]
    rfl
  · have hversion := h.forest.sameVersion c r hr a hc
    rw [Db.versionOf, hp] at hversion
    exact (Option.some.inj hversion).symm

theorem Planted.update (h : s.Planted) {columns : Db.ProfilePatch}
    (hbacked : (ProfileStatement.update a columns).Backed fun x seen => x.seen s.db = seen) :
    (s.update a columns).2.Planted := by
  unfold ProfileTable.update
  split
  · exact h
  rename_i p hp
  split
  · exact h
  rw [Db.updateProfileRow_eq hp]
  refine h.rewrite hp (h.forest.put (fun b hb => ⟨?_, fun hreach => ?_⟩) fun c r hr hc => ?_)
  · have hold := h.forest.sameVersion a p hp b hb
    cases hversion : columns.version with
    | none => simpa [hversion] using hold
    | some v =>
      obtain ⟨row, hrow, hparent, -⟩ := hbacked v hversion
      have hrow : some (p.odooVersion, p.parentProfileId) = some row := by
        simpa [ProfileQuery.seen, hp] using hrow
      obtain ⟨w, hw, huniform⟩ := hparent b (by rw [← Option.some.inj hrow]; exact hb)
      have hw : s.db.versionOf b = w := Seen.version.inj hw
      simp [hold, huniform p.odooVersion (hw.symm.trans hold)]
  · exact h.forest.acyclic a (.head' (Db.parentOf_eq_some.mpr ⟨p, hp, hb⟩) hreach)
  · cases hversion : columns.version with
    | none =>
      have hold := h.forest.sameVersion c r hr a hc
      rw [Db.versionOf, hp] at hold
      simpa [hversion] using (Option.some.inj hold).symm
    | some v =>
      obtain ⟨-, -, -, hdescendant⟩ := hbacked v hversion
      have hmem : a ∈ s.db.profiles := AList.lookup_isSome.mp (by rw [hp]; rfl)
      have := Db.not_otherDescendant (Seen.found.inj hdescendant) hr hc hmem
      simpa [hversion] using this

theorem Planted.delete (h : s.Planted) : (s.delete a).2.Planted := by
  unfold ProfileTable.delete
  split
  · exact h
  split
  · exact h
  rename_i hrefers
  refine ⟨h.forest.erase fun c hc => hrefers ?_, fun c hc => ?_⟩
  · obtain ⟨q, hq, ha⟩ := Db.parentOf_eq_some.mp hc
    have hne : c ≠ a := by
      rintro rfl
      exact h.forest.acyclic c (.single hc)
    exact List.any_eq_true.mpr ⟨⟨c, q⟩, AList.mem_lookup_iff.mp hq, by simp [hne, ha]⟩
  · exact h.fresh c ((AList.mem_erase).mp hc).2

/-- **A statement whose checks hold where it is executed** keeps the forest. -/
theorem Planted.effect (h : s.Planted) {label : ProfileStatement} (x : Surroundings)
    (hbacked : label.Backed fun q seen => q.seen s.db = seen) : (label.effect x s).Planted := by
  unfold ProfileStatement.effect
  cases label <;> simp only [ProfileStatement.exec]
  case select q => exact h
  all_goals split
  all_goals first | exact h | skip
  · exact h.insert hbacked
  · exact h.setParent hbacked
  · exact h.update hbacked
  · exact h.delete

end ProfileTable

/-! ## The checks of each call -/

abbrev ProfileEntry (T : Type) := Entry T ProfileTable Surroundings ProfileStatement

/-- The call has asked `q`, and this was the answer. -/
def Learned {T : Type} (h : List (ProfileEntry T)) (q : ProfileQuery) (seen : Seen) : Prop :=
  ∃ e ∈ h, e.label = .select q ∧ q.seen e.before.db = seen

namespace ProfileProg

variable {T : Type} {t : T} {h : List (ProfileEntry T)} {q : ProfileQuery}

/-- Behind every step, the program makes the checks of the statements to come. -/
def Checks (t : T) (h : List (ProfileEntry T)) (prog : ProfileProg) : Prop :=
  prog.Meets t (fun h label => label.Backed (Learned h)) (fun _ _ => True) h

theorem checks_ask {next : Surroundings → Db → ProfileProg}
    (hnext : ∀ x db h', (∀ q' seen, Learned h q' seen → Learned h' q' seen) →
      Learned h' q (q.seen db) → Checks t h' (next x db)) : Checks t h (ask q next) := by
  refine ⟨trivial, fun x s => ?_⟩
  dsimp only
  split
  · exact trivial
  · refine hnext x s.db _ (fun q' seen hold => ?_) ⟨_, List.mem_cons_self, rfl, rfl⟩
    obtain ⟨e, he, hlabel, hseen⟩ := hold
    exact ⟨e, List.mem_cons_of_mem _ he, hlabel, hseen⟩

theorem checks_write {label : ProfileStatement} {raise : SqlError → ProfileOutcome}
    {next : Nat → ProfileProg} (hbacked : label.Backed (Learned h))
    (hnext : ∀ n h', Checks t h' (next n)) : Checks t h (write label raise next) := by
  refine ⟨hbacked, fun x s => ?_⟩
  dsimp only
  split
  · exact hnext _ _
  · exact trivial

theorem checks_insertProfile {row : ProfileRow}
    (hbacked : (ProfileStatement.insert row).Backed (Learned h)) :
    Checks t h (insertProfile row) := checks_write hbacked fun _ _ => trivial

theorem checks_addProfile (name odooVersion description : String) (parentId : Option Nat) :
    Checks t h (addProfile name odooVersion description parentId) := by
  unfold addProfile
  cases parentId with
  | none => exact checks_insertProfile fun b hb => absurd hb (by simp)
  | some parentId =>
    refine checks_ask fun x db h' _ hanswer => ?_
    split
    · exact trivial
    rename_i parentVersion hversion
    split
    · exact trivial
    rename_i heq
    refine checks_insertProfile fun b hb => ?_
    obtain rfl := Option.some.inj hb
    rwa [ProfileQuery.seen, hversion, not_not.mp heq] at hanswer

theorem checks_updateParent {profileId : Nat} {parentId : Option Nat}
    (hbacked : (ProfileStatement.setParent profileId parentId).Backed (Learned h)) :
    Checks t h (updateParent profileId parentId) := by
  refine checks_write hbacked fun n h' => ?_
  split
  · refine checks_ask fun x db h'' _ _ => ?_
    split <;> exact trivial
  · exact trivial

theorem checks_setProfileParent (profileId : Nat) (parentId : Option Nat) :
    Checks t h (setProfileParent profileId parentId) := by
  unfold setProfileParent
  cases parentId with
  | none => exact checks_updateParent fun b hb => absurd hb (by simp)
  | some parentId =>
    simp only
    split
    · exact trivial
    rename_i hne
    refine checks_ask fun x db h₁ _ hchild => ?_
    refine checks_ask fun x db₂ h₂ hkeep₂ hparent => ?_
    split
    · rename_i childVersion parentVersion hchildVersion hparentVersion
      split
      · exact trivial
      rename_i heq
      refine checks_ask fun x db₃ h₃ hkeep₃ hancestor => ?_
      split
      · exact trivial
      rename_i hno
      refine checks_updateParent fun b hb => ?_
      obtain rfl := Option.some.inj hb
      rw [ProfileQuery.seen, hchildVersion, not_not.mp heq] at hchild
      rw [ProfileQuery.seen, hparentVersion] at hparent
      rw [ProfileQuery.seen, Bool.eq_false_of_not_eq_true hno] at hancestor
      exact ⟨parentVersion, hkeep₃ _ _ (hkeep₂ _ _ hchild), hkeep₃ _ _ hparent, hancestor, hne⟩
    · exact trivial

theorem checks_updateColumns {profileId : Nat} {columns : Db.ProfilePatch}
    (hbacked : (ProfileStatement.update profileId columns).Backed (Learned h)) :
    Checks t h (updateColumns profileId columns) := by
  unfold updateColumns
  split
  · exact trivial
  · refine checks_write hbacked fun n h' => ?_
    split <;> exact trivial

/-- The two checks of a new version, behind the read of the row. -/
theorem checks_version {profileId : Nat} {columns : Db.ProfilePatch} {v : String}
    {p : String × Option Nat} (hv : columns.version = some v)
    (hrow : Learned h (.row profileId) (.row (some p))) :
    Checks t h (checkParent p.2 v <| checkDescendants profileId v <|
      updateColumns profileId columns) := by
  have hrest : ∀ h', (∀ q seen, Learned h q seen → Learned h' q seen) →
      (∀ b, p.2 = some b → ∃ w, Learned h' (.version b) (.version w) ∧ ∀ u, w = some u → u = v) →
      Checks t h' (checkDescendants profileId v <| updateColumns profileId columns) := by
    intro h' hkeep hparent
    refine checks_ask fun x db h'' hkeep' hanswer => ?_
    split
    · exact trivial
    rename_i hno
    rw [ProfileQuery.seen, Bool.eq_false_of_not_eq_true hno] at hanswer
    refine checks_updateColumns fun u hu => ?_
    obtain rfl := Option.some.inj (hv.symm.trans hu)
    refine ⟨p, hkeep' _ _ (hkeep _ _ hrow), fun b hb => ?_, hanswer⟩
    obtain ⟨w, hw, huniform⟩ := hparent b hb
    exact ⟨w, hkeep' _ _ hw, huniform⟩
  unfold checkParent
  split
  · rename_i hnone
    exact hrest h (fun _ _ => id) fun b hb => absurd (hnone.symm.trans hb) (by simp)
  · rename_i parentId hparent
    refine checks_ask fun x db h' hkeep hanswer => ?_
    split
    · exact trivial
    rename_i hsame
    refine hrest h' hkeep fun b hb => ⟨db.versionOf b, ?_, fun u hu => ?_⟩
    · obtain rfl := Option.some.inj (hparent.symm.trans hb)
      exact hanswer
    · obtain rfl := Option.some.inj (hparent.symm.trans hb)
      simpa [hu] using hsame

theorem checks_checkIndexed {profileId : Nat} {columns : Db.ProfilePatch} {next : ProfileProg}
    (hnext : ∀ h', (∀ q seen, Learned h q seen → Learned h' q seen) → Checks t h' next) :
    Checks t h (checkIndexed profileId columns next) := by
  unfold checkIndexed
  split
  · refine checks_ask fun x db h' hkeep _ => ?_
    split
    · exact trivial
    · exact hnext h' hkeep
  · exact hnext h fun _ _ => id

theorem checks_updateProfile (profileId : Nat) (patch : Db.ProfilePatch) :
    Checks t h (updateProfile profileId patch) := by
  refine checks_ask fun x db h' _ hrow => ?_
  split
  · exact trivial
  rename_i current hcurrent
  rw [ProfileQuery.seen, hcurrent] at hrow
  refine checks_checkIndexed fun h'' hkeep => ?_
  split
  · rename_i hnone
    exact checks_updateColumns fun v hv => absurd (hnone.symm.trans hv) (by simp)
  · rename_i v hv
    exact checks_version hv (hkeep _ _ hrow)

theorem checks_deleteProfile (profileId : Nat) : Checks t h (deleteProfile profileId) := by
  refine checks_ask fun x db h' _ _ => checks_write trivial fun n h'' => ?_
  split <;> exact trivial

theorem checks_program (call : ProfileCall) : Checks t h call.program := by
  cases call with
  | addProfile name odooVersion description parentId => exact checks_addProfile _ _ _ _
  | setProfileParent profileId parentId => exact checks_setProfileParent _ _
  | updateProfile profileId patch => exact checks_updateProfile _ _
  | deleteProfile profileId => exact checks_deleteProfile _

end ProfileProg

/-! ## Every run -/

section Runs

variable {T : Type} [DecidableEq T]

/-- **What the checks rest on has not changed**: where the statement to come puts in an edge or a
    version, every query of its call has the same answer as when it was asked. -/
def ProfileCalls.undisturbed (p : ProfileCalls T) : Act T Surroundings → Bool
  | .begin _ => true
  | .take t _ =>
      match p.threads t with
      | some (.step label _) => !label.links || (history t p.trace).all fun e =>
          match e.label with
          | .select q => q.seen p.state.db = q.seen e.before.db
          | _ => true
      | _ => true

/-- What every such run keeps. -/
structure ProfileCalls.Kept (p : ProfileCalls T) : Prop where
  checks : p.Obeys (fun _ h label => label.Backed (Learned h)) fun _ _ _ => True
  planted : p.state.Planted

theorem kept_step {call : T → ProfileCall} {p p' : ProfileCalls T} {a : Act T Surroundings}
    (hstep : ProfileCalls.step call p a = some p') (hundisturbed : p.undisturbed a = true)
    (h : p.Kept) : p'.Kept := by
  refine ⟨obeys_step (fun t => ProfileProg.checks_program (call t)) hstep h.checks, ?_⟩
  cases a with
  | begin t =>
    obtain ⟨-, rfl⟩ := Pool.step_begin hstep
    exact h.planted
  | take t x =>
    obtain ⟨label, next, ht, rfl⟩ := Pool.step_take hstep
    refine h.planted.effect x ?_
    by_cases hlinks : label.links = true
    · simp only [ProfileCalls.undisturbed, ht, hlinks, Bool.not_true, Bool.false_or,
        List.all_eq_true] at hundisturbed
      refine (h.checks.threads t _ ht).1.mono fun q seen hlearned => ?_
      obtain ⟨e, he, hlabel, hseen⟩ := hlearned
      have hsame := hundisturbed e he
      rw [hlabel] at hsame
      exact (of_decide_eq_true hsame).trans hseen
    · exact ProfileStatement.backed_of_not_links (Bool.eq_false_of_not_eq_true hlinks)

/-- **The profiles stay a forest**, in every run in which no check is overtaken: from an empty
    registry, whatever calls are made and however their statements interleave, the parents are
    acyclic and of one version, and the recursive queries end. -/
theorem profile_forest_run (call : T → ProfileCall) {acts : List (Act T Surroundings)}
    {p : ProfileCalls T}
    (hrun : Machine.Runs (ProfileCalls.step call) (fun p a => p.undisturbed a = true)
      { state := {} } acts p) : p.state.db.IsForest ∧ p.state.db.QueriesTerminate := by
  have hkept : p.Kept := by
    refine hrun.invariant (fun _ _ _ hstep hok h => kept_step hstep hok h) ⟨obeys_start _, ?_⟩
    exact ⟨Db.isForest_empty, fun a ha => absurd ha (by simp)⟩
  exact ⟨hkept.planted.forest, hkept.planted.forest.queriesTerminate⟩

end Runs

/-! ## Two calls at once -/

namespace TwoParents

/-- Two profiles of one version, and each of them is to be hung below the other. -/
def call : Fin 4 → ProfileCall
  | 0 => .addProfile "core" "17.0" ""
  | 1 => .addProfile "shop" "17.0" ""
  | 2 => .setProfileParent 1 (some 2)
  | 3 => .setProfileParent 2 (some 1)

/-- The calls one after the other: the second one is refused. -/
def inTurn : List (Act (Fin 4) Surroundings) :=
  [.begin 0, .take 0 {}, .begin 1, .take 1 {}] ++
    .begin 2 :: List.replicate 4 (.take 2 {}) ++ .begin 3 :: List.replicate 3 (.take 3 {})

/-- Both have made their checks before either one writes. -/
def atOnce : List (Act (Fin 4) Surroundings) :=
  [.begin 0, .take 0 {}, .begin 1, .take 1 {}] ++
    .begin 2 :: List.replicate 3 (.take 2 {}) ++ .begin 3 :: List.replicate 4 (.take 3 {}) ++
      [.take 2 {}]

/-- What these actions leave, where `free` or not disturbed. -/
def after (acts : List (Act (Fin 4) Surroundings)) (free : Bool) : ProfileCalls (Fin 4) :=
  (Machine.replay (ProfileCalls.step call) (fun p a => free || p.undisturbed a) acts
    { state := {} }).getD { state := {} }

theorem run_after (acts : List (Act (Fin 4) Surroundings)) (free : Bool)
    (h : (Machine.replay (ProfileCalls.step call) (fun p a => free || p.undisturbed a) acts
      { state := {} }).isSome) :
    Machine.Runs (ProfileCalls.step call) (fun p a => (free || p.undisturbed a) = true)
      { state := {} } acts (after acts free) := by
  obtain ⟨p, hp⟩ := Option.isSome_iff_exists.mp h
  rw [after, hp]
  exact Machine.runs_of_replay hp

/-- One after the other, they leave one edge. -/
theorem profile_forest_inTurn :
    (after inTurn false).state.db.parentOf 1 = some 2 ∧
    (after inTurn false).state.db.parentOf 2 = none ∧
    (after inTurn false).state.db.IsForest ∧ (after inTurn false).state.db.QueriesTerminate :=
  ⟨by decide, by decide,
    profile_forest_run call ((run_after inTurn false (by decide)).imp fun _ _ => id)⟩

/-- **At once, they leave a cycle**, and the query for the ancestors of either profile goes round
    it for ever. -/
theorem profile_cycle :
    Machine.Runs (ProfileCalls.step call) (fun _ _ => True) { state := {} } atOnce
      (after atOnce true) ∧
    ¬(after atOnce true).state.db.IsForest ∧ ¬(after atOnce true).state.db.QueriesTerminate := by
  have hup : (after atOnce true).state.db.parentOf 1 = some 2 := by decide
  have hdown : (after atOnce true).state.db.parentOf 2 = some 1 := by decide
  refine ⟨(run_after atOnce true (by decide)).imp fun _ _ _ => trivial, fun h => ?_, fun h => ?_⟩
  · exact h.acyclic 1 (.head hup (.single hdown))
  · refine Forest.not_terminates (P := fun id => id = 1 ∨ id = 2) ?_ ⟨1, by simp, Or.inl rfl⟩
      (h [1]).1
    rintro id (rfl | rfl)
    · exact ⟨2, by decide, Or.inr rfl⟩
    · exact ⟨1, by decide, Or.inl rfl⟩

end TwoParents

end OdooSemantic
