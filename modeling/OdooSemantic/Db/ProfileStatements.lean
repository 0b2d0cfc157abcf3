import OdooSemantic.Db.RepoRegistry
import OdooSemantic.Lib.Threads

/-!
# The operations on profiles, statement by statement

`checkout()` turns autocommit on, so every statement of `add_profile`, `set_profile_parent`,
`update_profile` and `delete_profile` is committed by itself, and those of other calls come in
between. Each call is a program (`Threads.Prog`) here, which takes one statement at a time and goes
on with what it has read.

The repos have their own statements and their own callers. Of them a call asks only how many are
indexed, and that is up to its surroundings, as is a statement that fails for reasons of its own.
-/

namespace OdooSemantic

open KeyedStore Threads

/-- What the surroundings make of a statement. -/
structure Surroundings where
  indexedRepos : Nat := 0
  fails : Bool := false
deriving DecidableEq

/-- The table `profiles` and its sequence. -/
structure ProfileTable where
  db : Db := {}
  nextId : Nat := 1

namespace Db

/-- `SELECT odoo_version FROM profiles WHERE id = …` -/
def versionOf (db : Db) (id : Nat) : Option String := (db.profiles.lookup id).map (·.odooVersion)

/-- The walk up from the parent reaches the profile. -/
def isAncestor (db : Db) (parentId profileId : Nat) : Bool :=
  profileId ∈ (db.chain db.fuel (some parentId)).map Prod.fst

/-- Some descendant of the profile has another version than this one. -/
def otherDescendant (db : Db) (profileId : Nat) (version : String) : Bool :=
  db.profiles.entries.any fun e =>
    profileId ∈ (db.chain db.fuel e.2.parentProfileId).map Prod.fst && e.2.odooVersion ≠ version

end Db

inductive ProfileQuery where
  | version (id : Nat)
  /-- `get_profile_by_id(profile_id)` -/
  | row (id : Nat)
  /-- The recursive query of `_validate_parent`. -/
  | ancestor (parentId profileId : Nat)
  /-- `_has_indexed_repos(profile_id)` -/
  | indexedRepos (id : Nat)
  /-- The recursive query of `update_profile`. -/
  | descendant (profileId : Nat) (version : String)
  /-- The repos that `delete_profile` hands to its caller. -/
  | repos (id : Nat)
deriving DecidableEq

inductive ProfileStatement where
  | select (q : ProfileQuery)
  | insert (row : ProfileRow)
  | setParent (id : Nat) (parentId : Option Nat)
  /-- `UPDATE profiles SET … WHERE id = …`, with the columns that are there. -/
  | update (id : Nat) (columns : Db.ProfilePatch)
  | delete (id : Nat)

/-- A violated constraint, or anything else that PostgreSQL raises. -/
inductive SqlError where
  | uniqueViolation
  | foreignKeyViolation
  | operational
deriving DecidableEq

namespace ProfileTable

variable (s : ProfileTable)

def nameTaken (id : Nat) (name : String) : Bool :=
  s.db.profiles.entries.any fun e => e.1 ≠ id && e.2.name = name

/-- `REFERENCES profiles(id)` -/
def refers (parentId : Option Nat) : Bool := parentId.all (· ∈ s.db.profiles)

/-- The sequence is not rolled back. -/
def insert (row : ProfileRow) : Except SqlError Nat × ProfileTable :=
  let s' := { s with nextId := s.nextId + 1 }
  if s.nameTaken s.nextId row.name then (.error .uniqueViolation, s')
  else if s.refers row.parentProfileId = false then (.error .foreignKeyViolation, s')
  else (.ok 1,
    { s' with db := { s.db with profiles := s.db.profiles.insert s.nextId row } })

/-- `… WHERE id = … AND parent_profile_id IS DISTINCT FROM …` -/
def setParent (id : Nat) (parentId : Option Nat) : Except SqlError Nat × ProfileTable :=
  match s.db.profiles.lookup id with
  | none => (.ok 0, s)
  | some p =>
      if p.parentProfileId = parentId then (.ok 0, s)
      else if s.refers parentId = false then (.error .foreignKeyViolation, s)
      else (.ok 1,
        { s with db := s.db.updateProfileRow id fun p => { p with parentProfileId := parentId } })

def update (id : Nat) (columns : Db.ProfilePatch) : Except SqlError Nat × ProfileTable :=
  match s.db.profiles.lookup id with
  | none => (.ok 0, s)
  | some _ =>
      if columns.name.any (s.nameTaken id ·) then (.error .uniqueViolation, s)
      else (.ok 1, { s with db := s.db.updateProfileRow id fun p =>
        { p with
          name := columns.name.getD p.name
          odooVersion := columns.version.getD p.odooVersion
          description := columns.description.or p.description } })

/-- `ON DELETE RESTRICT` -/
def delete (id : Nat) : Except SqlError Nat × ProfileTable :=
  match s.db.profiles.lookup id with
  | none => (.ok 0, s)
  | some _ =>
      if s.db.profiles.entries.any fun e => e.1 ≠ id && e.2.parentProfileId = some id then
        (.error .foreignKeyViolation, s)
      else (.ok 1, { s with db := { s.db with profiles := s.db.profiles.erase id } })

end ProfileTable

/-- The row count, or what is raised, and the table behind the statement. -/
def ProfileStatement.exec (x : Surroundings) (s : ProfileTable) :
    ProfileStatement → Except SqlError Nat × ProfileTable
  | select _ => (if x.fails then .error .operational else .ok 0, s)
  | insert row => if x.fails then (.error .operational, s) else s.insert row
  | setParent id parentId => if x.fails then (.error .operational, s) else s.setParent id parentId
  | update id columns => if x.fails then (.error .operational, s) else s.update id columns
  | delete id => if x.fails then (.error .operational, s) else s.delete id

def ProfileStatement.effect (label : ProfileStatement) (x : Surroundings) (s : ProfileTable) :
    ProfileTable := (label.exec x s).2

/-! ## The calls -/

inductive ProfileOutcome where
  | returned
  | raised (e : RegistryError)
  | valueError
  | sqlError (e : SqlError)
deriving DecidableEq

abbrev ProfileProg := Prog ProfileTable Surroundings ProfileStatement ProfileOutcome

namespace ProfileProg

/-- A query, and what comes of its answer. -/
def ask (q : ProfileQuery) (next : Surroundings → Db → ProfileProg) : ProfileProg :=
  .step (.select q) fun x s => if x.fails then .done (.sqlError .operational) else next x s.db

/-- A write, and what comes of its row count. -/
def write (label : ProfileStatement) (raise : SqlError → ProfileOutcome)
    (next : Nat → ProfileProg) : ProfileProg :=
  .step label fun x s =>
    match (label.exec x s).1 with
    | .ok rowcount => next rowcount
    | .error e => .done (raise e)

/-- The `INSERT` of `add_profile`. -/
def insertProfile (row : ProfileRow) : ProfileProg :=
  write (.insert row) (fun
    | .uniqueViolation => .valueError
    | e => .sqlError e) fun _ => .done .returned

/-- `add_profile(name, odoo_version, description, parent_id=…)` -/
def addProfile (name odooVersion description : String) (parentId : Option Nat) : ProfileProg :=
  let row : ProfileRow :=
    { name, odooVersion, description := some description, parentProfileId := parentId }
  match parentId with
  | none => insertProfile row
  | some parentId =>
      ask (.version parentId) fun _ db =>
        match db.versionOf parentId with
        | none => .done .valueError
        | some parentVersion =>
            if parentVersion ≠ odooVersion then .done .valueError else insertProfile row

/-- The `UPDATE` of `set_profile_parent`, and what it says where no row has changed. -/
def updateParent (profileId : Nat) (parentId : Option Nat) : ProfileProg :=
  write (.setParent profileId parentId) .sqlError fun rowcount =>
    if rowcount = 0 then
      ask (.row profileId) fun _ db =>
        if profileId ∈ db.profiles then .done .returned else .done (.raised .profileNotFound)
    else .done .returned

/-- `set_profile_parent(profile_id, parent_id)`, with `_validate_parent` before the write. -/
def setProfileParent (profileId : Nat) : Option Nat → ProfileProg
  | none => updateParent profileId none
  | some parentId =>
      if parentId = profileId then .done (.raised .profileCycle)
      else
        ask (.version profileId) fun _ db =>
          let child := db.versionOf profileId
          ask (.version parentId) fun _ db =>
            match child, db.versionOf parentId with
            | some childVersion, some parentVersion =>
                if childVersion ≠ parentVersion then .done (.raised .profileVersionMismatch)
                else
                  ask (.ancestor parentId profileId) fun _ db =>
                    if db.isAncestor parentId profileId then .done (.raised .profileCycle)
                    else updateParent profileId (some parentId)
            | _, _ => .done (.raised .profileNotFound)

/-- The `UPDATE` of `update_profile`, where a column changes. -/
def updateColumns (profileId : Nat) (columns : Db.ProfilePatch) : ProfileProg :=
  if columns.name.isNone && columns.version.isNone && columns.description.isNone then
    .done .returned
  else
    write (.update profileId columns) (fun
      | .uniqueViolation => .raised .profileNameConflict
      | e => .sqlError e) fun rowcount =>
        if rowcount = 0 then .done (.raised .profileNotFound) else .done .returned

/-- The second check of a new version: the descendants. -/
def checkDescendants (profileId : Nat) (version : String) (next : ProfileProg) : ProfileProg :=
  ask (.descendant profileId version) fun _ db =>
    if db.otherDescendant profileId version then .done (.raised .profileVersionMismatch) else next

/-- The first check of a new version: the parent, as it was when the row was read. -/
def checkParent (parentId : Option Nat) (version : String) (next : ProfileProg) : ProfileProg :=
  match parentId with
  | none => next
  | some parentId =>
      ask (.version parentId) fun _ db =>
        if (db.versionOf parentId).any (· ≠ version) then .done (.raised .profileVersionMismatch)
        else next

/-- A name or a version is not changed under indexed repos. -/
def checkIndexed (profileId : Nat) (columns : Db.ProfilePatch) (next : ProfileProg) :
    ProfileProg :=
  if columns.name.isSome || columns.version.isSome then
    ask (.indexedRepos profileId) fun x _ =>
      if x.indexedRepos > 0 then .done (.raised .profileIndexed) else next
  else next

/-- `update_profile(profile_id, name=…, version=…, description=…)` -/
def updateProfile (profileId : Nat) (patch : Db.ProfilePatch) : ProfileProg :=
  ask (.row profileId) fun _ db =>
    match db.profiles.lookup profileId with
    | none => .done (.raised .profileNotFound)
    | some current =>
        let columns : Db.ProfilePatch :=
          { name := patch.name.filter (· ≠ current.name)
            version := patch.version.filter (· ≠ current.odooVersion)
            description := patch.description.filter fun d => some d ≠ current.description }
        checkIndexed profileId columns <|
          match columns.version with
          | none => updateColumns profileId columns
          | some version =>
              checkParent current.parentProfileId version <|
                checkDescendants profileId version <| updateColumns profileId columns

/-- `delete_profile(profile_id)` -/
def deleteProfile (profileId : Nat) : ProfileProg :=
  ask (.repos profileId) fun _ _ =>
    write (.delete profileId) .sqlError fun rowcount =>
      if rowcount = 0 then .done .valueError else .done .returned

end ProfileProg

inductive ProfileCall where
  | addProfile (name odooVersion description : String) (parentId : Option Nat := none)
  | setProfileParent (profileId : Nat) (parentId : Option Nat)
  | updateProfile (profileId : Nat) (patch : Db.ProfilePatch)
  | deleteProfile (profileId : Nat)

def ProfileCall.program : ProfileCall → ProfileProg
  | addProfile name odooVersion description parentId =>
      .addProfile name odooVersion description parentId
  | setProfileParent profileId parentId => .setProfileParent profileId parentId
  | updateProfile profileId patch => .updateProfile profileId patch
  | deleteProfile profileId => .deleteProfile profileId

/-- Calls that are under way on one table, and what they have done so far. -/
abbrev ProfileCalls (T : Type) :=
  Pool T ProfileTable Surroundings ProfileStatement ProfileOutcome

/-- One statement of one of the calls. -/
def ProfileCalls.step {T : Type} [DecidableEq T] (call : T → ProfileCall) :
    ProfileCalls T → Act T Surroundings → Option (ProfileCalls T) :=
  Pool.step ProfileStatement.effect fun t => (call t).program

end OdooSemantic
