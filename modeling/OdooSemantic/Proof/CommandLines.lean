import OdooSemantic.Web.IndexRoutes

/-!
# The command lines the web server spawns

What a route builds is a list of options and values, and what the indexer's parser makes of the
words is what the list meant, as long as the subparser knows every option and every value
reads as an argument (`parseArgs_repo`, `parseArgs_seed`). Three routes address `index-repo` and
one `seed-patterns`; both declare `--job-id`, and the only value a request is free in is a
profile name or a path. `index-core` does not declare `--job-id`, so what its route spawns is
never accepted. `round_trip_iff` puts the five together.
-/

namespace OdooSemantic

open ArgParse CommandLine KeyedStore

/-! ## Lists of optional blocks -/

def optional (c : Bool) (b : Block ArgValue) : List (Block ArgValue) := if c then [b] else []

theorem fits_optional {p : ArgumentParser ArgValue} {c : Bool} {b b' : Block ArgValue}
    (h : p.Fits b) (hb : b' ∈ optional c b) : p.Fits b' := by
  unfold optional at hb
  split at hb
  · exact List.mem_singleton.mp hb ▸ h
  · exact absurd hb (by simp)

theorem words_optional (c : Bool) (b : Block ArgValue) :
    (optional c b).flatMap Block.words = if c then b.words else [] := by
  cases c <;> simp [optional]

/-! ## `index-repo` -/

/-- `--profile name`, or `--all`. -/
def targetBlock : Option String → Block ArgValue
  | some name => strBlock profileArg "--profile" name
  | none => flagBlock allArg "--all"

/-- The options of the three routes that spawn `index-repo`. -/
def repoBlocks (target : Option String) (noEmbed full gc : Bool) (maxWorkers profileWorkers : Nat)
    (jobId : Nat) : List (Block ArgValue) :=
  [targetBlock target]
    ++ optional noEmbed (flagBlock noEmbedArg "--no-embed")
    ++ optional full (flagBlock fullArg "--full")
    ++ optional gc (flagBlock gcArg "--gc")
    ++ optional (maxWorkers ≠ 1) (intBlock maxWorkersArg "--max-workers" maxWorkers)
    ++ optional (profileWorkers ≠ 1) (intBlock profileWorkersArg "--profile-workers" profileWorkers)
    ++ [intBlock jobIdArg "--job-id" jobId]

/-- The namespace they mean. -/
def repoVars (target : Option String) (noEmbed full gc : Bool) (maxWorkers profileWorkers : Nat)
    (jobId : Nat) : List (String × ArgValue) :=
  [("profile", target.elim .none .str), ("all", .bool target.isNone), ("no_embed", .bool noEmbed),
    ("verbose", .bool false), ("job_id", .int jobId), ("max_workers", .int maxWorkers),
    ("full", .bool full), ("profile_workers", .int profileWorkers), ("gc", .bool gc)]

section Repo

variable {target : Option String} {noEmbed full gc : Bool} {maxWorkers profileWorkers jobId : Nat}

theorem fits_repoBlocks (h : ∀ name, target = some name → subRepo.Plain name) :
    ∀ b ∈ repoBlocks target noEmbed full gc maxWorkers profileWorkers jobId, subRepo.Fits b := by
  intro b hb
  simp only [repoBlocks, List.mem_append, List.mem_singleton] at hb
  rcases hb with ((((((rfl | hb) | hb) | hb) | hb) | hb) | rfl)
  · cases target with
    | none => exact fits_flagBlock rfl
    | some name => exact fits_strBlock rfl (h name rfl)
  · exact fits_optional (fits_flagBlock rfl) hb
  · exact fits_optional (fits_flagBlock rfl) hb
  · exact fits_optional (fits_flagBlock rfl) hb
  · exact fits_optional (fits_intBlock _ rfl) hb
  · exact fits_optional (fits_intBlock _ rfl) hb
  · exact fits_intBlock _ rfl

/-- A number that is left out where it is the default. -/
theorem optional_ne_one (n : Nat) (b : Block ArgValue) :
    optional (n ≠ 1) b = [b] ∨ n = 1 ∧ optional (n ≠ 1) b = [] := by
  by_cases hn : n = 1
  · exact Or.inr ⟨hn, by simp [optional, hn]⟩
  · exact Or.inl (by simp [optional, hn])

theorem accept_repoBlocks :
    ∃ seen, (repoBlocks target noEmbed full gc maxWorkers profileWorkers jobId).foldlM
        subRepo.accept subRepo.defaults =
      .ok ⟨repoVars target noEmbed full gc maxWorkers profileWorkers jobId, seen, []⟩ ∧
      subRepo.complete
        ⟨repoVars target noEmbed full gc maxWorkers profileWorkers jobId, seen, []⟩ = true := by
  unfold repoBlocks
  rcases optional_ne_one maxWorkers (intBlock maxWorkersArg "--max-workers" maxWorkers) with
      hmax | ⟨rfl, hmax⟩ <;>
    rcases optional_ne_one profileWorkers
      (intBlock profileWorkersArg "--profile-workers" profileWorkers) with
      hprofile | ⟨rfl, hprofile⟩ <;>
    rw [hmax, hprofile] <;>
    cases target <;> cases noEmbed <;> cases full <;> cases gc <;> exact ⟨_, rfl, rfl⟩

/-- **The `index-repo` lines round-trip.** -/
theorem parseArgs_repo (h : ∀ name, target = some name → subRepo.Plain name) :
    buildParser.parseArgs ("index-repo" ::
        (repoBlocks target noEmbed full gc maxWorkers profileWorkers jobId).flatMap Block.words) =
      .ok ("index-repo", repoVars target noEmbed full gc maxWorkers profileWorkers jobId) := by
  obtain ⟨seen, hst, hcomplete⟩ :=
    @accept_repoBlocks target noEmbed full gc maxWorkers profileWorkers jobId
  exact CommandParser.parseArgs_blocks (by decide) rfl (fits_repoBlocks h) hst hcomplete rfl

end Repo

/-- A profile name that does not read as an argument is refused. -/
theorem parseArgs_repo_of_not_plain {name : String} (h : ¬ subRepo.Plain name)
    (rest : List String) (result : String × List (String × ArgValue)) :
    buildParser.parseArgs ("index-repo" :: "--profile" :: name :: rest) ≠ .ok result :=
  @CommandParser.parseArgs_of_not_argument _ buildParser "index-repo" subRepo (by decide) rfl []
    (by simp) _ _ profileArg _ rfl rfl
    (fun hread => h (ArgumentParser.reading_eq_argument_iff.mp hread)) rest result

/-! ## `seed-patterns` -/

/-- The options of `post_seed_patterns` before `--patterns-file`; an empty text is left out. -/
def seedBlocks (version : String) (noEmbed force : Bool) : List (Block ArgValue) :=
  optional (version ≠ "") (strBlock versionArg "--version" version)
    ++ optional noEmbed (flagBlock noEmbedArg "--no-embed")
    ++ optional force (flagBlock forceArg "--force")

def patternsBlock (patternsFile : String) : Block ArgValue :=
  strBlock patternsFileArg "--patterns-file" patternsFile

def orNone (s : String) : ArgValue := if s = "" then .none else .str s

def seedVars (version patternsFile : String) (noEmbed force : Bool) (jobId : Nat) :
    List (String × ArgValue) :=
  [("version", orNone version), ("no_embed", .bool noEmbed), ("patterns_file", orNone patternsFile),
    ("force", .bool force), ("job_id", .int jobId)]

section Seed

variable {version patternsFile : String} {noEmbed force : Bool} {jobId : Nat}

theorem fits_seedBlocks (h : version ≠ "" → subSeed.Plain version) :
    ∀ b ∈ seedBlocks version noEmbed force, subSeed.Fits b := by
  intro b hb
  simp only [seedBlocks, List.mem_append] at hb
  rcases hb with ((hb | hb) | hb)
  · refine fits_optional (fits_strBlock rfl (h ?_)) hb
    intro hnil
    rw [optional, if_neg (by simp [hnil])] at hb
    exact absurd hb (by simp)
  · exact fits_optional (fits_flagBlock rfl) hb
  · exact fits_optional (fits_flagBlock rfl) hb

/-- A text that is left out where it is empty. -/
theorem optional_ne_empty (s : String) (b : Block ArgValue) :
    s ≠ "" ∧ orNone s = .str s ∧ optional (s ≠ "") b = [b] ∨ s = "" ∧ optional (s ≠ "") b = [] := by
  by_cases hs : s = ""
  · exact Or.inr ⟨hs, by simp [optional, hs]⟩
  · exact Or.inl ⟨hs, by simp [orNone, hs], by simp [optional, hs]⟩

theorem accept_seedBlocks :
    ∃ seen, (seedBlocks version noEmbed force ++
        optional (patternsFile ≠ "") (patternsBlock patternsFile) ++
          [intBlock jobIdArg "--job-id" jobId]).foldlM subSeed.accept subSeed.defaults =
      .ok ⟨seedVars version patternsFile noEmbed force jobId, seen, []⟩ ∧
      subSeed.complete ⟨seedVars version patternsFile noEmbed force jobId, seen, []⟩ = true := by
  unfold seedBlocks seedVars
  rcases optional_ne_empty version (strBlock versionArg "--version" version) with
      ⟨-, hv, hversion⟩ | ⟨rfl, hversion⟩ <;>
    rcases optional_ne_empty patternsFile (patternsBlock patternsFile) with
      ⟨-, hf, hfile⟩ | ⟨rfl, hfile⟩ <;>
    rw [hversion, hfile] <;> (try rw [hv]) <;> (try rw [hf]) <;>
    cases noEmbed <;> cases force <;> exact ⟨_, rfl, rfl⟩

/-- **The `seed-patterns` lines round-trip.** -/
theorem parseArgs_seed (hversion : version ≠ "" → subSeed.Plain version)
    (hfile : patternsFile ≠ "" → subSeed.Plain patternsFile) :
    buildParser.parseArgs ("seed-patterns" :: (seedBlocks version noEmbed force ++
        optional (patternsFile ≠ "") (patternsBlock patternsFile) ++
          [intBlock jobIdArg "--job-id" jobId]).flatMap Block.words) =
      .ok ("seed-patterns", seedVars version patternsFile noEmbed force jobId) := by
  obtain ⟨seen, hst, hcomplete⟩ := @accept_seedBlocks version patternsFile noEmbed force jobId
  refine CommandParser.parseArgs_blocks (by decide) rfl ?_ hst hcomplete rfl
  intro b hb
  rw [List.mem_append, List.mem_append, List.mem_singleton] at hb
  rcases hb with ((hb | hb) | rfl)
  · exact fits_seedBlocks hversion b hb
  · refine fits_optional (fits_strBlock rfl (hfile ?_)) hb
    intro hnil
    rw [optional, if_neg (by simp [hnil])] at hb
    exact absurd hb (by simp)
  · exact fits_intBlock _ rfl

/-- A patterns file that does not read as an argument is refused. -/
theorem parseArgs_seed_of_not_plain (hversion : version ≠ "" → subSeed.Plain version)
    (h : ¬ subSeed.Plain patternsFile) (rest : List String)
    (result : String × List (String × ArgValue)) :
    buildParser.parseArgs ("seed-patterns" :: ((seedBlocks version noEmbed force).flatMap Block.words
      ++ "--patterns-file" :: patternsFile :: rest)) ≠ .ok result :=
  CommandParser.parseArgs_of_not_argument (by decide) rfl (fits_seedBlocks hversion) rfl rfl
    (fun hread => h (ArgumentParser.reading_eq_argument_iff.mp hread)) rest result

end Seed

/-- A version begins with a digit. -/
theorem plain_of_isVersion {p : ArgumentParser ArgValue} {s : String} (h : isVersion s = true) :
    p.Plain s := by
  refine Or.inl fun hdash => ?_
  unfold isVersion at h
  cases hs : s.toList with
  | nil => simp [hs] at h
  | cons c cs =>
    rw [hs, List.head?_cons, Option.some.injEq] at hdash
    rw [hs, hdash] at h
    have hnot : PyText.isDecimal '-' = false := by decide
    simp [hnot] at h

/-! ## The five routes -/

/-- A request, with its body. -/
inductive SpawnRequest where
  | indexCore (body : IndexCoreBody)
  | seedPatterns (body : SeedPatternsBody)
  | indexRepo (repoId : Nat) (body : IndexRepoBody)
  | resetEmbed (repoId : Nat)
  | indexAll (body : IndexAllBody)

/-- The profile of a repo. -/
def Db.profileOf (db : Db) (repoId : Nat) : String :=
  ((db.repos.lookup repoId).bind fun r => (db.profiles.lookup r.profileId).map (·.name)).getD ""

namespace SpawnRequest

def answer (disk : Disk) (running : String → Bool) (db : Db) :
    SpawnRequest → Except Rejection SpawnCall
  | indexCore body => postIndexCore disk body
  | seedPatterns body => postSeedPatterns disk body
  | indexRepo repoId body => indexRepoRoute running db repoId body
  | resetEmbed repoId => (resetEmbedRoute running db repoId).map Prod.fst
  | indexAll body => indexAllRoute running db body

/-- The number a text stands for. -/
def number (text : String) : Nat := ((PyText.int text).getD 0).toNat

/-- The subcommand and the option values the request stands for. -/
def meant (db : Db) (jobId : Nat) : SpawnRequest → String × List (String × ArgValue)
  | indexCore body => ("index-core", [("source", .str (PyText.strip body.source)),
      ("version", .str (PyText.strip body.version)),
      ("static_data_dir", orNone (PyText.strip body.staticDataDir))])
  | seedPatterns body => ("seed-patterns", seedVars (PyText.strip body.version)
      (PyText.strip body.patternsFile) (body.noEmbed ≠ "") (body.force ≠ "") jobId)
  | indexRepo repoId body => ("index-repo", repoVars (some (db.profileOf repoId))
      (body.noEmbed ≠ "") (body.full ≠ "") (body.gc ≠ "") (number body.maxWorkers) 1 jobId)
  | resetEmbed repoId => ("index-repo",
      repoVars (some (db.profileOf repoId)) false false false 1 1 jobId)
  | indexAll body => ("index-repo", repoVars none (body.noEmbed ≠ "") (body.full ≠ "") false
      (number body.maxWorkers) (number body.profileWorkers) jobId)

/-- What a request has to be like. -/
def Survives (db : Db) : SpawnRequest → Prop
  | indexCore _ => False
  | seedPatterns body => subSeed.Plain (PyText.strip body.patternsFile)
  | indexRepo repoId _ => subRepo.Plain (db.profileOf repoId)
  | resetEmbed repoId => subRepo.Plain (db.profileOf repoId)
  | indexAll _ => True

variable {disk : Disk} {running : String → Bool} {db : Db} {call : SpawnCall} {jobId : Nat}

theorem number_of_parseWorkers {text invalid : String} {max n : Nat} {outOfRange : Int → String}
    (h : parseWorkers text max invalid outOfRange = .ok n) : number text = n := by
  unfold parseWorkers at h
  unfold number
  split at h
  · exact absurd h (by simp)
  · rename_i m hm
    split at h
    · rw [hm, ← Except.ok.inj h]
      rfl
    · exact absurd h (by simp)

/-! ### What the routes build -/

theorem argv_repo {name : String} {noEmbed full gc : Bool} {maxWorkers profileWorkers : Nat}
    {target : Option String} {words : List String}
    (h : words = "index-repo" :: (targetBlock target).words
      ++ (if noEmbed then ["--no-embed"] else []) ++ (if full then ["--full"] else [])
      ++ (if gc then ["--gc"] else [])
      ++ (if maxWorkers ≠ 1 then ["--max-workers", PyText.str maxWorkers] else [])
      ++ (if profileWorkers ≠ 1 then ["--profile-workers", PyText.str profileWorkers] else [])) :
    (SpawnCall.mk words name).argv jobId = "index-repo" ::
      (repoBlocks target noEmbed full gc maxWorkers profileWorkers jobId).flatMap Block.words := by
  subst h
  simp [SpawnCall.argv, repoBlocks, words_optional, Block.words, flagBlock, intBlock]

theorem argv_indexRepo {repoId : Nat} {body : IndexRepoBody}
    (h : indexRepoRoute running db repoId body = .ok call) :
    call.argv jobId = "index-repo" :: (repoBlocks (some (db.profileOf repoId))
      (body.noEmbed ≠ "") (body.full ≠ "") (body.gc ≠ "") (number body.maxWorkers) 1
        jobId).flatMap Block.words := by
  obtain ⟨maxWorkers, hworkers, h⟩ := Fallible.of_bind_eq_ok h
  rw [number_of_parseWorkers hworkers]
  unfold Db.profileOf
  cases hrow : db.repos.lookup repoId with
  | none => simp [hrow] at h
  | some r =>
    rw [hrow] at h
    dsimp only at h
    cases hname : (db.profiles.lookup r.profileId).map (·.name) with
    | none => simp [hname] at h
    | some name =>
      rw [hname] at h
      dsimp only at h
      split at h
      · exact absurd h (by simp)
      · split at h
        · exact absurd h (by simp)
        · rw [← Except.ok.inj h, Option.bind_some, hname]
          exact argv_repo (by simp [targetBlock, Block.words, strBlock])

theorem argv_resetEmbed {repoId : Nat} {db' : Db}
    (h : resetEmbedRoute running db repoId = .ok (call, db')) :
    call.argv jobId = "index-repo" :: (repoBlocks (some (db.profileOf repoId)) false false false 1 1
      jobId).flatMap Block.words := by
  unfold resetEmbedRoute at h
  cases hrepo : db.getRepoById repoId with
  | none => simp [hrepo] at h
  | some repo =>
    have hname : db.profileOf repoId = repo.profileName := by
      unfold Db.getRepoById at hrepo
      obtain ⟨r, hr, hrow⟩ := Option.bind_eq_some_iff.mp hrepo
      obtain ⟨p, hp, hdict⟩ := Option.map_eq_some_iff.mp hrow
      simp [Db.profileOf, hr, hp, ← hdict]
    rw [hrepo] at h
    dsimp only at h
    split at h
    · exact absurd h (by simp)
    · split at h
      · exact absurd h (by simp)
      · rw [← (Prod.mk.inj (Except.ok.inj h)).1, hname]
        exact argv_repo (by simp [targetBlock, Block.words, strBlock])

theorem argv_indexAll {body : IndexAllBody} (h : indexAllRoute running db body = .ok call) :
    call.argv jobId = "index-repo" :: (repoBlocks none (body.noEmbed ≠ "") (body.full ≠ "") false
      (number body.maxWorkers) (number body.profileWorkers) jobId).flatMap Block.words := by
  obtain ⟨maxWorkers, hmax, h⟩ := Fallible.of_bind_eq_ok h
  obtain ⟨profileWorkers, hprofile, h⟩ := Fallible.of_bind_eq_ok h
  rw [number_of_parseWorkers hmax, number_of_parseWorkers hprofile]
  dsimp only at h
  split at h
  · exact absurd h (by simp)
  · rw [← Except.ok.inj h]
    exact argv_repo (by simp [targetBlock, Block.words, flagBlock])

/-- What `post_seed_patterns` accepts has no version or a well-formed one. -/
theorem argv_seedPatterns {body : SeedPatternsBody} (h : postSeedPatterns disk body = .ok call) :
    (PyText.strip body.version ≠ "" → isVersion (PyText.strip body.version) = true) ∧
    call.argv jobId = "seed-patterns" :: (seedBlocks (PyText.strip body.version)
      (body.noEmbed ≠ "") (body.force ≠ "") ++ optional (PyText.strip body.patternsFile ≠ "")
        (patternsBlock (PyText.strip body.patternsFile)) ++
          [intBlock jobIdArg "--job-id" jobId]).flatMap Block.words := by
  unfold postSeedPatterns at h
  dsimp only at h
  split at h
  · exact absurd h (by simp)
  · rename_i hversion
    split at h
    · exact absurd h (by simp)
    · rw [← Except.ok.inj h]
      refine ⟨fun hne => ?_, ?_⟩
      · simpa [hne] using hversion
      · simp [SpawnCall.argv, seedBlocks, words_optional, Block.words, flagBlock, strBlock,
          intBlock, patternsBlock]

/-- What `post_index_core` builds carries a word that `index-core` does not know. -/
theorem argv_indexCore {body : IndexCoreBody} (h : postIndexCore disk body = .ok call) :
    ∃ args, call.argv jobId = "index-core" :: args ∧ "--job-id" ∈ args := by
  unfold postIndexCore at h
  dsimp only at h
  split at h
  · exact absurd h (by simp)
  · split at h
    · exact absurd h (by simp)
    · split at h
      · exact absurd h (by simp)
      · rw [← Except.ok.inj h]
        exact ⟨_, rfl, by simp⟩

/-- The line of a profile, up to its name. -/
theorem words_repoBlocks {name : String} {noEmbed full gc : Bool} {maxWorkers profileWorkers : Nat} :
    ∃ rest, (repoBlocks (some name) noEmbed full gc maxWorkers profileWorkers jobId).flatMap
      Block.words = "--profile" :: name :: rest := ⟨_, rfl⟩

/-- A profile's line round-trips exactly if the name reads as an argument. -/
theorem parseArgs_profile_iff {name : String} {noEmbed full gc : Bool}
    {maxWorkers profileWorkers : Nat} :
    buildParser.parseArgs ("index-repo" :: (repoBlocks (some name) noEmbed full gc maxWorkers
        profileWorkers jobId).flatMap Block.words) =
      .ok ("index-repo", repoVars (some name) noEmbed full gc maxWorkers profileWorkers jobId) ↔
    subRepo.Plain name := by
  refine ⟨fun h => ?_, fun h => parseArgs_repo fun name' heq => Option.some.inj heq ▸ h⟩
  by_contra hplain
  obtain ⟨rest, hrest⟩ := @words_repoBlocks jobId name noEmbed full gc maxWorkers profileWorkers
  rw [hrest] at h
  exact parseArgs_repo_of_not_plain hplain rest _ h

/-- **What survives the round trip.** Of the requests the routes accept, those are parsed to what
    they stand for whose profile name, or patterns file, reads as an argument; `index-all`
    always; `index-core` never. -/
theorem round_trip_iff {req : SpawnRequest} (h : req.answer disk running db = .ok call)
    (jobId : Nat) :
    buildParser.parseArgs (call.argv jobId) = .ok (req.meant db jobId) ↔ req.Survives db := by
  cases req with
  | indexCore body =>
    obtain ⟨args, hargs, hmem⟩ := @argv_indexCore disk call jobId body h
    refine iff_of_false ?_ (fun hfalse => hfalse)
    rw [hargs]
    exact CommandParser.parseArgs_of_unknown (by decide) rfl hmem rfl _
  | seedPatterns body =>
    obtain ⟨hversion, hargv⟩ := @argv_seedPatterns disk call jobId body h
    have hplain : PyText.strip body.version ≠ "" → subSeed.Plain (PyText.strip body.version) :=
      fun hne => plain_of_isVersion (hversion hne)
    rw [hargv]
    refine ⟨fun hok => ?_, fun hfile => parseArgs_seed hplain fun _ => hfile⟩
    by_contra hsurvives
    have hfile : ¬ subSeed.Plain (PyText.strip body.patternsFile) := hsurvives
    have hne : PyText.strip body.patternsFile ≠ "" := by
      intro hnil
      rw [hnil] at hfile
      exact hfile (Or.inl (by decide))
    rw [optional, if_pos (by simp [hne]), List.append_assoc, List.flatMap_append] at hok
    exact parseArgs_seed_of_not_plain hplain hfile _ _ hok
  | indexRepo repoId body =>
    rw [argv_indexRepo h]
    exact parseArgs_profile_iff
  | resetEmbed repoId =>
    unfold answer at h
    dsimp only at h
    cases hroute : resetEmbedRoute running db repoId with
    | error e => simp [hroute, Except.map] at h
    | ok result =>
      obtain ⟨call', db'⟩ := result
      rw [hroute] at h
      obtain rfl : call' = call := Except.ok.inj h
      rw [argv_resetEmbed hroute]
      exact parseArgs_profile_iff
  | indexAll body =>
    rw [argv_indexAll h]
    exact iff_of_true (parseArgs_repo fun name hname => absurd hname (by simp)) trivial

end SpawnRequest

/-! ### A profile called `-shop` -/

namespace DashedProfile

def db (name : String) : Db where
  profiles := AList.insert 1 { name, odooVersion := "17.0" } ∅
  repos := AList.insert 1 { profileId := 1, url := "git@shop/addons", branch := "17.0",
                            localPath := "/srv/addons" } ∅

def disk : Disk := ⟨fun _ => true, fun _ => true⟩

def idle : String → Bool := fun _ => false

def call (name : String) : SpawnCall := ⟨["index-repo", "--profile", name], name⟩

def coreBody : IndexCoreBody := { source := "/srv/odoo", version := "17.0" }

def coreCall : SpawnCall :=
  ⟨["index-core", "--source", "/srv/odoo", "--version", "17.0"], "core:17.0"⟩

/-- **Two accepted requests whose command lines the indexer refuses**: a profile whose name begins
    with `-`, and every `index-core`. -/
theorem round_trip_fails :
    (SpawnRequest.indexRepo 1 {}).answer disk idle (db "-shop") = .ok (call "-shop") ∧
    buildParser.parseArgs ((call "-shop").argv 7) = .error .usage ∧
    (SpawnRequest.indexCore coreBody).answer disk idle (db "shop") = .ok coreCall ∧
    buildParser.parseArgs (coreCall.argv 7) = .error .usage := ⟨rfl, rfl, rfl, rfl⟩

/-- The round trip for a profile called `shop`. -/
theorem round_trip_iff_shop :
    buildParser.parseArgs ((call "shop").argv 7) =
        .ok ((SpawnRequest.indexRepo 1 {}).meant (db "shop") 7) ↔
      (SpawnRequest.indexRepo 1 {}).Survives (db "shop") :=
  @SpawnRequest.round_trip_iff disk idle (db "shop") (call "shop") _ rfl 7

end DashedProfile

end OdooSemantic
