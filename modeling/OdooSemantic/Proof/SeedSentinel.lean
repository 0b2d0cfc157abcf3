import OdooSemantic.Indexer.SeedPatterns
import OdooSemantic.Lib.Folds
import OdooSemantic.Lib.Machine

/-!
# What a sentinel says about its store

If a sentinel is the hash of a catalogue, the store has the patterns of that catalogue and no
others: in every sequence of runs in which what a run leaves out or leaves behind is right as it
is, and no run stops between a store and its sentinel while the sentinel is that of another
catalogue (`seed_sentinel_sound`).

The runs do not see to any of this. A run with a version filter sets the sentinel of the whole
file, and Neo4j keeps what a catalogue does not have any more (`StaleSentinel`).
-/

namespace OdooSemantic

open KeyedStore

namespace Commit

/-- The patterns that are merged. -/
def patterns : Commit → List PatternExample
  | batch patterns => patterns
  | _ => []

end Commit

namespace PatternExample

/-- The last pattern of an id is what stands there. -/
theorem lookup_foldl_merge (ps : List PatternExample) (g : Store String PatternNode)
    (id : String) :
    (ps.foldl merge g).lookup id =
      ((ps.reverse.find? fun p => p.patternId = id).map node).or (g.lookup id) := by
  induction ps generalizing g with
  | nil => rfl
  | cons p ps ih =>
    rw [List.foldl_cons, ih, merge, lookup_upsert, List.reverse_cons, List.find?_append]
    by_cases hid : id = p.patternId
    · subst hid
      cases hfind : ps.reverse.find? fun q => q.patternId = p.patternId <;> simp
    · cases hfind : ps.reverse.find? fun q => q.patternId = id <;> simp [hid, Ne.symm hid]

end PatternExample

namespace SeedState

variable {File Vec : Type} {env : SeedEnv File Vec} {s s' : SeedState Vec} {r : SeedRun File}
  {c : Catalogue}

/-- The nodes are the patterns of the catalogue. -/
def Neo4jHolds (g : Store String PatternNode) (c : Catalogue) : Prop :=
  ∀ id, g.lookup id = (c.entries.find? fun p => p.patternId = id).map PatternExample.node

/-- So are the rows. -/
def PgvectorHolds (t : EmbeddingTable Vec) (c : Catalogue) : Prop :=
  ∀ k, isPatternKey k = true →
    (t.lookup k).map (·.content) =
      (EmbeddingChunk.lastOf (makePatternChunks c.entries) k).map (·.content)

/-- A sentinel that is the hash of the file vouches for its patterns. -/
def Sound (env : SeedEnv File Vec) (f : File) (s : SeedState Vec) : Prop :=
  ∀ c, env.parse f = some c →
    (s.storedNeo4jSha = some (env.sha256 f) → Neo4jHolds s.neo4j c) ∧
    (s.pgvectorSha = some (env.sha256 f) → PgvectorHolds s.pgvector c)

/-- **What a run would have to see to.** -/
structure Faithful (env : SeedEnv File Vec) (s : SeedState Vec) (r : SeedRun File)
    (c : Catalogue) : Prop where
  /-- Nothing is left from an older catalogue. -/
  leftover : .markNeo4j (env.sha256 r.file) ∈ s.commits env r →
    ∀ id ∈ s.neo4j, ∃ p ∈ c.entries, p.patternId = id
  /-- What the filter takes out is there already. -/
  filtered : .markNeo4j (env.sha256 r.file) ∈ s.commits env r →
    ∀ p ∈ c.entries, p ∈ c.load r.version ∨ s.neo4j.lookup p.patternId = some p.node
  /-- A run that stops behind a batch is not taken for an older catalogue. -/
  merged : .markNeo4j (env.sha256 r.file) ∉ s.commits env r → ∀ ps, .batch ps ∈ s.commits env r →
    s.storedNeo4jSha = none ∨ s.storedNeo4jSha = some (env.sha256 r.file)
  /-- The filter takes nothing out. -/
  rows : .markPgvector (env.sha256 r.file) ∈ s.commits env r → c.load r.version = c.entries
  /-- A run that stops behind the rows is not taken for an older catalogue. -/
  replaced : .markPgvector (env.sha256 r.file) ∉ s.commits env r → ∀ chunks,
    .replaceRows chunks ∈ s.commits env r → s.pgvectorSha = none ∨
      s.pgvectorSha = some (env.sha256 r.file) ∧ c.load r.version = c.entries

/-! ## What a list of commits does -/

section Effects

variable (env) (cs : List Commit) (s)

theorem neo4j_foldl_commit : (cs.foldl (commit env) s).neo4j =
    (cs.flatMap Commit.patterns).foldl PatternExample.merge s.neo4j := by
  induction cs generalizing s with
  | nil => rfl
  | cons c cs ih =>
    rw [List.foldl_cons, ih, List.flatMap_cons, List.foldl_append]
    cases c <;> rfl

end Effects

/-! ## The commits of a run -/

/-- What is marked last is marked behind all the rest. -/
theorem mem_take_of_mark {A : Type} {xs zs : List A} {y : A} {n : Nat} (hy : y ∉ xs)
    (h : y ∈ (xs ++ y :: zs).take n) : ∀ x ∈ xs, x ∈ (xs ++ y :: zs).take n := by
  rw [List.take_append, List.mem_append] at h
  intro x hx
  rw [List.take_append, List.mem_append]
  refine Or.inl ?_
  have hn : xs.length ≤ n := by
    rcases h with h | h
    · exact absurd (List.mem_of_mem_take h) hy
    · have hpos : n - xs.length ≠ 0 := by
        intro hzero
        rw [hzero, List.take_zero] at h
        exact absurd h (by simp)
      omega
  rw [List.take_of_length_le hn]
  exact hx

/-- The two parts of a run, each of them there or not. -/
theorem plan_eq (hc : env.parse r.file = some c) :
    ∃ as bs : List Commit, s.plan env r = as ++ bs ∧
      (as = [] ∨ as = neo4jCommits (env.sha256 r.file) (c.load r.version)) ∧
      (bs = [] ∨ bs = pgvectorCommits (env.sha256 r.file) (c.load r.version)) := by
  unfold plan
  rw [hc]
  cases r.entry with
  | run embedder =>
    refine ⟨_, _, rfl, ?_, ?_⟩
    · split
      · exact Or.inr rfl
      · exact Or.inl rfl
    · split
      · exact Or.inr rfl
      · exact Or.inl rfl
  | main noEmbed =>
    simp only [mainCommits]
    split
    · exact ⟨[], [], rfl, Or.inl rfl, Or.inl rfl⟩
    · split
      · exact ⟨[], [], rfl, Or.inl rfl, Or.inl rfl⟩
      · refine ⟨_, _, rfl, Or.inr rfl, ?_⟩
        split
        · exact Or.inl rfl
        · exact Or.inr rfl

theorem commits_of_parse_none (hc : env.parse r.file = none) : s.commits env r = [] := by
  simp [commits, plan, hc]

/-- **What a run commits**: its own patterns, all of them before it marks a store, and its own
    hash. -/
theorem commits_spec (hc : env.parse r.file = some c) :
    (∀ ps, .batch ps ∈ s.commits env r → ∀ p ∈ ps, p ∈ c.load r.version) ∧
    (∀ sha, .markNeo4j sha ∈ s.commits env r → sha = env.sha256 r.file ∧
      ∀ p ∈ c.load r.version, p ∈ (s.commits env r).flatMap Commit.patterns) ∧
    (∀ chunks, .replaceRows chunks ∈ s.commits env r →
      chunks = makePatternChunks (c.load r.version)) ∧
    (∀ sha, .markPgvector sha ∈ s.commits env r → sha = env.sha256 r.file ∧
      .replaceRows (makePatternChunks (c.load r.version)) ∈ s.commits env r) := by
  obtain ⟨as, bs, hplan, has, hbs⟩ := plan_eq (s := s) hc
  unfold commits
  rw [hplan]
  refine ⟨fun ps hps p hp => ?_, fun sha hsha => ?_, fun chunks hchunks => ?_, fun sha hsha => ?_⟩
  · have hmem := List.mem_append.mp (List.mem_of_mem_take hps)
    rcases has with rfl | rfl <;> rcases hbs with rfl | rfl <;>
      simp [neo4jCommits, pgvectorCommits] at hmem
    · exact mem_of_mem_chunked hmem hp
    · exact mem_of_mem_chunked hmem hp
  · have hmem := List.mem_append.mp (List.mem_of_mem_take hsha)
    rcases has with rfl | rfl
    · rcases hbs with rfl | rfl <;> simp [pgvectorCommits] at hmem
    · have heq : sha = env.sha256 r.file := by
        rcases hbs with rfl | rfl <;> simpa [neo4jCommits, pgvectorCommits] using hmem
      refine ⟨heq, fun p hp => ?_⟩
      subst heq
      rw [neo4jCommits, List.append_assoc] at hsha ⊢
      obtain ⟨batch, hbatch, hmem⟩ := exists_mem_chunked (show 0 < 200 by decide) hp
      refine List.mem_flatMap.mpr ⟨.batch batch, ?_, hmem⟩
      exact mem_take_of_mark (by simp) hsha _ (List.mem_map_of_mem hbatch)
  · have hmem := List.mem_append.mp (List.mem_of_mem_take hchunks)
    rcases has with rfl | rfl <;> rcases hbs with rfl | rfl <;>
      simp [neo4jCommits, pgvectorCommits] at hmem
    · exact hmem
    · exact hmem
  · have hmem := List.mem_append.mp (List.mem_of_mem_take hsha)
    rcases hbs with rfl | rfl
    · rcases has with rfl | rfl <;> simp [neo4jCommits] at hmem
    · have heq : sha = env.sha256 r.file := by
        rcases has with rfl | rfl <;> simpa [neo4jCommits, pgvectorCommits] using hmem
      refine ⟨heq, ?_⟩
      subst heq
      rw [pgvectorCommits, List.append_cons] at hsha ⊢
      refine mem_take_of_mark ?_ hsha _ (by simp)
      rcases has with rfl | rfl <;> simp [neo4jCommits]

/-! ## One run -/

/-- The patterns of a catalogue over nodes that are right where they are not. -/
theorem neo4jHolds_merge {ps : List PatternExample} {g : Store String PatternNode}
    (hps : ∀ p ∈ ps, p ∈ c.entries)
    (hrest : ∀ id, (∀ p ∈ ps, p.patternId ≠ id) →
      g.lookup id = (c.entries.find? fun p => p.patternId = id).map PatternExample.node) :
    Neo4jHolds (ps.foldl PatternExample.merge g) c := by
  intro id
  rw [PatternExample.lookup_foldl_merge]
  cases hfind : ps.reverse.find? fun p => p.patternId = id with
  | none =>
    rw [Option.map_none, Option.none_or]
    exact hrest id fun p hp => by simpa using List.find?_eq_none.mp hfind p (by simpa using hp)
  | some p =>
    have hid : p.patternId = id := by simpa using List.find?_some hfind
    have hp : p ∈ c.entries := hps p (by simpa using List.mem_of_find?_eq_some hfind)
    subst hid
    cases hown : c.entries.find? fun q => q.patternId = p.patternId with
    | none =>
      have hnone := List.find?_eq_none.mp hown p hp
      exact absurd hnone (by simp)
    | some q =>
      have hq : q.patternId = p.patternId := by simpa using List.find?_some hown
      rw [List.inj_on_of_nodup_map c.nodup (List.mem_of_find?_eq_some hown) hp hq]
      rfl

/-- Rows that were replaced by those of a catalogue. -/
theorem pgvectorHolds_replace (s : SeedState Vec) (c : Catalogue) :
    PgvectorHolds (s.commit env (.replaceRows (makePatternChunks c.entries))).pgvector c := by
  intro k hk
  simp only [commit]
  rw [lookup_foldl_insertRow, map_fst_zip_embed env.length_embed, lookup_eraseWhere, if_pos hk]
  simp

theorem mem_entries_of_mem_load {version : Option String} {p : PatternExample}
    (hp : p ∈ c.load version) : p ∈ c.entries := by
  unfold Catalogue.load at hp
  split at hp
  · exact hp
  · exact (List.mem_filter.mp hp).1

section Sentinels

variable (hc : env.parse r.file = some c)
include hc

/-- A sentinel that is set is set to the hash of the file. -/
theorem neo4jSha_seed (hmark : .markNeo4j (env.sha256 r.file) ∈ s.commits env r) :
    (s.seed env r).neo4jSha = some (env.sha256 r.file) := by
  refine Folds.foldl_of_exists (Q := fun _ => True)
    (P := fun s : SeedState Vec => s.neo4jSha = some (env.sha256 r.file)) hmark (fun _ _ => rfl)
    (fun d hd s hs => ?_) (fun _ _ _ h => h) trivial
  cases d with
  | markNeo4j sha =>
    rw [((commits_spec hc).2.1 sha hd).1]
    rfl
  | batch _ | replaceRows _ | markPgvector _ => exact hs

theorem pgvectorSha_seed (hmark : .markPgvector (env.sha256 r.file) ∈ s.commits env r) :
    (s.seed env r).pgvectorSha = some (env.sha256 r.file) := by
  refine Folds.foldl_of_exists (Q := fun _ => True)
    (P := fun s : SeedState Vec => s.pgvectorSha = some (env.sha256 r.file)) hmark (fun _ _ => rfl)
    (fun d hd s hs => ?_) (fun _ _ _ h => h) trivial
  cases d with
  | markPgvector sha =>
    rw [((commits_spec hc).2.2.2 sha hd).1]
    rfl
  | batch _ | replaceRows _ | markNeo4j _ => exact hs

theorem storedNeo4jSha_seed (hmark : .markNeo4j (env.sha256 r.file) ∉ s.commits env r) :
    (s.seed env r).storedNeo4jSha = s.storedNeo4jSha := by
  refine Folds.foldl_of_forall (F := storedNeo4jSha) (fun d hd s => ?_) s
  cases d with
  | markNeo4j sha =>
    rw [((commits_spec hc).2.1 sha hd).1] at hd
    exact absurd hd hmark
  | batch _ | replaceRows _ | markPgvector _ => rfl

theorem pgvectorSha_seed_of_notMem
    (hmark : .markPgvector (env.sha256 r.file) ∉ s.commits env r) :
    (s.seed env r).pgvectorSha = s.pgvectorSha := by
  refine Folds.foldl_of_forall (F := pgvectorSha) (fun d hd s => ?_) s
  cases d with
  | markPgvector sha =>
    rw [((commits_spec hc).2.2.2 sha hd).1] at hd
    exact absurd hd hmark
  | batch _ | replaceRows _ | markNeo4j _ => rfl

/-- Rows that are replaced, and by all of the catalogue. -/
theorem pgvectorHolds_seed (hload : c.load r.version = c.entries) {chunks : List EmbeddingChunk}
    (hrows : .replaceRows chunks ∈ s.commits env r) :
    PgvectorHolds (s.seed env r).pgvector c := by
  have hchunks : ∀ chunks, .replaceRows chunks ∈ s.commits env r →
      chunks = makePatternChunks c.entries := by
    rw [← hload]
    exact (commits_spec hc).2.2.1
  refine Folds.foldl_of_exists (Q := fun _ => True)
    (P := fun s : SeedState Vec => PgvectorHolds s.pgvector c) hrows (fun s _ => ?_)
    (fun d hd s hs => ?_) (fun _ _ _ h => h) trivial
  · rw [hchunks chunks hrows]
    exact pgvectorHolds_replace s c
  · cases d with
    | replaceRows chunks =>
      rw [hchunks chunks hd]
      exact pgvectorHolds_replace s c
    | batch _ | markNeo4j _ | markPgvector _ => exact hs

theorem mem_entries_of_merged {p : PatternExample}
    (hp : p ∈ (s.commits env r).flatMap Commit.patterns) : p ∈ c.entries := by
  obtain ⟨d, hd, hpd⟩ := List.mem_flatMap.mp hp
  cases d with
  | batch ps => exact mem_entries_of_mem_load ((commits_spec hc).1 ps hd p hpd)
  | markNeo4j _ | replaceRows _ | markPgvector _ => exact absurd hpd (by simp [Commit.patterns])

/-- A run that marks Neo4j, over nodes that are right where it merges nothing. -/
theorem neo4jHolds_seed (hfaithful : Faithful env s r c)
    (hmark : .markNeo4j (env.sha256 r.file) ∈ s.commits env r) :
    Neo4jHolds (s.seed env r).neo4j c := by
  rw [seed, neo4j_foldl_commit]
  refine neo4jHolds_merge (fun p hp => mem_entries_of_merged hc hp) fun id hid => ?_
  cases hfind : c.entries.find? fun p => p.patternId = id with
  | none =>
    have hnot : id ∉ s.neo4j := by
      intro hmem
      obtain ⟨p, hp, hpid⟩ := hfaithful.leftover hmark id hmem
      exact absurd hpid (by simpa using List.find?_eq_none.mp hfind p hp)
    exact AList.lookup_eq_none.mpr hnot
  | some p =>
    have hpid : p.patternId = id := by simpa using List.find?_some hfind
    cases hfaithful.filtered hmark p (List.mem_of_find?_eq_some hfind) with
    | inl hload => exact absurd hpid (hid p (((commits_spec hc).2.1 _ hmark).2 p hload))
    | inr hthere =>
      rw [← hpid, hthere]
      rfl

end Sentinels

/-- **What one run does to a sentinel's word.** -/
theorem sound_seed {f : File} (hsha : ∀ g, env.sha256 g = env.sha256 f → g = f)
    (hfaithful : ∀ c, env.parse r.file = some c → Faithful env s r c) (h : Sound env f s) :
    Sound env f (s.seed env r) := by
  cases hparse : env.parse r.file with
  | none =>
    rw [seed, commits_of_parse_none hparse]
    exact h
  | some c =>
    have hfaith := hfaithful c hparse
    have hsame : ∀ {sha : String} {c₀ : Catalogue}, some sha = some (env.sha256 f) →
        sha = env.sha256 r.file → env.parse f = some c₀ → c = c₀ := by
      intro sha c₀ hsome heq hc₀
      have hfile := hsha r.file (heq.symm.trans (Option.some.inj hsome))
      rw [hfile, hc₀] at hparse
      exact (Option.some.inj hparse).symm
    intro c₀ hc₀
    obtain ⟨hneo4j, hpgvector⟩ := h c₀ hc₀
    refine ⟨fun hstored => ?_, fun hstored => ?_⟩
    · by_cases hmark : .markNeo4j (env.sha256 r.file) ∈ s.commits env r
      · rw [storedNeo4jSha, neo4jSha_seed hparse hmark, Option.some_or] at hstored
        exact hsame hstored rfl hc₀ ▸ neo4jHolds_seed hparse hfaith hmark
      · rw [storedNeo4jSha_seed hparse hmark] at hstored
        have hholds := hneo4j hstored
        rw [seed, neo4j_foldl_commit]
        refine neo4jHolds_merge (fun p hp => ?_) fun id _ => hholds id
        -- a batch is merged, so the sentinel is not of another catalogue
        obtain ⟨d, hd, hpd⟩ := List.mem_flatMap.mp hp
        cases d with
        | batch ps =>
          cases hfaith.merged hmark ps hd with
          | inl hnone => exact absurd (hnone.symm.trans hstored) (by simp)
          | inr hsome =>
            have heq := hsame (hsome.symm.trans hstored) rfl hc₀
            exact heq ▸ mem_entries_of_merged hparse hp
        | markNeo4j _ | replaceRows _ | markPgvector _ =>
          exact absurd hpd (by simp [Commit.patterns])
    · by_cases hmark : .markPgvector (env.sha256 r.file) ∈ s.commits env r
      · rw [pgvectorSha_seed hparse hmark] at hstored
        exact hsame hstored rfl hc₀ ▸ pgvectorHolds_seed hparse (hfaith.rows hmark)
          ((commits_spec hparse).2.2.2 _ hmark).2
      · rw [pgvectorSha_seed_of_notMem hparse hmark] at hstored
        by_cases hrows : ∃ chunks, .replaceRows chunks ∈ s.commits env r
        · obtain ⟨chunks, hchunks⟩ := hrows
          cases hfaith.replaced hmark chunks hchunks with
          | inl hnone => exact absurd (hnone.symm.trans hstored) (by simp)
          | inr hsome =>
            exact hsame (hsome.1.symm.trans hstored) rfl hc₀ ▸
              pgvectorHolds_seed hparse hsome.2 hchunks
        · have hkept : (s.seed env r).pgvector = s.pgvector := by
            refine Folds.foldl_of_forall (F := pgvector) (fun d hd s => ?_) s
            cases d with
            | replaceRows chunks => exact absurd ⟨chunks, hd⟩ hrows
            | batch _ | markNeo4j _ | markPgvector _ => rfl
          rw [hkept]
          exact hpgvector hstored

end SeedState

open Machine SeedState in
/-- **A sentinel vouches for its store**, and so a run that skips a store skips nothing: in every
    sequence of runs each of which is `Faithful`, wherever it ends, for a catalogue whose hash no
    other one has. -/
theorem seed_sentinel_sound {File Vec : Type} {env : SeedEnv File Vec} {f : File}
    (hsha : ∀ g, env.sha256 g = env.sha256 f → g = f) {start s : SeedState Vec}
    (hstart : SeedState.Sound env f start) {runs : List (SeedRun File)}
    (hruns : Runs (fun s r => some (s.seed env r))
      (fun s r => ∀ c, env.parse r.file = some c → Faithful env s r c) start runs s) :
    SeedState.Sound env f s := by
  refine hruns.invariant (fun s r s' hstep hfaithful h => ?_) hstart
  obtain rfl := Option.some.inj hstep
  exact sound_seed hsha hfaithful h

/-! ## Sentinels that are ahead of their stores -/

namespace StaleSentinel

open SeedState

def early : PatternExample where
  patternId := "computed-field"
  fileRef := "addons/sale/models/sale_order.py:120"
  snippetText := "amount = fields.Monetary(compute='_compute_amount')"
  odooVersionMin := "16.0"
  language := "python"

def late : PatternExample where
  patternId := "owl-patch"
  fileRef := "addons/web/static/src/core/utils/patch.js:1"
  snippetText := "patch(Order.prototype, ...)"
  odooVersionMin := "17.0"
  language := "js"

/-- Two catalogues, and the hash that tells them apart. -/
def env : SeedEnv String Unit where
  sha256 := id
  parse
    | "old" => some ⟨[early, late], by decide⟩
    | "new" => some ⟨[late], by decide⟩
    | _ => none
  embed texts := texts.map fun _ => ()
  length_embed _ := List.length_map _

def after (runs : List (SeedRun String)) : SeedState Unit := runs.foldl (fun s r => s.seed env r) {}

/-- A catalogue that only grows, seeded by the indexer and then by hand. -/
def growing : List (SeedRun String) :=
  [{ entry := .run false, file := "new", reaches := 2 },
   { entry := .main false, file := "old", reaches := 4 }]

/-- The old catalogue, of which the filter leaves one half. -/
def filtering : List (SeedRun String) :=
  [{ entry := .main false, file := "old", version := some "17.0", reaches := 4 }]

/-- The old catalogue, and then the new one. -/
def shrinking : List (SeedRun String) :=
  [{ entry := .run true, file := "old", reaches := 4 },
   { entry := .run true, file := "new", reaches := 4 }]

/-- The new catalogue, and then a run that stops behind the patterns of the old one. -/
def stopping : List (SeedRun String) :=
  [{ entry := .run true, file := "new", reaches := 4 },
   { entry := .run true, file := "old", reaches := 1 }]

/-- A run that comes to its end, with all of the catalogue and over nothing else. -/
theorem faithful_of_complete {s : SeedState Unit} {r : SeedRun String} {c : Catalogue}
    (hload : c.load r.version = c.entries)
    (hleft : ∀ id ∈ s.neo4j, ∃ p ∈ c.entries, p.patternId = id)
    (hneo4j : .markNeo4j (env.sha256 r.file) ∈ s.commits env r)
    (hpgvector : .markPgvector (env.sha256 r.file) ∈ s.commits env r ∨
      ∀ chunks, .replaceRows chunks ∉ s.commits env r) : Faithful env s r c where
  leftover _ := hleft
  filtered _ _ hp := Or.inl (hload ▸ hp)
  merged h := absurd hneo4j h
  rows _ := hload
  replaced h chunks hchunks := (hpgvector.elim h fun hnone => hnone chunks hchunks).elim

/-- The indexer seeds the new catalogue without an embedder, and the old one, which has more, is
    seeded by hand. -/
theorem seed_sentinel_growing : SeedState.Sound env "old" (after growing) := by
  have hstart : SeedState.Sound env "old" ({} : SeedState Unit) := fun _ _ =>
    ⟨fun h => absurd h (by simp [storedNeo4jSha]), fun h => absurd h (by simp)⟩
  have hruns : Machine.Runs (fun s r => some (s.seed env r))
      (fun s r => ∀ c, env.parse r.file = some c → Faithful env s r c) {} growing
      (after growing) := by
    refine .cons rfl (fun c hc => ?_) (.cons rfl (fun c hc => ?_) (.nil _))
    · obtain rfl := Option.some.inj hc
      have hcommits : SeedState.commits env {} { entry := .run false, file := "new", reaches := 2 } =
          [.batch [late], .markNeo4j "new"] := rfl
      refine faithful_of_complete rfl (fun id hid => absurd hid (by simp)) ?_ (Or.inr ?_)
      · rw [hcommits]
        exact List.mem_cons_of_mem _ List.mem_cons_self
      · rw [hcommits]
        simp
    · obtain rfl := Option.some.inj hc
      have hcommits : SeedState.commits env
          (SeedState.seed env {} { entry := .run false, file := "new", reaches := 2 })
          { entry := .main false, file := "old", reaches := 4 } =
          [.batch [early, late], .markNeo4j "old", .replaceRows (makePatternChunks [early, late]),
            .markPgvector "old"] := rfl
      refine faithful_of_complete rfl (fun id hid => ?_) ?_ (Or.inl ?_)
      · have hkeys : (SeedState.seed env {}
            { entry := .run false, file := "new", reaches := 2 }).neo4j.keys = ["owl-patch"] := rfl
        have hmem : id ∈ ["owl-patch"] := hkeys ▸ AList.mem_keys.mp hid
        exact ⟨late, by simp, (List.mem_singleton.mp hmem).symm⟩
      · rw [hcommits]
        exact List.mem_cons_of_mem _ List.mem_cons_self
      · rw [hcommits]
        simp [env]
  exact seed_sentinel_sound (fun g hg => hg) hstart hruns

/-- Any list of runs is a sequence of runs. -/
theorem runs_after (runs : List (SeedRun String)) (s : SeedState Unit) :
    Machine.Runs (fun s r => some (s.seed env r)) (fun _ _ => True) s runs
      (runs.foldl (fun s r => s.seed env r) s) := by
  induction runs generalizing s with
  | nil => exact .nil s
  | cons r runs ih => exact .cons rfl trivial (ih _)

/-- **Behind a filter the sentinels of both stores are those of the whole file, Neo4j keeps what is
    in the catalogue no more, and what a stopped run has merged goes by the old sentinel.** -/
theorem sentinels_ahead :
    (¬∀ runs s, Machine.Runs (fun s r => some (s.seed env r)) (fun _ _ => True)
        ({} : SeedState Unit) runs s → ∀ c, env.parse "old" = some c →
          s.storedNeo4jSha = some (env.sha256 "old") → ∀ p ∈ c.entries, p.patternId ∈ s.neo4j) ∧
    (¬∀ runs s, Machine.Runs (fun s r => some (s.seed env r)) (fun _ _ => True)
        ({} : SeedState Unit) runs s → ∀ c, env.parse "old" = some c →
          s.pgvectorSha = some (env.sha256 "old") → ∀ p ∈ c.entries, p.chunk.key ∈ s.pgvector) ∧
    ∀ runs ∈ [shrinking, stopping],
      (after runs).storedNeo4jSha = some (env.sha256 "new") ∧ "computed-field" ∈ (after runs).neo4j ∧
        ∀ c, env.parse "new" = some c → ∀ p ∈ c.entries, p.patternId ≠ "computed-field" := by
  refine ⟨fun h => ?_, fun h => ?_, fun runs hruns => ?_⟩
  · have hmem := h filtering _ (runs_after filtering {}) _ rfl rfl early List.mem_cons_self
    exact absurd hmem (by decide)
  · have hmem := h filtering _ (runs_after filtering {}) _ rfl rfl early List.mem_cons_self
    exact absurd hmem (by decide)
  · have hnew : ∀ c, env.parse "new" = some c → ∀ p ∈ c.entries, p.patternId ≠ "computed-field" := by
      intro c hc
      obtain rfl := Option.some.inj hc
      decide
    rcases List.mem_cons.mp hruns with rfl | hruns
    · exact ⟨rfl, by decide, hnew⟩
    · obtain rfl := List.mem_singleton.mp hruns
      exact ⟨rfl, by decide, hnew⟩

end StaleSentinel

end OdooSemantic
