import OdooSemantic.Indexer.WriterNeo4j
import OdooSemantic.Indexer.WriterPgvector

/-!
# `src/indexer/seed_patterns.py` — two stores, two sentinels

A run reads the sentinels, and from what they say, the catalogue and the arguments it is settled
which commits it will make: the patterns go into Neo4j in batches and then the sentinel of Neo4j is
set, the rows in PostgreSQL are replaced in one transaction and then their sentinel is set. A run
that fails ends after some of its commits.

`run` is what an indexer calls when it is done, `main` the command line. They read the sentinels
differently: `main` writes both stores where either is behind.

The edges from a pattern to the core symbols it names are not looked at here, nor is the row of the
job in `indexer_jobs`.
-/

namespace OdooSemantic

open KeyedStore

variable {File Vec : Type}

structure PatternExample where
  patternId : String
  intentKeywords : List String := []
  fileRef : String
  snippetText : String
  gotchas : List String := []
  odooVersionMin : String
  language : String
deriving DecidableEq

/-- The properties of a `PatternExample` node, its key apart. -/
structure PatternNode where
  intentKeywords : List String
  fileRef : String
  snippetText : String
  gotchas : List String
  odooVersionMin : String
  language : String
deriving DecidableEq

/-- What is in a `patterns.json`. -/
structure Catalogue where
  entries : List PatternExample
  /-- `pattern_id`, "unique kebab-case identifier for the pattern". -/
  nodup : (entries.map (·.patternId)).Nodup

structure SeedState (Vec : Type) where
  neo4j : Store String PatternNode := ∅
  pgvector : EmbeddingTable Vec := ∅
  /-- `(:_SeedMeta {key: 'patterns_neo4j'})` -/
  neo4jSha : Option String := none
  /-- `(:_SeedMeta {key: 'patterns_pgvector'})` -/
  pgvectorSha : Option String := none
  /-- `(:_SeedMeta {key: 'patterns'})`, from before the sentinel was split. -/
  legacySha : Option String := none

structure SeedEnv (File Vec : Type) where
  sha256 : File → String
  /-- Nothing where the file does not validate. -/
  parse : File → Option Catalogue
  embed : Embedder Vec
  length_embed : ∀ texts, (embed texts).length = texts.length

inductive SeedEntry where
  | run (embedder : Bool)
  | main (noEmbed : Bool)

structure SeedRun (File : Type) where
  entry : SeedEntry
  file : File
  force : Bool := false
  /-- `odoo_version_min_filter`, `--version` -/
  version : Option String := none
  /-- How many commits it comes to, at most. -/
  reaches : Nat

inductive Commit where
  | batch (patterns : List PatternExample)
  | markNeo4j (sha : String)
  | replaceRows (chunks : List EmbeddingChunk)
  | markPgvector (sha : String)

namespace PatternExample

def node (p : PatternExample) : PatternNode :=
  ⟨p.intentKeywords, p.fileRef, p.snippetText, p.gotchas, p.odooVersionMin, p.language⟩

/-- One of `make_pattern_chunks`. -/
def chunk (p : PatternExample) : EmbeddingChunk where
  chunkType := "pattern_example"
  module := "__patterns__"
  odooVersion := p.odooVersionMin
  entityName := p.language ++ "__" ++ p.patternId
  modelName := none
  filePath := p.fileRef
  chunkIdx := 0
  content := String.intercalate "\n"
    (p.snippetText :: if p.gotchas = [] then [] else "---" :: p.gotchas)

/-- `MERGE (pe:PatternExample {pattern_id: $pid}) SET …` -/
def merge (g : Store String PatternNode) (p : PatternExample) : Store String PatternNode :=
  upsert p.patternId (fun _ => p.node) g

end PatternExample

/-- `make_pattern_chunks(patterns)` -/
def makePatternChunks (patterns : List PatternExample) : List EmbeddingChunk :=
  patterns.map PatternExample.chunk

/-- `_load_patterns(patterns_file, version_filter)`, behind the validation. -/
def Catalogue.load (c : Catalogue) (version : Option String) : List PatternExample :=
  match truthy version with
  | none => c.entries
  | some v => c.entries.filter fun p => p.odooVersionMin = v

namespace SeedState

/-- `chunk_type = 'pattern_example' AND module = '__patterns__'` -/
def isPatternKey (k : EmbeddingKey) : Bool :=
  k.chunkType = "pattern_example" ∧ k.module = "__patterns__"

variable (env : SeedEnv File Vec) (s : SeedState Vec)

/-- `_get_stored_patterns_sha(driver, "patterns_neo4j")`, the legacy key included. -/
def storedNeo4jSha : Option String := s.neo4jSha.or s.legacySha

def commit : Commit → SeedState Vec
  | .batch patterns => { s with neo4j := patterns.foldl PatternExample.merge s.neo4j }
  | .markNeo4j sha => { s with neo4jSha := some sha }
  | .replaceRows chunks =>
      let rows := chunks.zip (env.embed (chunks.map (·.content)))
      { s with pgvector := rows.foldl insertRow (eraseWhere isPatternKey s.pgvector) }
  | .markPgvector sha => { s with pgvectorSha := some sha }

/-- `write_pattern_examples(patterns)` and the sentinel. -/
def neo4jCommits (sha : String) (patterns : List PatternExample) : List Commit :=
  (chunked 200 patterns).map .batch ++ [.markNeo4j sha]

/-- `_write_pgvector(make_pattern_chunks(patterns))` and the sentinel. -/
def pgvectorCommits (sha : String) (patterns : List PatternExample) : List Commit :=
  [.replaceRows (makePatternChunks patterns), .markPgvector sha]

/-- `run(embedder=…, force=…)`, over the patterns that pass the filter. -/
def runCommits (embedder force : Bool) (sha : String) (patterns : List PatternExample) :
    List Commit :=
  let neo4jNeedsUpdate := force || s.storedNeo4jSha ≠ some sha
  let pgvectorNeedsUpdate := embedder && (force || s.pgvectorSha ≠ some sha)
  (if neo4jNeedsUpdate then neo4jCommits sha patterns else []) ++
    if pgvectorNeedsUpdate then pgvectorCommits sha patterns else []

/-- `main(["--no-embed", "--force", …])`, over the patterns that pass the filter. -/
def mainCommits (noEmbed force : Bool) (sha : String) (patterns : List PatternExample) :
    List Commit :=
  let neo4jDone := s.storedNeo4jSha = some sha
  let pgvecDone := s.pgvectorSha = some sha
  if !force ∧ neo4jDone ∧ (noEmbed ∨ pgvecDone) then []
  else if patterns = [] then []
  else neo4jCommits sha patterns ++ if noEmbed then [] else pgvectorCommits sha patterns

/-- What a run would commit. A file that does not validate raises. -/
def plan (r : SeedRun File) : List Commit :=
  match env.parse r.file with
  | none => []
  | some c =>
    match r.entry with
    | .run embedder => s.runCommits embedder r.force (env.sha256 r.file) (c.load r.version)
    | .main noEmbed => s.mainCommits noEmbed r.force (env.sha256 r.file) (c.load r.version)

/-- What it does commit. -/
def commits (r : SeedRun File) : List Commit := (s.plan env r).take r.reaches

/-- One run, up to its end or its failure. -/
def seed (r : SeedRun File) : SeedState Vec := (s.commits env r).foldl (commit env) s

end SeedState
end OdooSemantic
