import OdooSemantic.Indexer.Embedder
import OdooSemantic.Indexer.WriterPgvector
import OdooSemantic.Lib.Fallible

/-!
# `write_module_embeddings`, statement by statement

The embedder is asked before the database is. The deletion and the inserts are one transaction, and
whatever raises in it is followed by a rollback. What returns has done what
`writeModuleEmbeddings` says (`table_of_returned`).

A statement that raises has changed nothing, and which ones do is left open.
-/

namespace OdooSemantic

open KeyedStore

variable {Vec : Type}

/-- What is sent to the database, in a transaction. -/
inductive EmbeddingStatement (Vec : Type) where
  | delete (module version : String)
  /-- A page of `execute_values`. -/
  | insert (page : List (EmbeddingChunk × Vec))
  | commit

namespace EmbeddingStatement

def effect : EmbeddingStatement Vec → EmbeddingTable Vec → EmbeddingTable Vec
  | delete module version, t =>
      eraseWhere (fun k => k.module = module ∧ k.odooVersion = version) t
  | insert page, t => page.foldl insertRow t
  | commit, t => t

/-- `ON CONFLICT DO UPDATE command cannot affect row a second time` -/
def conflicts : EmbeddingStatement Vec → Bool
  | insert page => ¬ (page.map fun row => row.1.key).Nodup
  | _ => false

end EmbeddingStatement

inductive EmbeddingWriteError where
  | embedder (error : EmbedError)
  | connection
  /-- Raised between the first statement and the end of the commit. -/
  | transaction

/-- What the writer works with. -/
structure EmbeddingWriter (Vec : Type) where
  embedder : Qwen3Embedder Vec
  /-- `checkout_vec()` has a connection. -/
  connects : Bool := true
  refuses : EmbeddingStatement Vec → EmbeddingTable Vec → Bool

/-- `page_size` of `execute_values`. -/
def executeValuesPageSize : Nat := 100

/-- `[c.as_tuple(vecs[i]) for i, c in enumerate(chunks)]`; `none` is an `IndexError`. -/
def asTuples : List EmbeddingChunk → List Vec → Option (List (EmbeddingChunk × Vec))
  | [], _ => some []
  | _ :: _, [] => none
  | c :: chunks, v :: vecs => (asTuples chunks vecs).map fun rows => (c, v) :: rows

namespace EmbeddingWriter

variable (w : EmbeddingWriter Vec)

def exec (statement : EmbeddingStatement Vec) (t : EmbeddingTable Vec) :
    Option (EmbeddingTable Vec) :=
  if w.refuses statement t || statement.conflicts then none else some (statement.effect t)

/-- `execute_values(cur, _INSERT_SQL, rows)`, then `conn.commit()`. -/
def insertAndCommit (rows : List (EmbeddingChunk × Vec)) : List (EmbeddingStatement Vec) :=
  (chunked executeValuesPageSize rows).map .insert ++ [.commit]

/-- The body of the transaction; `none` where it raises. -/
def transaction (module version : String) (chunks : List EmbeddingChunk) (vecs : List Vec)
    (t : EmbeddingTable Vec) : Option (EmbeddingTable Vec) := do
  let t ← w.exec (.delete module version) t
  let rows ← asTuples chunks vecs
  Script.runStrict w.exec (insertAndCommit rows) t

/-- `write_module_embeddings(module, version, chunks, embedder)`, and the table afterwards. -/
def writeModuleEmbeddings (module version : String) (chunks : List EmbeddingChunk)
    (st : EmbedderState) (t : EmbeddingTable Vec) :
    Except EmbeddingWriteError Nat × EmbeddingTable Vec :=
  if chunks = [] then (.ok 0, t)
  else
    let chunks := EmbeddingChunk.dedup chunks
    match w.embedder.embed (chunks.map (·.content)) st with
    | .error error => (.error (.embedder error), t)
    | .ok (vecs, st') =>
        if w.connects then
          match w.transaction module version chunks vecs t with
          | some t' => (.ok (st'.callCount - st.callCount), t')
          -- `conn.rollback(); raise`
          | none => (.error .transaction, t)
        else (.error .connection, t)

end EmbeddingWriter

/-! ## The transaction -/

theorem asTuples_eq_some_iff {chunks : List EmbeddingChunk} {vecs : List Vec}
    {rows : List (EmbeddingChunk × Vec)} :
    asTuples chunks vecs = some rows ↔ chunks.length ≤ vecs.length ∧ rows = chunks.zip vecs := by
  induction chunks generalizing vecs rows with
  | nil => simp [asTuples, eq_comm]
  | cons c chunks ih =>
    cases vecs with
    | nil => simp [asTuples]
    | cons v vecs =>
      rw [asTuples, Option.map_eq_some_iff]
      constructor
      · rintro ⟨rest, hrest, rfl⟩
        obtain ⟨hlen, rfl⟩ := ih.mp hrest
        exact ⟨Nat.succ_le_succ hlen, rfl⟩
      · rintro ⟨hlen, rfl⟩
        exact ⟨_, ih.mpr ⟨Nat.le_of_succ_le_succ hlen, rfl⟩, rfl⟩

namespace EmbeddingWriter

variable {w : EmbeddingWriter Vec} {module version : String} {chunks : List EmbeddingChunk}
  {st : EmbedderState} {t t' : EmbeddingTable Vec}

theorem exec_eq_some {statement : EmbeddingStatement Vec} (h : w.exec statement t = some t') :
    t' = statement.effect t := by
  unfold exec at h
  split at h
  · exact absurd h (by simp)
  · exact (Option.some.inj h).symm

/-- Page by page, all rows go in. -/
theorem runStrict_insertAndCommit {rows : List (EmbeddingChunk × Vec)}
    (h : Script.runStrict w.exec (insertAndCommit rows) t = some t') :
    t' = rows.foldl insertRow t := by
  have hpages : ∀ (pages : List (List (EmbeddingChunk × Vec))) (t : EmbeddingTable Vec),
      Script.runStrict w.exec (pages.map .insert ++ [.commit]) t = some t' →
        t' = pages.flatten.foldl insertRow t := by
    intro pages
    induction pages with
    | nil =>
      intro t h
      obtain ⟨t₁, hcommit, hend⟩ := Option.bind_eq_some_iff.mp h
      rw [← Option.some.inj hend]
      exact exec_eq_some hcommit
    | cons page pages ih =>
      intro t h
      obtain ⟨t₁, hpage, hrest⟩ := Option.bind_eq_some_iff.mp h
      rw [List.flatten_cons, List.foldl_append, ih t₁ hrest, exec_eq_some hpage]
      rfl
  have hall := hpages _ t h
  rwa [flatten_chunked (by decide)] at hall

/-- What has returned had chunks to write or had none. -/
theorem table_of_returned {vec : String → Vec} (hhonest : w.embedder.Honest vec) {calls : Nat}
    (h : w.writeModuleEmbeddings module version chunks st t = (.ok calls, t')) :
    t' = OdooSemantic.writeModuleEmbeddings (List.map vec) module version chunks t := by
  unfold writeModuleEmbeddings at h
  unfold OdooSemantic.writeModuleEmbeddings
  split at h
  · rename_i hempty
    rw [if_pos hempty]
    exact (Prod.mk.inj h).2.symm
  · rename_i hne
    rw [if_neg hne]
    dsimp only at h ⊢
    split at h
    · exact absurd h (by simp)
    · rename_i vecs st' hembed
      split at h
      · split at h
        · rename_i t₁ htx
          obtain ⟨-, rfl⟩ := Prod.mk.inj h
          obtain ⟨t₂, hdelete, htx⟩ := Option.bind_eq_some_iff.mp htx
          obtain ⟨rows, hrows, htx⟩ := Option.bind_eq_some_iff.mp htx
          obtain ⟨hlen, rfl⟩ := asTuples_eq_some_iff.mp hrows
          have hfront := Qwen3Embedder.embed_honest hhonest hembed
          have hvecs := hfront.eq_of_length_le (by simpa using hlen)
          rw [runStrict_insertAndCommit htx, exec_eq_some hdelete, ← hvecs]
          rfl
        · exact absurd h (by simp)
      · exact absurd h (by simp)

/-- What has raised has changed nothing. -/
theorem table_of_raised {error : EmbeddingWriteError}
    (h : w.writeModuleEmbeddings module version chunks st t = (.error error, t')) : t' = t := by
  unfold writeModuleEmbeddings at h
  split at h
  · exact absurd h (by simp)
  · dsimp only at h
    split at h
    · exact (Prod.mk.inj h).2.symm
    · split at h
      · split at h
        · exact absurd h (by simp)
        · exact (Prod.mk.inj h).2.symm
      · exact (Prod.mk.inj h).2.symm

end EmbeddingWriter

end OdooSemantic
