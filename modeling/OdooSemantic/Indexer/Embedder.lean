import OdooSemantic.Indexer.WriterNeo4j
import OdooSemantic.Lib.Fallible

/-!
# `src/indexer/embedder.py` — the client of the embedding server

`Qwen3Embedder.embed` sends the texts in batches, each batch until it is answered. What the server
answers may be another thing every time, so a request is told by its number.
-/

namespace OdooSemantic

variable {Vec : Type}

/-- What comes of a request. -/
inductive EmbedReply (Vec : Type) where
  | embeddings (vecs : List Vec)
  | httpError
  /-- Anything else that raises, such as an answer without `embeddings`. -/
  | otherError

inductive EmbedError where
  | failed (attempts : Nat)
  | otherError
  /-- Of `range`, with a step of 0. -/
  | valueError
deriving DecidableEq

structure Qwen3Embedder (Vec : Type) where
  /-- `_MAX_BATCH` -/
  maxBatch : Int := 50
  retries : Nat := 3
  /-- `self._http.post(…)`, up to `data["embeddings"]`. -/
  post : Nat → List String → EmbedReply Vec
  /-- `_normalize(v[: self._dim])` -/
  normalize : Vec → Vec

structure EmbedderState where
  /-- The requests that have been sent. -/
  sent : Nat := 0
  callCount : Nat := 0

namespace Qwen3Embedder

variable (e : Qwen3Embedder Vec)

/-- The loop of `_embed_one`, with so many attempts left. -/
def attempt (texts : List String) : Nat → Nat → Except EmbedError (List Vec × Nat)
  | 0, _ => .error (.failed e.retries)
  | left + 1, sent =>
      match e.post sent texts with
      | .embeddings vecs => .ok (vecs.map e.normalize, sent + 1)
      | .httpError => attempt texts left (sent + 1)
      | .otherError => .error .otherError

/-- `_embed_one(texts)` -/
def embedOne (texts : List String) (sent : Nat) : Except EmbedError (List Vec × Nat) :=
  e.attempt texts e.retries sent

/-- `for …: out.extend(self._embed_one(batch))` -/
def embedBatches : List (List String) → Nat → Except EmbedError (List Vec × Nat)
  | [], sent => .ok ([], sent)
  | batch :: batches, sent => do
      let (vecs, sent) ← e.embedOne batch sent
      let (rest, sent) ← embedBatches batches sent
      return (vecs ++ rest, sent)

/-- `texts[i : i + self._MAX_BATCH]` for `i` in `range(0, len(texts), self._MAX_BATCH)` -/
def batches (texts : List String) : Except EmbedError (List (List String)) :=
  match e.maxBatch with
  | .ofNat 0 => .error .valueError
  | .ofNat (size + 1) => .ok (chunked (size + 1) texts)
  | .negSucc _ => .ok []

/-- In batches where the texts are too many for one. -/
def embedTexts (texts : List String) (sent : Nat) : Except EmbedError (List Vec × Nat) :=
  if e.maxBatch < texts.length then do
    let batches ← e.batches texts
    e.embedBatches batches sent
  else e.embedOne texts sent

/-- `embed(texts)` -/
def embed (texts : List String) (st : EmbedderState) :
    Except EmbedError (List Vec × EmbedderState) := do
  let (vecs, sent) ← e.embedTexts texts st.sent
  return (vecs, { sent, callCount := st.callCount + 1 })

/-- The server has one vector for every text, in their order, or fails. -/
def Honest (vec : String → Vec) : Prop :=
  ∀ sent texts vecs, e.post sent texts = .embeddings vecs → vecs.map e.normalize = texts.map vec

section Honest

variable {e} {vec : String → Vec} {texts : List String} {vecs : List Vec}

theorem embedOne_honest (h : e.Honest vec) {sent sent' : Nat}
    (hok : e.embedOne texts sent = .ok (vecs, sent')) : vecs = texts.map vec := by
  unfold embedOne at hok
  generalize e.retries = left at hok
  induction left generalizing sent with
  | zero => exact absurd hok (by simp [attempt])
  | succ left ih =>
    rw [attempt] at hok
    cases hpost : e.post sent texts with
    | embeddings answer =>
      rw [hpost] at hok
      obtain ⟨rfl, -⟩ := Prod.mk.inj (Except.ok.inj hok)
      exact h _ _ _ hpost
    | httpError =>
      rw [hpost] at hok
      exact ih hok
    | otherError =>
      rw [hpost] at hok
      exact absurd hok (by simp)

theorem embedBatches_honest (h : e.Honest vec) {batches : List (List String)} {sent sent' : Nat}
    (hok : e.embedBatches batches sent = .ok (vecs, sent')) :
    vecs = batches.flatten.map vec := by
  induction batches generalizing sent sent' vecs with
  | nil =>
    obtain ⟨rfl, -⟩ := Prod.mk.inj (Except.ok.inj hok)
    rfl
  | cons batch batches ih =>
    obtain ⟨one, hone, hok⟩ := Fallible.of_bind_eq_ok hok
    obtain ⟨rest, hrest, hok⟩ := Fallible.of_bind_eq_ok hok
    obtain ⟨rfl, -⟩ := Prod.mk.inj (Except.ok.inj hok)
    rw [List.flatten_cons, List.map_append, embedOne_honest h hone, ih hrest]

/-- However the texts are split, each gets its own vector; with a negative `_MAX_BATCH` there are no
batches and no vectors. -/
theorem embed_honest (h : e.Honest vec) {st st' : EmbedderState}
    (hok : e.embed texts st = .ok (vecs, st')) : vecs <+: texts.map vec := by
  obtain ⟨all, hall, hok⟩ := Fallible.of_bind_eq_ok hok
  obtain ⟨rfl, -⟩ := Prod.mk.inj (Except.ok.inj hok)
  unfold embedTexts at hall
  split at hall
  · obtain ⟨batches, hbatches, hall⟩ := Fallible.of_bind_eq_ok hall
    rw [embedBatches_honest h hall]
    unfold Qwen3Embedder.batches at hbatches
    split at hbatches
    · exact absurd hbatches (by simp)
    · obtain rfl := Except.ok.inj hbatches
      rw [flatten_chunked (Nat.succ_pos _)]
    · obtain rfl := Except.ok.inj hbatches
      exact List.nil_prefix
  · rw [embedOne_honest h hall]

end Honest

end Qwen3Embedder

end OdooSemantic
