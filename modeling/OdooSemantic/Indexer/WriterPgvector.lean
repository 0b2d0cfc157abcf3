import Mathlib.Data.List.Find
import OdooSemantic.Lib.Dict
import OdooSemantic.Lib.KeyedStore

/-!
# `src/indexer/writer_pgvector.py` — the rows of one module, replaced

The `embeddings` table is keyed by `ux_embeddings_chunk`. Writing a module deletes its rows and
inserts the new ones in one transaction, so the table goes from one whole set of rows to the
next and a failed write leaves the old one. A module without chunks is not written at all:
its old rows stay.

The embedder is whatever turns a list of texts into a list of vectors; nothing here depends on
what it answers.
-/

namespace OdooSemantic

open KeyedStore

variable {Vec : Type}

structure EmbeddingChunk where
  chunkType : String
  module : String
  odooVersion : String
  entityName : String
  modelName : Option String
  filePath : String
  chunkIdx : Nat
  content : String
deriving DecidableEq

/-- The columns of `ux_embeddings_chunk`. -/
structure EmbeddingKey where
  chunkType : String
  module : String
  odooVersion : String
  entityName : String
  filePath : String
  chunkIdx : Nat
deriving DecidableEq

structure EmbeddingRow (Vec : Type) where
  modelName : Option String
  content : String
  vec : Vec

abbrev EmbeddingTable (Vec : Type) := Store EmbeddingKey (EmbeddingRow Vec)

abbrev Embedder (Vec : Type) := List String → List Vec

namespace EmbeddingChunk

def key (c : EmbeddingChunk) : EmbeddingKey :=
  ⟨c.chunkType, c.module, c.odooVersion, c.entityName, c.filePath, c.chunkIdx⟩

/-- The key of `seen`. -/
def dedupKey (c : EmbeddingChunk) : String × String × String × Nat :=
  (c.chunkType, c.entityName, c.filePath, c.chunkIdx)

/-- `seen[…] = c` for every chunk, then `list(seen.values())`: the last chunk of a key, at the
    place of the first. -/
def dedup (chunks : List EmbeddingChunk) : List EmbeddingChunk :=
  (chunks.foldl (fun seen c => seen.set c.dedupKey c) Dict.empty).values

end EmbeddingChunk

/-- `INSERT … ON CONFLICT … DO UPDATE SET content, vec` -/
def insertRow (t : EmbeddingTable Vec) (row : EmbeddingChunk × Vec) : EmbeddingTable Vec :=
  upsert row.1.key (fun
    | none => ⟨row.1.modelName, row.1.content, row.2⟩
    | some old => { old with content := row.1.content, vec := row.2 }) t

/-- `write_module_embeddings(module, version, chunks, embedder)` -/
def writeModuleEmbeddings (embed : Embedder Vec) (module version : String)
    (chunks : List EmbeddingChunk) (t : EmbeddingTable Vec) : EmbeddingTable Vec :=
  if chunks = [] then t
  else
    let chunks := EmbeddingChunk.dedup chunks
    let rows := chunks.zip (embed (chunks.map (·.content)))
    rows.foldl insertRow (eraseWhere (fun k => k.module = module ∧ k.odooVersion = version) t)

/-! ## What a write does to one row -/

theorem lookup_foldl_insertRow_of_ne {k : EmbeddingKey} {rows : List (EmbeddingChunk × Vec)}
    (h : ∀ row ∈ rows, row.1.key ≠ k) (t : EmbeddingTable Vec) :
    (rows.foldl insertRow t).lookup k = t.lookup k := by
  induction rows generalizing t with
  | nil => rfl
  | cons row rows ih =>
    rw [List.foldl_cons, ih fun r hr => h r (List.mem_cons_of_mem _ hr)]
    exact lookup_upsert_ne (Ne.symm (h row List.mem_cons_self)) _ _

theorem lookup_foldl_insertRow_congr {k : EmbeddingKey} (rows : List (EmbeddingChunk × Vec))
    {t t' : EmbeddingTable Vec} (h : t.lookup k = t'.lookup k) :
    (rows.foldl insertRow t).lookup k = (rows.foldl insertRow t').lookup k := by
  induction rows generalizing t t' with
  | nil => exact h
  | cons row rows ih =>
    refine ih ?_
    unfold insertRow
    rw [lookup_upsert, lookup_upsert]
    by_cases hk : k = row.1.key
    · subst hk
      rw [if_pos rfl, if_pos rfl, h]
    · rw [if_neg hk, if_neg hk, h]

theorem mem_dedup {chunks : List EmbeddingChunk} {c : EmbeddingChunk}
    (h : c ∈ EmbeddingChunk.dedup chunks) : c ∈ chunks := by
  unfold EmbeddingChunk.dedup Dict.values at h
  obtain ⟨i, hi, rfl⟩ := List.mem_map.mp h
  suffices hs : ∀ d : Dict (String × String × String × Nat) EmbeddingChunk,
      i ∈ (chunks.foldl (fun seen c => seen.set c.dedupKey c) d).items →
        i.2 ∈ chunks ∨ i ∈ d.items by
    cases hs Dict.empty hi with
    | inl h => exact h
    | inr h => exact absurd h (by simp [Dict.empty])
  clear hi h
  intro d hd
  induction chunks generalizing d with
  | nil => exact Or.inr hd
  | cons c chunks ih =>
    cases ih _ hd with
    | inl h => exact Or.inl (List.mem_cons_of_mem _ h)
    | inr h =>
      cases Dict.mem_items_set h with
      | inl h => exact Or.inl (h ▸ List.mem_cons_self)
      | inr h => exact Or.inr h

/-- The last chunk of a key. -/
def EmbeddingChunk.lastOf (chunks : List EmbeddingChunk) (k : EmbeddingKey) :
    Option EmbeddingChunk :=
  chunks.reverse.find? fun c => c.key = k

/-- What is left has one chunk a key. -/
theorem nodup_dedup (chunks : List EmbeddingChunk) :
    ((EmbeddingChunk.dedup chunks).map (·.dedupKey)).Nodup := by
  have hown := Dict.key_foldl_set EmbeddingChunk.dedupKey chunks (d := Dict.empty)
    (fun i hi => absurd hi (by simp [Dict.empty]))
  have hkeys : (EmbeddingChunk.dedup chunks).map (·.dedupKey) =
      (chunks.foldl (fun seen c => seen.set c.dedupKey c) Dict.empty).keys := by
    unfold EmbeddingChunk.dedup Dict.values Dict.keys
    rw [List.map_map]
    exact List.map_congr_left fun i hi => (hown i hi).symm
  rw [hkeys]
  exact Dict.nodup_keys _

/-- What is left are the last chunks of their keys. -/
theorem mem_dedup_iff {chunks : List EmbeddingChunk} {c : EmbeddingChunk} :
    c ∈ EmbeddingChunk.dedup chunks ↔
      chunks.reverse.find? (fun d => d.dedupKey = c.dedupKey) = some c := by
  have hget := Dict.get?_foldl_set EmbeddingChunk.dedupKey chunks Dict.empty c.dedupKey
  have hown := Dict.key_foldl_set EmbeddingChunk.dedupKey chunks (d := Dict.empty)
    (fun i hi => absurd hi (by simp [Dict.empty]))
  have hempty : (Dict.empty : Dict (String × String × String × Nat) EmbeddingChunk).get?
      c.dedupKey = none := rfl
  rw [hempty, Option.or_none] at hget
  rw [← hget, Dict.get?_eq_some_iff]
  constructor
  · intro h
    obtain ⟨i, hi, rfl⟩ := List.mem_map.mp h
    rw [← hown i hi]
    exact hi
  · intro h
    exact List.mem_map.mpr ⟨_, h, rfl⟩

/-- For the keys of a module nothing is lost that the last chunks do not say. -/
theorem lastOf_dedup {chunks : List EmbeddingChunk} {module version : String}
    (hc : ∀ c ∈ chunks, c.module = module ∧ c.odooVersion = version) {k : EmbeddingKey}
    (hk : k.module = module ∧ k.odooVersion = version) :
    EmbeddingChunk.lastOf (EmbeddingChunk.dedup chunks) k = EmbeddingChunk.lastOf chunks k := by
  have hkey : ∀ c ∈ chunks, ∀ d : EmbeddingChunk, d.key = k →
      (c.dedupKey = d.dedupKey ↔ c.key = k) := by
    intro c hmem d hd
    subst hd
    obtain ⟨hm, hv⟩ := hc c hmem
    simp only [EmbeddingChunk.key] at hk
    simp [EmbeddingChunk.dedupKey, EmbeddingChunk.key, hm, hv, hk.1, hk.2]
  have hlast : ∀ c, EmbeddingChunk.lastOf chunks k = some c ↔
      c ∈ EmbeddingChunk.dedup chunks ∧ c.key = k := by
    intro c
    have hsame : c.key = k → chunks.reverse.find? (fun d => d.dedupKey = c.dedupKey) =
        EmbeddingChunk.lastOf chunks k := fun hck => List.find?_congr fun d hd => by
      rw [decide_eq_decide]
      exact hkey d (List.mem_reverse.mp hd) c hck
    constructor
    · intro h
      have hck : c.key = k := by simpa using List.find?_some h
      exact ⟨mem_dedup_iff.mpr ((hsame hck).trans h), hck⟩
    · intro h
      rw [← hsame h.2]
      exact mem_dedup_iff.mp h.1
  refine Option.ext fun c => ?_
  rw [hlast]
  constructor
  · intro h
    exact ⟨by simpa using List.mem_of_find?_eq_some h, by simpa using List.find?_some h⟩
  · intro h
    cases hfind : EmbeddingChunk.lastOf (EmbeddingChunk.dedup chunks) k with
    | none =>
      exact absurd h.2 (by simpa using List.find?_eq_none.mp hfind c (by simpa using h.1))
    | some d =>
      have hd : d ∈ EmbeddingChunk.dedup chunks := by simpa using List.mem_of_find?_eq_some hfind
      have hdk : d.key = k := by simpa using List.find?_some hfind
      rw [List.inj_on_of_nodup_map (nodup_dedup chunks) hd h.1
        ((hkey d (mem_dedup hd) c h.2).mpr hdk)]

/-- **The rows after an insert**: the last chunk of a key, or what was there. -/
theorem lookup_foldl_insertRow (rows : List (EmbeddingChunk × Vec)) (t : EmbeddingTable Vec)
    (k : EmbeddingKey) :
    ((rows.foldl insertRow t).lookup k).map (·.content) =
      ((EmbeddingChunk.lastOf (rows.map Prod.fst) k).map (·.content)).or
        ((t.lookup k).map (·.content)) := by
  induction rows generalizing t with
  | nil => rfl
  | cons row rows ih =>
    have hcons : EmbeddingChunk.lastOf ((row :: rows).map Prod.fst) k =
        (EmbeddingChunk.lastOf (rows.map Prod.fst) k).or
          (if row.1.key = k then some row.1 else none) := by
      unfold EmbeddingChunk.lastOf
      rw [List.map_cons, List.reverse_cons, List.find?_append]
      by_cases hk : row.1.key = k <;> simp [hk]
    rw [List.foldl_cons, ih, hcons, insertRow, lookup_upsert]
    by_cases hk : row.1.key = k
    · subst hk
      rw [if_pos rfl, if_pos rfl]
      cases EmbeddingChunk.lastOf (rows.map Prod.fst) row.1.key <;>
        cases t.lookup row.1.key <;> rfl
    · rw [if_neg (Ne.symm hk), if_neg hk, Option.or_none]

/-- An embedder that has a vector for every text loses no chunk. -/
theorem map_fst_zip_embed {embed : Embedder Vec}
    (hembed : ∀ texts, (embed texts).length = texts.length) (chunks : List EmbeddingChunk) :
    (chunks.zip (embed (chunks.map (·.content)))).map Prod.fst = chunks := by
  rw [List.map_fst_zip]
  rw [hembed, List.length_map]

/-- **After a write the rows of the module are the last chunks of their keys**, if the embedder has
    a vector for every text. -/
theorem lookup_writeModuleEmbeddings {embed : Embedder Vec}
    (hembed : ∀ texts, (embed texts).length = texts.length) {module version : String}
    {chunks : List EmbeddingChunk} (hc : ∀ c ∈ chunks, c.module = module ∧ c.odooVersion = version)
    (hne : chunks ≠ []) (t : EmbeddingTable Vec) {k : EmbeddingKey}
    (hk : k.module = module ∧ k.odooVersion = version) :
    ((writeModuleEmbeddings embed module version chunks t).lookup k).map (·.content) =
      (EmbeddingChunk.lastOf chunks k).map (·.content) := by
  unfold writeModuleEmbeddings
  rw [if_neg hne, lookup_foldl_insertRow, map_fst_zip_embed hembed, lastOf_dedup hc hk,
    lookup_eraseWhere]
  simp [hk.1, hk.2]

/-- A row of another module or version is not touched. -/
theorem lookup_writeModuleEmbeddings_of_ne {embed : Embedder Vec} {module version : String}
    {chunks : List EmbeddingChunk} (hc : ∀ c ∈ chunks, c.module = module ∧ c.odooVersion = version)
    (t : EmbeddingTable Vec) {k : EmbeddingKey} (hk : ¬ (k.module = module ∧ k.odooVersion = version)) :
    (writeModuleEmbeddings embed module version chunks t).lookup k = t.lookup k := by
  unfold writeModuleEmbeddings
  split
  · rfl
  · rw [lookup_foldl_insertRow_of_ne, lookup_eraseWhere]
    · simp [hk]
    · intro row hrow heq
      have hmem := hc row.1 (mem_dedup (List.of_mem_zip hrow).1)
      exact hk ⟨heq ▸ hmem.1, heq ▸ hmem.2⟩

/-- **A row of the module is decided by the chunks alone**, whatever the table was. -/
theorem lookup_writeModuleEmbeddings_self {embed : Embedder Vec} {module version : String}
    {chunks : List EmbeddingChunk} (hne : chunks ≠ []) (t t' : EmbeddingTable Vec)
    {k : EmbeddingKey} (hk : k.module = module ∧ k.odooVersion = version) :
    (writeModuleEmbeddings embed module version chunks t).lookup k =
      (writeModuleEmbeddings embed module version chunks t').lookup k := by
  unfold writeModuleEmbeddings
  rw [if_neg hne, if_neg hne]
  refine lookup_foldl_insertRow_congr _ ?_
  rw [lookup_eraseWhere, lookup_eraseWhere]
  simp [hk]

end OdooSemantic
