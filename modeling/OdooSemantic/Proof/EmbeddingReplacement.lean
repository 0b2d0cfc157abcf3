import OdooSemantic.Indexer.EmbeddingWrites

/-!
# What a write leaves of a module's rows

A write that returns has put the chunks in the place of the module's rows, and one that raises has
changed nothing, except that a list without chunks is returned on before the deletion: then whatever
rows there were are still there (`replaced_exactly_iff`). And as the deletion goes by the arguments
and the inserts by the chunks, the chunks have to be of the module and the version that are given.
-/

namespace OdooSemantic

open KeyedStore

variable {Vec : Type}

namespace EmbeddingChunk

/-- No chunk behind `c` has its place in the module. -/
def Stays (chunks : List EmbeddingChunk) (c : EmbeddingChunk) : Prop :=
  ∃ front back, chunks = front ++ c :: back ∧ ∀ d ∈ back, d.dedupKey ≠ c.dedupKey

def row (c : EmbeddingChunk) (v : Vec) : EmbeddingRow Vec := ⟨c.modelName, c.content, v⟩

theorem mem_dedup_iff_stays {chunks : List EmbeddingChunk} {c : EmbeddingChunk} :
    c ∈ dedup chunks ↔ Stays chunks c := by
  rw [mem_dedup_iff, List.find?_eq_some_iff_append]
  constructor
  · rintro ⟨-, back, front, hsplit, hback⟩
    refine ⟨front.reverse, back.reverse, ?_, ?_⟩
    · rw [← List.reverse_reverse chunks, hsplit]
      simp
    · intro d hd
      simpa using hback d (List.mem_reverse.mp hd)
  · rintro ⟨front, back, rfl, hback⟩
    refine ⟨by simp, back.reverse, front.reverse, by simp, ?_⟩
    intro d hd
    simpa using hback d (List.mem_reverse.mp hd)

/-- Something stays of every list of chunks. -/
theorem exists_stays {chunks : List EmbeddingChunk} (hne : chunks ≠ []) : ∃ c, Stays chunks c :=
  ⟨_, chunks.dropLast, [], (List.dropLast_append_getLast hne).symm, by simp⟩

theorem mem_of_stays {chunks : List EmbeddingChunk} {c : EmbeddingChunk} (h : Stays chunks c) :
    c ∈ chunks := by
  obtain ⟨front, back, rfl, -⟩ := h
  simp

end EmbeddingChunk

open EmbeddingChunk

/-- The rows of the module are the chunks that stay, each with its vector, and the other rows are as
they were. -/
def Replaced (vec : String → Vec) (module version : String) (chunks : List EmbeddingChunk)
    (t t' : EmbeddingTable Vec) : Prop :=
  (∀ k row, (k.module = module ∧ k.odooVersion = version) ∧ t'.lookup k = some row ↔
    ∃ c, Stays chunks c ∧ k = c.key ∧ row = c.row (vec c.content)) ∧
  ∀ k, ¬ (k.module = module ∧ k.odooVersion = version) → t'.lookup k = t.lookup k

/-- Whatever batches the texts are sent in, and wherever it fails. -/
def ReplacesExactly (vec : String → Vec) (module version : String) (chunks : List EmbeddingChunk)
    (t : EmbeddingTable Vec) : Prop :=
  ∀ (w : EmbeddingWriter Vec) (st : EmbedderState), w.embedder.Honest vec →
    match w.writeModuleEmbeddings module version chunks st t with
    | (.ok _, t') => Replaced vec module version chunks t t'
    | (.error _, t') => t' = t

section Rows

variable {vec : String → Vec} {module version : String} {chunks : List EmbeddingChunk}
  {t : EmbeddingTable Vec}

/-- The chunks with their vectors. -/
def vectored (vec : String → Vec) (chunks : List EmbeddingChunk) : List (EmbeddingChunk × Vec) :=
  chunks.map fun c => (c, vec c.content)

theorem zip_eq_vectored (vec : String → Vec) (chunks : List EmbeddingChunk) :
    chunks.zip ((chunks.map (·.content)).map vec) = vectored vec chunks := by
  induction chunks with
  | nil => rfl
  | cons c chunks ih => exact congrArg (List.cons _) ih

/-- Chunks that stay have different places in the table too. -/
theorem pairwise_key_dedup (chunks : List EmbeddingChunk) :
    (dedup chunks).Pairwise fun c d => c.key ≠ d.key := by
  refine (List.pairwise_map.mp (nodup_dedup chunks)).imp ?_
  intro c d hne hkey
  obtain ⟨htype, -, -, hentity, hfile, hidx⟩ := EmbeddingKey.mk.inj hkey
  refine hne ?_
  unfold dedupKey
  rw [htype, hentity, hfile, hidx]

/-- A row that no other of the rows is put over. -/
theorem lookup_foldl_insertRow_of_mem {rows : List (EmbeddingChunk × Vec)}
    (hkeys : rows.Pairwise fun a b => a.1.key ≠ b.1.key) {row : EmbeddingChunk × Vec}
    (hrow : row ∈ rows) (hnew : t.lookup row.1.key = none) :
    (rows.foldl insertRow t).lookup row.1.key = some (row.1.row row.2) := by
  obtain ⟨front, back, rfl⟩ := List.append_of_mem hrow
  obtain ⟨-, hback, hfront⟩ := List.pairwise_append.mp hkeys
  rw [List.foldl_append, List.foldl_cons, lookup_foldl_insertRow_of_ne, insertRow,
    lookup_upsert_self, lookup_foldl_insertRow_of_ne, hnew]
  · rfl
  · intro other hother
    exact hfront other hother row List.mem_cons_self
  · intro other hother
    exact ((List.pairwise_cons.mp hback).1 other hother).symm

/-- Rows and chunks of one module. -/
theorem replaced_of_own (hempty : chunks = [] → ∀ k ∈ t, ¬ (k.module = module ∧ k.odooVersion = version))
    (hown : ∀ c, Stays chunks c → c.module = module ∧ c.odooVersion = version) :
    Replaced vec module version chunks t
      (writeModuleEmbeddings (List.map vec) module version chunks t) := by
  unfold writeModuleEmbeddings
  split
  · rename_i hnil
    refine ⟨fun k row => ?_, fun k _ => rfl⟩
    constructor
    · rintro ⟨hk, hrow⟩
      exact absurd hk (hempty hnil k (AList.lookup_isSome.mp (by rw [hrow]; rfl)))
    · rintro ⟨c, ⟨front, back, hsplit, -⟩, -⟩
      exact absurd (hnil.symm.trans hsplit) (by simp)
  · dsimp only
    rw [zip_eq_vectored]
    have hkeys : (vectored vec (dedup chunks)).Pairwise fun a b => a.1.key ≠ b.1.key :=
      List.pairwise_map.mpr (pairwise_key_dedup chunks)
    refine ⟨fun k row => ?_, fun k hk => ?_⟩
    · constructor
      · rintro ⟨hk, hrow⟩
        by_cases hin : ∃ c ∈ dedup chunks, c.key = k
        · obtain ⟨c, hc, rfl⟩ := hin
          refine ⟨c, mem_dedup_iff_stays.mp hc, rfl, ?_⟩
          rw [lookup_foldl_insertRow_of_mem hkeys (List.mem_map_of_mem hc)
            (by rw [lookup_eraseWhere]; simp [hk])] at hrow
          exact (Option.some.inj hrow).symm
        · rw [lookup_foldl_insertRow_of_ne, lookup_eraseWhere] at hrow
          · exact absurd hrow (by simp [hk])
          · intro other hother heq
            obtain ⟨c, hc, rfl⟩ := List.mem_map.mp hother
            exact hin ⟨c, hc, heq⟩
      · rintro ⟨c, hc, rfl, rfl⟩
        refine ⟨hown c hc, ?_⟩
        exact lookup_foldl_insertRow_of_mem hkeys (List.mem_map_of_mem (mem_dedup_iff_stays.mpr hc))
          (by rw [lookup_eraseWhere]; simp [EmbeddingChunk.key, hown c hc])
    · rw [lookup_foldl_insertRow_of_ne, lookup_eraseWhere]
      · simp [hk]
      · intro other hother heq
        obtain ⟨c, hc, rfl⟩ := List.mem_map.mp hother
        exact hk (heq ▸ hown c (mem_dedup_iff_stays.mp hc))

end Rows

/-! ## A writer that nothing stops -/

section Working

variable {vec : String → Vec} {module version : String} {chunks : List EmbeddingChunk}
  {t : EmbeddingTable Vec}

/-- All the texts in one batch, and no statement refused. -/
def workingWriter (vec : String → Vec) (chunks : List EmbeddingChunk) : EmbeddingWriter Vec where
  embedder :=
    { maxBatch := (dedup chunks).length
      post := fun _ texts => .embeddings (texts.map vec)
      normalize := id }
  refuses := fun _ _ => false

theorem workingWriter_honest : (workingWriter vec chunks).embedder.Honest vec := by
  intro sent texts vecs hpost
  obtain rfl := EmbedReply.embeddings.inj hpost
  exact List.map_id _

theorem exec_workingWriter {statement : EmbeddingStatement Vec} (h : statement.conflicts = false) :
    (workingWriter vec chunks).exec statement t = some (statement.effect t) := by
  unfold EmbeddingWriter.exec
  rw [h]
  rfl

/-- Rows of different keys go in. -/
theorem insertAndCommit_workingWriter {rows : List (EmbeddingChunk × Vec)}
    (hkeys : rows.Pairwise fun a b => a.1.key ≠ b.1.key) :
    ∃ t', Script.runStrict (workingWriter vec chunks).exec (EmbeddingWriter.insertAndCommit rows) t =
      some t' := by
  have hpages : ∀ (pages : List (List (EmbeddingChunk × Vec))) (t : EmbeddingTable Vec),
      (∀ page ∈ pages, page.Pairwise fun a b => a.1.key ≠ b.1.key) →
        ∃ t', Script.runStrict (workingWriter vec chunks).exec
          (pages.map .insert ++ [.commit]) t = some t' := by
    intro pages
    induction pages with
    | nil => exact fun t _ => ⟨t, rfl⟩
    | cons page pages ih =>
      intro t hall
      obtain ⟨t', hrest⟩ := ih (page.foldl insertRow t) fun p hp => hall p (List.mem_cons_of_mem _ hp)
      refine ⟨t', ?_⟩
      rw [List.map_cons, List.cons_append, Script.runStrict, exec_workingWriter]
      · exact hrest
      · have hnodup : (page.map fun row => row.1.key).Nodup :=
          List.pairwise_map.mpr (hall page List.mem_cons_self)
        simp [EmbeddingStatement.conflicts, hnodup]
  refine hpages _ t fun page hpage => ?_
  obtain ⟨i, -, rfl⟩ := List.mem_map.mp hpage
  exact hkeys.sublist ((List.take_sublist _ _).trans (List.drop_sublist _ _))

theorem workingWriter_returns (st : EmbedderState) : ∃ calls t',
    (workingWriter vec chunks).writeModuleEmbeddings module version chunks st t = (.ok calls, t') := by
  unfold EmbeddingWriter.writeModuleEmbeddings
  split
  · exact ⟨0, t, rfl⟩
  · have hembed : (workingWriter vec chunks).embedder.embed ((dedup chunks).map (·.content)) st =
        .ok (((dedup chunks).map (·.content)).map vec,
          { sent := st.sent + 1, callCount := st.callCount + 1 }) := by
      have hone : ¬ (workingWriter vec chunks).embedder.maxBatch <
          (((dedup chunks).map (·.content)).length : Int) := by
        rw [List.length_map]
        exact lt_irrefl _
      unfold Qwen3Embedder.embed Qwen3Embedder.embedTexts
      rw [if_neg hone]
      simp [Qwen3Embedder.embedOne, Qwen3Embedder.attempt, workingWriter, bind, Except.bind, pure,
        Except.pure]
    have hrows : asTuples (dedup chunks) (((dedup chunks).map (·.content)).map vec) =
        some (vectored vec (dedup chunks)) :=
      asTuples_eq_some_iff.mpr ⟨by simp, (zip_eq_vectored vec _).symm⟩
    have hkeys : (vectored vec (dedup chunks)).Pairwise fun a b => a.1.key ≠ b.1.key :=
      List.pairwise_map.mpr (pairwise_key_dedup chunks)
    obtain ⟨t', hinsert⟩ := @insertAndCommit_workingWriter _ vec chunks
      ((EmbeddingStatement.delete module version).effect t) _ hkeys
    have htx : (workingWriter vec chunks).transaction module version (dedup chunks)
        (((dedup chunks).map (·.content)).map vec) t = some t' := by
      unfold EmbeddingWriter.transaction
      rw [exec_workingWriter rfl, hrows]
      exact hinsert
    dsimp only
    rw [hembed]
    dsimp only
    rw [htx]
    exact ⟨_, _, rfl⟩

/-- **The rows of the module are replaced by its chunks, or nothing is**, whatever the server answers
and wherever it fails, exactly if there is something to put in the place of rows that are there and
the chunks are of the module. -/
theorem replaced_exactly_iff (vec : String → Vec) (module version : String)
    (chunks : List EmbeddingChunk) (t : EmbeddingTable Vec) :
    ReplacesExactly vec module version chunks t ↔
      (chunks = [] → ∀ k ∈ t, ¬ (k.module = module ∧ k.odooVersion = version)) ∧
        ∀ c, Stays chunks c → c.module = module ∧ c.odooVersion = version := by
  constructor
  · intro h
    obtain ⟨calls, t', hrun⟩ := @workingWriter_returns _ vec module version chunks t {}
    have hreplaced := h (workingWriter vec chunks) {} workingWriter_honest
    rw [hrun] at hreplaced
    refine ⟨?_, ?_⟩
    · rintro rfl k hk hself
      obtain rfl : t = t' := (Prod.mk.inj hrun).2
      obtain ⟨row, hrow⟩ := Option.isSome_iff_exists.mp (AList.lookup_isSome.mpr hk)
      obtain ⟨c, ⟨front, back, hsplit, -⟩, -⟩ := (hreplaced.1 k row).mp ⟨hself, hrow⟩
      exact absurd hsplit (by simp)
    · intro c hc
      exact ((hreplaced.1 c.key _).mpr ⟨c, hc, rfl, rfl⟩).1
  · rintro ⟨hempty, hown⟩ w st hhonest
    cases hrun : w.writeModuleEmbeddings module version chunks st t with
    | mk result t' =>
      cases result with
      | error err => exact EmbeddingWriter.table_of_raised hrun
      | ok calls =>
        rw [EmbeddingWriter.table_of_returned hhonest hrun]
        exact replaced_of_own hempty hown

end Working

namespace StaleRow

/-- A row of `sale`, from when it had a view. -/
def table : EmbeddingTable Unit :=
  insertRow ∅
    ({ chunkType := "view"
       module := "sale"
       odooVersion := "17.0"
       entityName := "sale.view_order_form"
       modelName := some "sale.order"
       filePath := "/src/sale/views/sale_order.xml"
       chunkIdx := 0
       content := "[sale] sale.view_order_form (form)" }, ())

theorem row_kept : ¬ ReplacesExactly (fun _ => ()) "sale" "17.0" [] table := by
  intro h
  have hreplaced := h (workingWriter (fun _ => ()) []) {} workingWriter_honest
  obtain ⟨c, ⟨front, back, hsplit, -⟩, -⟩ :=
    (hreplaced.1 ⟨"view", "sale", "17.0", "sale.view_order_form", "/src/sale/views/sale_order.xml", 0⟩
      _).mp ⟨⟨rfl, rfl⟩, rfl⟩
  exact absurd hsplit (by simp)

end StaleRow

end OdooSemantic
