import OdooSemantic.Indexer.EmbeddingChunks

/-!
# What is left of the chunks of a module

After a write the rows of the module are the last chunks of their keys, so every chunk is kept if
and only if chunks of one key are alike; and chunks of one key come from two units of one type,
name and file, never from one unit (`chunk_rows`).

There are such units. The methods of two class bodies of one model have one file, the directory of
the module, and all the imports of a stylesheet have one name (`SecondDefinition`).
-/

namespace OdooSemantic

namespace SourceUnit

/-- The pieces are told apart by their numbers. -/
def Numbered (u : SourceUnit) : Prop := (u.pieces.map Prod.fst).Nodup

/-- Two chunks of one unit that have one key are one. -/
theorem Numbered.eq_of_key {u : SourceUnit} (h : u.Numbered) {module version : String}
    {c c' : EmbeddingChunk} (hc : c ∈ u.chunks module version) (hc' : c' ∈ u.chunks module version)
    (hkey : c.key = c'.key) : c = c' := by
  obtain ⟨piece, hpiece, rfl⟩ := List.mem_map.mp hc
  obtain ⟨piece', hpiece', rfl⟩ := List.mem_map.mp hc'
  have hidx : piece.1 = piece'.1 := congrArg EmbeddingKey.chunkIdx hkey
  rw [List.inj_on_of_nodup_map h hpiece hpiece' hidx]

theorem label_of_key {u u' : SourceUnit} {module version : String} {c c' : EmbeddingChunk}
    (hc : c ∈ u.chunks module version) (hc' : c' ∈ u'.chunks module version)
    (hkey : c.key = c'.key) : u.label = u'.label := by
  obtain ⟨piece, -, rfl⟩ := List.mem_map.mp hc
  obtain ⟨piece', -, rfl⟩ := List.mem_map.mp hc'
  have htype : u.chunkType = u'.chunkType := congrArg EmbeddingKey.chunkType hkey
  have hname : u.entityName = u'.entityName := congrArg EmbeddingKey.entityName hkey
  have hfile : u.filePath = u'.filePath := congrArg EmbeddingKey.filePath hkey
  rw [label, htype, hname, hfile]
  rfl

end SourceUnit

namespace ModuleSource

open Chunking

variable {env : ParserEnv} {m : ModuleSource} {u : SourceUnit}

theorem numbered_jsUnits (h : u ∈ m.jsUnits env) : u.Numbered := by
  obtain ⟨f, -, hu⟩ := List.mem_flatMap.mp h
  cases hbytes : f.bytes with
  | none => rw [hbytes] at hu; exact absurd hu (by simp)
  | some source =>
    rw [hbytes] at hu
    obtain ⟨found, hfound, rfl⟩ := List.mem_map.mp hu
    have hpieces : ∀ e ∈ (ParserJs.parseFile source (env.parseJs source) f.path).2,
        (e.2.map Prod.fst).Nodup := by
      intro e he
      unfold ParserJs.parseFile at he
      dsimp only at he
      split at he
      · rw [List.mem_singleton] at he
        subst he
        exact nodup_slidingChunks _
      · obtain ⟨e, -, rfl⟩ := List.mem_map.mp he
        exact nodup_emit _
    exact hpieces found hfound

theorem numbered_styleUnits {extension chunkType : String} {entityName : Section → String}
    {parse : List UInt8 → String → List Section}
    (h : u ∈ m.styleUnits extension chunkType entityName parse) : u.Numbered := by
  obtain ⟨f, -, hu⟩ := List.mem_flatMap.mp h
  cases hbytes : f.bytes with
  | none => rw [hbytes] at hu; exact absurd hu (by simp)
  | some source =>
    rw [hbytes] at hu
    obtain ⟨s, -, rfl⟩ := List.mem_map.mp hu
    exact nodup_emit _

theorem numbered_methodUnit (model : ModelSource) (method : MethodSource) :
    (m.methodUnit model method).Numbered := by
  unfold SourceUnit.Numbered methodUnit
  dsimp only
  apply nodup_emit

theorem numbered_fieldUnit (model : ModelSource) (fld : FieldSource) :
    (m.fieldUnit env model fld).Numbered := by
  unfold SourceUnit.Numbered fieldUnit
  dsimp only
  apply nodup_emit

theorem numbered_viewUnit (view : ViewSource) : (m.viewUnit view).Numbered := by
  unfold SourceUnit.Numbered viewUnit
  dsimp only
  apply nodup_emit

theorem numbered_qwebUnit (qweb : QWebSource) : (m.qwebUnit qweb).Numbered := by
  unfold SourceUnit.Numbered qwebUnit
  dsimp only
  apply nodup_emit

theorem numbered_units (h : u ∈ m.units env) : u.Numbered := by
  unfold units at h
  simp only [List.mem_append] at h
  rcases h with ((((((h | h) | h) | h) | h) | h) | h)
  · obtain ⟨model, -, hu⟩ := List.mem_flatMap.mp h
    rcases List.mem_append.mp hu with hu | hu
    · obtain ⟨method, -, rfl⟩ := List.mem_map.mp hu
      exact numbered_methodUnit model method
    · obtain ⟨fld, -, rfl⟩ := List.mem_map.mp hu
      exact numbered_fieldUnit model fld
  · obtain ⟨view, -, rfl⟩ := List.mem_map.mp h
    exact numbered_viewUnit view
  · obtain ⟨qweb, -, rfl⟩ := List.mem_map.mp h
    exact numbered_qwebUnit qweb
  · exact numbered_jsUnits h
  · exact numbered_styleUnits h
  · exact numbered_styleUnits h
  · exact numbered_styleUnits h

/-- Every chunk is of the module. -/
theorem module_of_mem {c : EmbeddingChunk} (h : c ∈ m.makeChunks env) :
    c.module = m.name ∧ c.odooVersion = m.odooVersion := by
  obtain ⟨u, -, hc⟩ := List.mem_flatMap.mp h
  obtain ⟨piece, -, rfl⟩ := List.mem_map.mp hc
  exact ⟨rfl, rfl⟩

end ModuleSource

namespace EmbeddingChunk

/-- If the last chunks of their keys are what is kept, nothing is lost if and only if chunks of one
    key are alike. -/
theorem lastOf_content_iff (chunks : List EmbeddingChunk) :
    (∀ c ∈ chunks, (lastOf chunks c.key).map (·.content) = some c.content) ↔
      ∀ c ∈ chunks, ∀ c' ∈ chunks, c.key = c'.key → c.content = c'.content := by
  constructor
  · intro h c hc c' hc' hkey
    have hlast := h c hc
    rw [hkey, h c' hc'] at hlast
    exact (Option.some.inj hlast).symm
  · intro h c hc
    cases hlast : lastOf chunks c.key with
    | none =>
      have hnone := List.find?_eq_none.mp hlast c (by simpa using hc)
      exact absurd hnone (by simp)
    | some last =>
      have hmem : last ∈ chunks := by simpa using List.mem_of_find?_eq_some hlast
      have hkey : last.key = c.key := by simpa using List.find?_some hlast
      rw [Option.map_some, h last hmem c hc hkey]

end EmbeddingChunk

open EmbeddingChunk in
/-- **A row holds the last chunk of its key; every chunk has its content in its row if and only if
    chunks of one key are alike; and two chunks of one key come from two units of one type, name
    and file.** -/
theorem chunk_rows {Vec : Type} (env : ParserEnv) (m : ModuleSource) {embed : Embedder Vec}
    (hembed : ∀ texts, (embed texts).length = texts.length) (t : EmbeddingTable Vec) :
    (m.makeChunks env ≠ [] → ∀ k, k.module = m.name → k.odooVersion = m.odooVersion →
      ((writeModuleEmbeddings embed m.name m.odooVersion (m.makeChunks env) t).lookup k).map
        (·.content) = (lastOf (m.makeChunks env) k).map (·.content)) ∧
    ((∀ c ∈ m.makeChunks env,
      ((writeModuleEmbeddings embed m.name m.odooVersion (m.makeChunks env) t).lookup c.key).map
        (·.content) = some c.content) ↔
      ∀ c ∈ m.makeChunks env, ∀ c' ∈ m.makeChunks env, c.key = c'.key → c.content = c'.content) ∧
    ∀ (i j : Fin (m.units env).length) (c c' : EmbeddingChunk),
      c ∈ (m.units env)[i].chunks m.name m.odooVersion →
      c' ∈ (m.units env)[j].chunks m.name m.odooVersion → c.key = c'.key →
        (m.units env)[i].label = (m.units env)[j].label ∧ (i = j → c = c') := by
  have hrow : m.makeChunks env ≠ [] → ∀ k : EmbeddingKey, k.module = m.name →
      k.odooVersion = m.odooVersion →
      ((writeModuleEmbeddings embed m.name m.odooVersion (m.makeChunks env) t).lookup k).map
        (·.content) = (lastOf (m.makeChunks env) k).map (·.content) := fun hne k hm hv =>
    lookup_writeModuleEmbeddings hembed (fun _ hc => ModuleSource.module_of_mem hc) hne t ⟨hm, hv⟩
  refine ⟨hrow, ?_, fun i j c c' hc hc' hkey => ⟨SourceUnit.label_of_key hc hc' hkey, ?_⟩⟩
  · rw [← lastOf_content_iff]
    refine forall₂_congr fun c hc => ?_
    obtain ⟨hm, hv⟩ := ModuleSource.module_of_mem hc
    rw [hrow (List.ne_nil_of_mem hc) c.key hm hv]
  · intro hij
    subst hij
    exact (ModuleSource.numbered_units (List.getElem_mem i.isLt)).eq_of_key hc hc' hkey

/-! ## Two units of one name -/

namespace SecondDefinition

def env : ParserEnv where
  isAlnum := Char.isAlphanum
  capitalize := id
  parseCss _ := none
  parseJs _ := .mk "program" 0 0 []

def embed (texts : List String) : List Unit := texts.map fun _ => ()

/-- One class body. -/
def once : ModuleSource where
  name := "sale"
  odooVersion := "17.0"
  path := "/srv/odoo/sale"
  models := [{ name := "sale.order", methods := [{ name := "action_confirm" }, { name := "unlink" }] }]

/-- The same method in two class bodies. -/
def twice : ModuleSource where
  name := "sale"
  odooVersion := "17.0"
  path := "/srv/odoo/sale"
  models := [
    { name := "sale.order", methods := [{ name := "unlink", sourceCode := some "def unlink(self): a" }] },
    { name := "sale.order", methods := [{ name := "unlink", sourceCode := some "def unlink(self): b" }] }]

def ascii (text : String) : List UInt8 := text.toList.map fun c => UInt8.ofNat c.toNat

/-- Two imports. -/
def imports (extension : String) : ModuleSource where
  name := "web"
  odooVersion := "17.0"
  path := "/srv/odoo/web"
  static := [{ path := "/srv/odoo/web/static/a" ++ extension, parts := ["a" ++ extension], size := 26,
               bytes := some (ascii "@import 'b';\n@import 'c';\n") }]

/-- What the rows hold after a write into an empty table. -/
def contents (m : ModuleSource) : List String :=
  (writeModuleEmbeddings embed m.name m.odooVersion (m.makeChunks env) ∅).entries.map (·.2.content)

/-- Two methods, two rows. -/
theorem chunk_rows_once : (once.makeChunks env).length = 2 ∧ ∀ c ∈ once.makeChunks env,
    ((writeModuleEmbeddings embed "sale" "17.0" (once.makeChunks env) ∅).lookup c.key).map
      (·.content) = some c.content := by
  refine ⟨rfl, (chunk_rows env once (fun texts => List.length_map _) ∅).2.1.mpr ?_⟩
  have hchunks : ∀ c ∈ once.makeChunks env, ∀ c' ∈ once.makeChunks env,
      c.entityName = c'.entityName → c.content = c'.content := by decide
  intro c hc c' hc' hkey
  exact hchunks c hc c' hc' (congrArg EmbeddingKey.entityName hkey)

/-- **The body of a method that is defined again is in no row, and of the imports of a stylesheet
    only the last one is.** -/
theorem chunks_lost :
    (¬∀ m : ModuleSource, ∀ c ∈ m.makeChunks env, c.content ∈ contents m) ∧
    ∀ extension ∈ [".css", ".scss", ".less"],
      ((imports extension).makeChunks env).map (·.content) = ["@import 'b';", "@import 'c';"] ∧
        contents (imports extension) = ["@import 'c';"] := by
  constructor
  · intro h
    have htwice : contents twice = ["[sale] sale.order.unlink (17.0)\ndef unlink(self): b"] := rfl
    have hfirst : "[sale] sale.order.unlink (17.0)\ndef unlink(self): a" ∈
        (twice.makeChunks env).map (·.content) := by decide
    obtain ⟨c, hc, hcontent⟩ := List.mem_map.mp hfirst
    have hmem := h twice c hc
    rw [htwice, hcontent] at hmem
    exact absurd hmem (by decide)
  · intro extension hextension
    simp only [List.mem_cons, List.not_mem_nil, or_false] at hextension
    rcases hextension with rfl | rfl | rfl
    · exact ⟨rfl, rfl⟩
    · exact ⟨rfl, rfl⟩
    · exact ⟨rfl, rfl⟩

end SecondDefinition

end OdooSemantic
