import OdooSemantic.Indexer.StylesheetInfos
import OdooSemantic.Indexer.WriterCalls
import OdooSemantic.Lib.Fallible
import OdooSemantic.Proof.ImportResolution

/-!
# Which `IMPORTS` edges a list of stylesheets gets

An edge goes to every node that there is when the import is written: the nodes of the graph before,
those of the files in front in the list, and the file itself. What is only written later is passed
over silently; the same list a second time gets the edges that are missing, and then the order of the
list is of no account.
-/

namespace OdooSemantic

open StylesheetImports

/-! ## The edges -/

/-- The import of a stylesheet that an edge stands for. -/
def StylesheetInfo.Imports (s : StylesheetInfo) (e : StylesheetKey × StylesheetKey) : Prop :=
  e.1 = s.key ∧ e.2.filePath ∈ s.imports ∧ e.2.odooVersion = s.odooVersion

theorem mem_imports_importStylesheet {s : StylesheetInfo} {target : String} {g : Graph}
    {e : StylesheetKey × StylesheetKey} :
    e ∈ (importStylesheet s target g).imports ↔
      e ∈ g.imports ∨
        e.1 = s.key ∧ e.2 ∈ g.stylesheets ∧ e.2.filePath = target ∧ e.2.odooVersion = s.odooVersion := by
  obtain ⟨a, b⟩ := e
  simp only [importStylesheet, Finset.mem_union, List.mem_toFinset, List.mem_map, List.mem_filter,
    decide_eq_true_eq, Prod.mk.injEq, ← AList.mem_keys]
  constructor
  · rintro (h | ⟨k, ⟨hk, hfp, hv⟩, rfl, rfl⟩)
    · exact .inl h
    · exact .inr ⟨rfl, hk, hfp, hv⟩
  · rintro (h | ⟨rfl, hb, hfp, hv⟩)
    · exact .inl h
    · exact .inr ⟨b, ⟨hb, hfp, hv⟩, rfl, rfl⟩

/-- Import by import; the nodes stay as they are. -/
theorem mem_imports_foldl (s : StylesheetInfo) (targets : List String) (g : Graph) :
    (targets.foldl (fun g target => importStylesheet s target g) g).stylesheets = g.stylesheets ∧
      ∀ e, e ∈ (targets.foldl (fun g target => importStylesheet s target g) g).imports ↔
        e ∈ g.imports ∨
          e.1 = s.key ∧ e.2 ∈ g.stylesheets ∧ e.2.filePath ∈ targets ∧
            e.2.odooVersion = s.odooVersion := by
  induction targets generalizing g with
  | nil => simp
  | cons target targets ih =>
    obtain ⟨hnodes, hedges⟩ := ih (importStylesheet s target g)
    have hsame : (importStylesheet s target g).stylesheets = g.stylesheets := rfl
    refine ⟨hnodes.trans hsame, fun e => ?_⟩
    rw [List.foldl_cons, hedges, mem_imports_importStylesheet, hsame, List.mem_cons]
    constructor
    · rintro ((h | ⟨h1, h2, h3, h4⟩) | ⟨h1, h2, h3, h4⟩)
      · exact .inl h
      · exact .inr ⟨h1, h2, .inl h3, h4⟩
      · exact .inr ⟨h1, h2, .inr h3, h4⟩
    · rintro (h | ⟨h1, h2, h3 | h3, h4⟩)
      · exact .inl (.inl h)
      · exact .inl (.inr ⟨h1, h2, h3, h4⟩)
      · exact .inr ⟨h1, h2, h3, h4⟩

/-- One stylesheet: its node, and an edge to whatever node is there then. -/
theorem writeStylesheet_spec (ps : List String) (s : StylesheetInfo) (g : Graph) :
    (∀ k, k ∈ (writeStylesheet ps g s).stylesheets ↔ k = s.key ∨ k ∈ g.stylesheets) ∧
      ∀ e, e ∈ (writeStylesheet ps g s).imports ↔
        e ∈ g.imports ∨ s.Imports e ∧ (e.2 = s.key ∨ e.2 ∈ g.stylesheets) := by
  obtain ⟨hnodes, hedges⟩ := mem_imports_foldl s s.imports (mergeStylesheet ps s g)
  have hmerge : ∀ k, k ∈ (mergeStylesheet ps s g).stylesheets ↔ k = s.key ∨ k ∈ g.stylesheets :=
    fun k => KeyedStore.mem_upsert
  refine ⟨fun k => ?_, fun e => ?_⟩
  · rw [writeStylesheet, hnodes, hmerge]
  · rw [writeStylesheet, hedges, hmerge, StylesheetInfo.Imports]
    have himports : (mergeStylesheet ps s g).imports = g.imports := rfl
    rw [himports]
    constructor
    · rintro (h | ⟨h1, h2, h3, h4⟩)
      · exact .inl h
      · exact .inr ⟨⟨h1, h3, h4⟩, h2⟩
    · rintro (h | ⟨⟨h1, h3, h4⟩, h2⟩)
      · exact .inl h
      · exact .inr ⟨h1, h2, h3, h4⟩

theorem writeStylesheets_eq (ps : List String) (ss : List StylesheetInfo) (g : Graph) :
    writeStylesheets ps ss g = ss.foldl (writeStylesheet ps) g := by
  unfold writeStylesheets writeStylesheetsBatch
  rw [← List.foldl_flatten, flatten_chunked (by decide)]

theorem mem_stylesheets_writeStylesheets (ps : List String) (ss : List StylesheetInfo) (g : Graph)
    (k : StylesheetKey) :
    k ∈ (writeStylesheets ps ss g).stylesheets ↔
      k ∈ g.stylesheets ∨ k ∈ ss.map StylesheetInfo.key := by
  rw [writeStylesheets_eq]
  induction ss generalizing g with
  | nil => simp
  | cons s ss ih =>
    rw [List.foldl_cons, ih, (writeStylesheet_spec ps s g).1, List.map_cons, List.mem_cons]
    constructor
    · rintro ((h | h) | h)
      · exact .inr (.inl h)
      · exact .inl h
      · exact .inr (.inr h)
    · rintro (h | h | h)
      · exact .inl (.inr h)
      · exact .inl (.inl h)
      · exact .inr h

/-- **The edges of a list**: to what was there, and to what is not behind in the list. -/
theorem mem_imports_writeStylesheets (ps : List String) (ss : List StylesheetInfo) (g : Graph)
    (e : StylesheetKey × StylesheetKey) :
    e ∈ (writeStylesheets ps ss g).imports ↔
      e ∈ g.imports ∨ ∃ pre s post, ss = pre ++ s :: post ∧ s.Imports e ∧
        (e.2 ∈ g.stylesheets ∨ e.2 ∈ (pre ++ [s]).map StylesheetInfo.key) := by
  rw [writeStylesheets_eq]
  induction ss generalizing g with
  | nil => simp
  | cons s ss ih =>
    obtain ⟨hnodes, hedges⟩ := writeStylesheet_spec ps s g
    rw [List.foldl_cons, ih, hedges]
    constructor
    · rintro ((h | ⟨himp, htarget⟩) | ⟨pre, s', post, rfl, himp, htarget⟩)
      · exact .inl h
      · exact .inr ⟨[], s, ss, rfl, himp, htarget.symm.imp_right (by simpa using ·)⟩
      · refine .inr ⟨s :: pre, s', post, rfl, himp, ?_⟩
        rw [hnodes] at htarget
        rw [List.cons_append, List.map_cons, List.mem_cons]
        rcases htarget with (h | h) | h
        · exact .inr (.inl h)
        · exact .inl h
        · exact .inr (.inr h)
    · rintro (h | ⟨pre, s', post, hsplit, himp, htarget⟩)
      · exact .inl (.inl h)
      · rcases List.cons_eq_append_iff.mp hsplit with ⟨rfl, hpost⟩ | ⟨pre', rfl, hpost⟩
        · obtain ⟨rfl, rfl⟩ := List.cons.inj hpost
          exact .inl (.inr ⟨himp, htarget.symm.imp_left (by simpa using ·)⟩)
        · refine .inr ⟨pre', s', post, hpost, himp, ?_⟩
          rw [hnodes]
          rw [List.cons_append, List.map_cons, List.mem_cons] at htarget
          rcases htarget with h | h | h
          · exact .inl (.inr h)
          · exact .inl (.inl h)
          · exact .inr h

/-- **The second time no edge is missing.** -/
theorem mem_imports_writeStylesheets_twice (ps : List String) (ss : List StylesheetInfo) (g : Graph)
    (e : StylesheetKey × StylesheetKey) :
    e ∈ (writeStylesheets ps ss (writeStylesheets ps ss g)).imports ↔
      e ∈ g.imports ∨ ∃ s ∈ ss, s.Imports e ∧
        (e.2 ∈ g.stylesheets ∨ e.2 ∈ ss.map StylesheetInfo.key) := by
  rw [mem_imports_writeStylesheets, mem_imports_writeStylesheets]
  simp only [mem_stylesheets_writeStylesheets]
  have hpart : ∀ {pre s post}, ss = pre ++ s :: post →
      e.2 ∈ (pre ++ [s]).map StylesheetInfo.key → e.2 ∈ ss.map StylesheetInfo.key := by
    rintro pre s post rfl h
    simp only [List.map_append, List.map_cons, List.map_nil, List.mem_append, List.mem_cons,
      List.not_mem_nil, or_false] at h ⊢
    exact h.imp_right .inl
  constructor
  · rintro ((h | ⟨pre, s, post, hsplit, himp, htarget⟩) | ⟨pre, s, post, hsplit, himp, htarget⟩)
    · exact .inl h
    · exact .inr ⟨s, by simp [hsplit], himp, htarget.imp_right (hpart hsplit)⟩
    · refine .inr ⟨s, by simp [hsplit], himp, ?_⟩
      rcases htarget with h | h
      · exact h
      · exact .inr (hpart hsplit h)
  · rintro (h | ⟨s, hs, himp, htarget⟩)
    · exact .inl (.inl h)
    · obtain ⟨pre, post, hsplit⟩ := List.append_of_mem hs
      exact .inr ⟨pre, s, post, hsplit, himp, .inl htarget⟩

/-! ## The imports of a file -/

namespace SheetFile

variable (files : FileTree) (isAlnum : Char → Bool) (parseTree : List UInt8 → Option Node)

def key (f : SheetFile) : StylesheetKey := ⟨f.filePath, f.module, f.odooVersion⟩

/-- The paths of the imports, as they are written. -/
def importTexts (f : SheetFile) : List String :=
  match f.raw with
  | none => []
  | some raw =>
      let matches' (r : Regex) : List String :=
        (r.finditer (PyText.decode raw)).map fun m => String.ofList m.group
      match f.language with
      | .css => match parseTree raw with
          | some root =>
              (((root.walk none).map Prod.snd).filter fun n => n.type = "import_statement").filterMap
                (ParserCss.importPath raw)
          | none => matches' ParserCss.reImport
      | .scss => matches' ParserScss.reImport
      | .less => matches' ParserLess.reImport

/-- What the parser makes of the path of an import. -/
def importTarget (f : SheetFile) (text : String) : Except ResolveError String :=
  match f.language with
  | .css => .ok text
  | .scss => (resolveScssImport files text f.filePath).map (·.getD text)
  | .less => (resolveLessImport files text f.filePath).map (·.getD text)

end SheetFile

section Parse

variable {files : FileTree} {isAlnum : Char → Bool} {parseTree : List UInt8 → Option Node}

theorem imports_foldl_count (source : List UInt8) (nodes : List Node) (info : StylesheetInfo) :
    (nodes.foldl (ParserCss.count source) info).key = info.key ∧
      (nodes.foldl (ParserCss.count source) info).imports =
        info.imports ++ (nodes.filter fun n => n.type = "import_statement").filterMap
          (ParserCss.importPath source) := by
  induction nodes generalizing info with
  | nil => simp
  | cons n nodes ih =>
    obtain ⟨hkey, himports⟩ := ih (ParserCss.count source info n)
    rw [List.foldl_cons, hkey, himports]
    by_cases himport : n.type = "import_statement"
    · rw [ParserCss.count, if_pos himport, List.filter_cons_of_pos (by simpa using himport),
        List.filterMap_cons]
      refine ⟨rfl, ?_⟩
      cases ParserCss.importPath source n <;> simp
    · rw [ParserCss.count, if_neg himport, List.filter_cons_of_neg (by simpa using himport)]
      split <;> exact ⟨rfl, rfl⟩

theorem imports_foldl_countRule (matches' : List Regex.Match) (info : StylesheetInfo) :
    (matches'.foldl (ParserCss.countRule isAlnum) info).key = info.key ∧
      (matches'.foldl (ParserCss.countRule isAlnum) info).imports = info.imports := by
  induction matches' generalizing info with
  | nil => exact ⟨rfl, rfl⟩
  | cons m ms ih =>
    obtain ⟨hkey, himports⟩ := ih (ParserCss.countRule isAlnum info m)
    rw [List.foldl_cons, hkey, himports]
    unfold ParserCss.countRule
    dsimp only
    split <;> exact ⟨rfl, rfl⟩

/-- **What is recorded**: of every import what the parser makes of it. -/
theorem parse_spec {f : SheetFile} {info : StylesheetInfo}
    (h : f.parse files isAlnum parseTree = .ok info) :
    info.key = f.key ∧
      List.Forall₂ (fun text target => f.importTarget files text = .ok target)
      (f.importTexts parseTree) info.imports := by
  unfold SheetFile.parse at h
  unfold SheetFile.importTexts
  cases hraw : f.raw with
  | none =>
    rw [hraw] at h
    obtain rfl := Except.ok.inj h
    exact ⟨rfl, List.Forall₂.nil⟩
  | some raw =>
    rw [hraw] at h
    dsimp only at h ⊢
    cases hl : f.language with
    | css =>
      have htarget : ∀ texts, List.Forall₂ (fun text target =>
          f.importTarget files text = .ok target) texts texts := by
        intro texts
        refine List.forall₂_same.mpr fun text _ => ?_
        simp [SheetFile.importTarget, hl]
      rw [hl] at h
      obtain rfl := Except.ok.inj h
      dsimp only
      cases parseTree raw with
      | some root =>
        obtain ⟨hkey, himports⟩ :=
          imports_foldl_count raw ((root.walk none).map Prod.snd) f.emptyInfo
        dsimp only
        unfold ParserCss.cssTreesitterInfo
        rw [himports]
        exact ⟨hkey, htarget _⟩
      | none =>
        dsimp only
        unfold ParserCss.cssRegexInfo
        dsimp only
        rw [(imports_foldl_countRule _ _).1, (imports_foldl_countRule _ _).2]
        exact ⟨rfl, htarget _⟩
    | scss =>
      rw [hl] at h
      obtain ⟨imports, himports, rfl⟩ := Fallible.of_map_eq_ok h
      refine ⟨rfl, List.forall₂_map_left_iff.mpr ?_⟩
      simp only [SheetFile.importTarget, hl]
      exact Fallible.mapM_eq_ok_iff.mp himports
    | less =>
      rw [hl] at h
      obtain ⟨imports, himports, rfl⟩ := Fallible.of_map_eq_ok h
      refine ⟨rfl, List.forall₂_map_left_iff.mpr ?_⟩
      simp only [SheetFile.importTarget, hl]
      exact Fallible.mapM_eq_ok_iff.mp himports

/-- The import of a file that an edge stands for. -/
def SheetFile.Imports (files : FileTree) (parseTree : List UInt8 → Option Node) (f : SheetFile)
    (e : StylesheetKey × StylesheetKey) : Prop :=
  e.1 = f.key ∧ e.2.odooVersion = f.odooVersion ∧
    ∃ text ∈ f.importTexts parseTree, f.importTarget files text = .ok e.2.filePath

theorem mem_of_forall₂ {A B : Type} {R : A → B → Prop} {as : List A} {bs : List B}
    (h : List.Forall₂ R as bs) {b : B} (hb : b ∈ bs) : ∃ a ∈ as, R a b := by
  induction h with
  | nil => simp at hb
  | @cons a b' as bs hab _ ih =>
    rcases List.mem_cons.mp hb with rfl | hb
    · exact ⟨a, List.mem_cons_self, hab⟩
    · obtain ⟨a', ha', hab'⟩ := ih hb
      exact ⟨a', List.mem_cons_of_mem _ ha', hab'⟩

theorem split_of_forall₂ {A B : Type} {R : A → B → Prop} {pre post : List B} {b : B} :
    ∀ {as : List A}, List.Forall₂ R as (pre ++ b :: post) →
      ∃ pre' a post', as = pre' ++ a :: post' ∧ List.Forall₂ R pre' pre ∧ R a b := by
  induction pre with
  | nil =>
    intro as h
    obtain ⟨a, as', hab, -, rfl⟩ := List.forall₂_cons_right_iff.mp h
    exact ⟨[], a, as', rfl, .nil, hab⟩
  | cons p pre ih =>
    intro as h
    obtain ⟨a, as', hap, hrest, rfl⟩ := List.forall₂_cons_right_iff.mp h
    obtain ⟨pre', a', post', rfl, hpre, hab⟩ := ih hrest
    exact ⟨a :: pre', a', post', rfl, .cons hap hpre, hab⟩

theorem imports_iff_of_parse {f : SheetFile} {info : StylesheetInfo}
    (h : f.parse files isAlnum parseTree = .ok info) (e : StylesheetKey × StylesheetKey) :
    info.Imports e ↔ f.Imports files parseTree e := by
  obtain ⟨hkey, hrecorded⟩ := parse_spec h
  have hversion : info.odooVersion = f.odooVersion := congrArg StylesheetKey.odooVersion hkey
  unfold StylesheetInfo.Imports SheetFile.Imports
  rw [hkey, hversion]
  refine and_congr_right fun _ => ?_
  rw [and_comm]
  refine and_congr_right fun _ => ⟨mem_of_forall₂ hrecorded, ?_⟩
  rintro ⟨text, htext, htarget⟩
  obtain ⟨target, hmem, heq⟩ := mem_of_forall₂ hrecorded.flip htext
  obtain rfl := Except.ok.inj (htarget.symm.trans heq)
  exact hmem

theorem keys_of_parses {fs : List SheetFile} {infos : List StylesheetInfo}
    (h : List.Forall₂ (fun f info => SheetFile.parse files isAlnum parseTree f = .ok info) fs infos) :
    infos.map StylesheetInfo.key = fs.map SheetFile.key := by
  induction h with
  | nil => rfl
  | cons hparse _ ih => rw [List.map_cons, List.map_cons, ih, (parse_spec hparse).1]

end Parse

section Write

variable (files : FileTree) (isAlnum : Char → Bool) (parseTree : List UInt8 → Option Node)

/-- Parsed and written, a list of files has the edges to what was there or is not behind in the list.
    Written once more, it has the edges to all that is there, in whatever order the files come. -/
theorem stylesheet_edges (ps : List String) (g : Graph) {fs : List SheetFile}
    {infos : List StylesheetInfo}
    (h : fs.mapM (SheetFile.parse files isAlnum parseTree) = .ok infos) :
    (∀ e, e ∈ (writeStylesheets ps infos g).imports ↔
      e ∈ g.imports ∨ ∃ pre f post, fs = pre ++ f :: post ∧ f.Imports files parseTree e ∧
        (e.2 ∈ g.stylesheets ∨ e.2 ∈ (pre ++ [f]).map SheetFile.key)) ∧
    (∀ e, e ∈ (writeStylesheets ps infos (writeStylesheets ps infos g)).imports ↔
      e ∈ g.imports ∨ ∃ f ∈ fs, f.Imports files parseTree e ∧
        e.2 ∈ (writeStylesheets ps infos g).stylesheets) ∧
    ∀ (fs' : List SheetFile) (infos' : List StylesheetInfo), fs'.Perm fs →
      fs'.mapM (SheetFile.parse files isAlnum parseTree) = .ok infos' →
      (writeStylesheets ps infos' (writeStylesheets ps infos' g)).imports =
        (writeStylesheets ps infos (writeStylesheets ps infos g)).imports := by
  have htwice : ∀ {fs : List SheetFile} {infos : List StylesheetInfo},
      fs.mapM (SheetFile.parse files isAlnum parseTree) = .ok infos → ∀ e,
      (e ∈ (writeStylesheets ps infos (writeStylesheets ps infos g)).imports ↔
        e ∈ g.imports ∨ ∃ f ∈ fs, f.Imports files parseTree e ∧
          (e.2 ∈ g.stylesheets ∨ e.2 ∈ fs.map SheetFile.key)) := by
    intro fs infos h e
    have hparses := Fallible.mapM_eq_ok_iff.mp h
    rw [mem_imports_writeStylesheets_twice, keys_of_parses hparses]
    refine or_congr_right ⟨?_, ?_⟩
    · rintro ⟨s, hs, himp, htarget⟩
      obtain ⟨f, hf, hparse⟩ := mem_of_forall₂ hparses hs
      exact ⟨f, hf, (imports_iff_of_parse hparse e).mp himp, htarget⟩
    · rintro ⟨f, hf, himp, htarget⟩
      obtain ⟨s, hs, hparse⟩ := mem_of_forall₂ hparses.flip hf
      exact ⟨s, hs, (imports_iff_of_parse hparse e).mpr himp, htarget⟩
  have hparses := Fallible.mapM_eq_ok_iff.mp h
  refine ⟨fun e => ?_, fun e => ?_, fun fs' infos' hperm h' => ?_⟩
  · rw [mem_imports_writeStylesheets]
    refine or_congr_right ⟨?_, ?_⟩
    · rintro ⟨pre, s, post, rfl, himp, htarget⟩
      obtain ⟨pre', f, post', hfs, hpre, hparse⟩ := split_of_forall₂ hparses
      refine ⟨pre', f, post', hfs, (imports_iff_of_parse hparse e).mp himp, ?_⟩
      rwa [List.map_append, keys_of_parses hpre, List.map_singleton, (parse_spec hparse).1,
        ← List.map_singleton, ← List.map_append] at htarget
    · rintro ⟨pre, f, post, rfl, himp, htarget⟩
      obtain ⟨pre', s, post', hss, hpre, hparse⟩ := split_of_forall₂ hparses.flip
      refine ⟨pre', s, post', hss, (imports_iff_of_parse hparse e).mpr himp, ?_⟩
      rwa [List.map_append, List.map_singleton, (parse_spec hparse).1, keys_of_parses hpre.flip,
        ← List.map_singleton, ← List.map_append]
  · rw [htwice h]
    simp only [mem_stylesheets_writeStylesheets, keys_of_parses hparses]
  · ext e
    rw [htwice h', htwice h]
    simp only [hperm.mem_iff, (hperm.map SheetFile.key).mem_iff]

end Write

/-! ## An import of what comes later -/

/-- The files that an import may stand for. -/
def SheetLanguage.forms (text sourceFile : String) : SheetLanguage → List PosixPath.PurePath
  | css => [(PosixPath.PurePath.ofText sourceFile).parent.div (PosixPath.PurePath.ofText text)]
  | scss => importForms ".scss" true text sourceFile
  | less => importForms ".less" false text sourceFile

/-- Links followed, the import stands for the file at the path. -/
def SheetFile.Denotes (files : FileTree) (f : SheetFile) (text path : String) : Prop :=
  ∃ p ∈ f.language.forms text f.filePath,
    files.isFile p = some true ∧ files.resolve p = files.resolve (PosixPath.PurePath.ofText path)

namespace ForwardImport

/-- Both files are there, and nothing is a link. -/
def twoFiles : FileTree where
  isFile p := some (p ∈ ["/web/static/a.scss", "/web/static/b.scss"].map PosixPath.PurePath.ofText)
  resolve := id
  isFile_resolve _ h := h

def sheet (name text : String) : SheetFile where
  language := .scss
  filePath := "/web/static/" ++ name
  module := "web"
  odooVersion := "17.0"
  raw := some (text.toList.map fun c => UInt8.ofNat c.toNat)

def importing : SheetFile := sheet "a.scss" "@import 'b';"

def imported : SheetFile := sheet "b.scss" ""

def info (f : SheetFile) (imports : List String) : StylesheetInfo :=
  { f.emptyInfo with importCount := imports.length, imports }

theorem parses : [importing, imported].mapM (SheetFile.parse twoFiles Char.isAlphanum fun _ => none) =
    .ok [info importing ["/web/static/b.scss"], info imported []] := by
  decide

/-- The one file imports the other, in this order in the list. -/
theorem no_edge : ¬ ∀ (files : FileTree) (isAlnum : Char → Bool)
    (parseTree : List UInt8 → Option Node) (ps : List String) (g : Graph) (fs : List SheetFile)
    (infos : List StylesheetInfo),
    fs.mapM (SheetFile.parse files isAlnum parseTree) = .ok infos →
    ∀ f ∈ fs, ∀ text ∈ f.importTexts parseTree, ∀ t ∈ (writeStylesheets ps infos g).stylesheets,
      t.odooVersion = f.odooVersion → f.Denotes files text t.filePath →
      (f.key, t) ∈ (writeStylesheets ps infos g).imports := by
  intro h
  have hedge := h twoFiles Char.isAlphanum (fun _ => none) [] {} _ _ parses importing (by simp) "b"
    (by decide) imported.key
    ((mem_stylesheets_writeStylesheets _ _ _ _).mpr (.inr (List.mem_cons_of_mem _ List.mem_cons_self)))
    rfl ⟨PosixPath.PurePath.ofText "/web/static/b.scss", by decide⟩
  exact absurd hedge (by decide)

theorem stylesheet_edges_two_files :
    [importing, imported].mapM (SheetFile.parse twoFiles Char.isAlphanum fun _ => none) =
        .ok [info importing ["/web/static/b.scss"], info imported []] ∧
      ∀ e, e ∈ (writeStylesheets []
          [info importing ["/web/static/b.scss"], info imported []] {}).imports ↔
        e ∈ ({} : Graph).imports ∨ ∃ pre f post, [importing, imported] = pre ++ f :: post ∧
          f.Imports twoFiles (fun _ => none) e ∧
          (e.2 ∈ ({} : Graph).stylesheets ∨ e.2 ∈ (pre ++ [f]).map SheetFile.key) :=
  ⟨parses, (stylesheet_edges twoFiles Char.isAlphanum (fun _ => none) [] {} parses).1⟩

end ForwardImport

end OdooSemantic
