import Mathlib.Data.List.Chain
import OdooSemantic.Indexer.StylesheetInfos
import OdooSemantic.Proof.CustomProperties
import OdooSemantic.Proof.PlainImports

/-!
# The two back ends of the CSS parser

With the grammar the parser visits the nodes of a tree, without it it looks for two patterns. On a
plain sheet the patterns find what the nodes are about, and with the same text; then what is made of
them is the same, but for the order, in which the imports come first or last.

Where a sheet is not plain they part: an import in front of a rule hides the rule, a comment or two
blanks in front of a brace end up in the text, and two blocks of custom properties in a row are one.
-/

namespace OdooSemantic

open Regex Stylesheets ParserCss

/-- What the windows of the sections are told apart by. -/
def sectionChunks (sections : List Section) : List (String × String × Nat × String) :=
  sections.flatMap fun s => (Chunking.emit s.content).map fun w => (s.kind, s.entity, w.1, w.2)

/-- **A caller cannot tell which one ran**: the same info and the same set of chunks. -/
def BackEndsAgree (isAlnum : Char → Bool) (source : List UInt8) (root : Node) (f : SheetFile) : Prop :=
  cssTreesitterInfo source root f = cssRegexInfo isAlnum (PyText.decode source) f ∧
    ∀ c, c ∈ sectionChunks (parseCssTreesitter source root f.filePath) ↔
      c ∈ sectionChunks (parseCssRegex isAlnum (PyText.decode source) f.filePath)

/-! ## The nodes of a plain sheet -/

namespace PlainSheets

section Nodes

variable (isAlnum : Char → Bool) (source : List UInt8)

def selectorsOf (node : Node) : Option Node := node.children.reverse.find? fun c => c.type = "selectors"

def blockOf (node : Node) : Option Node := node.children.reverse.find? fun c => c.type = "block"

def declarationsOf (block : Node) : List Node :=
  ((block.walk none).map Prod.snd).filter fun n => n.type = "declaration"

/-- The node of a rule, and in its block one for each declaration. -/
structure RuleNode (r : Rule) (node : Node) : Prop where
  type : node.type = "rule_set"
  text : node.text source = r.text
  selectors : (selectorsOf node).map (Node.text source) = some r.selectors.text
  declared : ∃ (block : Node) (ds : List (Decl isAlnum)), blockOf node = some block ∧ Declared r ds ∧
    (declarationsOf block).map (Node.text source) = ds.map Decl.text

/-- The node of a media block, and in it one for the condition. -/
structure MediaNode (m : Media) (node : Node) : Prop where
  type : node.type = "media_statement"
  text : node.text source = m.text
  query : (node.firstChild "media_query_list").map (Node.text source) = some m.header.query.text

/-- The node of an import, and in it one for the path with its quotes. -/
structure ImportNode (i : Import) (node : Node) : Prop where
  type : node.type = "import_statement"
  text : node.text source = i.text
  path : (node.children.find? fun c => c.type = "string_value" || c.type = "call_expression").map
    (Node.text source) = some (i.quote :: (i.path ++ [i.quote]))

def ConstructNode : Construct → Node → Prop
  | .rule r, node => RuleNode isAlnum source r node
  | .media m, node => MediaNode source m node

/-- A rule with colons of custom properties and no others. -/
def Construct.IsVariables : Construct → Prop
  | rule r => ((reVarDecl isAlnum).finditer r.text).length ≠ 0 ∧
      ((reVarDecl isAlnum).finditer r.text).length = r.text.count ':'
  | media _ => False

instance (c : Construct) : Decidable (c.IsVariables isAlnum) :=
  match c with
  | .rule r => inferInstanceAs (Decidable (((reVarDecl isAlnum).finditer r.text).length ≠ 0 ∧
      ((reVarDecl isAlnum).finditer r.text).length = r.text.count ':'))
  | .media _ => inferInstanceAs (Decidable False)

def isVisited (node : Node) : Bool :=
  node.type = "import_statement" || node.type = "media_statement" || node.type = "rule_set"

/-- The nodes that are looked at. -/
def visited (root : Node) : List Node := ((root.walk none).map Prod.snd).filter isVisited

/-- The source is a plain sheet and the tree has its nodes, and no two blocks of custom properties
    follow each other. -/
structure PlainSource (root : Node) (s : Sheet) : Prop where
  text : PyText.decode source = s.text
  nodes : ∃ blocks imports, visited root = blocks ++ imports ∧
    List.Forall₂ (ConstructNode isAlnum source) s.constructs blocks ∧
    List.Forall₂ (ImportNode source) (s.imports.map Prod.snd) imports
  apart : s.constructs.IsChain fun c d => c.IsVariables isAlnum → ¬ d.IsVariables isAlnum

end Nodes

variable {isAlnum : Char → Bool} {source : List UInt8}

/-! ## Lists that belong together item by item -/

theorem foldl_of_forall₂ {α β σ : Type} {R : α → β → Prop} {f : σ → α → σ} {g : σ → β → σ}
    (hstep : ∀ s a b, R a b → g s b = f s a) {as : List α} {bs : List β} (h : List.Forall₂ R as bs)
    (s : σ) : bs.foldl g s = as.foldl f s := by
  induction h generalizing s with
  | nil => rfl
  | cons hab _ ih => rw [List.foldl_cons, List.foldl_cons, hstep _ _ _ hab, ih]

theorem map_of_forall₂ {α β γ : Type} {R : α → β → Prop} {f : α → γ} {g : β → γ}
    (hstep : ∀ a b, R a b → g b = f a) {as : List α} {bs : List β} (h : List.Forall₂ R as bs) :
    bs.map g = as.map f := by
  induction h with
  | nil => rfl
  | cons hab _ ih => rw [List.map_cons, List.map_cons, hstep _ _ hab, ih]

/-! ## The declarations of a rule -/

theorem isPrefixOf_text (laws : AlnumLaws isAlnum) (d : Decl isAlnum) :
    "--".toList.isPrefixOf (d.text.dropWhile PyText.isSpace) = d.isCustom := by
  obtain ⟨c, name, hname⟩ := List.exists_cons_of_ne_nil d.name_ne
  have hc := (head_name laws (d.named c (by simp [hname]))).1
  have hdrop : d.text.dropWhile PyText.isSpace = d.text := by
    rw [Decl.text, hname, List.cons_append, List.dropWhile_cons_of_neg (by simp [hc])]
  rw [hdrop, hyphens_eq, Decl.isCustom, Decl.text, hname]
  cases name with
  | cons e name => rfl
  | nil =>
    have hgap := head_gap d.gap d.value
    cases hbehind : d.gap.text ++ ':' :: d.value with
    | nil => rfl
    | cons e behind =>
      have he : ('-' == e) = false := by
        rw [beq_eq_false_iff_ne]
        rintro rfl
        exact hgap (by rw [hbehind]; rfl)
      simp [List.isPrefixOf, he]

variable {block : Node} {ds : List (Decl isAlnum)}

/-- Node by node, what the tree says and what the text says. -/
theorem map_isVarDecl (laws : AlnumLaws isAlnum)
    (h : (declarationsOf block).map (Node.text source) = ds.map Decl.text) :
    (declarationsOf block).map (isVarDecl source) = ds.map Decl.isCustom :=
  calc (declarationsOf block).map (isVarDecl source)
      = ((declarationsOf block).map (Node.text source)).map
          fun t => "--".toList.isPrefixOf (t.dropWhile PyText.isSpace) := by
        rw [List.map_map]
        rfl
    _ = (ds.map Decl.text).map fun t => "--".toList.isPrefixOf (t.dropWhile PyText.isSpace) := by
        rw [h]
    _ = ds.map Decl.isCustom := by
        rw [List.map_map]
        exact List.map_congr_left fun d _ => isPrefixOf_text laws d

theorem varDecls_eq (laws : AlnumLaws isAlnum)
    (h : (declarationsOf block).map (Node.text source) = ds.map Decl.text) :
    varDecls source block = ds.countP Decl.isCustom := by
  have hcount : varDecls source block = ((declarationsOf block).map (isVarDecl source)).countP id := by
    rw [List.countP_map, declarationsOf, List.countP_filter]
    refine List.countP_congr fun n _ => ?_
    simp [and_comm]
  rw [hcount, map_isVarDecl laws h, List.countP_map]
  rfl

theorem onlyVariables_iff (laws : AlnumLaws isAlnum)
    (h : (declarationsOf block).map (Node.text source) = ds.map Decl.text) :
    onlyVariables source block = true ↔ ds ≠ [] ∧ ∀ d ∈ ds, d.isCustom = true := by
  have honly : onlyVariables source block =
      (((declarationsOf block).map (isVarDecl source)).any id &&
        ((declarationsOf block).map (isVarDecl source)).all id) := by
    rw [List.any_map, List.all_map]
    rfl
  rw [honly, map_isVarDecl laws h, Bool.and_eq_true, List.any_map, List.all_map, List.any_eq_true,
    List.all_eq_true]
  constructor
  · rintro ⟨⟨d, hd, -⟩, hall⟩
    exact ⟨List.ne_nil_of_mem hd, hall⟩
  · rintro ⟨hne, hall⟩
    obtain ⟨d, hd⟩ := List.exists_mem_of_ne_nil ds hne
    exact ⟨⟨d, hd, hall d hd⟩, hall⟩

variable {r : Rule} {node : Node}

theorem RuleNode.variables (laws : AlnumLaws isAlnum) (h : RuleNode isAlnum source r node) :
    ((blockOf node).map (varDecls source)).getD 0 = ((reVarDecl isAlnum).finditer r.text).length := by
  obtain ⟨block, ds, hblock, hdeclared, hnodes⟩ := h.declared
  rw [hblock, hdeclared.varLines laws, Option.map_some, Option.getD_some, varDecls_eq laws hnodes]

theorem RuleNode.only (laws : AlnumLaws isAlnum) (h : RuleNode isAlnum source r node) :
    (blockOf node).any (onlyVariables source) = true ↔ (Construct.rule r).IsVariables isAlnum := by
  obtain ⟨block, ds, hblock, hdeclared, hnodes⟩ := h.declared
  rw [hblock, Option.any_some, onlyVariables_iff laws hnodes]
  exact (hdeclared.only_iff laws).symm

/-! ## The same blocks -/

theorem strip_header (h : Header) : strip h.text = h.text := by
  have hself := strip_padded [] [] (by simp) (by simp) h.first h.last
  simpa using hself

/-- The one has these sections in front of the other's. -/
def Shifted (front : List Section) (s s' : CssState) : Prop :=
  s'.sections = front ++ s.sections ∧ s'.varBlock = s.varBlock

variable {stem : String} {front : List Section} {s s' : CssState} {m : Match}

theorem Shifted.flush (h : Shifted front s s') : Shifted front (s.flush stem) (s'.flush stem) := by
  obtain ⟨hsections, hvar⟩ := h
  unfold CssState.flush
  rw [hvar]
  split
  · exact ⟨hsections, hvar⟩
  · exact ⟨by simp [hsections], rfl⟩

theorem Shifted.emit (h : Shifted front s s') (sec : Section) :
    Shifted front (s.emit sec) (s'.emit sec) :=
  ⟨by simp [CssState.emit, h.1], h.2⟩

theorem varBlock_flush : (s.flush stem).varBlock = [] := by
  unfold CssState.flush
  split
  · assumption
  · rfl

theorem flush_eq_self (h : s.varBlock = []) : s.flush stem = s := if_pos h

/-- A header without an at sign is that of a rule. -/
theorem Rule.noKeyword (r : Rule) :
    "@import".toList.isPrefixOf r.selectors.text = false ∧
      "@media".toList.isPrefixOf (r.selectors.text.map Char.toLower) = false ∧
      r.selectors.text.head? ≠ some '@' := by
  obtain ⟨c, hc, -⟩ := r.selectors.first
  obtain ⟨cs, hcs⟩ : ∃ cs, r.selectors.text = c :: cs := List.head?_eq_some_iff.mp hc
  have hat : c ≠ '@' := by
    rintro rfl
    exact r.noAt (List.mem_of_mem_head? hc)
  have hlower : '@' ≠ c.toLower := fun h => hat (toLower_eq_at h.symm)
  rw [hcs]
  refine ⟨?_, ?_, ?_⟩
  · simp [List.isPrefixOf, Ne.symm hat]
  · simp [List.isPrefixOf, hlower]
  · simpa using hat

/-- The first eighty characters of one line are the line, if it is not longer. -/
theorem Rule.entity (r : Rule) :
    ((r.selectors.text.map fun c => if c = '\n' then ' ' else c).take 80) = r.selectors.text := by
  have hself : (r.selectors.text.map fun c => if c = '\n' then ' ' else c) = r.selectors.text.map id :=
    List.map_congr_left fun c hc => if_neg (r.selectors.plain c hc).2.2
  rw [hself, List.map_id, List.take_of_length_le r.short]

/-- What the visit of a rule comes to. -/
theorem RuleNode.visit_eq (h : RuleNode isAlnum source r node) :
    visit source stem s node =
      if (blockOf node).any (onlyVariables source) then { s.flush stem with varBlock := [r.text] }
      else (s.flush stem).emit
        ⟨"selector", String.ofList r.selectors.text, String.ofList r.text⟩ := by
  obtain ⟨c, hc, -⟩ := r.selectors.first
  have hne : r.selectors.text ≠ [] := by
    intro hnil
    rw [hnil] at hc
    exact absurd hc (by simp)
  have hselectors : ((selectorsOf node).map fun n => strip (n.text source)) =
      some (strip r.selectors.text) := by
    have hmap := congrArg (Option.map strip) h.selectors
    rwa [Option.map_map] at hmap
  rw [visit, if_neg (by rw [h.type]; decide), if_neg (by rw [h.type]; decide), if_pos h.type, h.text]
  change (if (blockOf node).any (onlyVariables source) then _ else
    (s.flush stem).emit ⟨"selector",
      if (((selectorsOf node).map fun n => strip (n.text source)).getD []) = [] then stem
      else String.ofList (((selectorsOf node).map fun n => strip (n.text source)).getD []), _⟩) = _
  rw [hselectors, Option.getD_some, strip_header, if_neg hne]

/-- What the match of a rule comes to. -/
theorem visitRule_eq (hfound : FoundAs (.rule r) m) :
    visitRule isAlnum stem s m =
      if (Construct.rule r).IsVariables isAlnum then { s with varBlock := s.varBlock ++ [r.text] }
      else (s.flush stem).emit
        ⟨"selector", String.ofList r.selectors.text, String.ofList r.text⟩ := by
  obtain ⟨hheader, hblock⟩ := hfound
  obtain ⟨himport, hmedia, hat⟩ := r.noKeyword
  have hraw : strip m.group ++ ' ' :: block m = r.text := by
    rw [hheader, hblock]
    rfl
  have hheader' : strip m.group = r.selectors.text := hheader
  unfold visitRule
  dsimp only
  rw [hraw, hheader', himport, hmedia, if_neg (by decide), if_neg (by decide), if_neg hat, r.entity]
  rfl

/-- A rule whose colons are all of custom properties, where no block of them is open. -/
theorem visit_variables (laws : AlnumLaws isAlnum) (hnode : RuleNode isAlnum source r node)
    (hfound : FoundAs (.rule r) m) (h : Shifted front s s') (hvar : (Construct.rule r).IsVariables isAlnum)
    (hclosed : s.varBlock = []) :
    Shifted front (visit source stem s node) (visitRule isAlnum stem s' m) := by
  have honly := (hnode.only laws).mpr hvar
  rw [hnode.visit_eq, visitRule_eq hfound, if_pos honly, if_pos hvar, flush_eq_self hclosed]
  refine ⟨h.1, ?_⟩
  dsimp only
  rw [h.2, hclosed, List.nil_append]

/-- Any other rule. -/
theorem visit_selector (laws : AlnumLaws isAlnum) (hnode : RuleNode isAlnum source r node)
    (hfound : FoundAs (.rule r) m) (h : Shifted front s s')
    (hvar : ¬ (Construct.rule r).IsVariables isAlnum) :
    Shifted front (visit source stem s node) (visitRule isAlnum stem s' m) ∧
      (visit source stem s node).varBlock = [] := by
  have honly : ¬ (blockOf node).any (onlyVariables source) = true := fun h => hvar ((hnode.only laws).mp h)
  rw [hnode.visit_eq, visitRule_eq hfound, if_neg honly, if_neg hvar]
  exact ⟨h.flush.emit _, varBlock_flush⟩

theorem mediaWord_eq : "@media ".toList = mediaWord := by simp [mediaWord]

/-- A media block. -/
theorem visit_media {d : Media} (hnode : MediaNode source d node) (hfound : FoundAs (.media d) m)
    (h : Shifted front s s') :
    Shifted front (visit source stem s node) (visitRule isAlnum stem s' m) ∧
      (visit source stem s node).varBlock = [] := by
  obtain ⟨hheader, hblock⟩ := hfound
  obtain ⟨list, hlist, hquery⟩ := Option.map_eq_some_iff.mp hnode.query
  have hvisit : visit source stem s node =
      (s.flush stem).emit ⟨"media", String.ofList d.header.text, String.ofList d.text⟩ := by
    have hentity : "@media " ++ String.ofList (strip (list.text source)) = String.ofList d.header.text := by
      rw [hquery, strip_header, MediaHeader.text, String.ofList_append, ← mediaWord_eq,
        String.ofList_toList]
    rw [visit, if_neg (by rw [hnode.type]; decide), if_pos hnode.type, hlist, hnode.text]
    dsimp only
    rw [hentity]
  have hmatch : visitRule isAlnum stem s' m =
      (s'.flush stem).emit ⟨"media", String.ofList d.header.text, String.ofList d.text⟩ := by
    have hraw : strip m.group ++ ' ' :: block m = d.text := by
      rw [hheader, hblock]
      rfl
    have hheader' : strip m.group = mediaWord ++ d.header.query.text := hheader
    unfold visitRule
    dsimp only
    rw [hraw, hheader', if_neg (by simp [mediaWord]), if_pos (by simp [mediaWord])]
    rfl
  rw [hvisit, hmatch]
  exact ⟨h.flush.emit _, varBlock_flush⟩

/-- **One step of the one is one step of the other**, and a block of custom properties is open only
    behind a rule that is one. -/
theorem visit_construct (laws : AlnumLaws isAlnum) {c : Construct}
    (hnode : ConstructNode isAlnum source c node) (hfound : FoundAs c m) (h : Shifted front s s')
    (hopen : s.varBlock ≠ [] → ¬ c.IsVariables isAlnum) :
    Shifted front (visit source stem s node) (visitRule isAlnum stem s' m) ∧
      ((visit source stem s node).varBlock ≠ [] → c.IsVariables isAlnum) := by
  cases c with
  | rule r =>
    by_cases hvar : (Construct.rule r).IsVariables isAlnum
    · have hclosed : s.varBlock = [] := by
        by_contra hne
        exact hopen hne hvar
      exact ⟨visit_variables laws hnode hfound h hvar hclosed, fun _ => hvar⟩
    · obtain ⟨hshift, hclosed⟩ := visit_selector laws hnode hfound h hvar
      exact ⟨hshift, fun hne => absurd hclosed hne⟩
  | media d =>
    obtain ⟨hshift, hclosed⟩ := visit_media hnode hfound h
    exact ⟨hshift, fun hne => absurd hclosed hne⟩

/-- **All the blocks**, by induction on them. -/
theorem foldl_visit (laws : AlnumLaws isAlnum) {cs : List Construct} {nodes : List Node} {ms : List Match}
    (hnodes : List.Forall₂ (ConstructNode isAlnum source) cs nodes) (hms : List.Forall₂ FoundAs cs ms)
    (happart : cs.IsChain fun c d => c.IsVariables isAlnum → ¬ d.IsVariables isAlnum)
    (h : Shifted front s s')
    (hopen : s.varBlock ≠ [] → ∀ c, cs.head? = some c → ¬ c.IsVariables isAlnum) :
    Shifted front (nodes.foldl (visit source stem) s) (ms.foldl (visitRule isAlnum stem) s') := by
  induction hnodes generalizing ms s s' with
  | nil =>
    cases hms
    exact h
  | @cons c node cs nodes hnode hnodes ih =>
    obtain _ | ⟨hm, hms⟩ := hms
    obtain ⟨hshift, hvar⟩ := visit_construct laws hnode hm h fun hne => hopen hne c rfl
    rw [List.foldl_cons, List.foldl_cons]
    refine ih hms happart.tail hshift fun hne d hd => ?_
    cases cs with
    | nil => exact absurd hd (by simp)
    | cons e cs =>
      obtain rfl : e = d := by simpa using hd
      exact (List.isChain_cons_cons.mp happart).1 (hvar hne)

/-! ## The same chunks -/

/-- Nodes of other types are passed by. -/
theorem foldl_visited {σ : Type} {f : σ → Node → σ} (h : ∀ s node, isVisited node = false → f s node = s)
    (root : Node) (s : σ) : ((root.walk none).map Prod.snd).foldl f s = (visited root).foldl f s := by
  rw [visited, List.foldl_filter]
  congr 1
  funext s node
  split
  · rfl
  · rename_i hno
    exact h s node (Bool.eq_false_iff.mpr hno)

theorem visit_other (s : CssState) (node : Node) (h : isVisited node = false) :
    visit source stem s node = s := by
  simp only [isVisited, Bool.or_eq_false_iff, decide_eq_false_iff_not] at h
  rw [visit, if_neg h.1.1, if_neg h.1.2, if_neg h.2]

def Import.section (stem : String) (i : Import) : Section := ⟨"import", stem, String.ofList i.text⟩

/-- The imports that are visited last come last. -/
theorem foldl_visit_imports {imports : List Import} {nodes : List Node}
    (h : List.Forall₂ (ImportNode source) imports nodes) (s : CssState) :
    ((nodes.foldl (visit source stem) s).flush stem).sections =
      (s.flush stem).sections ++ imports.map (Import.section stem) := by
  induction h generalizing s with
  | nil => simp
  | @cons i node imports nodes hnode _ ih =>
    have hvisit : visit source stem s node = (s.flush stem).emit (i.section stem) := by
      rw [visit, if_pos hnode.type, hnode.text]
      rfl
    have hclosed : ((s.flush stem).emit (i.section stem)).varBlock = [] := varBlock_flush
    rw [List.foldl_cons, ih, hvisit, flush_eq_self hclosed]
    simp [CssState.emit]

/-- And the ones that are found first come first. -/
theorem importSections_eq (s : Sheet) :
    importSections reImport stem s.text = (s.imports.map Prod.snd).map (Import.section stem) := by
  refine map_of_forall₂ (fun i m hm => ?_) (finditer_reImport s)
  rw [hm.2]
  rfl

theorem mem_sectionChunks {c : String × String × Nat × String} {sections : List Section} :
    c ∈ sectionChunks sections ↔
      ∃ s ∈ sections, c ∈ (Chunking.emit s.content).map fun w => (s.kind, s.entity, w.1, w.2) :=
  List.mem_flatMap

theorem sectionChunks_orRaw_comm (src : List Char) (front behind : List Section)
    (c : String × String × Nat × String) :
    c ∈ sectionChunks (orRaw stem src (front ++ behind)) ↔
      c ∈ sectionChunks (orRaw stem src (behind ++ front)) := by
  unfold orRaw
  simp only [List.append_eq_nil_iff, and_comm (a := behind = [])]
  split
  · rfl
  · simp only [mem_sectionChunks, List.mem_append, or_comm]

/-- **The same set of chunks.** -/
theorem chunks_agree (laws : AlnumLaws isAlnum) {root : Node} {sheet : Sheet}
    (h : PlainSource isAlnum source root sheet) (filePath : String) (c : String × String × Nat × String) :
    c ∈ sectionChunks (parseCssTreesitter source root filePath) ↔
      c ∈ sectionChunks (parseCssRegex isAlnum (PyText.decode source) filePath) := by
  obtain ⟨blocks, imports, hvisited, hblocks, himports⟩ := h.nodes
  have hshift : ∀ stem, Shifted ((sheet.imports.map Prod.snd).map (Import.section stem))
      (blocks.foldl (visit source stem) {})
      (((reRule isAlnum).finditer sheet.text).foldl (visitRule isAlnum stem)
        { sections := (sheet.imports.map Prod.snd).map (Import.section stem) }) := fun stem =>
    foldl_visit laws hblocks (finditer_reRule sheet) h.apart ⟨(List.append_nil _).symm, rfl⟩
      fun hne => absurd rfl hne
  unfold parseCssTreesitter parseCssRegex
  dsimp only
  rw [foldl_visited visit_other, hvisited, List.foldl_append, foldl_visit_imports himports, h.text,
    importSections_eq, (hshift _).flush.1]
  exact (sectionChunks_orRaw_comm _ _ _ c).symm

/-! ## The same counts -/

/-- What a construct adds to the counts. -/
def Construct.counted (isAlnum : Char → Bool) (info : StylesheetInfo) : Construct → StylesheetInfo
  | rule r =>
      { info with
        selectorCount := info.selectorCount + 1
        variableCount := info.variableCount + ((reVarDecl isAlnum).finditer r.text).length }
  | media _ => info

theorem count_construct (laws : AlnumLaws isAlnum) {c : Construct} (info : StylesheetInfo)
    (h : ConstructNode isAlnum source c node) : count source info node = c.counted isAlnum info := by
  cases c with
  | rule r =>
    have hnode : RuleNode isAlnum source r node := h
    have hvar : ((node.children.reverse.find? fun c => c.type = "block").map (varDecls source)).getD 0 =
      ((reVarDecl isAlnum).finditer r.text).length := hnode.variables laws
    rw [count, if_neg (by rw [hnode.type]; decide), if_pos hnode.type, hvar]
    rfl
  | media d =>
    have hnode : MediaNode source d node := h
    rw [count, if_neg (by rw [hnode.type]; decide), if_neg (by rw [hnode.type]; decide)]
    rfl

theorem countRule_construct {c : Construct} (info : StylesheetInfo) (h : FoundAs c m) :
    countRule isAlnum info m = c.counted isAlnum info := by
  obtain ⟨hheader, hblock⟩ := h
  unfold countRule
  dsimp only
  rw [hheader, hblock]
  cases c with
  | rule r => exact if_neg r.noKeyword.2.2
  | media d => exact if_pos rfl

/-- The imports are counted apart from the rest. -/
theorem foldl_counted_imports (cs : List Construct) (info : StylesheetInfo) (n : Nat)
    (imports : List String) :
    cs.foldl (Construct.counted isAlnum) { info with importCount := n, imports } =
      { cs.foldl (Construct.counted isAlnum) info with importCount := n, imports } := by
  induction cs generalizing info with
  | nil => rfl
  | cons c cs ih =>
    rw [List.foldl_cons, List.foldl_cons, ← ih]
    cases c <;> rfl

def Import.name (i : Import) : String := String.ofList i.path

theorem stripQuotes_path (i : Import) : stripQuotes (i.quote :: (i.path ++ [i.quote])) = i.path := by
  have hkeep : ∀ cs rest : List Char, cs ≠ [] → (∀ c ∈ cs, c ∈ i.path) →
      (cs ++ rest).dropWhile (fun c => c == '"' || c == '\'') = cs ++ rest := by
    intro cs rest hne hcs
    obtain ⟨c, cs, rfl⟩ := List.exists_cons_of_ne_nil hne
    have hc := i.unquoted c (hcs c List.mem_cons_self)
    rw [List.cons_append, List.dropWhile_cons_of_neg (by simp [hc])]
  have hquote : (i.quote == '"' || i.quote == '\'') = true := by
    rcases i.isQuote with h | h <;> rw [h] <;> rfl
  have hback := hkeep i.path.reverse [] (by simpa using i.path_ne) (by simp)
  rw [List.append_nil] at hback
  unfold stripQuotes
  dsimp only
  rw [List.dropWhile_cons, if_pos hquote, hkeep i.path _ i.path_ne (fun c hc => hc), List.reverse_append,
    List.reverse_singleton, List.singleton_append, List.dropWhile_cons, if_pos hquote, hback,
    List.reverse_reverse]

theorem foldl_count_imports {imports : List Import} {nodes : List Node}
    (h : List.Forall₂ (ImportNode source) imports nodes) (info : StylesheetInfo) :
    nodes.foldl (count source) info =
      { info with
        importCount := info.importCount + imports.length
        imports := info.imports ++ imports.map Import.name } := by
  induction h generalizing info with
  | nil => simp
  | @cons i node imports nodes hnode _ ih =>
    obtain ⟨child, hchild, htext⟩ := Option.map_eq_some_iff.mp hnode.path
    have hpath : importPath source node = some i.name := by
      rw [importPath, hchild, Option.map_some, htext, stripQuotes_path]
      rfl
    have hcount : count source info node =
        { info with importCount := info.importCount + 1, imports := info.imports ++ [i.name] } := by
      rw [count, if_pos hnode.type, hpath]
      rfl
    rw [List.foldl_cons, ih, hcount]
    simp [Nat.add_comm, Nat.add_left_comm]

theorem finditer_imports (s : Sheet) :
    (reImport.finditer s.text).map (fun m => String.ofList m.group) =
      (s.imports.map Prod.snd).map Import.name := by
  refine map_of_forall₂ (fun i m hm => ?_) (finditer_reImport s)
  rw [hm.1]
  rfl

theorem count_other (info : StylesheetInfo) (node : Node) (h : isVisited node = false) :
    count source info node = info := by
  simp only [isVisited, Bool.or_eq_false_iff, decide_eq_false_iff_not] at h
  rw [count, if_neg h.1.1, if_neg h.2]

/-- **The same info.** -/
theorem infos_agree (laws : AlnumLaws isAlnum) {root : Node} {sheet : Sheet}
    (h : PlainSource isAlnum source root sheet) (f : SheetFile) :
    cssTreesitterInfo source root f = cssRegexInfo isAlnum (PyText.decode source) f := by
  obtain ⟨blocks, imports, hvisited, hblocks, himports⟩ := h.nodes
  have hcount : ∀ info c node, ConstructNode isAlnum source c node →
      count source info node = Construct.counted isAlnum info c := fun info _ _ => count_construct laws info
  have hcountRule : ∀ info c m, FoundAs c m →
      countRule isAlnum info m = Construct.counted isAlnum info c := fun info _ _ => countRule_construct info
  have hkept : sheet.constructs.foldl (Construct.counted isAlnum) f.emptyInfo = _ :=
    foldl_counted_imports sheet.constructs f.emptyInfo 0 []
  have hnone := congrArg StylesheetInfo.importCount hkept
  have hempty := congrArg StylesheetInfo.imports hkept
  unfold cssTreesitterInfo cssRegexInfo
  dsimp only at hnone hempty ⊢
  rw [foldl_visited count_other, hvisited, List.foldl_append, foldl_of_forall₂ hcount hblocks,
    foldl_count_imports himports, h.text, finditer_imports,
    foldl_of_forall₂ hcountRule (finditer_reRule sheet), hnone, hempty, Nat.zero_add, List.nil_append]
  refine Eq.trans ?_ (foldl_counted_imports _ _ _ _).symm
  rw [List.length_map Import.name]

def ascii (text : String) : List UInt8 := text.toList.map fun c => UInt8.ofNat c.toNat

def sheetFile (source : List UInt8) : SheetFile :=
  ⟨.css, "sale/static/src/css/sale.css", "sale", "17.0", some source⟩

theorem alnumLaws_ascii : AlnumLaws Char.isAlphanum where
  blank c h := by
    refine Bool.eq_false_iff.mpr fun halnum => ?_
    rw [PyText.isSpace_of_isAlphanum halnum] at h
    exact absurd h (by decide)
  colon := by decide

theorem Loose.of_noHyphen {isAlnum : Char → Bool} {text : List Char} (h : '-' ∉ text)
    (hends : ∀ c, text.getLast? = some c → nameChar isAlnum c = false) : Loose isAlnum text where
  none q hq := by
    rintro ⟨_, _, _, rfl, -⟩
    exact h (hq.subset List.mem_cons_self)
  ends := hends

def selectorA : Header where
  text := ['a']
  plain := by simp
  first := ⟨'a', rfl, by decide⟩
  last := ⟨'a', rfl, by decide⟩

def declX : Decl Char.isAlphanum where
  name := ['-', '-', 'x']
  gap := ⟨[], by simp⟩
  value := [' ', '1', ';']
  behind := ['\x7d']
  name_ne := by simp
  named := by simp [nameChar]
  hyphens := .inl ⟨'x', [], rfl⟩
  loose := .of_noHyphen (by simp) (by simp [nameChar])

def ruleA : Rule where
  selectors := selectorA
  body := ['-', '-', 'x', ':', ' ', '1', ';']
  noAt := by simp [selectorA]
  short := by simp [selectorA]
  plain := by simp

theorem declared_ruleA : Declared ruleA [declX] where
  body := ⟨[], rfl, .of_noHyphen (by simp [ruleA, selectorA]) (by simp [ruleA, selectorA, nameChar])⟩
  colons := fun _ _ => by decide

def importB : Import where
  space := ⟨[' '], by simp [PyText.isSpace]⟩
  quote := '"'
  path := ['b', '.', 'c', 's', 's']
  ending := [';']
  space_ne := by simp
  isQuote := .inl rfl
  path_ne := by simp
  unquoted := by simp
  oneLine := by simp
  noBlock := by simp
  ends := ⟨';', rfl, by decide⟩

def plainSheet : Sheet where
  blocks := [.rule ⟨[], by simp⟩ ruleA]
  imports := [(⟨['\n'], by simp [PyText.isSpace]⟩, importB)]
  rest := []
  fresh := ⟨.inr (by simp), trivial⟩
  noBlock := by simp
  lineEnds := by simp

/-- A block with a custom property, and an import. -/
def plainSource : List UInt8 := ascii "a \x7b--x: 1;\x7d\n@import \"b.css\";"

def plainTree : Node :=
  .mk "stylesheet" 0 28 [
    .mk "rule_set" 0 11 [.mk "selectors" 0 1 [], .mk "block" 2 11 [.mk "declaration" 3 10 []]],
    .mk "import_statement" 12 28 [.mk "string_value" 20 27 []]]

theorem plainSource_plainSheet : PlainSource Char.isAlphanum plainSource plainTree plainSheet where
  text := by decide
  nodes := by
    have hrule : RuleNode Char.isAlphanum plainSource ruleA
        (.mk "rule_set" 0 11 [.mk "selectors" 0 1 [], .mk "block" 2 11 [.mk "declaration" 3 10 []]]) :=
      ⟨rfl, by decide, by decide, _, [declX], rfl, declared_ruleA, by decide⟩
    have himport : ImportNode plainSource importB
        (.mk "import_statement" 12 28 [.mk "string_value" 20 27 []]) :=
      ⟨rfl, by decide, by decide⟩
    exact ⟨_, _, rfl, .cons hrule .nil, .cons himport .nil⟩
  apart := List.isChain_singleton _

def importFirst : List UInt8 := ascii "@import \"x.css\";\na \x7bcolor: red\x7d"

def importFirstTree : Node :=
  .mk "stylesheet" 0 31 [
    .mk "import_statement" 0 16 [.mk "string_value" 8 15 []],
    .mk "rule_set" 17 31 [.mk "selectors" 17 18 [], .mk "block" 19 31 [.mk "declaration" 20 30 []]]]

end PlainSheets
end OdooSemantic
