import OdooSemantic.Mcp.Listings
import OdooSemantic.Mcp.TreeBuilder
import OdooSemantic.Proof.Refs

/-!
# What can be read from an answer

`TreeNode.render` loses nothing: where no label goes over more than one line, the tree can be read
back from the text (`readTree_render`). The listings do not use it. They put their lines together
one by one, with `render_list_block` for the rows of a group; `listing_text_eq_render` says that
what comes of it is the text of a tree all the same, and which tree that is.

It holds as long as there is a next step to end the answer with. A page of methods behind the last
one has none, and ends with a line that announces another.
-/

namespace OdooSemantic

/-! ## Reading -/

/-- A line: four characters for each ancestor but the root, the connector, and the label. -/
def readLine : List Char → Option (Nat × String)
  | '│' :: ' ' :: ' ' :: ' ' :: rest => (readLine rest).map fun line => (line.1 + 1, line.2)
  | ' ' :: ' ' :: ' ' :: ' ' :: rest => (readLine rest).map fun line => (line.1 + 1, line.2)
  | '├' :: '─' :: ' ' :: label => some (0, String.ofList label)
  | '└' :: '─' :: ' ' :: label => some (0, String.ofList label)
  | _ => none

/-- The tree of a text. The first line is the label of the root. -/
def readTree (text : String) : Option (Outline String) :=
  match text.toList.splitOn '\n' with
  | [] => none
  | label :: lines =>
      (lines.mapM readLine).map fun lines => .node (String.ofList label) (Outline.ofLines lines)

/-! ## Writing -/

namespace TreeNode

mutual

/-- A node that is not the root. -/
def ofOutline : Outline String → TreeNode
  | .node label children => node label (ofOutlines children) false

def ofOutlines : List (Outline String) → List TreeNode
  | [] => []
  | tree :: trees => ofOutline tree :: ofOutlines trees

end

/-- `TreeNode(label, children=…, is_root=True)` -/
def root : Outline String → TreeNode
  | .node label children => node label (ofOutlines children) true

end TreeNode

open TreeNode

/-- What stands to the left of the nodes at a depth. -/
def Indents (indent : String) (depth : Nat) : Prop :=
  ∀ rest, readLine (indent.toList ++ rest) =
    (readLine rest).map fun line => (line.1 + depth, line.2)

theorem indents_empty : Indents "" 0 := by
  intro rest
  show readLine rest = _
  cases readLine rest <;> rfl

theorem Indents.continuation {indent : String} {depth : Nat} (h : Indents indent depth)
    (isLast : Bool) : Indents (indent ++ continuation isLast) (depth + 1) := by
  intro rest
  rw [String.toList_append, List.append_assoc, h]
  have hstep : readLine ((TreeNode.continuation isLast).toList ++ rest) =
      (readLine rest).map fun line => (line.1 + 1, line.2) := by
    cases isLast <;> rfl
  rw [hstep, Option.map_map]
  congr 1
  funext line
  simp [Nat.add_right_comm, Nat.add_assoc]

theorem readLine_line {indent : String} {depth : Nat} (h : Indents indent depth) (isLast : Bool)
    (label : String) :
    readLine (indent ++ connector isLast ++ " " ++ label).toList = some (depth, label) := by
  have hline : readLine ((connector isLast ++ " " ++ label).toList) = some (0, label) := by
    rw [String.toList_append, String.toList_append]
    cases isLast
    · show some (0, String.ofList label.toList) = _
      rw [String.ofList_toList]
    · show some (0, String.ofList label.toList) = _
      rw [String.ofList_toList]
  have hassoc : indent ++ connector isLast ++ " " ++ label =
      indent ++ (connector isLast ++ " " ++ label) := by
    simp only [String.append_assoc]
  rw [hassoc, String.toList_append, h, hline, Option.map_some, Nat.zero_add]

mutual

/-- **Each line is read as the node it was written for.** -/
theorem map_readLine_renderInto {indent : String} {depth : Nat} (h : Indents indent depth)
    (isLast : Bool) : ∀ t : Outline String,
      ((ofOutline t).renderInto indent isLast).map (fun line => readLine line.toList) =
        (t.lines depth).map some
  | .node label children => by
    have hchildren := map_readLine_renderChildren (h.continuation isLast) children
    rw [ofOutline, renderInto, if_neg Bool.false_ne_true, List.map_cons, hchildren,
      readLine_line h, Outline.lines, List.map_cons]

theorem map_readLine_renderChildren {indent : String} {depth : Nat} (h : Indents indent depth) :
    ∀ ts : List (Outline String),
      (renderChildren indent (ofOutlines ts)).map (fun line => readLine line.toList) =
        (Outline.forestLines depth ts).map some
  | [] => rfl
  | t :: ts => by
    rw [ofOutlines, renderChildren, List.map_append, map_readLine_renderInto h _ t,
      map_readLine_renderChildren h ts, Outline.forestLines, List.map_append]

end

theorem mapM_eq_some_of_map {A B : Type} {f : A → Option B} {as : List A} {bs : List B}
    (h : as.map f = bs.map some) : as.mapM f = some bs := by
  induction as generalizing bs with
  | nil =>
    obtain rfl := List.map_eq_nil_iff.mp h.symm
    rfl
  | cons a as ih =>
    cases bs with
    | nil => exact absurd h (by simp)
    | cons b bs =>
      obtain ⟨hhead, htail⟩ := List.cons.inj h
      rw [List.mapM_cons, hhead, ih htail]
      rfl

/-- None of the labels goes over more than one line. -/
def OneLiners (lines : List (Nat × String)) : Prop := ∀ line ∈ lines, '\n' ∉ line.2.toList

theorem newline_notMem_line {indent label : String} (hindent : '\n' ∉ indent.toList)
    (hlabel : '\n' ∉ label.toList) (isLast : Bool) :
    '\n' ∉ (indent ++ connector isLast ++ " " ++ label).toList := by
  have hconnector : '\n' ∉ (connector isLast).toList := by cases isLast <;> decide
  simp [hindent, hlabel, hconnector]

theorem newline_notMem_continuation {indent : String} (hindent : '\n' ∉ indent.toList)
    (isLast : Bool) : '\n' ∉ (indent ++ continuation isLast).toList := by
  have hcontinuation : '\n' ∉ (continuation isLast).toList := by cases isLast <;> decide
  simp [hindent, hcontinuation]

mutual

theorem newline_notMem_renderInto {indent : String} (hindent : '\n' ∉ indent.toList)
    (isLast : Bool) (depth : Nat) : ∀ t : Outline String, OneLiners (t.lines depth) →
      ∀ line ∈ (ofOutline t).renderInto indent isLast, '\n' ∉ line.toList
  | .node label children, hlabels, line, hline => by
    rw [Outline.lines] at hlabels
    rw [ofOutline, renderInto, if_neg Bool.false_ne_true] at hline
    cases List.mem_cons.mp hline with
    | inl heq =>
      rw [heq]
      exact newline_notMem_line hindent (hlabels _ List.mem_cons_self) isLast
    | inr hmem =>
      exact newline_notMem_renderChildren (newline_notMem_continuation hindent isLast) (depth + 1)
        children (fun l hl => hlabels l (List.mem_cons_of_mem _ hl)) line hmem

theorem newline_notMem_renderChildren {indent : String} (hindent : '\n' ∉ indent.toList)
    (depth : Nat) : ∀ ts : List (Outline String), OneLiners (Outline.forestLines depth ts) →
      ∀ line ∈ renderChildren indent (ofOutlines ts), '\n' ∉ line.toList
  | [], _, _, hline => absurd hline List.not_mem_nil
  | t :: ts, hlabels, line, hline => by
    rw [Outline.forestLines] at hlabels
    rw [ofOutlines, renderChildren] at hline
    cases List.mem_append.mp hline with
    | inl hmem =>
      exact newline_notMem_renderInto hindent _ depth t
        (fun l hl => hlabels l (List.mem_append_left _ hl)) line hmem
    | inr hmem =>
      exact newline_notMem_renderChildren hindent depth ts
        (fun l hl => hlabels l (List.mem_append_right _ hl)) line hmem

end

/-- Lines that are put together are taken apart again. -/
theorem splitOn_intercalate_lines {lines : List String} (hne : lines ≠ [])
    (h : ∀ line ∈ lines, '\n' ∉ line.toList) :
    ("\n".intercalate lines).toList.splitOn '\n' = lines.map String.toList := by
  rw [String.toList_intercalate]
  apply List.splitOn_intercalate
  · intro cs hcs
    obtain ⟨line, hline, rfl⟩ := List.mem_map.mp hcs
    exact h line hline
  · intro hnil
    exact hne (List.map_eq_nil_iff.mp hnil)

/-- **The tree is in its text.** -/
theorem readTree_render (t : Outline String) (h : OneLiners (t.lines 0)) :
    readTree (TreeNode.root t).render = some t := by
  obtain ⟨label, children⟩ := t
  rw [Outline.lines] at h
  have hlines : (TreeNode.root (.node label children)).renderInto "" true =
      label :: renderChildren "" (ofOutlines children) := by
    rw [TreeNode.root, renderInto, if_pos rfl]
  have hnewline : ∀ line ∈ label :: renderChildren "" (ofOutlines children),
      '\n' ∉ line.toList := by
    intro line hline
    cases List.mem_cons.mp hline with
    | inl heq => exact heq ▸ h _ List.mem_cons_self
    | inr hmem =>
      exact newline_notMem_renderChildren (by simp) 1 children
        (fun l hl => h l (List.mem_cons_of_mem _ hl)) line hmem
  have hread : ((renderChildren "" (ofOutlines children)).map String.toList).mapM readLine =
      some (Outline.forestLines 0 children) := by
    apply mapM_eq_some_of_map
    rw [List.map_map]
    exact map_readLine_renderChildren indents_empty children
  unfold readTree
  rw [TreeNode.render, hlines, splitOn_intercalate_lines (List.cons_ne_nil _ _) hnewline,
    List.map_cons]
  dsimp only
  rw [hread, Option.map_some, String.ofList_toList, Outline.ofLines_forestLines]

/-- The tree of the module's own docstring. -/
theorem readTree_render_saleOrder :
    readTree (TreeNode.root (.node "sale.order (Odoo 17.0)"
        [.leaf "Defined in:     [odoo_17.0] sale",
          .node "Extended by:" [.leaf "[odoo_17.0] sale_stock", .leaf "[acme_17.0] viin_sale"],
          .leaf "Methods:        58"])).render =
      some (.node "sale.order (Odoo 17.0)"
        [.leaf "Defined in:     [odoo_17.0] sale",
          .node "Extended by:" [.leaf "[odoo_17.0] sale_stock", .leaf "[acme_17.0] viin_sale"],
          .leaf "Methods:        58"]) :=
  readTree_render _ (by unfold OneLiners; decide)

/-! ## The listings -/

theorem renderInto_leaf (indent : String) (isLast : Bool) (label : String) :
    (ofOutline (.leaf label)).renderInto indent isLast =
      [indent ++ connector isLast ++ " " ++ label] := by
  rw [Outline.leaf, ofOutline, renderInto, if_neg Bool.false_ne_true, ofOutlines, renderChildren]

/-- The last of the children, and those before it. -/
theorem renderChildren_concat (indent : String) (ts : List (Outline String)) (t : Outline String) :
    renderChildren indent (ofOutlines (ts ++ [t])) =
      ts.flatMap (fun u => (ofOutline u).renderInto indent false) ++
        (ofOutline t).renderInto indent true := by
  induction ts with
  | nil =>
    show (ofOutline t).renderInto indent true ++ [] = _
    rw [List.append_nil]
    rfl
  | cons u us ih =>
    have hrest : (ofOutlines (us ++ [t])).isEmpty = false := by
      cases us <;> rfl
    rw [List.cons_append, ofOutlines, renderChildren, hrest, ih, List.flatMap_cons,
      List.append_assoc]

/-- `render_list_block` writes leaves. -/
theorem renderListBlock_eq (rows : List String) :
    renderListBlock rows = renderChildren "│   " (ofOutlines (rows.map .leaf)) := by
  cases h : rows.reverse with
  | nil =>
    obtain rfl := List.reverse_eq_nil_iff.mp h
    rfl
  | cons last init =>
    obtain rfl : rows = init.reverse ++ [last] := by
      rw [← List.reverse_reverse rows, h, List.reverse_cons]
    rw [List.map_append, List.map_singleton, renderChildren_concat, renderInto_leaf]
    unfold renderListBlock
    rw [List.mapIdx_append, List.flatMap_map]
    congr 1
    · simp only [renderInto_leaf, List.length_append, List.length_singleton]
      rw [← List.map_eq_flatMap]
      apply List.ext_getElem
      · simp
      · intro i hi hi'
        rw [List.getElem_mapIdx, List.getElem_map]
        have hne : ¬i + 1 = init.reverse.length + 1 := by
          rw [List.length_mapIdx] at hi
          omega
        rw [if_neg hne]
        rfl
    · simp
      rfl

namespace Listing

variable (l : Listing)

/-- The rows of a group, as they are shown. -/
def shown (limit : Int) (mod : String) (rows : List (ListedRow × String)) : List String :=
  tagRefs (renderCapped (rows.map (·.1)) l.format l.cap (l.moreHint mod (max (limit * 2) l.total)))
    (rows.map (·.2))

/-- A tree for each repo and module, or one for each row. -/
def rowOutlines (limit : Int) (rows : List (ListedRow × String)) : List (Outline String) :=
  if l.grouped then
    (groupRows rows).map fun g =>
      .node s!"[{g.1.1}] {g.1.2}" ((l.shown limit g.1.2 g.2).map .leaf)
  else (l.shown limit "" rows).map .leaf

def builtinOutlines : List (Outline String) :=
  if l.builtin = [] then [] else [.node "[?] <builtin>" (l.builtin.map .leaf)]

/-- Where the page stands. -/
def positionOutlines (startIndex endIndex : Nat) : List (Outline String) :=
  if endIndex < l.total then
    let printed := (l.printed endIndex).text
    let behind := min l.cap (l.total - endIndex)
    [.leaf s!"Showing rows {startIndex + 1}–{endIndex} of {l.total}. Call {printed} for next {behind}."]
  else if 0 < startIndex then
    [.leaf s!"Showing rows {startIndex + 1}–{endIndex} of {l.total} (last page)."]
  else []

def nextStepOutline (hints : List String) : Outline String :=
  .leaf ("Next: " ++ " | ".intercalate (hints.take 2))

/-- The hints for a page with these rows. -/
def pageHints (rows : List (ListedRow × String)) : List String :=
  l.hints ((rows.head?.map (·.1)).filter (·.name ≠ ""))

/-- **What a page shows.** -/
def pageOutline (limit : Int) (startIndex : Nat) (rows : List (ListedRow × String)) :
    Outline String :=
  .node l.header (l.builtinOutlines ++ l.notices.map .leaf ++ l.rowOutlines limit rows ++
    l.positionOutlines startIndex (startIndex + rows.length) ++ [nextStepOutline (l.pageHints rows)])

/-- … where there is nothing to show. -/
def emptyOutline : Outline String :=
  .node l.header (l.builtinOutlines ++ l.notices.map .leaf ++
    (if l.builtin = [] then [.leaf "(none)"] else []) ++ [nextStepOutline l.emptyHints])

/-- The lines of trees with something behind them. -/
def flatLines (ts : List (Outline String)) : List String :=
  ts.flatMap fun t => (ofOutline t).renderInto "" false

theorem flatLines_append (ts us : List (Outline String)) :
    flatLines (ts ++ us) = flatLines ts ++ flatLines us :=
  List.flatMap_append

theorem flatLines_leaves (rows : List String) :
    flatLines (rows.map .leaf) = rows.map fun row => s!"├─ {row}" := by
  unfold flatLines
  rw [List.flatMap_map, List.map_eq_flatMap]
  rfl

theorem renderInto_group (label : String) (rows : List String) :
    (ofOutline (.node label (rows.map .leaf))).renderInto "" false =
      s!"├─ {label}" :: renderListBlock rows := by
  rw [ofOutline, renderInto, if_neg Bool.false_ne_true, renderListBlock_eq]
  rfl

theorem builtinLines_eq : l.builtinLines = flatLines l.builtinOutlines := by
  unfold builtinLines builtinOutlines
  split
  · rfl
  · rw [flatLines, List.flatMap_singleton, renderInto_group]
    rfl

theorem noticeLines_eq : l.noticeLines = flatLines (l.notices.map .leaf) :=
  (flatLines_leaves l.notices).symm

theorem rowLines_eq (limit : Int) (rows : List (ListedRow × String)) :
    l.rowLines limit rows = flatLines (l.rowOutlines limit rows) := by
  unfold rowLines rowOutlines
  split
  · rename_i hgrouped
    rw [flatLines, List.flatMap_map]
    congr 1
    funext g
    rw [renderInto_group, groupLines, if_pos hgrouped]
    rfl
  · rename_i hflat
    rw [flatLines_leaves, groupLines, if_neg hflat]
    rfl

theorem positionLines_eq (startIndex endIndex : Nat) :
    l.positionLines startIndex endIndex = flatLines (l.positionOutlines startIndex endIndex) := by
  unfold positionLines positionOutlines
  split
  · rw [flatLines, List.flatMap_singleton, renderInto_leaf]
    rfl
  · split
    · rw [flatLines, List.flatMap_singleton, renderInto_leaf]
      rfl
    · rfl

theorem formatNextStep_eq {hints : List String} (h : hints ≠ []) :
    formatNextStep hints = "└─ Next: " ++ " | ".intercalate (hints.take 2) :=
  if_neg h

/-- The next step is the last child. -/
theorem renderInto_nextStep {hints : List String} (h : hints ≠ []) :
    (ofOutline (nextStepOutline hints)).renderInto "" true = [formatNextStep hints] := by
  rw [nextStepOutline, renderInto_leaf, formatNextStep_eq h]
  rfl

/-- A header, lines, and the next step. -/
theorem render_root (header : String) (ts : List (Outline String)) {hints : List String}
    (h : hints ≠ []) :
    (TreeNode.root (.node header (ts ++ [nextStepOutline hints]))).render =
      "\n".intercalate (header :: flatLines ts ++ [formatNextStep hints]) := by
  rw [TreeNode.render, TreeNode.root, renderInto, if_pos rfl, renderChildren_concat,
    renderInto_nextStep h]
  rfl

theorem formatNextStep_ne_empty {hints : List String} (h : hints ≠ []) :
    formatNextStep hints ≠ "" := by
  rw [formatNextStep_eq h]
  intro hempty
  have hlist := congrArg String.toList hempty
  rw [String.toList_append] at hlist
  exact absurd hlist (by simp)

theorem pageText_eq {limit : Int} {startIndex : Nat} {rows : List (ListedRow × String)}
    (h : l.pageHints rows ≠ []) :
    l.pageText limit startIndex rows =
      (TreeNode.root (l.pageOutline limit startIndex rows)).render := by
  rw [pageOutline, render_root _ _ h]
  simp only [flatLines_append, ← builtinLines_eq, ← noticeLines_eq, ← rowLines_eq,
    ← positionLines_eq, List.cons_append]
  show "\n".intercalate (_ :: _ ++ if formatNextStep (l.pageHints rows) = "" then [] else
    [formatNextStep (l.pageHints rows)]) = _
  rw [if_neg (formatNextStep_ne_empty h)]
  rfl

theorem emptyText_eq (h : l.emptyHints ≠ []) :
    l.emptyText = (TreeNode.root l.emptyOutline).render := by
  have hnone : flatLines (if l.builtin = [] then [.leaf "(none)"] else []) =
      if l.builtin = [] then ["├─ (none)"] else [] := by
    split
    · exact flatLines_leaves ["(none)"]
    · rfl
  rw [emptyOutline, render_root _ _ h]
  simp only [flatLines_append, ← builtinLines_eq, ← noticeLines_eq, hnone]
  rfl

end Listing

section Calls

variable {g : Graph} {v : String} {call : InspectCall} {l : Listing}

/-- Whatever the listing, an answer with nothing in it has a next step; and so has every page, but
    for a page of methods. -/
theorem hints_of_listing (hl : call.listing g v = some l) : l.emptyHints ≠ [] ∧
    ∀ first, (call.method = "methods" → ∃ r, first = some r) → l.hints first ≠ [] := by
  cases call with
  | model args =>
    simp only [InspectCall.listing, ModelInspect.listing] at hl
    split at hl
    · obtain rfl := Option.some.inj hl
      exact ⟨List.cons_ne_nil _ _, fun first _ => by simp [Graph.listFields]⟩
    · split at hl
      · rename_i hmethod
        obtain rfl := Option.some.inj hl
        refine ⟨List.cons_ne_nil _ _, fun first hfirst => ?_⟩
        obtain ⟨r, rfl⟩ := hfirst hmethod
        exact List.cons_ne_nil _ _
      · split at hl
        · obtain rfl := Option.some.inj hl
          exact ⟨List.cons_ne_nil _ _,
            fun first _ => by simp [Graph.listViews, Graph.listViewsCore]⟩
        · exact absurd hl (by simp)
  | module args =>
    simp only [InspectCall.listing, ModuleInspect.listing] at hl
    split at hl
    · obtain rfl := Option.some.inj hl
      exact ⟨List.cons_ne_nil _ _,
        fun first _ => by simp [Graph.listViewsByModule, Graph.listViewsCore]⟩
    · split at hl
      · obtain rfl := Option.some.inj hl
        exact ⟨List.cons_ne_nil _ _, fun _ _ => List.cons_ne_nil _ _⟩
      · split at hl
        · obtain rfl := Option.some.inj hl
          exact ⟨List.cons_ne_nil _ _, fun _ _ => List.cons_ne_nil _ _⟩
        · split at hl
          · obtain rfl := Option.some.inj hl
            refine ⟨?_, fun _ _ => ?_⟩
            · show (if args.name = "" then _ else _) ≠ []
              split <;> exact List.cons_ne_nil _ _
            · show (if args.name = "" then _ else _) ≠ []
              split <;> exact List.cons_ne_nil _ _
          · exact absurd hl (by simp)

/-- **The text of a page is the text of a tree**, with the rows of the page in it. -/
theorem listing_text_eq_render (hl : call.listing g v = some l) (hrefusal : l.refusal = none)
    (e : ListingExec) {limit start : Int} {p : ListingPage} {minter : RefMinter String}
    (hpage : l.page e limit start = .ok (p, minter))
    (hfirst : call.method = "methods" → l.total ≠ 0 →
      ∃ r ∈ (e.order.page l.rows (l.effectiveLimit limit).toNat start.toNat).head?, r.name ≠ "") :
    ∃ rows : List (ListedRow × String), p.rows = l.rowsShown rows ∧
      rows.map (·.1) = (if l.total = 0 then [] else
        e.order.page l.rows (l.effectiveLimit limit).toNat start.toNat) ∧
      p.text = (TreeNode.root (if l.total = 0 then l.emptyOutline else
        l.pageOutline limit start.toNat rows)).render := by
  obtain ⟨hempty, hhints⟩ := hints_of_listing hl
  simp only [Listing.page, hrefusal] at hpage
  split at hpage
  · exact absurd hpage (by simp)
  · split at hpage
    · rename_i htotal
      obtain ⟨rfl, -⟩ := Prod.mk.inj (Except.ok.inj hpage)
      refine ⟨[], ?_, ?_, ?_⟩
      · unfold Listing.rowsShown
        split
        · rfl
        · exact List.take_nil.symm
      · rw [if_pos htotal, List.map_nil]
      · rw [if_pos htotal]
        exact l.emptyText_eq hempty
    · rename_i htotal
      split at hpage
      · exact absurd hpage (by simp)
      · rename_i refs minter' hmint
        obtain ⟨rfl, -⟩ := Prod.mk.inj (Except.ok.inj hpage)
        have hlength : refs.length =
            (e.order.page l.rows (l.effectiveLimit limit).toNat start.toNat).length := by
          rw [TenantStore.length_mintItems (congrArg Prod.fst hmint), Listing.refItems,
            List.length_mapIdx]
        have hzip := List.map_fst_zip (Nat.le_of_eq hlength.symm)
        refine ⟨_, rfl, by rw [if_neg htotal, hzip], ?_⟩
        rw [if_neg htotal]
        apply l.pageText_eq
        apply hhints
        intro hmethod
        obtain ⟨r, hr, hname⟩ := hfirst hmethod htotal
        refine ⟨r, ?_⟩
        rw [← List.head?_map, hzip, Option.mem_def.mp hr, Option.filter_some]
        exact if_pos (by simpa using hname)

end Calls

namespace TwoMethods

def method (name : String) : MemberKey × MethodProps :=
  (⟨name, "sale.order", "sale", "17.0"⟩,
    { hasSuperCall := true, decorators := [], conventionKind := "action", superSafety := "safe",
      returnRequired := true, signature := none, depends := [], profile := none })

def graph : Graph where
  modules := AList.singleton ⟨"sale", "17.0"⟩ { repo := some "odoo_17.0", edition := some "community" }
  methods := [method "action_confirm", method "action_cancel"].foldl (fun s m => s.insert m.1 m.2) ∅

def call : InspectCall :=
  .model { model := "sale.order", method := "methods", odooVersion := "17.0", limit := 1 }

def exec : ListingExec where
  order := .byTie _ fun _ => 0
  py := ⟨some, fun _ => 0⟩
  oid _ := 0
  ttl := 0
  now := 0
  minter := {}
  apiKeyId := ""

def listing : Listing := graph.listMethods "sale.order" "17.0" none none

/-- The first row of it. -/
def first : ListedRow where
  name := "action_cancel"
  kind := some "action"
  module := "sale"
  repo := some "odoo_17.0"
  modName := some "sale"

/-- The first page. -/
def page : ListingPage :=
  match listing.page exec 1 0 with
  | .ok answer => answer.1
  | .error _ => { text := "" }

theorem listing_text_eq_render_methods : ∃ rows : List (ListedRow × String),
    page.rows = listing.rowsShown rows ∧
      rows.map (·.1) = (if listing.total = 0 then [] else
        exec.order.page listing.rows (listing.effectiveLimit 1).toNat 0) ∧
      page.text = (TreeNode.root (if listing.total = 0 then listing.emptyOutline else
        listing.pageOutline 1 0 rows)).render := by
  have hl : call.listing graph "17.0" = some listing := rfl
  obtain ⟨minter, hpage⟩ : ∃ minter, listing.page exec 1 0 = .ok (page, minter) := ⟨_, rfl⟩
  refine listing_text_eq_render hl rfl exec hpage fun _ _ => ⟨first, rfl, ?_⟩
  simp [first]

end TwoMethods

end OdooSemantic
