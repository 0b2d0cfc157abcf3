import OdooSemantic.Proof.PlainSheets

/-!
# The imports of a plain sheet

What the pattern of the imports finds in it: no block has an `@import`, so it finds the imports
behind them, each on lines of its own.
-/

namespace OdooSemantic

open Regex Stylesheets ParserCss

namespace PlainSheets

/-! ## The imports, one after the other -/

/-- Only an at sign begins an import. -/
theorem matchHere_reImport_of_ne {before cs : List Char} {c : Char} (hc : c ≠ '@') :
    matchHere reImport false ⟨before, c :: cs⟩ = none := by
  unfold matchHere reImport
  rw [run_seqs_cons, run_litIgnoreCase, if_neg]
  · rfl
  · simp [beginsWithLetters, sameLetter_at hc]

theorem searchFrom_reImport {p : List Char} (h : '@' ∉ p) (before rest : List Char) :
    searchFrom reImport false before (p ++ rest) =
      searchFrom reImport false (p.reverse ++ before) rest := by
  induction p generalizing before with
  | nil => rfl
  | cons c p ih =>
    simp only [List.mem_cons, not_or] at h
    rw [List.cons_append, searchFrom, matchHere_reImport_of_ne (Ne.symm h.1), Option.orElse_none,
      ih h.2]
    simp

theorem Gap.noAt (gap : Gap) : '@' ∉ gap.text := fun h => (ne_of_isSpace (gap.blank _ h)).2.2 rfl

theorem Rule.text_noAt (r : Rule) : '@' ∉ r.text := by
  simp only [Rule.text, Rule.block, List.mem_append, List.mem_cons]
  rintro (h | h | h | h)
  · exact r.noAt h
  · exact absurd h (by simp)
  · rcases h with h | h
    · exact absurd h (by simp)
    · exact (r.plain _ h).2.2 rfl
  · exact absurd h (by simp)

theorem rulesText_noAt (rs : List (Gap × Rule)) : '@' ∉ rulesText rs := by
  intro h
  obtain ⟨gr, -, h⟩ := List.mem_flatMap.mp h
  rcases List.mem_append.mp h with h | h
  · exact gr.1.noAt h
  · exact gr.2.text_noAt h

/-- In the blocks, `@media` is all there is with an at sign. -/
theorem searchFrom_reImport_block (b : Block) (before rest : List Char) :
    searchFrom reImport false before (b.text ++ rest) =
      searchFrom reImport false (b.text.reverse ++ before) rest := by
  cases b with
  | rule gap r =>
    refine searchFrom_reImport ?_ before rest
    intro h
    rcases List.mem_append.mp h with h | h
    · exact gap.noAt h
    · exact r.text_noAt h
  | media gap m =>
    have hbehind : '@' ∉ m.header.query.text ++ ' ' :: m.block := by
      simp only [Media.block, List.mem_append, List.mem_cons, List.not_mem_nil, or_false]
      rintro (h | h | (h | h | h) | h)
      · exact m.header.noAt h
      · exact absurd h (by simp)
      · exact absurd h (by simp)
      · exact rulesText_noAt _ h
      · exact m.gap.noAt h
      · exact absurd h (by simp)
    obtain ⟨behind, htext, hat⟩ : ∃ behind, (Block.media gap m).text = gap.text ++ '@' :: 'm' :: behind ∧
        '@' ∉ 'm' :: behind := by
      refine ⟨['e', 'd', 'i', 'a', ' '] ++ (m.header.query.text ++ ' ' :: m.block), ?_, ?_⟩
      · simp [Block.text, Media.text, MediaHeader.text, mediaWord]
      · simpa using hbehind
    have hnone : ∀ before' cs, matchHere reImport false ⟨before', '@' :: 'm' :: cs⟩ = none := by
      intro before' cs
      have hletter : sameLetter 'i' 'm' = false := by decide
      unfold matchHere reImport
      rw [run_seqs_cons, run_litIgnoreCase, if_neg]
      · rfl
      · simp [beginsWithLetters, hletter]
    have hskip : searchFrom reImport false (gap.text.reverse ++ before) ('@' :: 'm' :: (behind ++ rest)) =
        searchFrom reImport false (('m' :: behind).reverse ++ '@' :: (gap.text.reverse ++ before)) rest := by
      rw [searchFrom, hnone, Option.orElse_none]
      exact searchFrom_reImport hat _ rest
    rw [htext, List.append_assoc, searchFrom_reImport gap.noAt]
    refine hskip.trans ?_
    simp

theorem searchFrom_reImport_blocks (bs : List Block) (before rest : List Char) :
    searchFrom reImport false before (blocksText bs ++ rest) =
      searchFrom reImport false ((blocksText bs).reverse ++ before) rest := by
  induction bs generalizing before with
  | nil => rfl
  | cons b bs ih =>
    have htext : blocksText (b :: bs) = b.text ++ blocksText bs := rfl
    rw [htext, List.append_assoc, searchFrom_reImport_block, ih]
    simp

/-- The part of an import that the pattern is about. -/
def Import.matched (i : Import) : List Char :=
  importWord ++ i.space.text ++ i.quote :: i.path ++ [i.quote]

theorem Import.text_eq (i : Import) : i.text = i.matched ++ i.ending := by
  simp [Import.text, Import.matched]

theorem run_quoted (i : Import) (before rest : List Char) :
    run quoted some { cursor := ⟨before, i.quote :: (i.path ++ i.quote :: rest)⟩ } =
      some ⟨⟨i.quote :: (i.path.reverse ++ i.quote :: before), rest⟩, some i.path⟩ := by
  have hquote : "\"'".toList.contains i.quote = true := by
    rcases i.isQuote with h | h <;> rw [h] <;> decide
  have hpath : ∀ c ∈ i.path, (!"\"'".toList.contains c) = true := by
    intro c hc
    have hne := i.unquoted c hc
    simp [hne]
  have hskip : Cursor.skip ⟨i.quote :: before, i.path ++ i.quote :: rest⟩ (fun c => !"\"'".toList.contains c) =
      ⟨i.path.reverse ++ i.quote :: before, i.quote :: rest⟩ := by
    unfold Cursor.skip
    rw [List.takeWhile_append_of_pos hpath, List.dropWhile_append_of_pos hpath,
      List.takeWhile_cons_of_neg (by rw [hquote]; simp), List.dropWhile_cons_of_neg (by rw [hquote]; simp)]
    simp
  unfold quoted
  rw [run_seqs_cons, oneOf, run_char]
  dsimp only
  rw [if_pos hquote, run_seqs_cons, run_group, noneOf]
  refine run_plus_of_some ?_ ?_
  · obtain ⟨c, cs, hcons⟩ := List.exists_cons_of_ne_nil i.path_ne
    simpa [hcons] using hpath c (by simp [hcons])
  · simp only [hskip]
    change run (.char ("\"'".toList.contains ·)) some _ = _
    rw [run_char]
    dsimp only
    rw [if_pos hquote, upTo_of_before]

theorem matchHere_import (i : Import) (before rest : List Char) :
    ∃ m, matchHere reImport false ⟨before, i.text ++ rest⟩ = some m ∧ m.group = i.path ∧
      m.start = ⟨before, i.text ++ rest⟩ ∧ m.stop = ⟨i.matched.reverse ++ before, i.ending ++ rest⟩ := by
  have hword : "@import".toList = importWord := by simp [importWord]
  have hletters : ∀ cs, beginsWithLetters importWord (importWord ++ cs) = true := by
    intro cs
    have hself : importWord.all (fun c => sameLetter c c) = true := by decide
    simpa [importWord, beginsWithLetters] using hself
  have hspace : ∀ c ∈ i.space.text, PyText.isSpace c = true := i.space.blank
  have htext : i.text ++ rest =
      importWord ++ (i.space.text ++ i.quote :: (i.path ++ i.quote :: (i.ending ++ rest))) := by
    simp [Import.text]
  have hurl : sameLetter 'u' i.quote = false := by
    rcases i.isQuote with h | h <;> rw [h] <;> decide
  have hskip : ∀ before cs, Cursor.skip ⟨before, i.space.text ++ i.quote :: cs⟩ PyText.isSpace =
      ⟨i.space.text.reverse ++ before, i.quote :: cs⟩ := by
    intro before cs
    unfold Cursor.skip
    rw [List.takeWhile_append_of_pos hspace, List.dropWhile_append_of_pos hspace,
      List.takeWhile_cons_of_neg (by simp [i.quote_ne]), List.dropWhile_cons_of_neg (by simp [i.quote_ne])]
    simp
  have hadvance : ∀ cs, Cursor.advance ⟨before, importWord ++ cs⟩ importWord.length =
      ⟨importWord.reverse ++ before, cs⟩ := by
    intro cs
    simp [Cursor.advance]
  have hrun : run reImport some { cursor := ⟨before, i.text ++ rest⟩ } =
      some ⟨⟨i.matched.reverse ++ before, i.ending ++ rest⟩, some i.path⟩ := by
    unfold reImport
    rw [htext, run_seqs_cons, run_litIgnoreCase, hword, if_pos (hletters _), run_seqs_cons, spaces1]
    dsimp only
    rw [hadvance]
    refine run_plus_of_some ?_ ?_
    · obtain ⟨c, cs, hcons⟩ := List.exists_cons_of_ne_nil i.space_ne
      simpa [hcons] using hspace c (by simp [hcons])
    · simp only [hskip]
      rw [run_seqs_cons, opt, run_alt, run_seqs_cons, run_litIgnoreCase, if_neg, Option.orElse_none,
        run_empty]
      · refine (run_quoted i _ _).trans ?_
        simp [Import.matched]
      · simp [beginsWithLetters, hurl]
  refine ⟨⟨⟨before, i.text ++ rest⟩, ⟨i.matched.reverse ++ before, i.ending ++ rest⟩, some i.path⟩,
    ?_, rfl, rfl, rfl⟩
  unfold matchHere
  simp only [Bool.false_and, Bool.false_eq_true, if_false]
  exact congrArg (Option.map _) hrun

/-- The match is of this import, which is all there is on its lines. -/
def ImportedAs (i : Import) (m : Match) : Prop := m.group = i.path ∧ strip (lineOf m) = i.text

/-- Nothing but blank space in front on the line, `before` being read backwards. -/
def BlankLine (before : List Char) : Prop :=
  ∀ c ∈ before.takeWhile (· ≠ '\n'), PyText.isSpace c = true

theorem BlankLine.gap {before : List Char} (gap : Gap) (h : BlankLine before ∨ '\n' ∈ gap.text) :
    BlankLine (gap.text.reverse ++ before) := by
  intro c hc
  rw [List.takeWhile_append] at hc
  split at hc
  · rename_i hall
    rcases List.mem_append.mp hc with hc | hc
    · exact gap.blank c (List.mem_reverse.mp hc)
    · refine h.resolve_right ?_ c hc
      intro hnewline
      have htake : gap.text.reverse.takeWhile (· ≠ '\n') = gap.text.reverse :=
        (List.takeWhile_prefix _).eq_of_length hall
      have hpasses := List.all_eq_true.mp (List.all_takeWhile (p := fun c => decide (c ≠ '\n'))
        (l := gap.text.reverse)) '\n' (htake.symm ▸ List.mem_reverse.mpr hnewline)
      exact absurd hpasses (by simp)
  · exact gap.blank c (List.mem_reverse.mp ((List.takeWhile_prefix _).subset hc))

theorem blank_behind {imports : List (Gap × Import)} {rest : List Char}
    (hfresh : FreshLines false imports)
    (hrest : ∀ c ∈ rest.takeWhile (· ≠ '\n'), PyText.isSpace c = true) :
    ∀ c ∈ (importsText imports ++ rest).takeWhile (· ≠ '\n'), PyText.isSpace c = true := by
  cases imports with
  | nil => exact hrest
  | cons gi imports =>
    have hnewline : '\n' ∈ gi.1.text := hfresh.1.resolve_left (by simp)
    obtain ⟨a, b, hsplit, ha⟩ := List.eq_append_cons_of_mem hnewline
    intro c hc
    have htext : importsText (gi :: imports) ++ rest =
        a ++ '\n' :: (b ++ gi.2.text ++ importsText imports ++ rest) := by
      simp [importsText, hsplit]
    have hpos : ∀ d ∈ a, decide (d ≠ '\n') = true := by
      intro d hd
      simpa using fun heq : d = '\n' => ha (heq ▸ hd)
    rw [htext, List.takeWhile_append_of_pos hpos, List.takeWhile_cons_of_neg (by simp),
      List.append_nil] at hc
    exact gi.1.blank c (by simp [hsplit, hc])

theorem Import.ends_text (i : Import) : ∃ c, i.text.getLast? = some c ∧ PyText.isSpace c = false := by
  obtain ⟨c, hc, hcs⟩ := i.ends
  exact ⟨c, by rw [Import.text, List.getLast?_append, hc, Option.some_or], hcs⟩

theorem finditerFrom_reImport_nil {rest : List Char} (h : '@' ∉ rest) (before : List Char) (n : Nat) :
    finditerFrom reImport n false ⟨before, rest⟩ = [] := by
  have hskip := searchFrom_reImport h before []
  rw [List.append_nil] at hskip
  cases n with
  | zero => rfl
  | succ n =>
    rw [finditerFrom]
    simp only [hskip]
    rfl

/-- **The pattern finds the imports**, by induction on them. -/
theorem finditerFrom_imports {rest : List Char} (hrest : '@' ∉ rest) {imports : List (Gap × Import)} :
    ∀ {fresh : Bool}, FreshLines fresh imports →
      (imports ≠ [] → ∀ c ∈ rest.takeWhile (· ≠ '\n'), PyText.isSpace c = true) →
      ∀ (before : List Char) (n : Nat), (fresh = true → BlankLine before) →
        (importsText imports ++ rest).length < n →
        List.Forall₂ ImportedAs (imports.map Prod.snd)
          (finditerFrom reImport n false ⟨before, importsText imports ++ rest⟩) := by
  induction imports with
  | nil =>
    intro fresh _ _ before n _ _
    rw [importsText, List.flatMap_nil, List.nil_append, finditerFrom_reImport_nil hrest]
    exact .nil
  | cons gi imports ih =>
    intro fresh hfresh hline before n hblank hn
    obtain ⟨gap, i⟩ := gi
    have htext : importsText ((gap, i) :: imports) ++ rest =
        gap.text ++ (i.text ++ (importsText imports ++ rest)) := by simp [importsText]
    have hlead : BlankLine (gap.text.reverse ++ before) :=
      BlankLine.gap gap (hfresh.1.imp_left hblank)
    have htrail := blank_behind hfresh.2 (hline (by simp))
    have hending : '@' ∉ i.ending := fun h => (i.noBlock _ (List.mem_append_right _ h)).1 rfl
    obtain ⟨m, hm, hgroup, hstart, hstop⟩ :=
      matchHere_import i (gap.text.reverse ++ before) (importsText imports ++ rest)
    rw [htext] at hn ⊢
    rw [finditerFrom_skip n (searchFrom_reImport gap.noAt before _)]
    cases n with
    | zero => exact absurd hn (by simp)
    | succ n =>
      have hsearch : searchFrom reImport false (gap.text.reverse ++ before)
          (i.text ++ (importsText imports ++ rest)) = some m := by
        obtain ⟨cs, hcs⟩ : ∃ cs, i.text ++ (importsText imports ++ rest) = '@' :: cs :=
          ⟨_, rfl⟩
        rw [hcs] at hm ⊢
        rw [searchFrom, hm]
        rfl
      have hmatched : m.text = i.matched := by
        rw [Match.text, hstart, hstop, upTo_of_before]
      have hadvances : (m.start.after.length == m.stop.after.length) = false := by
        have hlen : 0 < i.matched.length := by simp [Import.matched, importWord]
        rw [hstart, hstop, Import.text_eq]
        simp only [List.append_assoc, List.length_append, beq_eq_false_iff_ne, ne_eq]
        omega
      rw [finditerFrom]
      dsimp only
      rw [hsearch]
      dsimp only
      rw [hadvances]
      refine .cons ⟨hgroup, ?_⟩ ?_
      · have hpos : ∀ c ∈ i.ending, decide (c ≠ '\n') = true := by
          intro c hc
          simpa using i.oneLine c hc
        rw [lineOf, hmatched, hstart, hstop]
        dsimp only
        rw [List.takeWhile_append_of_pos hpos, ← List.append_assoc, List.append_assoc _ i.matched,
          ← Import.text_eq]
        exact strip_padded _ _ (fun c hc => hlead c (List.mem_reverse.mp hc)) htrail
          ⟨'@', rfl, by decide⟩ i.ends_text
      · rw [hstop, finditerFrom_skip n (searchFrom_reImport hending _ _)]
        refine ih hfresh.2 (fun _ => hline (by simp)) _ n (by simp) ?_
        simp only [List.length_append] at hn ⊢
        have hlen : 0 < i.text.length := by simp [Import.text, importWord]
        omega

theorem finditer_reImport (s : Sheet) :
    List.Forall₂ ImportedAs (s.imports.map Prod.snd) (reImport.finditer s.text) := by
  unfold finditer Sheet.text
  rw [finditerFrom_skip _ (searchFrom_reImport_blocks s.blocks [] _)]
  refine finditerFrom_imports (fun h => (s.noBlock _ h).1 rfl) s.fresh s.lineEnds _ _ ?_ ?_
  · intro hblocks
    have hnil : s.blocks = [] := by simpa using hblocks
    simp [hnil, blocksText, BlankLine]
  · simp only [List.length_append]
    omega

end PlainSheets
end OdooSemantic
