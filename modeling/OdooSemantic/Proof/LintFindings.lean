import OdooSemantic.Proof.NoqaComments

/-!
# What a lint rule is found on, and what a comment drops

The whole-text matcher and the per-line one agree on whether a rule matches. The lines that are given
are those with two of the rule's tokens; where the text has two and no line has, it is line 1,
whatever is on it. A finding is dropped where each of its lines has a comment that is bare or
names the rule, as far as comments go whose ids are letters and digits and end with the line or
with a blank (`lint_agreement`): an id with a hyphen is cut off at the hyphen, and words behind the
ids become part of the last.
-/

namespace OdooSemantic

/-! ## Tokens of a text and of its lines -/

theorem tokenLists_append_cons {sep : Char} (hsep : lowered sep = [sep])
    (htoken : isTokenChar sep = false) (xs ys : List Char) :
    tokenLists (xs ++ sep :: ys) = tokenLists xs ++ tokenLists ys := by
  unfold tokenLists
  rw [List.flatMap_append, List.flatMap_cons, hsep, List.singleton_append,
    List.splitOnP_append_cons _ _ (by simp [htoken])]

theorem isLineBoundary_iff {c : Char} : PyText.isLineBoundary c = true ↔
    ∃ n ∈ [0x0a, 0x0b, 0x0c, 0x0d, 0x1c, 0x1d, 0x1e, 0x85, 0x2028, 0x2029], c = Char.ofNat n := by
  unfold PyText.isLineBoundary
  rw [decide_eq_true_iff]
  constructor
  · intro h
    exact ⟨c.toNat, h, (Char.ofNat_toNat c).symm⟩
  · rintro ⟨n, hn, rfl⟩
    simp only [List.mem_cons, List.not_mem_nil, or_false] at hn
    rcases hn with rfl | rfl | rfl | rfl | rfl | rfl | rfl | rfl | rfl | rfl <;> decide

/-- Where a line ends a token does too. -/
theorem separates_of_isLineBoundary {c : Char} (h : PyText.isLineBoundary c = true) :
    lowered c = [c] ∧ isTokenChar c = false := by
  obtain ⟨n, hn, rfl⟩ := isLineBoundary_iff.mp h
  simp only [List.mem_cons, List.not_mem_nil, or_false] at hn
  rcases hn with rfl | rfl | rfl | rfl | rfl | rfl | rfl | rfl | rfl | rfl <;> decide

theorem mem_tokenLists_splitlinesFrom {t : List Char} (ht : t ≠ []) (acc cs : List Char) :
    t ∈ tokenLists (acc.reverse ++ cs) ↔ ∃ line ∈ PyText.splitlinesFrom acc cs, t ∈ tokenLists line := by
  have hnil : t ∉ tokenLists [] := by
    intro h
    exact ht (by simpa [tokenLists] using h)
  induction acc, cs using PyText.splitlinesFrom.induct with
  | case1 =>
    rw [PyText.splitlinesFrom, if_pos rfl]
    simpa using hnil
  | case2 acc hacc =>
    rw [PyText.splitlinesFrom, if_neg hacc, List.append_nil]
    simp
  | case3 acc cs ih =>
    obtain ⟨hlow, htoken⟩ := separates_of_isLineBoundary (c := '\r') (by decide)
    obtain ⟨hlow', htoken'⟩ := separates_of_isLineBoundary (c := '\n') (by decide)
    have hnewline : tokenLists ('\n' :: cs) = tokenLists [] ++ tokenLists cs :=
      tokenLists_append_cons hlow' htoken' [] cs
    rw [PyText.splitlinesFrom, tokenLists_append_cons hlow htoken, hnewline, List.mem_append,
      List.mem_append, or_iff_right hnil, List.exists_mem_cons_iff]
    exact or_congr_right ih
  | case4 acc c cs hcr hboundary ih =>
    obtain ⟨hlow, htoken⟩ := separates_of_isLineBoundary hboundary
    have hline : PyText.splitlinesFrom acc (c :: cs) =
        acc.reverse :: PyText.splitlinesFrom [] cs := by
      rw [PyText.splitlinesFrom, if_pos hboundary]
      exact hcr
    rw [hline, tokenLists_append_cons hlow htoken, List.mem_append, List.exists_mem_cons_iff]
    exact or_congr_right ih
  | case5 acc c cs hcr hboundary ih =>
    have hline : PyText.splitlinesFrom acc (c :: cs) = PyText.splitlinesFrom (c :: acc) cs := by
      rw [PyText.splitlinesFrom, if_neg hboundary]
      exact hcr
    rw [hline]
    simpa using ih

theorem mem_lintTokens {t text : String} : t ∈ lintTokens text ↔ t.toList ∈ tokenLists text.toList := by
  rw [lintTokens, List.mem_toFinset, List.mem_map]
  constructor
  · rintro ⟨cs, hcs, rfl⟩
    rwa [String.toList_ofList]
  · intro h
    exact ⟨_, h, String.ofList_toList⟩

/-- The tokens of a text are those of its lines. -/
theorem mem_lintTokens_iff_line {t : String} (ht : t ≠ "") (code : String) :
    t ∈ lintTokens code ↔ ∃ line ∈ PyText.splitlines code, t ∈ lintTokens line := by
  have htoken : t.toList ≠ [] := fun h => ht (String.toList_eq_nil_iff.mp h)
  have hlines := mem_tokenLists_splitlinesFrom htoken [] code.toList
  rw [List.reverse_nil, List.nil_append] at hlines
  rw [mem_lintTokens, hlines, PyText.splitlines]
  simp only [List.mem_map, exists_exists_and_eq_and, mem_lintTokens, String.toList_ofList]

/-! ## The matchers -/

/-- Two of the rule's tokens are in the text. -/
def Occurs (rule : LintRow) (text : String) : Prop :=
  2 ≤ (ruleTokens (rule.message.getD "") ∩ lintTokens text).card

instance (rule : LintRow) (text : String) : Decidable (Occurs rule text) :=
  inferInstanceAs (Decidable (2 ≤ _))

/-- They are on this line. -/
def OccursOnLine (rule : LintRow) (code : String) (ln : Nat) : Prop :=
  ∃ line, (line, ln) ∈ numberedLines code ∧ Occurs rule line

section Matchers

variable {code line : String} {rule : LintRow} {ln : Nat}

theorem mem_numberedLines :
    (line, ln) ∈ numberedLines code ↔ 1 ≤ ln ∧ (PyText.splitlines code)[ln - 1]? = some line :=
  List.mem_zipIdx_iff_le_and_getElem?_sub

theorem mem_splitlines_of_numbered (h : (line, ln) ∈ numberedLines code) :
    line ∈ PyText.splitlines code :=
  List.mem_of_getElem? (mem_numberedLines.mp h).2

theorem ne_empty_of_mem_ruleTokens {t message : String} (h : t ∈ ruleTokens message) : t ≠ "" := by
  rintro rfl
  exact absurd (Finset.mem_filter.mp h).2.1 (by decide)

theorem Occurs.of_line (h : Occurs rule line) (hline : line ∈ PyText.splitlines code) :
    Occurs rule code := by
  refine le_trans h (Finset.card_le_card fun t ht => ?_)
  obtain ⟨hrule, hline'⟩ := Finset.mem_inter.mp ht
  refine Finset.mem_inter.mpr ⟨hrule, ?_⟩
  exact (mem_lintTokens_iff_line (ne_empty_of_mem_ruleTokens hrule) code).mpr ⟨line, hline, hline'⟩

/-- There is a first line. -/
theorem Occurs.splitlines_ne_nil (h : Occurs rule code) : PyText.splitlines code ≠ [] := by
  intro hnil
  obtain ⟨t, ht⟩ := Finset.card_pos.mp (Nat.lt_of_lt_of_le Nat.two_pos h)
  obtain ⟨hrule, hcode⟩ := Finset.mem_inter.mp ht
  obtain ⟨line, hline, -⟩ :=
    (mem_lintTokens_iff_line (ne_empty_of_mem_ruleTokens hrule) code).mp hcode
  rw [hnil] at hline
  exact absurd hline List.not_mem_nil

theorem not_occurs_of_empty (h : rule.message.getD "" = "") : ¬ Occurs rule code := by
  have htokens : ruleTokens "" = ∅ := by decide
  rw [Occurs, h, htokens, Finset.empty_inter]
  decide

theorem not_occurs_of_few (h : (ruleTokens (rule.message.getD "")).card < 2) : ¬ Occurs rule code :=
  fun hoccurs => absurd (le_trans hoccurs (Finset.card_le_card Finset.inter_subset_left)) (by omega)

theorem matchLintRule_iff : matchLintRule code rule = true ↔ Occurs rule code := by
  unfold matchLintRule
  dsimp only
  split
  · rename_i hempty
    simpa using not_occurs_of_empty hempty
  · split
    · rename_i hfew
      simpa using not_occurs_of_few hfew
    · exact decide_eq_true_iff

/-- What the per-line matcher gives. -/
theorem mem_matchLintRuleLines : ln ∈ matchLintRuleLines code rule ↔
    OccursOnLine rule code ln ∨
      (Occurs rule code ∧ (∀ n, ¬ OccursOnLine rule code n) ∧ ln = 1) := by
  have hnone (h : ¬ Occurs rule code) : ¬ (OccursOnLine rule code ln ∨
      (Occurs rule code ∧ (∀ n, ¬ OccursOnLine rule code n) ∧ ln = 1)) := by
    rintro (⟨line, hline, hoccurs⟩ | ⟨hoccurs, -⟩)
    · exact h (hoccurs.of_line (mem_splitlines_of_numbered hline))
    · exact h hoccurs
  have hhits : ∀ n, n ∈ ((numberedLines code).filter fun numbered =>
      2 ≤ (ruleTokens (rule.message.getD "") ∩ lintTokens numbered.1).card).map Prod.snd ↔
        OccursOnLine rule code n := by
    intro n
    rw [List.mem_map]
    constructor
    · rintro ⟨⟨line, n⟩, hmem, rfl⟩
      obtain ⟨hline, hoccurs⟩ := List.mem_filter.mp hmem
      exact ⟨line, hline, of_decide_eq_true hoccurs⟩
    · rintro ⟨line, hline, hoccurs⟩
      exact ⟨(line, n), List.mem_filter.mpr ⟨hline, decide_eq_true hoccurs⟩, rfl⟩
  unfold matchLintRuleLines
  dsimp only
  split
  · rename_i hempty
    simpa using hnone (not_occurs_of_empty hempty)
  · split
    · rename_i hfew
      simpa using hnone (not_occurs_of_few hfew)
    · split
      · rename_i hfew
        simpa using hnone (not_le.mpr hfew)
      · rename_i hoccurs
        split
        · rename_i hnil
          have hnoline : ∀ n, ¬ OccursOnLine rule code n := by
            intro n hn
            exact List.eq_nil_iff_forall_not_mem.mp hnil n ((hhits n).mpr hn)
          rw [List.mem_singleton, or_iff_right (hnoline ln)]
          exact ⟨fun h => ⟨not_lt.mp hoccurs, hnoline, h⟩, fun h => h.2.2⟩
        · rename_i hsome
          obtain ⟨n, hn⟩ := List.exists_mem_of_ne_nil _ hsome
          refine (hhits ln).trans (or_iff_left ?_).symm
          rintro ⟨-, hnoline, -⟩
          exact hnoline n ((hhits n).mp hn)

theorem matchLintRuleLines_ne_nil_iff :
    matchLintRuleLines code rule ≠ [] ↔ Occurs rule code := by
  constructor
  · intro h
    obtain ⟨ln, hln⟩ := List.exists_mem_of_ne_nil _ h
    rcases mem_matchLintRuleLines.mp hln with ⟨line, hline, hoccurs⟩ | ⟨hoccurs, -⟩
    · exact hoccurs.of_line (mem_splitlines_of_numbered hline)
    · exact hoccurs
  · intro h
    by_cases hline : ∃ n, OccursOnLine rule code n
    · obtain ⟨n, hn⟩ := hline
      exact List.ne_nil_of_mem (mem_matchLintRuleLines.mpr (Or.inl hn))
    · exact List.ne_nil_of_mem
        (mem_matchLintRuleLines.mpr (Or.inr ⟨h, fun n hn => hline ⟨n, hn⟩, rfl⟩))

/-- A line that is given is one of the text. -/
theorem exists_numbered_of_mem (h : ln ∈ matchLintRuleLines code rule) :
    ∃ line, (line, ln) ∈ numberedLines code := by
  rcases mem_matchLintRuleLines.mp h with ⟨line, hline, -⟩ | ⟨hoccurs, -, rfl⟩
  · exact ⟨line, hline⟩
  · obtain ⟨line, rest, hlines⟩ := List.exists_cons_of_ne_nil hoccurs.splitlines_ne_nil
    exact ⟨line, mem_numberedLines.mpr ⟨le_refl _, by rw [hlines]; rfl⟩⟩

end Matchers

/-! ## Findings -/

theorem lookup_zipIdx (lines : List String) (start ln : Nat) :
    ((lines.zipIdx start).filterMap fun (line, lineno) =>
        (Noqa.ids line).map fun ids => (lineno, ids)).lookup ln =
      if start ≤ ln then lines[ln - start]?.bind Noqa.ids else none := by
  induction lines generalizing start with
  | nil => simp
  | cons line lines ih =>
    have hrest : ∀ h : start ≠ ln, (if start + 1 ≤ ln then lines[ln - (start + 1)]?.bind Noqa.ids else none) =
        if start ≤ ln then (line :: lines)[ln - start]?.bind Noqa.ids else none := by
      intro hne
      by_cases hle : start ≤ ln
      · have hsub : ln - start = (ln - (start + 1)) + 1 := by omega
        rw [if_pos hle, if_pos (by omega), hsub, List.getElem?_cons_succ]
      · rw [if_neg hle, if_neg (by omega)]
    rw [List.zipIdx_cons]
    cases hids : Noqa.ids line with
    | none =>
      rw [List.filterMap_cons_none (by simp [hids]), ih]
      by_cases hln : start = ln
      · subst hln
        simp [hids]
      · exact hrest hln
    | some ids =>
      rw [List.filterMap_cons_some (b := (start, ids)) (by simp [hids]), List.lookup_cons]
      by_cases hln : start = ln
      · subst hln
        simp [hids]
      · have hbeq : (ln == start) = false := by simp [Ne.symm hln]
        rw [hbeq, ← hrest hln, ← ih]

section Findings

variable {code line : String} {rule : LintRow} {ln : Nat}

theorem lookup_buildNoqaSuppress (h : (line, ln) ∈ numberedLines code) :
    (buildNoqaSuppress code).lookup ln = Noqa.ids line := by
  obtain ⟨hpos, hline⟩ := mem_numberedLines.mp h
  rw [buildNoqaSuppress, numberedLines, lookup_zipIdx, if_pos hpos, hline]
  rfl

/-- On a line that says what it says, the comment decides. -/
theorem isSuppressed_iff {ruleId : String} (h : (line, ln) ∈ numberedLines code)
    (hplain : Noqa.IsPlain line) : isSuppressed (buildNoqaSuppress code) ruleId ln = true ↔
      ∃ mark, Noqa.Carries line mark ∧ mark.Covers ruleId := by
  unfold isSuppressed
  rw [lookup_buildNoqaSuppress h]
  rcases hplain with hnone | ⟨mark, hmark⟩
  · rw [Noqa.ids_of_no_comment hnone]
    constructor
    · intro hno
      exact absurd hno (by simp)
    · rintro ⟨mark, ⟨comment, hcomment, -⟩, -⟩
      rw [hnone] at hcomment
      exact absurd hcomment (by simp)
  · obtain ⟨named, hnamed, hcovers⟩ := Noqa.ids_of_carries hmark
    rw [hnamed]
    simp only [Bool.or_eq_true, decide_eq_true_iff]
    constructor
    · intro hin
      exact ⟨mark, hmark, (hcovers ruleId).mp hin⟩
    · rintro ⟨mark', hmark', hcovers'⟩
      obtain ⟨named', hnamed', hiff⟩ := Noqa.ids_of_carries hmark'
      obtain rfl := Option.some.inj (hnamed.symm.trans hnamed')
      exact (hiff ruleId).mpr hcovers'

/-- The rule is listed unless each of its lines is suppressed. -/
theorem mem_lintViolations {rules : List LintRow} (hrule : rule ∈ rules)
    (hhit : matchLintRuleLines code rule ≠ []) : rule ∉ lintViolations code rules ↔
      ∀ ln ∈ matchLintRuleLines code rule,
        isSuppressed (buildNoqaSuppress code) rule.shownId ln = true := by
  have hempty : (matchLintRuleLines code rule).isEmpty = false := by simpa using hhit
  unfold lintViolations
  simp only [List.mem_filter, hrule, hempty, Bool.not_false, Bool.true_and, true_and,
    decide_eq_true_iff, not_lt]
  rw [← List.countP_eq_length]
  exact ⟨fun h => le_antisymm List.countP_le_length h, fun h => h.ge⟩

/-- **The two matchers agree on whether the rule matches; the lines are those with two of its
tokens, or line 1 where no line has two but the text has; and where the comments of the text are plain,
a finding is dropped exactly if each of its lines has one that covers the rule.** -/
theorem lint_agreement (code : String) (rule : LintRow) :
    (matchLintRule code rule = true ↔ matchLintRuleLines code rule ≠ []) ∧
    (∀ ln ∈ matchLintRuleLines code rule, ∃ line, (line, ln) ∈ numberedLines code) ∧
    (∀ ln, ln ∈ matchLintRuleLines code rule ↔ OccursOnLine rule code ln ∨
      (Occurs rule code ∧ (∀ n, ¬ OccursOnLine rule code n) ∧ ln = 1)) ∧
    ((∀ line ∈ PyText.splitlines code, Noqa.IsPlain line) →
      ∀ rules, rule ∈ rules → matchLintRuleLines code rule ≠ [] →
        (rule ∉ lintViolations code rules ↔
          ∀ ln ∈ matchLintRuleLines code rule, ∃ line mark, (line, ln) ∈ numberedLines code ∧
            Noqa.Carries line mark ∧ mark.Covers rule.shownId)) := by
  refine ⟨?_, ?_, fun ln => mem_matchLintRuleLines, ?_⟩
  · rw [matchLintRule_iff, matchLintRuleLines_ne_nil_iff]
  · exact fun ln hln => exists_numbered_of_mem hln
  · intro hplain rules hrule hhit
    rw [mem_lintViolations hrule hhit]
    refine forall₂_congr fun ln hln => ?_
    obtain ⟨line, hline⟩ := exists_numbered_of_mem hln
    rw [isSuppressed_iff hline (hplain line (mem_splitlines_of_numbered hline))]
    constructor
    · rintro ⟨mark, hmark, hcovers⟩
      exact ⟨line, mark, hline, hmark, hcovers⟩
    · rintro ⟨line', mark, hline', hmark, hcovers⟩
      have hsame := (mem_numberedLines.mp hline).2.symm.trans (mem_numberedLines.mp hline').2
      obtain rfl := Option.some.inj hsame
      exact ⟨mark, hmark, hcovers⟩

end Findings

namespace PercentFormat

def rule (ruleId : String) : LintRow :=
  ⟨ruleId, "error", some "Bad usage of percent format string literal", "pylint-odoo"⟩

def named : String := "x = percent_format # percent format # noqa: E8001, W9002"

theorem named_carries : Noqa.Carries named (.only ["E8001", "W9002"]) := by
  refine ⟨"# noqa: E8001, W9002".toList, by decide, ?_⟩
  have hfirst : Noqa.IsId "E8001".toList := ⟨by decide, List.all_eq_true.mp (by decide)⟩
  have hlast : Noqa.IsId "W9002".toList := ⟨by decide, List.all_eq_true.mp (by decide)⟩
  have hblank : Noqa.IsBlank [' '] := by
    intro c hc
    obtain rfl := List.mem_singleton.mp hc
    rfl
  have hnone : Noqa.IsBlank [] := by simp [Noqa.IsBlank]
  have hwritten := Noqa.WrittenIds.cons hblank hfirst hnone
    (Noqa.WrittenIds.last hblank hlast hnone)
  exact Noqa.Reads.listed hwritten (Or.inl rfl : Noqa.EndsIds _ [])

/-- A comment that names the rule, on the line where it is found. -/
theorem lint_agreement_named : rule "E8001" ∉ lintViolations named [rule "E8001"] := by
  have hlines : PyText.splitlines named = [named] := by decide
  refine ((lint_agreement named (rule "E8001")).2.2.2 ?_ [rule "E8001"] (by simp)
    (by decide)).mpr ?_
  · rw [hlines]
    intro line hline
    obtain rfl := List.mem_singleton.mp hline
    exact Or.inr ⟨_, named_carries⟩
  · have hhits : matchLintRuleLines named (rule "E8001") = [1] := by decide
    rw [hhits]
    intro ln hln
    obtain rfl := List.mem_singleton.mp hln
    refine ⟨named, _, ?_, named_carries, ?_⟩
    · rw [numberedLines, hlines]
      simp
    · exact List.mem_cons_self

/-- Line 1 has one token of two, and a comment that names the rule does not drop it. -/
theorem first_line_and_hyphen :
    (matchLintRuleLines "percent\nformat" (rule "E8001") = [1] ∧ ¬ Occurs (rule "E8001") "percent") ∧
      rule "no-undef" ∈ lintViolations "percent format # noqa: no-undef" [rule "no-undef"] := by
  decide

end PercentFormat

end OdooSemantic
