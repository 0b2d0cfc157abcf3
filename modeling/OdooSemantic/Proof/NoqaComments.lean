import OdooSemantic.Mcp.LintCheck

/-!
# `noqa` comments

How a comment is to be written so that the code takes it for what it says: bare, with a blank or
nothing behind it, or with ids of letters and digits, commas between them, and nothing behind the
last but a blank and text that begins with some other character.
-/

namespace OdooSemantic
namespace Noqa

open Regex

/-- A comment begins here. -/
def begins : List Char → Bool
  | '#' :: cs => "noqa".toList.isPrefixOf (cs.dropWhile PyText.isSpace)
  | _ => false

/-- The comments of a line, each of them up to its end. -/
def comments (line : List Char) : List (List Char) := line.tails.filter begins

/-- What is behind `noqa`. -/
def behind (comment : List Char) : List Char := ((comment.drop 1).dropWhile PyText.isSpace).drop 4

def IsBlank (cs : List Char) : Prop := ∀ c ∈ cs, PyText.isSpace c = true

def IsId (id : List Char) : Prop := id ≠ [] ∧ ∀ c ∈ id, c.isAlphanum = true

/-- Ids with commas between them, and blanks. -/
inductive WrittenIds : List (List Char) → List Char → Prop
  | last {before id after : List Char} : IsBlank before → IsId id → IsBlank after →
      WrittenIds [id] (before ++ id ++ after)
  | cons {before id after rest : List Char} {named : List (List Char)} : IsBlank before →
      IsId id → IsBlank after → WrittenIds named rest →
      WrittenIds (id :: named) (before ++ id ++ after ++ ',' :: rest)

/-- The ids end here. -/
def EndsIds (body tail : List Char) : Prop :=
  tail = [] ∨ (body.getLast?.any PyText.isSpace = true ∧ tail.head?.any isListChar = false)

/-- What a comment says. -/
inductive Mark where
  | all
  | only (named : List String)

def Mark.Covers (ruleId : String) : Mark → Prop
  | all => True
  | only named => ruleId ∈ named

/-- What is behind `noqa` says this. -/
inductive Reads : List Char → Mark → Prop
  | bare {rest : List Char} : rest.head?.all PyText.isSpace = true → Reads rest .all
  | listed {body tail : List Char} {named : List (List Char)} : WrittenIds named body →
      EndsIds body tail → Reads (':' :: body ++ tail) (.only (named.map String.ofList))

/-- The line has one comment, which says this. -/
def Carries (line : String) (mark : Mark) : Prop :=
  ∃ comment, comments line.toList = [comment] ∧ Reads (behind comment) mark

/-- The line has no comment, or one that says something. -/
def IsPlain (line : String) : Prop := comments line.toList = [] ∨ ∃ mark, Carries line mark

/-! ## Where the pattern matches -/

section Search

variable {s : MatchState}

theorem not_prefix_of_space {cs : List Char} (h : cs.head?.any PyText.isSpace = true) :
    "noqa".toList.isPrefixOf cs = false := by
  cases cs with
  | nil => exact absurd h (by simp)
  | cons c cs =>
    have hspace : PyText.isSpace c = true := by simpa using h
    have hc : c ≠ 'n' := by
      rintro rfl
      exact absurd hspace (by decide)
    simp [List.isPrefixOf, Ne.symm hc]

/-- The place behind `noqa`. -/
def behindMarker (here : Cursor) : Cursor := ((here.advance 1).skip PyText.isSpace).advance 4

theorem run_reNoqa : run reNoqa some s =
    if begins s.cursor.after then
      run (opt reList) some { s with cursor := behindMarker s.cursor }
    else none := by
  have hblocked : ∀ s : MatchState, s.cursor.after.head?.any PyText.isSpace = true →
      run (seqs [lit "noqa", opt reList]) some s = none := by
    intro s hs
    rw [run_seqs_cons, run_lit, not_prefix_of_space hs]
    rfl
  rw [reNoqa, run_seqs_cons, run_lit, run_seqs_cons, spaces, run_star_of_blocked hblocked,
    run_seqs_cons, run_lit]
  obtain ⟨⟨before, after⟩, captured⟩ := s
  cases after with
  | nil => rfl
  | cons c cs =>
    by_cases hc : c = '#'
    · subst hc
      have hhash : "#".toList.isPrefixOf ('#' :: cs) = true := by simp
      rw [if_pos hhash]
      rfl
    · have hhash : "#".toList.isPrefixOf (c :: cs) = false := by simp [List.isPrefixOf, Ne.symm hc]
      have hbegins : begins (c :: cs) = false := by
        unfold begins
        split
        · rename_i heq
          exact absurd (List.cons.inj heq).1 hc
        · rfl
      rw [hhash, hbegins]
      rfl

theorem run_opt_isSome (r : Regex) (s : MatchState) : (run (opt r) some s).isSome = true := by
  rw [opt, run_alt]
  cases run r some s with
  | none => rfl
  | some s' => rfl

/-- A match begins where a comment does. -/
theorem matchHere_reNoqa (here : Cursor) : matchHere reNoqa false here =
    if begins here.after then
      (run (opt reList) some { cursor := behindMarker here }).map fun s => ⟨here, s.cursor, s.captured⟩
    else none := by
  unfold matchHere
  simp only [Bool.false_and, Bool.false_eq_true, if_false]
  rw [run_reNoqa]
  split
  · rfl
  · rfl

theorem searchFrom_reNoqa_none {cs : List Char} (h : comments cs = []) (before : List Char) :
    searchFrom reNoqa false before cs = none := by
  induction cs generalizing before with
  | nil => rfl
  | cons c cs ih =>
    unfold comments at h
    rw [List.tails_cons, List.filter_cons] at h
    split at h
    · exact absurd h (by simp)
    · rename_i hno
      rw [searchFrom, matchHere_reNoqa, if_neg hno]
      exact ih h _

theorem searchFrom_reNoqa_cons {cs comment : List Char} {others : List (List Char)}
    (h : comments cs = comment :: others) (before : List Char) :
    ∃ here : Cursor, here.after = comment ∧
      searchFrom reNoqa false before cs = matchHere reNoqa false here := by
  induction cs generalizing before with
  | nil => exact absurd h (by simp [comments, begins])
  | cons c cs ih =>
    unfold comments at h
    rw [List.tails_cons, List.filter_cons] at h
    split at h
    · rename_i hyes
      obtain ⟨rfl, -⟩ := List.cons.inj h
      refine ⟨⟨before, c :: cs⟩, rfl, ?_⟩
      have hsome : (matchHere reNoqa false ⟨before, c :: cs⟩).isSome = true := by
        rw [matchHere_reNoqa, if_pos hyes, Option.isSome_map]
        exact run_opt_isSome _ _
      obtain ⟨m, hm⟩ := Option.isSome_iff_exists.mp hsome
      rw [searchFrom, hm]
      rfl
    · rename_i hno
      obtain ⟨here, hafter, hsearch⟩ := ih h (c :: before)
      refine ⟨here, hafter, ?_⟩
      rw [searchFrom, matchHere_reNoqa, if_neg hno]
      exact hsearch

theorem begins_of_mem_comments {cs comment : List Char} (h : comment ∈ comments cs) :
    begins comment = true := (List.mem_filter.mp h).2

end Search

/-! ## What the group has -/

section Group

variable {here : Cursor}

theorem run_reList_bare {s : MatchState} (h : s.cursor.after.head?.all PyText.isSpace = true) :
    run (opt reList) some s = some s := by
  have hcolon : ":".toList.isPrefixOf s.cursor.after = false := by
    cases hafter : s.cursor.after with
    | nil => rfl
    | cons c cs =>
      have hspace : PyText.isSpace c = true := by simpa [hafter] using h
      have hc : c ≠ ':' := by
        rintro rfl
        exact absurd hspace (by decide)
      simp [List.isPrefixOf, Ne.symm hc]
  have hnone : run reList some s = none := by
    rw [reList, run_seqs_cons, run_lit, hcolon]
    rfl
  rw [opt, run_alt, hnone]
  rfl

theorem run_reList_listed {s : MatchState} {rest : List Char} (hafter : s.cursor.after = ':' :: rest)
    (hone : (rest.dropWhile PyText.isSpace).head?.any isListChar = true) :
    ∃ stop, run (opt reList) some s =
      some ⟨stop, some ((rest.dropWhile PyText.isSpace).takeWhile isListChar)⟩ := by
  obtain ⟨⟨before, after⟩, captured⟩ := s
  obtain rfl := hafter
  have hcolon : ":".toList.isPrefixOf (':' :: rest) = true := by simp
  let start := (Cursor.advance ⟨before, ':' :: rest⟩ 1).skip PyText.isSpace
  have hlist : run reList some ⟨⟨before, ':' :: rest⟩, captured⟩ =
      some ⟨start.skip isListChar, some ((rest.dropWhile PyText.isSpace).takeWhile isListChar)⟩ := by
    rw [reList, run_seqs_cons, run_lit, if_pos hcolon, run_seqs_cons, spaces]
    refine run_star_of_some ?_
    rw [seqs, run_group]
    refine run_plus_of_some hone ?_
    rw [Cursor.upTo_skip]
    rfl
  refine ⟨start.skip isListChar, ?_⟩
  rw [opt, run_alt, hlist]
  rfl

/-! ### The ids -/

theorem ne_comma_of_isAlphanum {c : Char} (h : c.isAlphanum = true) : c ≠ ',' := by
  rintro rfl
  exact absurd h (by decide)

theorem ne_comma_of_isSpace {c : Char} (h : PyText.isSpace c = true) : c ≠ ',' := by
  rintro rfl
  exact absurd h (by decide)

section Written

variable {before id after rest body tail : List Char} {named : List (List Char)}

theorem dropWhile_padded (hbefore : IsBlank before) (hid : IsId id) (rest : List Char) :
    (before ++ (id ++ rest)).dropWhile PyText.isSpace = id ++ rest := by
  rw [List.dropWhile_append_of_pos hbefore]
  obtain ⟨c, cs, rfl⟩ := List.exists_cons_of_ne_nil hid.1
  rw [List.cons_append, List.dropWhile_cons_of_neg]
  simp [PyText.isSpace_of_isAlphanum (hid.2 c List.mem_cons_self)]

theorem strip_padded (hbefore : IsBlank before) (hid : IsId id) (hafter : IsBlank after) :
    PyText.strip (String.ofList (before ++ id ++ after)) = String.ofList id := by
  have hid' : IsId id.reverse :=
    ⟨by simpa using hid.1, fun c hc => hid.2 c (List.mem_reverse.mp hc)⟩
  have hafter' : IsBlank after.reverse := fun c hc => hafter c (List.mem_reverse.mp hc)
  unfold PyText.strip
  rw [String.toList_ofList, List.append_assoc, dropWhile_padded hbefore hid, List.reverse_append]
  have hend := dropWhile_padded hafter' hid' []
  rw [List.append_nil] at hend
  rw [hend, List.reverse_reverse]

theorem comma_notMem_padded (hbefore : IsBlank before) (hid : IsId id) (hafter : IsBlank after) :
    ',' ∉ before ++ id ++ after := by
  intro h
  rcases List.mem_append.mp h with h | h
  · rcases List.mem_append.mp h with h | h
    · exact ne_comma_of_isSpace (hbefore _ h) rfl
    · exact ne_comma_of_isAlphanum (hid.2 _ h) rfl
  · exact ne_comma_of_isSpace (hafter _ h) rfl

theorem ofList_ne_empty (hid : IsId id) : String.ofList id ≠ "" := by
  intro h
  have hnil : id = [] := by simpa using congrArg String.toList h
  exact hid.1 hnil

/-- Split at the commas, they are the ids that were written. -/
theorem splitIds_written (h : WrittenIds named body) : splitIds body = named.map String.ofList := by
  induction h with
  | last hbefore hid hafter =>
    unfold splitIds
    rw [List.splitOn_eq_singleton (comma_notMem_padded hbefore hid hafter), List.map_singleton,
      strip_padded hbefore hid hafter]
    simp [ofList_ne_empty hid]
  | cons hbefore hid hafter hrest ih =>
    unfold splitIds at ih ⊢
    rw [List.splitOn_append_cons_self_of_not_mem (comma_notMem_padded hbefore hid hafter),
      List.map_cons, strip_padded hbefore hid hafter, List.filter_cons_of_pos, ih, List.map_cons]
    simpa using ofList_ne_empty hid

theorem isListChar_written (h : WrittenIds named body) : ∀ c ∈ body, isListChar c = true := by
  have hpadded : ∀ {before id after : List Char}, IsBlank before → IsId id → IsBlank after →
      ∀ c ∈ before ++ id ++ after, isListChar c = true := by
    intro before id after hbefore hid hafter c hc
    rcases List.mem_append.mp hc with hc | hc
    · rcases List.mem_append.mp hc with hc | hc
      · simp [isListChar, hbefore c hc]
      · simp [isListChar, hid.2 c hc]
    · simp [isListChar, hafter c hc]
  induction h with
  | last hbefore hid hafter => exact hpadded hbefore hid hafter
  | cons hbefore hid hafter hrest ih =>
    intro c hc
    rcases List.mem_append.mp hc with hc | hc
    · exact hpadded hbefore hid hafter c hc
    · rcases List.mem_cons.mp hc with rfl | hc
      · rfl
      · exact ih c hc

/-- Without the blanks in front. -/
theorem WrittenIds.trim (h : WrittenIds named body) : ∃ body', WrittenIds named body' ∧
    body'.head?.any isListChar = true ∧
      ∀ tail, (body ++ tail).dropWhile PyText.isSpace = body' ++ tail := by
  have hnone : IsBlank [] := by simp [IsBlank]
  have hhead : ∀ {id rest : List Char}, IsId id → (id ++ rest).head?.any isListChar = true := by
    intro id rest hid
    obtain ⟨c, cs, rfl⟩ := List.exists_cons_of_ne_nil hid.1
    simp [isListChar, hid.2 c List.mem_cons_self]
  cases h with
  | @last before id after hbefore hid hafter =>
    refine ⟨id ++ after, WrittenIds.last hnone hid hafter, hhead hid, ?_⟩
    intro tail
    rw [List.append_assoc, List.append_assoc, dropWhile_padded hbefore hid, List.append_assoc]
  | @cons before id after rest named hbefore hid hafter hrest =>
    refine ⟨id ++ after ++ ',' :: rest, WrittenIds.cons hnone hid hafter hrest, ?_, ?_⟩
    · rw [List.append_assoc]
      exact hhead hid
    · intro tail
      simp only [List.append_assoc]
      rw [dropWhile_padded hbefore hid]

/-- They are taken up to the last. -/
theorem takeWhile_written (h : WrittenIds named body)
    (htail : tail = [] ∨ tail.head?.any isListChar = false) :
    (body ++ tail).takeWhile isListChar = body := by
  rw [List.takeWhile_append_of_pos (isListChar_written h)]
  have hnil : tail.takeWhile isListChar = [] := by
    rcases htail with rfl | htail
    · rfl
    · cases tail with
      | nil => rfl
      | cons c cs => rw [List.takeWhile_cons_of_neg (by simpa using htail)]
  rw [hnil, List.append_nil]

theorem star_notMem_written (h : WrittenIds named body) : "*" ∉ named.map String.ofList := by
  have hstar : ∀ {id : List Char}, IsId id → String.ofList id ≠ "*" := by
    intro id hid heq
    have hlist : id = ['*'] := by simpa using congrArg String.toList heq
    exact absurd (hid.2 '*' (by simp [hlist])) (by decide)
  induction h with
  | last hbefore hid hafter => simpa using (hstar hid).symm
  | cons hbefore hid hafter hrest ih =>
    rw [List.map_cons, List.mem_cons, not_or]
    exact ⟨(hstar hid).symm, ih⟩

end Written

end Group

/-! ## What a line's comment covers -/

section Lines

variable {line : String} {mark : Mark}

theorem ids_of_no_comment (h : comments line.toList = []) : ids line = none := by
  rw [ids, search, searchFrom_reNoqa_none h]
  rfl

/-- The match of a line that has one comment. -/
theorem search_of_comment {comment : List Char} (h : comments line.toList = [comment]) :
    ∃ s : MatchState, s.cursor.after = behind comment ∧ s.captured = none ∧
      ∃ here, search reNoqa line.toList =
        (run (opt reList) some s).map fun stop => ⟨here, stop.cursor, stop.captured⟩ := by
  obtain ⟨here, rfl, hsearch⟩ := searchFrom_reNoqa_cons h []
  have hbegins : begins here.after = true := begins_of_mem_comments (by rw [h]; simp)
  refine ⟨{ cursor := behindMarker here }, rfl, rfl, here, ?_⟩
  rw [search, hsearch, matchHere_reNoqa, if_pos hbegins]

/-- A comment is read for what it says. -/
theorem ids_of_carries (h : Carries line mark) : ∃ named, ids line = some named ∧
    ∀ ruleId, ("*" ∈ named ∨ ruleId ∈ named) ↔ mark.Covers ruleId := by
  obtain ⟨comment, hcomment, hreads⟩ := h
  obtain ⟨s, hafter, hcaptured, here, hsearch⟩ := search_of_comment hcomment
  rw [← hafter] at hreads
  unfold ids
  rw [hsearch]
  generalize hrest : s.cursor.after = rest at hreads
  cases hreads with
  | bare hblank =>
    rw [run_reList_bare (by rw [hrest]; exact hblank)]
    refine ⟨["*"], ?_, fun ruleId => by simp [Mark.Covers]⟩
    simp only [Option.map_some, idsOf, hcaptured]
  | @listed body tail named hwritten hends =>
    obtain ⟨body', hwritten', hhead, hdrop⟩ := hwritten.trim
    have hone : ((body ++ tail).dropWhile PyText.isSpace).head?.any isListChar = true := by
      rw [hdrop]
      cases body' with
      | nil => exact absurd hhead (by simp)
      | cons c cs => exact hhead
    have htail : tail = [] ∨ tail.head?.any isListChar = false := hends.imp_right And.right
    have hcolon : s.cursor.after = ':' :: (body ++ tail) := by simpa using hrest
    obtain ⟨stop, hrun⟩ := run_reList_listed hcolon hone
    have hne : body' ≠ [] := by
      rintro rfl
      exact absurd hhead (by simp)
    rw [hrun, hdrop, takeWhile_written hwritten' htail]
    refine ⟨named.map String.ofList, ?_, fun ruleId => ?_⟩
    · simp only [Option.map_some, idsOf, if_neg hne, splitIds_written hwritten']
    · exact or_iff_right (star_notMem_written hwritten)

end Lines

end Noqa
end OdooSemantic
