import Mathlib.Tactic.Linarith
import OdooSemantic.Indexer.Stylesheets

/-!
# Where a block ends

The parsers count braces, and every brace counts, also in a string or a comment. `closing` reads the
text as a stylesheet; what the parsers find is the same block if the braces that are none do not
change where the count comes to nothing.
-/

namespace OdooSemantic
namespace Stylesheets

/-! ## The text as a stylesheet -/

inductive Language where
  | css
  | scss
  | less
deriving DecidableEq

/-- What the next character is in. -/
inductive Context where
  /-- Neither a string nor a comment; with what was read of it, backwards. -/
  | code (read : List Char)
  /-- After a backslash that is in no string. -/
  | escaped
  | quoted (quote : Char)
  | quotedEscape (quote : Char)
  | comment
  /-- After a star in a comment. -/
  | star
  | lineComment

/-- In the parentheses of `url(…)`, where two slashes begin no comment. -/
def inUrl (read : List Char) : Bool :=
  let call := read.takeWhile (· ≠ ')')
  call.tails.any fun t => "(lru".toList.isPrefixOf (t.map Char.toLower)

/-- Nothing for a line break in a string. -/
def Context.next (lang : Language) : Context → Char → Option Context
  | .code read, c =>
      if c = '"' ∨ c = '\'' then some (.quoted c)
      else if c = '\\' then some .escaped
      else if read.head? = some '/' ∧ c = '*' then some .comment
      else if read.head? = some '/' ∧ c = '/' ∧ lang ≠ .css ∧ !inUrl read then some .lineComment
      else some (.code (c :: read))
  | .escaped, _ => some (.code [])
  | .quoted q, c =>
      if c = q then some (.code [])
      else if c = '\\' then some (.quotedEscape q)
      else if c = '\n' then none
      else some (.quoted q)
  | .quotedEscape q, _ => some (.quoted q)
  | .comment, c => some (if c = '*' then .star else .comment)
  | .star, c => some (if c = '/' then .code [] else if c = '*' then .star else .comment)
  | .lineComment, c => some (if c = '\n' then .code [] else .lineComment)

/-- The braces that are braces. -/
def Context.depth : Context → Char → Nat → Nat
  | .code _, '{', depth => depth + 1
  | .code _, '}', depth => depth - 1
  | _, _, depth => depth

/-- Up to the brace that closes the first one. -/
def closingFrom (lang : Language) : Context → Nat → List Char → Option (List Char)
  | _, _, [] => none
  | s, depth, c :: cs =>
      if s.depth c depth = 0 then some [c]
      else (s.next lang c).bind fun s' => (closingFrom lang s' (s.depth c depth) cs).map (c :: ·)

/-- The block that begins at `start`, if there is a brace and a brace that closes it. -/
def closing (lang : Language) (text : List Char) (start : Nat) : Option (List Char) :=
  if (text.drop start).head? = some '{' then closingFrom lang (.code []) 0 (text.drop start)
  else none

theorem closingFrom_prefix {lang : Language} {cs b : List Char} :
    ∀ {s : Context} {depth : Nat}, closingFrom lang s depth cs = some b → b ≠ [] ∧ b <+: cs := by
  induction cs generalizing b with
  | nil => simp [closingFrom]
  | cons c cs ih =>
    intro s depth h
    rw [closingFrom] at h
    split at h
    · obtain rfl := Option.some.inj h
      simp
    · obtain ⟨s', -, h⟩ := Option.bind_eq_some_iff.mp h
      obtain ⟨b', hb', rfl⟩ := Option.map_eq_some_iff.mp h
      exact ⟨by simp, List.cons_prefix_cons.mpr ⟨rfl, (ih hb').2⟩⟩

/-! ## The braces alone -/

/-- What a character adds to the count. -/
def brace (c : Char) : Int := if c = '{' then 1 else if c = '}' then -1 else 0

/-- Opening braces less closing ones, wherever they are. -/
def braces (cs : List Char) : Int := (cs.map brace).sum

@[simp] theorem braces_nil : braces [] = 0 := rfl

@[simp] theorem braces_cons (c : Char) (cs : List Char) : braces (c :: cs) = brace c + braces cs := by
  simp [braces]

/-- From `depth` on, the count does not come to nothing before the end of `b`. -/
def StaysOpen (depth : Nat) (b : List Char) : Prop :=
  ∀ p, p <+: b → p ≠ b → (depth : Int) + braces p ≠ 0

/-- The count comes to nothing with `b` and not before, or never and `b` is all there is. -/
structure ClosesAt (b cs : List Char) : Prop where
  open_before : ∀ p, p <+: b → p ≠ [] → p ≠ b → braces p ≠ 0
  closed : braces b = 0 ∨ b = cs

theorem staysOpen_cons_iff {depth depth' : Nat} {c : Char} {b : List Char}
    (hd : depth ≠ 0) (hc : (depth' : Int) = depth + brace c) :
    StaysOpen depth (c :: b) ↔ StaysOpen depth' b := by
  constructor
  · intro h p hp hne
    have hcp := h (c :: p) (List.cons_prefix_cons.mpr ⟨rfl, hp⟩) (by simpa using hne)
    rw [braces_cons] at hcp
    rwa [hc, add_assoc]
  · intro h p hp hne
    rcases List.prefix_cons_iff.mp hp with rfl | ⟨p', rfl, hp'⟩
    · simpa using hd
    · have hb := h p' hp' (fun heq => hne (by rw [heq]))
      rw [hc, add_assoc] at hb
      rwa [braces_cons]

/-- What one character does that does not close the block. -/
theorem extractBlock_cons {depth : Nat} {c : Char} (cs : List Char) (h : c ≠ '}' ∨ 1 < depth) :
    ∃ depth' : Nat, (depth' : Int) = depth + brace c ∧
      extractBlock depth (c :: cs) = c :: extractBlock depth' cs := by
  by_cases hopen : c = '{'
  · subst hopen
    exact ⟨depth + 1, by simp [brace], extractBlock_open depth cs⟩
  · by_cases hclose : c = '}'
    · subst hclose
      have hd : 1 < depth := h.resolve_left (by simp)
      refine ⟨depth - 1, by simp [brace]; omega, ?_⟩
      rw [extractBlock_close, if_neg (by omega)]
    · exact ⟨depth, by simp [brace, hopen, hclose], extractBlock_of_ne hopen hclose depth cs⟩

/-- In an open block, the count goes on to where it first comes to nothing. -/
theorem extractBlock_eq_iff {cs b : List Char} (hb : b <+: cs) : ∀ {depth : Nat}, depth ≠ 0 →
    (extractBlock depth cs = b ↔
      StaysOpen depth b ∧ ((depth : Int) + braces b = 0 ∨ b = cs)) := by
  induction cs generalizing b with
  | nil =>
    intro depth _
    obtain rfl := List.prefix_nil.mp hb
    simp [extractBlock, StaysOpen]
  | cons c cs ih =>
    intro depth hd
    rcases List.prefix_cons_iff.mp hb with rfl | ⟨b', rfl, hb'⟩
    · have hne : extractBlock depth (c :: cs) ≠ [] := by
        unfold extractBlock
        split <;> simp_all
      simp [hne, hd]
    · by_cases hlast : c = '}' ∧ depth = 1
      · obtain ⟨rfl, rfl⟩ := hlast
        rw [extractBlock_close, if_pos rfl]
        constructor
        · intro h
          obtain rfl : b' = [] := by simpa using h.symm
          refine ⟨fun p hp hne => ?_, Or.inl (by simp [brace])⟩
          rcases List.prefix_cons_iff.mp hp with rfl | ⟨p', rfl, hp'⟩
          · simp
          · exact absurd (by rw [List.prefix_nil.mp hp']) hne
        · rintro ⟨hopen, -⟩
          by_contra hne
          exact hopen ['}'] (by simp) hne (by simp [brace])
      · have hgoes : c ≠ '}' ∨ 1 < depth := by
          rcases not_and_or.mp hlast with h | h
          · exact Or.inl h
          · exact Or.inr (by omega)
        obtain ⟨depth', hdepth, hstep⟩ := extractBlock_cons cs hgoes
        have hd' : depth' ≠ 0 := by
          rintro rfl
          rw [brace] at hdepth
          split at hdepth
          · simp at hdepth
            omega
          · split at hdepth
            · exact hlast ⟨‹_›, by push_cast at hdepth; omega⟩
            · push_cast at hdepth
              omega
        rw [hstep, List.cons.injEq, and_iff_right rfl, ih hb' hd', staysOpen_cons_iff hd hdepth,
          braces_cons, ← add_assoc, ← hdepth, List.cons.injEq, and_iff_right rfl]

/-- The count that begins with the brace of the block. -/
theorem closesAt_cons_iff {b cs : List Char} : ClosesAt ('{' :: b) ('{' :: cs) ↔
    StaysOpen 1 b ∧ (((1 : Nat) : Int) + braces b = 0 ∨ b = cs) := by
  have hone : brace '{' = 1 := rfl
  constructor
  · rintro ⟨hopen, hclosed⟩
    refine ⟨fun p hp hne => ?_, by simpa [hone] using hclosed⟩
    have h := hopen ('{' :: p) (List.cons_prefix_cons.mpr ⟨rfl, hp⟩) (by simp) (by simpa using hne)
    rwa [braces_cons, hone] at h
  · rintro ⟨hopen, hclosed⟩
    refine ⟨fun p hp hnil hne => ?_, by simpa [hone] using hclosed⟩
    rcases List.prefix_cons_iff.mp hp with rfl | ⟨p', rfl, hp'⟩
    · exact absurd rfl hnil
    · rw [braces_cons, hone]
      exact hopen p' hp' fun heq => hne (by rw [heq])

/-- Of a block as it is read, the parsers find the end if every brace counts and it still is the end. -/
theorem extract_block_iff (lang : Language) (text : List Char) (start : Nat) (b : List Char)
    (h : closing lang text start = some b) :
    extractBlockAt text start = (b, start + b.length) ↔ ClosesAt b (text.drop start) := by
  unfold closing at h
  split at h
  · rename_i hhead
    obtain ⟨cs, hcs⟩ := List.head?_eq_some_iff.mp hhead
    rw [hcs] at h ⊢
    obtain ⟨hne, hpre⟩ := closingFrom_prefix h
    obtain rfl | ⟨b', rfl, hpre'⟩ := List.prefix_cons_iff.mp hpre
    · exact absurd rfl hne
    · have hblock : extractBlockAt text start = ('{' :: b', start + ('{' :: b').length) ↔
          extractBlock 1 cs = b' := by
        unfold extractBlockAt
        rw [hcs, extractBlock_open]
        simp only [Prod.mk.injEq, List.cons.injEq, true_and, zero_add]
        exact ⟨fun heq => heq.1, fun heq => ⟨heq, by rw [heq]⟩⟩
      rw [hblock, extractBlock_eq_iff hpre' one_ne_zero, closesAt_cons_iff]
  · exact absurd h (by simp)

/-- A rule whose content is a brace. -/
def quotedBrace : List Char := "a\x7bcontent:'\x7d'\x7d b\x7bcolor:red\x7d".toList

theorem extract_block_iff_plain :
    extractBlockAt "a\x7bb:c\x7d d\x7b\x7d".toList 1 = ("\x7bb:c\x7d".toList, 6) ↔
      ClosesAt "\x7bb:c\x7d".toList ("a\x7bb:c\x7d d\x7b\x7d".toList.drop 1) :=
  extract_block_iff .css "a\x7bb:c\x7d d\x7b\x7d".toList 1 "\x7bb:c\x7d".toList (by decide)

/-- The block ends in the string, in each of the languages. -/
theorem ends_in_string (lang : Language) :
    closing lang quotedBrace 1 = some "\x7bcontent:'\x7d'\x7d".toList ∧
      extractBlockAt quotedBrace 1 = ("\x7bcontent:'\x7d".toList, 12) := by
  cases lang <;> exact ⟨by decide, by decide⟩

theorem ends_too_early : ¬ ∀ (lang : Language) (text : List Char) (start : Nat) (b : List Char),
    closing lang text start = some b → extractBlockAt text start = (b, start + b.length) := by
  intro h
  obtain ⟨hclosing, hblock⟩ := ends_in_string .scss
  have hend := h .scss quotedBrace 1 _ hclosing
  rw [hblock] at hend
  exact absurd hend (by decide)

end Stylesheets
end OdooSemantic
