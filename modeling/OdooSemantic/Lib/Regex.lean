import OdooSemantic.Lib.PyText

/-!
# Python's `re`, as far as it goes without backreferences

A pattern is matched from where one stands, greedily, and what comes behind it is tried with every
way in which it can match, the first choice first. The one thing a match remembers besides its two
ends is the first group.

`finditer` gives the matches from left to right. One that is empty is not looked for again where it
was found.
-/

namespace OdooSemantic

inductive Regex where
  | empty
  | char (p : Char → Bool)
  /-- `^` under `MULTILINE` -/
  | lineStart
  /-- `\b`, for these word characters. -/
  | wordEdge (isWord : Char → Bool)
  | seq (r r' : Regex)
  | alt (r r' : Regex)
  | star (r : Regex)
  /-- The first group. -/
  | group (r : Regex)
  /-- `(?!…)` -/
  | notAhead (r : Regex)

namespace Regex

/-- A place in a text. -/
structure Cursor where
  /-- Backwards. -/
  before : List Char
  after : List Char

structure MatchState where
  cursor : Cursor
  captured : Option (List Char) := none

structure Match where
  start : Cursor
  stop : Cursor
  group1 : Option (List Char)

/-- The text from one place to a later one. -/
def Cursor.upTo (start stop : Cursor) : List Char :=
  (stop.before.take (stop.before.length - start.before.length)).reverse

/-- `m.group(0)` -/
def Match.text (m : Match) : List Char := m.start.upTo m.stop

/-- `m.group(1)` -/
def Match.group (m : Match) : List Char := m.group1.getD []

/-- As often as it goes, and less often if what comes behind asks for it. -/
def loop (once : (MatchState → Option MatchState) → MatchState → Option MatchState) :
    Nat → (MatchState → Option MatchState) → MatchState → Option MatchState
  | 0, k, s => k s
  | n + 1, k, s =>
      (once (fun s' =>
        if s'.cursor.after.length < s.cursor.after.length then loop once n k s' else none)
        s).orElse fun _ => k s

/-- `k` is what comes behind the pattern. -/
def run : Regex → (MatchState → Option MatchState) → MatchState → Option MatchState
  | empty, k, s => k s
  | char p, k, s =>
      match s.cursor.after with
      | [] => none
      | c :: cs => if p c then k { s with cursor := ⟨c :: s.cursor.before, cs⟩ } else none
  | lineStart, k, s =>
      match s.cursor.before with
      | [] => k s
      | c :: _ => if c = '\n' then k s else none
  | wordEdge isWord, k, s =>
      if s.cursor.before.head?.any isWord = s.cursor.after.head?.any isWord then none else k s
  | seq r r', k, s => run r (run r' k) s
  | alt r r', k, s => (run r k s).orElse fun _ => run r' k s
  | star r, k, s => loop (run r) s.cursor.after.length k s
  | group r, k, s => run r (fun s' => k { s' with captured := some (s.cursor.upTo s'.cursor) }) s
  | notAhead r, k, s => if (run r some s).isSome then none else k s

/-! ### One constructor at a time -/

section Equations

variable (r r' : Regex) (k : MatchState → Option MatchState) (s : MatchState)

theorem loop_succ (once : (MatchState → Option MatchState) → MatchState → Option MatchState)
    (n : Nat) : loop once (n + 1) k s =
      (once (fun s' =>
        if s'.cursor.after.length < s.cursor.after.length then loop once n k s' else none)
        s).orElse fun _ => k s := rfl

theorem run_empty : run empty k s = k s := rfl

theorem run_char (p : Char → Bool) : run (char p) k s =
    match s.cursor.after with
    | [] => none
    | c :: cs => if p c then k { s with cursor := ⟨c :: s.cursor.before, cs⟩ } else none := rfl

theorem run_lineStart : run lineStart k s =
    match s.cursor.before with
    | [] => k s
    | c :: _ => if c = '\n' then k s else none := rfl

theorem run_wordEdge (isWord : Char → Bool) : run (wordEdge isWord) k s =
    if s.cursor.before.head?.any isWord = s.cursor.after.head?.any isWord then none else k s := rfl

theorem run_seq : run (seq r r') k s = run r (run r' k) s := rfl

theorem run_alt : run (alt r r') k s = (run r k s).orElse fun _ => run r' k s := rfl

theorem run_star : run (star r) k s = loop (run r) s.cursor.after.length k s := rfl

theorem run_group : run (group r) k s =
    run r (fun s' => k { s' with captured := some (s.cursor.upTo s'.cursor) }) s := rfl

theorem run_notAhead : run (notAhead r) k s =
    if (run r some s).isSome then none else k s := rfl

end Equations

/-- A match that begins here, and is not empty if it has to go on. -/
def matchHere (r : Regex) (mustAdvance : Bool) (at' : Cursor) : Option Match :=
  (run r (fun s =>
    if mustAdvance && s.cursor.after.length == at'.after.length then none else some s)
    { cursor := at' }).map fun s => ⟨at', s.cursor, s.captured⟩

/-- `re.search`, from a place on. -/
def searchFrom (r : Regex) (mustAdvance : Bool) (before : List Char) :
    List Char → Option Match
  | [] => matchHere r mustAdvance ⟨before, []⟩
  | c :: cs =>
      (matchHere r mustAdvance ⟨before, c :: cs⟩).orElse fun _ => searchFrom r false (c :: before) cs

def finditerFrom (r : Regex) : Nat → Bool → Cursor → List Match
  | 0, _, _ => []
  | n + 1, mustAdvance, here =>
      match searchFrom r mustAdvance here.before here.after with
      | none => []
      | some m => m :: finditerFrom r n (m.start.after.length == m.stop.after.length) m.stop

/-- `r.finditer(text)` -/
def finditer (r : Regex) (text : List Char) : List Match :=
  finditerFrom r (2 * text.length + 1) false ⟨[], text⟩

/-- `r.match(text)`, as a truth value. -/
def isMatch (r : Regex) (text : List Char) : Bool := (matchHere r false ⟨[], text⟩).isSome

/-! ## Patterns in use -/

def opt (r : Regex) : Regex := .alt r .empty

def plus (r : Regex) : Regex := .seq r (.star r)

def seqs : List Regex → Regex
  | [] => .empty
  | [r] => r
  | r :: rs => .seq r (seqs rs)

def alts : List Regex → Regex
  | [] => .char fun _ => false
  | [r] => r
  | r :: rs => .alt r (alts rs)

/-- `[chars]` -/
def oneOf (chars : String) : Regex := .char fun c => chars.toList.contains c

/-- `[^chars]` -/
def noneOf (chars : String) : Regex := .char fun c => !chars.toList.contains c

def lit (text : String) : Regex := seqs (text.toList.map fun c => .char (· == c))

/-- A letter under `IGNORECASE`: the two that are no ASCII letters among those of `i`, and those of
    `s` and `k`. -/
def sameLetter (c d : Char) : Bool :=
  d.toLower == c || (c == 'i' && (d.toNat == 0x130 || d.toNat == 0x131)) ||
    (c == 's' && d.toNat == 0x17f) || (c == 'k' && d.toNat == 0x212a)

/-- Small letters, under `IGNORECASE`. -/
def litIgnoreCase (text : String) : Regex := seqs (text.toList.map fun c => .char (sameLetter c))

/-- `\s*` -/
def spaces : Regex := .star (.char PyText.isSpace)

/-- `\s+` -/
def spaces1 : Regex := plus (.char PyText.isSpace)

/-- `re.search(pattern, text)` -/
def search (r : Regex) (text : List Char) : Option Match := searchFrom r false [] text

/-! ## What comes behind -/

theorem run_seqs_cons (r : Regex) (rs : List Regex) (k : MatchState → Option MatchState)
    (s : MatchState) : run (seqs (r :: rs)) k s = run r (run (seqs rs) k) s := by
  cases rs with
  | nil => rfl
  | cons r' rs => rfl

/-- So many characters further. -/
def Cursor.advance (here : Cursor) (n : Nat) : Cursor :=
  ⟨(here.after.take n).reverse ++ here.before, here.after.drop n⟩

/-- Behind the characters of a class. -/
def Cursor.skip (here : Cursor) (p : Char → Bool) : Cursor :=
  ⟨(here.after.takeWhile p).reverse ++ here.before, here.after.dropWhile p⟩

theorem Cursor.upTo_skip (here : Cursor) (p : Char → Bool) :
    here.upTo (here.skip p) = here.after.takeWhile p := by
  unfold upTo skip
  simp

theorem run_lit (text : String) (k : MatchState → Option MatchState) (s : MatchState) :
    run (lit text) k s =
      if text.toList.isPrefixOf s.cursor.after then
        k { s with cursor := s.cursor.advance text.toList.length }
      else none := by
  unfold lit
  generalize text.toList = cs
  induction cs generalizing s with
  | nil => rfl
  | cons c cs ih =>
    rw [List.map_cons, run_seqs_cons, run_char]
    cases hafter : s.cursor.after with
    | nil => rfl
    | cons d ds =>
      dsimp only
      rw [List.isPrefixOf, ih]
      by_cases hd : d = c
      · subst hd
        simp [Cursor.advance, hafter]
      · simp [hd, Ne.symm hd]

section Class

variable {p : Char → Bool} {k : MatchState → Option MatchState}

private theorem loop_char (n : Nat) (s : MatchState) (c : Char) (cs : List Char)
    (hafter : s.cursor.after = c :: cs) :
    loop (run (char p)) (n + 1) k s =
      if p c then
        (loop (run (char p)) n k { s with cursor := ⟨c :: s.cursor.before, cs⟩ }).orElse fun _ => k s
      else k s := by
  rw [loop_succ, run_char, hafter]
  dsimp only
  split
  · rw [if_pos (by simp)]
  · rfl

/-- All that there is, if what comes behind agrees. -/
theorem run_star_of_some {s r : MatchState} (h : k { s with cursor := s.cursor.skip p } = some r) :
    run (star (char p)) k s = some r := by
  rw [run_star]
  generalize hn : s.cursor.after.length = n
  induction n generalizing s with
  | zero =>
    obtain ⟨⟨before, after⟩, captured⟩ := s
    obtain rfl := List.eq_nil_of_length_eq_zero hn
    exact h
  | succ n ih =>
    obtain ⟨⟨before, after⟩, captured⟩ := s
    cases after with
    | nil => exact absurd hn (by simp)
    | cons c cs =>
      rw [loop_char n _ c cs rfl]
      by_cases hc : p c = true
      · rw [if_pos hc, ih]
        · rfl
        · simpa [Cursor.skip, hc] using h
        · simpa using hn
      · rw [if_neg hc]
        simpa [Cursor.skip, hc] using h

/-- All that there is, if what comes behind does not begin with such a character. -/
theorem run_star_of_blocked
    (hk : ∀ s : MatchState, s.cursor.after.head?.any p = true → k s = none) (s : MatchState) :
    run (star (char p)) k s = k { s with cursor := s.cursor.skip p } := by
  rw [run_star]
  generalize hn : s.cursor.after.length = n
  induction n generalizing s with
  | zero =>
    obtain ⟨⟨before, after⟩, captured⟩ := s
    obtain rfl := List.eq_nil_of_length_eq_zero hn
    rfl
  | succ n ih =>
    obtain ⟨⟨before, after⟩, captured⟩ := s
    cases after with
    | nil => exact absurd hn (by simp)
    | cons c cs =>
      rw [loop_char n _ c cs rfl]
      by_cases hc : p c = true
      · have hstop : k ⟨⟨before, c :: cs⟩, captured⟩ = none := hk _ (by simpa using hc)
        rw [if_pos hc, ih _ (by simpa using hn), hstop]
        simp [Cursor.skip, hc]
      · rw [if_neg hc]
        simp [Cursor.skip, hc]

/-- One or more, if there is one. -/
theorem run_plus_of_some {s r : MatchState} (hone : s.cursor.after.head?.any p = true)
    (h : k { s with cursor := s.cursor.skip p } = some r) : run (plus (char p)) k s = some r := by
  obtain ⟨⟨before, after⟩, captured⟩ := s
  cases after with
  | nil => exact absurd hone (by simp)
  | cons c cs =>
    have hc : p c = true := by simpa using hone
    rw [plus, run_seq, run_char]
    dsimp only
    rw [if_pos hc]
    refine run_star_of_some ?_
    simpa [Cursor.skip, hc] using h

/-- What a repeated class has matched are characters of it. -/
theorem exists_of_run_star {s r : MatchState} (h : run (star (char p)) k s = some r) :
    ∃ pre post, s.cursor.after = pre ++ post ∧ (∀ c ∈ pre, p c = true) ∧
      k { s with cursor := ⟨pre.reverse ++ s.cursor.before, post⟩ } = some r := by
  rw [run_star] at h
  generalize hn : s.cursor.after.length = n at h
  induction n generalizing s with
  | zero => exact ⟨[], s.cursor.after, rfl, by simp, h⟩
  | succ n ih =>
    obtain ⟨⟨before, after⟩, captured⟩ := s
    cases after with
    | nil => exact absurd hn (by simp)
    | cons c cs =>
      rw [loop_char n _ c cs rfl] at h
      split at h
      · rename_i hc
        cases hmore : loop (run (char p)) n k ⟨⟨c :: before, cs⟩, captured⟩ with
        | none =>
          rw [hmore] at h
          exact ⟨[], c :: cs, rfl, by simp, h⟩
        | some r' =>
          rw [hmore] at h
          obtain ⟨pre, post, hcs, hpre, hk⟩ := ih (by simpa using hn) (hmore.trans h)
          obtain rfl : cs = pre ++ post := hcs
          exact ⟨c :: pre, post, rfl, by simpa [hc] using hpre, by simpa using hk⟩
      · exact ⟨[], c :: cs, rfl, by simp, h⟩

end Class

/-! ## Where no match can end -/

/-- What comes behind is tried on ends of the text only. -/
theorem run_eq_none {r : Regex} : ∀ {k : MatchState → Option MatchState} {s : MatchState},
    (∀ s', s'.cursor.after <:+ s.cursor.after → k s' = none) → run r k s = none := by
  induction r with
  | empty =>
    intro k s h
    exact h s (List.suffix_refl _)
  | char p =>
    intro k s h
    rw [run_char]
    cases hafter : s.cursor.after with
    | nil => rfl
    | cons c cs =>
      dsimp only
      split
      · exact h _ (by rw [hafter]; exact List.suffix_cons c cs)
      · rfl
  | lineStart =>
    intro k s h
    rw [run_lineStart]
    split
    · exact h s (List.suffix_refl _)
    · split
      · exact h s (List.suffix_refl _)
      · rfl
  | wordEdge isWord =>
    intro k s h
    rw [run_wordEdge]
    split
    · rfl
    · exact h s (List.suffix_refl _)
  | seq r r' ih ih' =>
    intro k s h
    rw [run_seq]
    exact ih fun s' hs' => ih' fun s'' hs'' => h s'' (hs''.trans hs')
  | alt r r' ih ih' =>
    intro k s h
    rw [run_alt, ih h, ih' h]
    rfl
  | star r ih =>
    intro k s h
    rw [run_star]
    generalize s.cursor.after.length = n
    induction n generalizing s with
    | zero => exact h s (List.suffix_refl _)
    | succ n ihn =>
      rw [loop_succ, ih, h s (List.suffix_refl _)]
      · rfl
      · intro s' hs'
        split
        · exact ihn fun s'' hs'' => h s'' (hs''.trans hs')
        · rfl
  | group r ih =>
    intro k s h
    rw [run_group]
    exact ih fun s' hs' => h _ hs'
  | notAhead r _ =>
    intro k s h
    rw [run_notAhead]
    split
    · rfl
    · exact h s (List.suffix_refl _)

theorem run_alts_cons (r r' : Regex) (rs : List Regex) (k : MatchState → Option MatchState)
    (s : MatchState) :
    run (alts (r :: r' :: rs)) k s = (run r k s).orElse fun _ => run (alts (r' :: rs)) k s := rfl

/-- The text begins with these letters, or with capital ones. -/
def beginsWithLetters : List Char → List Char → Bool
  | [], _ => true
  | _ :: _, [] => false
  | c :: cs, d :: ds => sameLetter c d && beginsWithLetters cs ds

theorem run_litIgnoreCase (text : String) (k : MatchState → Option MatchState) (s : MatchState) :
    run (litIgnoreCase text) k s =
      if beginsWithLetters text.toList s.cursor.after then
        k { s with cursor := s.cursor.advance text.toList.length }
      else none := by
  unfold litIgnoreCase
  generalize text.toList = cs
  induction cs generalizing s with
  | nil => rfl
  | cons c cs ih =>
    rw [List.map_cons, run_seqs_cons, run_char]
    cases hafter : s.cursor.after with
    | nil => rfl
    | cons d ds =>
      dsimp only
      by_cases hd : sameLetter c d = true
      · rw [if_pos hd, ih, beginsWithLetters, hd, Bool.true_and]
        simp [Cursor.advance, hafter]
      · rw [if_neg hd, beginsWithLetters, Bool.eq_false_iff.mpr hd, Bool.false_and]
        rfl

theorem toLower_eq_at {c : Char} (h : c.toLower = '@') : c = '@' := by
  unfold Char.toLower at h
  split at h
  · rename_i hupper
    have hlow : 65 ≤ c.val.toNat := UInt32.le_iff_toNat_le.mp hupper.1
    have hhigh : c.val.toNat ≤ 90 := UInt32.le_iff_toNat_le.mp hupper.2
    have hsum : (c.val + ('a'.val - 'A'.val)).toNat = 64 := congrArg Char.toNat h
    have hshift : ('a'.val - 'A'.val).toNat = 32 := rfl
    rw [UInt32.toNat_add, hshift] at hsum
    omega
  · exact h

theorem sameLetter_at {c : Char} (h : c ≠ '@') : sameLetter '@' c = false := by
  simp only [sameLetter, Bool.or_eq_false_iff]
  refine ⟨⟨⟨?_, by simp⟩, by simp⟩, by simp⟩
  simpa using fun heq => h (toLower_eq_at heq)

theorem upTo_of_before (before after after' cs : List Char) :
    Cursor.upTo ⟨before, after⟩ ⟨cs.reverse ++ before, after'⟩ = cs := by
  simp [Cursor.upTo]

theorem finditerFrom_skip {r : Regex} {p before rest : List Char} (n : Nat)
    (h : searchFrom r false before (p ++ rest) = searchFrom r false (p.reverse ++ before) rest) :
    finditerFrom r n false ⟨before, p ++ rest⟩ = finditerFrom r n false ⟨p.reverse ++ before, rest⟩ := by
  cases n with
  | zero => rfl
  | succ n =>
    rw [finditerFrom, finditerFrom]
    simp only [h]

example : ((finditer (seqs [.lineStart, .group (plus (oneOf "ab")), lit "b"]) "abb\ncb\nab".toList).map
    fun m => String.ofList m.group) = ["ab", "a"] := by rfl

end Regex
end OdooSemantic
