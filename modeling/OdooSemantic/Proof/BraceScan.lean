import OdooSemantic.Indexer.Era1Columns

/-!
# The brackets that are brackets

A text is read as lexemes: string literals, comments, braces and other characters. Of such a text the
scanner finds the brace that closes, and if the tokenizer reads the same lexemes, it finds the same
one. Only that it looks for lines where `splitlines` sees some, and the tokenizer counts newlines.
-/

namespace OdooSemantic
namespace Era1

/-! ## Lexemes -/

/-- A character of a string literal. -/
inductive Piece where
  | plain (c : Char)
  | escaped (c : Char)

def Piece.text : Piece → List Char
  | plain c => [c]
  | escaped c => ['\\', c]

def Piece.texts (ps : List Piece) : List Char := ps.flatMap Piece.text

@[simp] theorem Piece.texts_nil : Piece.texts [] = [] := rfl

@[simp] theorem Piece.texts_cons (p : Piece) (ps : List Piece) :
    Piece.texts (p :: ps) = p.text ++ Piece.texts ps := rfl

/-- What a literal begins and ends with. -/
def delimiter (quote : Char) (triple : Bool) : List Char :=
  if triple then [quote, quote, quote] else [quote]

/-- The literal ends where its delimiter first stands, escapes apart. -/
structure Literal where
  letters : List Char
  quote : Char
  triple : Bool
  body : List Piece
  letters_alpha : ∀ c ∈ letters, c.isAlpha
  quote_eq : quote = '"' ∨ quote = '\''
  plain_ne : ∀ p ∈ body, p ≠ .plain '\\'
  ends : ∀ ps, ps <:+ body → ps ≠ [] →
    ¬ delimiter quote triple <+: Piece.texts ps ++ delimiter quote triple

/-- From the first quote on. -/
def Literal.quoted (s : Literal) : List Char :=
  delimiter s.quote s.triple ++ Piece.texts s.body ++ delimiter s.quote s.triple

inductive Lexeme where
  | literal (s : Literal)
  | comment (text : List Char) (h : '\n' ∉ text)
  | opening
  | closing
  | other (c : Char) (h : c ∉ ['"', '\'', '#', '\x7b', '\x7d'])

namespace Lexeme

def text : Lexeme → List Char
  | literal s => s.letters ++ s.quoted
  | comment text _ => '#' :: text
  | opening => ['\x7b']
  | closing => ['\x7d']
  | other c _ => [c]

def texts (ls : List Lexeme) : List Char := ls.flatMap text

@[simp] theorem texts_nil : texts [] = [] := rfl

@[simp] theorem texts_cons (l : Lexeme) (ls : List Lexeme) : texts (l :: ls) = l.text ++ texts ls :=
  rfl

@[simp] theorem texts_append (ls ls' : List Lexeme) : texts (ls ++ ls') = texts ls ++ texts ls' :=
  List.flatMap_append

/-- The lexeme ends where the rest begins: a comment goes on to the end of the line, and an empty
    literal with another quote behind it would be the beginning of a longer one. -/
def EndsBefore (rest : List Char) : Lexeme → Prop
  | literal s => s.triple = false → s.body = [] → rest.head? ≠ some s.quote
  | comment _ _ => ∀ c ∈ rest.head?, c = '\n'
  | _ => True

/-- Each lexeme ends where the next one begins. -/
def Separated : List Lexeme → Prop
  | [] => True
  | l :: ls => l.EndsBefore (texts ls) ∧ Separated ls

/-- What a lexeme adds to the depth. -/
def net : Lexeme → Int
  | opening => 1
  | closing => -1
  | _ => 0

/-- So many braces are open in front, and behind these lexemes none is open for the first time when
    one more is closed. -/
def Inside (depth : Nat) (before : List Lexeme) : Prop :=
  depth + (before.map net).sum = 0 ∧ ∀ p, p <+: before → 0 ≤ depth + (p.map net).sum

/-- What stands before the brace that closes, with so many open inside. -/
def beforeClosing : Nat → List Lexeme → Option (List Lexeme)
  | _, [] => none
  | 0, closing :: _ => some []
  | d + 1, closing :: ls => (beforeClosing d ls).map (closing :: ·)
  | d, opening :: ls => (beforeClosing (d + 1) ls).map (opening :: ·)
  | d, l :: ls => (beforeClosing d ls).map (l :: ·)

/-- Anything but a brace. -/
theorem beforeClosing_of_net {l : Lexeme} (h : l.net = 0) (d : Nat) (ls : List Lexeme) :
    beforeClosing d (l :: ls) = (beforeClosing d ls).map (l :: ·) := by
  cases l with
  | literal s => cases d <;> rfl
  | comment text ht => cases d <;> rfl
  | other c hc => cases d <;> rfl
  | opening => exact absurd h (by decide)
  | closing => exact absurd h (by decide)

end Lexeme

/-! ## The scanner reads lexemes -/

theorem skipString_plain {q : List Char} {c : Char} {cs : List Char} (hc : c ≠ '\\') :
    skipString q (c :: cs) =
      if q.isPrefixOf (c :: cs) then (c :: cs).drop q.length else skipString q cs := by
  rw [skipString]
  · intro h
    exact absurd h hc
  · intro d ds h
    exact absurd h hc

theorem delimiter_eq_cons (quote : Char) (triple : Bool) :
    ∃ more, delimiter quote triple = quote :: more := by
  cases triple <;> exact ⟨_, rfl⟩

/-- Behind the literal, by induction on its pieces. -/
theorem skipString_pieces {quote : Char} {triple : Bool} (hq : quote ≠ '\\') {body : List Piece}
    (hplain : ∀ p ∈ body, p ≠ .plain '\\')
    (hends : ∀ ps, ps <:+ body → ps ≠ [] →
      ¬ delimiter quote triple <+: Piece.texts ps ++ delimiter quote triple) (rest : List Char) :
    skipString (delimiter quote triple) (Piece.texts body ++ delimiter quote triple ++ rest) = rest := by
  induction body with
  | nil =>
    obtain ⟨more, hmore⟩ := delimiter_eq_cons quote triple
    rw [hmore, Piece.texts_nil, List.nil_append, List.cons_append, skipString_plain hq,
      if_pos (by simp), ← List.cons_append, List.drop_left]
  | cons p body ih =>
    have hrest := ih (fun p' hp' => hplain p' (List.mem_cons_of_mem _ hp'))
      (fun ps hps => hends ps (hps.trans (List.suffix_cons p body)))
    cases p with
    | escaped c =>
      simpa [Piece.text, skipString] using hrest
    | plain c =>
      have hc : c ≠ '\\' := fun h => hplain (.plain c) List.mem_cons_self (by rw [h])
      have hnot := hends (.plain c :: body) (List.suffix_refl _) (by simp)
      have hstep : ¬ (delimiter quote triple).isPrefixOf
          (c :: (Piece.texts body ++ delimiter quote triple ++ rest)) := by
        rw [List.isPrefixOf_iff_prefix]
        intro h
        have hpre : delimiter quote triple <+:
            (c :: (Piece.texts body ++ delimiter quote triple)) ++ rest := by simpa using h
        exact hnot (List.prefix_of_prefix_length_le hpre (List.prefix_append _ _) (by simp; omega))
      rw [Piece.texts_cons, Piece.text, List.append_assoc, List.append_assoc, List.singleton_append,
        skipString_plain hc, ← List.append_assoc, if_neg hstep, hrest]

/-- A literal that is not a triple one does not look like one. -/
theorem Literal.quoteAt_quoted (s : Literal) {rest : List Char}
    (h : (Lexeme.literal s).EndsBefore rest) :
    quoteAt (s.quoted ++ rest) = delimiter s.quote s.triple := by
  cases htriple : s.triple with
  | true =>
    rcases s.quote_eq with hq | hq <;> simp [Literal.quoted, quoteAt, delimiter, htriple, hq]
  | false =>
    have hsecond : ((Piece.texts s.body ++ s.quote :: rest).take 2) ≠ [s.quote, s.quote] := by
      cases hbody : s.body with
      | nil =>
        have hrest := h htriple hbody
        cases rest with
        | nil => simp
        | cons c cs => simpa using hrest
      | cons p body =>
        have hne := s.ends _ (List.suffix_refl _) (by simp [hbody])
        cases p with
        | plain c =>
          intro htwo
          refine hne ?_
          have hc : c = s.quote := by
            cases body with
            | nil => simpa [hbody, Piece.text] using (List.cons.inj htwo).1
            | cons _ _ => simpa [hbody, Piece.text] using (List.cons.inj htwo).1
          simp [hbody, Piece.text, delimiter, htriple, hc]
        | escaped c =>
          rcases s.quote_eq with hq | hq <;> simp [Piece.text, hq]
    have hthree : (s.quoted ++ rest).take 3 =
        s.quote :: (Piece.texts s.body ++ s.quote :: rest).take 2 := by
      simp [Literal.quoted, delimiter, htriple]
    unfold quoteAt
    rw [hthree, if_neg]
    · simp [Literal.quoted, delimiter, htriple]
    · rintro (h3 | h3)
      · obtain ⟨hq, h2⟩ := List.cons.inj h3
        exact hsecond (by rw [h2, hq])
      · obtain ⟨hq, h2⟩ := List.cons.inj h3
        exact hsecond (by rw [h2, hq])

section Scan

variable {d : Int} {rest : List Char}

theorem closeAt_other {c : Char} (h : c ∉ ['"', '\'', '#', '\x7b', '\x7d']) :
    closeAt '\x7b' '\x7d' d (c :: rest) = closeAt '\x7b' '\x7d' d rest := by
  simp only [List.mem_cons, List.not_mem_nil, or_false, not_or] at h
  obtain ⟨hd, hs, hh, ho, hc⟩ := h
  rw [closeAt, if_neg hh, if_neg (by simp [hd, hs]), if_neg ho, if_neg hc]

theorem closeAt_letters {letters : List Char} (h : ∀ c ∈ letters, c.isAlpha) :
    closeAt '\x7b' '\x7d' d (letters ++ rest) = closeAt '\x7b' '\x7d' d rest := by
  induction letters with
  | nil => rfl
  | cons c letters ih =>
    have hc := h c List.mem_cons_self
    rw [List.cons_append, closeAt_other, ih fun c' hc' => h c' (List.mem_cons_of_mem _ hc')]
    simp only [List.mem_cons, List.not_mem_nil, or_false, not_or]
    refine ⟨?_, ?_, ?_, ?_, ?_⟩ <;> rintro rfl <;> exact absurd hc (by decide)

theorem closeAt_quoted (s : Literal) (h : (Lexeme.literal s).EndsBefore rest) :
    closeAt '\x7b' '\x7d' d (s.quoted ++ rest) = closeAt '\x7b' '\x7d' d rest := by
  have hq : s.quote ≠ '#' ∧ s.quote ≠ '\\' := by
    rcases s.quote_eq with hq | hq <;> simp [hq]
  have hquote := s.quoteAt_quoted h
  obtain ⟨more, hmore⟩ := delimiter_eq_cons s.quote s.triple
  have hcons : s.quoted ++ rest = s.quote :: (more ++ (Piece.texts s.body ++
      delimiter s.quote s.triple ++ rest)) := by simp [Literal.quoted, hmore]
  rw [hcons] at hquote ⊢
  rw [closeAt, if_neg hq.1, if_pos s.quote_eq]
  simp only [hquote]
  rw [← List.cons_append, ← hmore, List.drop_left, skipString_pieces hq.2 s.plain_ne s.ends]

theorem skipComment_of_ends {text : List Char} (h : '\n' ∉ text)
    (hrest : ∀ c ∈ rest.head?, c = '\n') : skipComment (text ++ rest) = rest := by
  unfold skipComment
  rw [List.dropWhile_append_of_pos (by
    intro c hc
    simpa using fun heq : c = '\n' => h (heq ▸ hc))]
  cases rest with
  | nil => rfl
  | cons c cs =>
    rw [List.dropWhile_cons_of_neg]
    simpa using hrest c rfl

end Scan

open Lexeme

/-- **The scanner finds the brace that closes**, by induction on the lexemes. -/
theorem closeAt_texts {ls : List Lexeme} (h : Separated ls) : ∀ d : Nat,
    closeAt '\x7b' '\x7d' (d + 1) (texts ls) =
      (beforeClosing d ls).map fun before => (texts ls).drop (texts before).length := by
  induction ls with
  | nil => intro d; simp [beforeClosing, closeAt]
  | cons l ls ih =>
    intro d
    obtain ⟨hends, hls⟩ := h
    have hih := ih hls
    cases l with
    | literal s =>
      rw [texts_cons, Lexeme.text, List.append_assoc, closeAt_letters s.letters_alpha,
        closeAt_quoted s hends, hih, beforeClosing_of_net rfl]
      simp [Function.comp_def, Lexeme.text, ← List.drop_drop]
    | comment text ht =>
      rw [texts_cons, Lexeme.text, List.cons_append, closeAt, if_pos rfl,
        skipComment_of_ends ht hends, hih, beforeClosing_of_net rfl]
      simp [Function.comp_def, Lexeme.text]
    | other c hc =>
      rw [texts_cons, Lexeme.text, List.singleton_append, closeAt_other hc, hih, beforeClosing_of_net rfl]
      simp [Function.comp_def, Lexeme.text]
    | opening =>
      rw [texts_cons, Lexeme.text, List.singleton_append, closeAt, if_neg (by decide),
        if_neg (by decide), if_pos rfl, beforeClosing]
      have hdeeper := hih (d + 1)
      push_cast at hdeeper
      rw [hdeeper]
      simp [Function.comp_def, Lexeme.text]
    | closing =>
      rw [texts_cons, Lexeme.text, List.singleton_append, closeAt, if_neg (by decide),
        if_neg (by decide), if_neg (by decide), if_pos rfl]
      cases d with
      | zero => simp [beforeClosing]
      | succ d =>
        rw [if_neg (by push_cast; omega), beforeClosing]
        have hless := hih d
        push_cast
        rw [show (d : Int) + 1 + 1 - 1 = d + 1 by omega, hless]
        simp [Function.comp_def, Lexeme.text]

/-! ## The brace that closes -/

theorem inside_nil {d : Nat} : Inside d [] ↔ d = 0 := by
  simp [Inside]

theorem inside_cons {d d' : Nat} {l : Lexeme} {before : List Lexeme} (h : (d' : Int) = d + l.net) :
    Inside d (l :: before) ↔ Inside d' before := by
  unfold Inside
  rw [List.map_cons, List.sum_cons, ← Int.add_assoc, ← h]
  refine and_congr_right fun _ => ⟨fun hpre p hp => ?_, fun hpre p hp => ?_⟩
  · have hcons := hpre (l :: p) (List.cons_prefix_cons.mpr ⟨rfl, hp⟩)
    rwa [List.map_cons, List.sum_cons, ← Int.add_assoc, ← h] at hcons
  · rcases List.prefix_cons_iff.mp hp with rfl | ⟨p', rfl, hp'⟩
    · simp
    · rw [List.map_cons, List.sum_cons, ← Int.add_assoc, ← h]
      exact hpre p' hp'

/-- A brace too many. -/
theorem not_inside_zero_closing {before : List Lexeme} : ¬ Inside 0 (.closing :: before) := by
  rintro ⟨-, hpre⟩
  have h := hpre [.closing] (by simp)
  simp [net] at h

/-- `beforeClosing` finds the one brace that closes. -/
theorem beforeClosing_eq_some_iff {ls before : List Lexeme} : ∀ {d : Nat},
    beforeClosing d ls = some before ↔
      Inside d before ∧ ∃ after, ls = before ++ .closing :: after := by
  induction ls generalizing before with
  | nil => intro d; simp [beforeClosing]
  | cons l ls ih =>
    -- one lexeme further, which does not close
    have hstep : ∀ {d d' : Nat}, (d' : Int) = d + l.net →
        (l = .closing → d ≠ 0) →
        ((beforeClosing d' ls).map (l :: ·) = some before ↔
          Inside d before ∧ ∃ after, l :: ls = before ++ .closing :: after) := by
      intro d d' hd hl
      cases before with
      | nil =>
        rw [inside_nil]
        simp only [Option.map_eq_some_iff, List.nil_append, List.cons.injEq]
        constructor
        · rintro ⟨_, _, h⟩
          exact absurd h (by simp)
        · rintro ⟨hzero, _, hclosing, -⟩
          exact absurd hzero (hl hclosing)
      | cons l' before =>
        simp only [Option.map_eq_some_iff, List.cons_append, List.cons.injEq]
        constructor
        · rintro ⟨b, hb, rfl, rfl⟩
          obtain ⟨hin, after, hafter⟩ := ih.mp hb
          exact ⟨(inside_cons hd).mpr hin, after, rfl, hafter⟩
        · rintro ⟨hin, after, rfl, hafter⟩
          exact ⟨before, ih.mpr ⟨(inside_cons hd).mp hin, after, hafter⟩, rfl, rfl⟩
    intro d
    cases l with
    | literal s =>
      rw [beforeClosing_of_net rfl]
      exact hstep (by simp [net]) (by simp)
    | comment text ht =>
      rw [beforeClosing_of_net rfl]
      exact hstep (by simp [net]) (by simp)
    | other c hc =>
      rw [beforeClosing_of_net rfl]
      exact hstep (by simp [net]) (by simp)
    | opening =>
      rw [beforeClosing]
      exact hstep (by simp [net]) (by simp)
    | closing =>
      cases d with
      | succ d =>
        rw [beforeClosing]
        exact hstep (by rw [net]; omega) (by simp)
      | zero =>
        rw [beforeClosing]
        cases before with
        | nil => simp [inside_nil]
        | cons l' before =>
          simp only [Option.some.injEq, List.cons_append, List.cons.injEq]
          constructor
          · intro h
            exact absurd h (by simp)
          · rintro ⟨hin, _, rfl, -⟩
            exact absurd hin not_inside_zero_closing

theorem Lexeme.text_ne_nil (l : Lexeme) : l.text ≠ [] := by
  cases l with
  | literal s =>
    obtain ⟨more, hmore⟩ := delimiter_eq_cons s.quote s.triple
    simp [Lexeme.text, Literal.quoted, hmore]
  | _ => simp [Lexeme.text]

theorem Lexeme.texts_eq_nil_iff {ls : List Lexeme} : texts ls = [] ↔ ls = [] := by
  cases ls with
  | nil => simp
  | cons l ls => simp [l.text_ne_nil]

/-- What the scanner returns. -/
theorem stringAwareBraceScan_texts {ls : List Lexeme} (h : Separated ls) :
    stringAwareBraceScan (texts ls) = ((beforeClosing 0 ls).map texts).getD [] := by
  unfold stringAwareBraceScan
  have hclose : closeAt '\x7b' '\x7d' 1 (texts ls) = _ := closeAt_texts h 0
  rw [hclose]
  cases hb : beforeClosing 0 ls with
  | none => rfl
  | some before =>
    obtain ⟨-, after, rfl⟩ := beforeClosing_eq_some_iff.mp hb
    simp

/-! ## The tokenizer reads lexemes -/

/-- Where a text ends: the rows are counted by newlines. -/
def rowAt (before : List Char) : Nat := before.count '\n' + 1

def colAt (before : List Char) : Nat := (before.reverse.takeWhile (· ≠ '\n')).length

def Token.brace (string : String) (before : List Char) : Token :=
  ⟨true, string, rowAt before, colAt before⟩

def Token.isBrace (tok : Token) : Bool := tok.isOp && (tok.string == "\x7b" || tok.string == "\x7d")

/-- The braces of the replacement fields in a formatted string. -/
inductive Balanced : List Token → Prop
  | nil : Balanced []
  | wrap {field rest : List Token} {opening closing : Token} :
      opening.isOp → opening.string = "\x7b" → Balanced field →
      closing.isOp → closing.string = "\x7d" → Balanced rest →
      Balanced (opening :: field ++ closing :: rest)

/-- The braces among the tokens of a lexeme. -/
def Lexeme.Tokens (before : List Char) (own : List Token) : Lexeme → Prop
  | literal _ => Balanced own
  | opening => own = [.brace "\x7b" before]
  | closing => own = [.brace "\x7d" before]
  | _ => own = []

/-- The braces among the tokens of a text. -/
def Braces : List Char → List Lexeme → List Token → Prop
  | _, [], tokens => tokens = []
  | before, l :: ls, tokens =>
      ∃ own rest, tokens = own ++ rest ∧ l.Tokens before own ∧ Braces (before ++ l.text) ls rest

theorem closeToken_filter (tokens : List Token) : ∀ d : Int,
    closeToken d (tokens.filter Token.isBrace) = closeToken d tokens := by
  induction tokens with
  | nil => intro d; rfl
  | cons tok tokens ih =>
    intro d
    cases hbrace : tok.isBrace with
    | true =>
      rw [List.filter_cons_of_pos hbrace, closeToken, closeToken, ih, ih, ih]
    | false =>
      rw [List.filter_cons_of_neg (by simp [hbrace]), ih, closeToken, if_neg, if_neg]
      · rintro ⟨hop, hs⟩
        simp [Token.isBrace, hop, hs] at hbrace
      · rintro ⟨hop, hs⟩
        simp [Token.isBrace, hop, hs] at hbrace

theorem closeToken_balanced {own : List Token} (h : Balanced own) : ∀ (d : Nat) (rest : List Token),
    closeToken (d + 1) (own ++ rest) = closeToken (d + 1) rest := by
  induction h with
  | nil => intro d rest; rfl
  | @wrap field more opening closing hop hopening _ hop' hclosing _ ihField ihMore =>
    intro d rest
    have hdeeper := ihField (d + 1) (closing :: (more ++ rest))
    push_cast at hdeeper
    simp only [List.cons_append, List.append_assoc]
    rw [closeToken, if_pos ⟨hop, hopening⟩, hdeeper, closeToken, if_neg (by simp [hclosing]),
      if_pos ⟨hop', hclosing⟩, if_neg (by omega),
      show (d : Int) + 1 + 1 - 1 = d + 1 by omega, ihMore]

/-- The tokens close where the lexemes do. -/
theorem closeToken_braces {ls : List Lexeme} : ∀ {d : Nat} {before : List Char}
    {tokens : List Token}, Braces before ls tokens →
    closeToken (d + 1) tokens =
      (beforeClosing d ls).map fun inside => .brace "\x7d" (before ++ texts inside) := by
  induction ls with
  | nil =>
    rintro d before tokens rfl
    simp [beforeClosing, closeToken]
  | cons l ls ih =>
    rintro d before tokens ⟨own, rest, rfl, hown, hrest⟩
    -- a lexeme whose tokens do not change the depth
    have hstill : l.net = 0 →
        closeToken (d + 1) (own ++ rest) = closeToken (d + 1) rest →
        closeToken (d + 1) (own ++ rest) = (beforeClosing d (l :: ls)).map fun inside =>
          Token.brace "\x7d" (before ++ texts inside) := by
      intro hnet hown
      rw [hown, ih hrest, beforeClosing_of_net hnet]
      simp [Function.comp_def]
    cases l with
    | literal s => exact hstill rfl (closeToken_balanced hown d rest)
    | comment text ht =>
      obtain rfl : own = [] := hown
      exact hstill rfl rfl
    | other c hc =>
      obtain rfl : own = [] := hown
      exact hstill rfl rfl
    | opening =>
      obtain rfl : own = [.brace "\x7b" before] := hown
      rw [List.singleton_append, closeToken, if_pos ⟨rfl, rfl⟩, beforeClosing]
      have hdeeper := @ih (d + 1) _ _ hrest
      push_cast at hdeeper
      rw [hdeeper]
      simp [Function.comp_def]
    | closing =>
      obtain rfl : own = [.brace "\x7d" before] := hown
      rw [List.singleton_append, closeToken, if_neg (by simp [Token.brace]), if_pos ⟨rfl, rfl⟩]
      cases d with
      | zero => simp [beforeClosing]
      | succ d =>
        rw [if_neg (by push_cast; omega), beforeClosing]
        push_cast
        rw [show (d : Int) + 1 + 1 - 1 = d + 1 by omega, ih hrest]
        simp [Function.comp_def]

/-! ## Rows and columns -/

/-- No line of the text, the last one apart, has another character in it where `splitlines` splits. -/
def PlainLines (text : List Char) : Prop :=
  ∀ a b, text = a ++ '\n' :: b → ∀ c ∈ a, PyText.isLineBoundary c → c = '\n'

theorem linesFrom_line {line : List Char} (h : ∀ c ∈ line, PyText.isLineBoundary c = false)
    (acc rest : List Char) :
    PyText.linesFrom acc (line ++ '\n' :: rest) =
      (acc.reverse ++ line ++ ['\n']) :: PyText.linesFrom [] rest := by
  induction line generalizing acc with
  | nil =>
    rw [List.nil_append, PyText.linesFrom]
    · simp [PyText.isLineBoundary]
    · intro cs hr
      exact absurd hr (by decide)
  | cons c line ih =>
    have hc : PyText.isLineBoundary c = false := h c List.mem_cons_self
    rw [List.cons_append, PyText.linesFrom]
    · rw [if_neg (by simp [hc]), ih fun d hd => h d (List.mem_cons_of_mem _ hd)]
      simp
    · intro cs hr _
      subst hr
      exact absurd hc (by decide)

theorem colAt_line (line text : List Char) : colAt (line ++ '\n' :: text) = colAt text := by
  unfold colAt
  simp only [List.reverse_append, List.reverse_cons, List.append_assoc, List.singleton_append]
  rw [List.takeWhile_append]
  split
  · rename_i hall
    rw [List.takeWhile_cons_of_neg (by simp), List.append_nil, hall]
  · rfl

/-- The row begins where the table says, by induction on the lines. -/
theorem lineStarts_rowAt (rest : List Char) {text : List Char} (h : PlainLines text) (start : Nat) :
    ∃ s, ((PyText.linesFrom [] (text ++ rest)).scanl (fun start line => start + line.length)
        start)[rowAt text - 1]? = some s ∧ s + colAt text = start + text.length := by
  induction hn : text.length using Nat.strongRecOn generalizing text start with
  | ind n ih =>
    by_cases hmem : '\n' ∈ text
    · obtain ⟨line, text', rfl, hline⟩ := List.eq_append_cons_of_mem hmem
      have hplain : ∀ c ∈ line, PyText.isLineBoundary c = false := by
        intro c hc
        by_contra hb
        exact hline (h line text' rfl c hc (by simpa using hb) ▸ hc)
      have htext' : PlainLines text' := by
        rintro a b rfl c hc
        exact h (line ++ '\n' :: a) b (by simp) c (by simp [hc])
      simp only [List.length_append, List.length_cons] at hn
      obtain ⟨s, hs, hcol⟩ := ih text'.length (by omega) htext' (start + (line.length + 1)) rfl
      refine ⟨s, ?_, ?_⟩
      · have hrow : rowAt (line ++ '\n' :: text') - 1 = rowAt text' - 1 + 1 := by
          simp [rowAt, List.count_eq_zero_of_not_mem hline]
        rw [hrow, List.append_assoc, List.cons_append, linesFrom_line hplain, List.scanl_cons,
          List.getElem?_cons_succ]
        simpa using hs
      · rw [colAt_line, hcol]
        omega
    · refine ⟨start, by simp [rowAt, List.count_eq_zero_of_not_mem hmem], ?_⟩
      have hcol : colAt text = text.length := by
        unfold colAt
        have hall : ∀ c ∈ text.reverse, decide (c ≠ '\n') = true := by
          intro c hc
          simpa using fun heq : c = '\n' => hmem (heq ▸ List.mem_reverse.mp hc)
        have htake := @List.takeWhile_append_of_pos _ _ _ [] hall
        rw [List.append_nil, List.takeWhile_nil, List.append_nil] at htake
        rw [htake, List.length_reverse]
      rw [hcol, hn]

/-- The tokenizer fails, or reads the lexemes of the text, and the rows of what stands before the
    closing brace are those that `splitlines` sees. -/
def ReadsLexemes (generateTokens : List Char → Option (List Token)) (fragment : List Char) : Prop :=
  ∀ tokens, generateTokens fragment = some tokens →
    ∃ ls, Separated ls ∧ texts ls = fragment ∧ Braces [] ls (tokens.filter Token.isBrace) ∧
      ∀ before after, ls = before ++ .closing :: after → Inside 0 before → PlainLines (texts before)

/-- **The tokens and the scanner find the same block.** -/
theorem extractBalancedBraces_eq {generateTokens : List Char → Option (List Token)}
    {fragment : List Char} (h : ReadsLexemes generateTokens fragment) :
    extractBalancedBraces generateTokens fragment = some (stringAwareBraceScan fragment) := by
  unfold extractBalancedBraces
  cases htok : generateTokens fragment with
  | none => rfl
  | some tokens =>
    obtain ⟨ls, hls, rfl, hbraces, hplain⟩ := h tokens htok
    have hclose : closeToken 1 (tokens.filter Token.isBrace) = _ := @closeToken_braces ls 0 [] _ hbraces
    rw [closeToken_filter] at hclose
    dsimp only
    rw [hclose, stringAwareBraceScan_texts hls]
    cases hb : beforeClosing 0 ls with
    | none => rfl
    | some before =>
      obtain ⟨hin, after, rfl⟩ := beforeClosing_eq_some_iff.mp hb
      obtain ⟨s, hs, hoffset⟩ :=
        lineStarts_rowAt (texts (.closing :: after)) (hplain before after rfl hin) 0
      simp only [Option.map_some, Option.getD_some, List.nil_append, tokStartOffset, lineStarts,
        Token.brace]
      rw [texts_append, hs, Option.map_some, hoffset]
      simp

/-- The texts that a class body has behind the braces of its columns. -/
def fragments (body : List Char) : List (List Char) :=
  (Regex.search reColumnsHead body).toList.map (·.stop.after) ++
    (Regex.finditer reColumnsUpdate body).map (·.stop.after)

/-- Without a tokenizer. -/
def scannedFields (isAlnum : Char → Bool) (body : List Char) : Option (List FieldInfo) :=
  columnFields (fun _ => none) isAlnum body

theorem columnFields_eq {generateTokens : List Char → Option (List Token)} (isAlnum : Char → Bool)
    {body : List Char} (h : ∀ fragment ∈ fragments body, ReadsLexemes generateTokens fragment) :
    columnFields generateTokens isAlnum body = scannedFields isAlnum body := by
  have hblock : extractColumnsBlock generateTokens body = extractColumnsBlock (fun _ => none) body := by
    unfold extractColumnsBlock
    cases hm : Regex.search reColumnsHead body with
    | none => rfl
    | some m =>
      exact extractBalancedBraces_eq (h _ (List.mem_append_left _ (by simp [hm])))
  unfold scannedFields columnFields
  rw [hblock]
  cases extractColumnsBlock (fun _ => none) body with
  | none => rfl
  | some block =>
    rw [Option.bind_some, Option.bind_some]
    have hupdates : ∀ upd ∈ Regex.finditer reColumnsUpdate body,
        ReadsLexemes generateTokens upd.stop.after := fun upd hupd =>
      h _ (List.mem_append_right _ (List.mem_map_of_mem hupd))
    generalize addEntries isAlnum [] block = fieldsList
    generalize Regex.finditer reColumnsUpdate body = upds at hupdates
    induction upds generalizing fieldsList with
    | nil => rfl
    | cons upd upds ih =>
      rw [List.foldlM_cons, List.foldlM_cons,
        extractBalancedBraces_eq (hupdates upd List.mem_cons_self)]
      exact ih _ fun u hu => hupdates u (List.mem_cons_of_mem _ hu)

/-- The scanner returns what stands before the brace that closes, and nothing just if there is no
    such brace or nothing before it. With the tokens, a class has the same fields. -/
theorem brace_scan_finds_closing :
    (∀ ls, Separated ls →
      (∀ before after, ls = before ++ .closing :: after → Inside 0 before →
        stringAwareBraceScan (texts ls) = texts before) ∧
      (stringAwareBraceScan (texts ls) = [] ↔
        ∀ before after, ls = before ++ .closing :: after → Inside 0 before → before = [])) ∧
    ∀ (generateTokens : List Char → Option (List Token)) (isAlnum : Char → Bool) (body : List Char),
      (∀ fragment ∈ fragments body, ReadsLexemes generateTokens fragment) →
      columnFields generateTokens isAlnum body = scannedFields isAlnum body := by
  refine ⟨fun ls hls => ?_, fun generateTokens isAlnum body h => columnFields_eq isAlnum h⟩
  have hscan := stringAwareBraceScan_texts hls
  have hfinds : ∀ before after, ls = before ++ .closing :: after → Inside 0 before →
      stringAwareBraceScan (texts ls) = texts before := by
    intro before after hsplit hin
    rw [hscan, beforeClosing_eq_some_iff.mpr ⟨hin, after, hsplit⟩]
    rfl
  refine ⟨hfinds, fun hnil before after hsplit hin => ?_, fun hall => ?_⟩
  · rw [hfinds before after hsplit hin] at hnil
    exact texts_eq_nil_iff.mp hnil
  · rw [hscan]
    cases hb : beforeClosing 0 ls with
    | none => rfl
    | some before =>
      obtain ⟨hin, after, hsplit⟩ := beforeClosing_eq_some_iff.mp hb
      rw [hall before after hsplit hin]
      rfl

/-- The dict that has no entries. -/
theorem nothing_before_the_brace : ¬ ∀ ls, Separated ls →
    (stringAwareBraceScan (texts ls) = [] ↔
      ¬ ∃ before after, ls = before ++ .closing :: after ∧ Inside 0 before) := by
  intro h
  have hsep : Separated [.closing] := ⟨trivial, trivial⟩
  have hscan : stringAwareBraceScan (texts [.closing]) = [] := by
    rw [stringAwareBraceScan_texts hsep]
    rfl
  exact (h [.closing] hsep).mp hscan ⟨[], [], rfl, inside_nil.mpr rfl⟩

end Era1
end OdooSemantic
