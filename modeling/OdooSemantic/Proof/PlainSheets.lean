import OdooSemantic.Indexer.ParserCss

/-!
# Plain stylesheets as the patterns read them

A sheet is plain if nothing but blank space stands before a block, a space between its header and
its brace, and nothing in the braces that could be taken for the beginning of another block; and if
the imports come last, each on its lines. Of such a sheet the pattern for blocks finds the blocks,
one after the other, and the pattern for imports the imports.
-/

namespace OdooSemantic

open Regex Stylesheets

/-! ## Plain stylesheets -/

namespace PlainSheets

/-- Blank space. -/
structure Gap where
  text : List Char
  blank : ∀ c ∈ text, PyText.isSpace c = true

/-- What stands in front of a brace: on one line, with no blank space around it. -/
structure Header where
  text : List Char
  plain : ∀ c ∈ text, c ≠ '\x7b' ∧ c ≠ '\x7d' ∧ c ≠ '\n'
  first : ∃ c, text.head? = some c ∧ PyText.isSpace c = false
  last : ∃ c, text.getLast? = some c ∧ PyText.isSpace c = false

structure Rule where
  selectors : Header
  body : List Char
  noAt : '@' ∉ selectors.text
  short : selectors.text.length ≤ 80
  plain : ∀ c ∈ body, c ≠ '\x7b' ∧ c ≠ '\x7d' ∧ c ≠ '@'

structure MediaHeader where
  query : Header
  noAt : '@' ∉ query.text

/-- An import of a quoted path. -/
structure Import where
  space : Gap
  quote : Char
  path : List Char
  ending : List Char
  space_ne : space.text ≠ []
  isQuote : quote = '"' ∨ quote = '\''
  path_ne : path ≠ []
  unquoted : ∀ c ∈ path, c ≠ '"' ∧ c ≠ '\''
  oneLine : ∀ c ∈ ending, c ≠ '\n'
  noBlock : ∀ c ∈ path ++ ending, c ≠ '@' ∧ c ≠ '\x7b'
  ends : ∃ c, (quote :: ending).getLast? = some c ∧ PyText.isSpace c = false

def Rule.block (r : Rule) : List Char := '\x7b' :: r.body ++ ['\x7d']

/-- The header, a space and the block. -/
def Rule.text (r : Rule) : List Char := r.selectors.text ++ ' ' :: r.block

def rulesText (rs : List (Gap × Rule)) : List Char := rs.flatMap fun gr => gr.1.text ++ gr.2.text

structure Media where
  header : MediaHeader
  rules : List (Gap × Rule)
  gap : Gap

def mediaWord : List Char := ['@', 'm', 'e', 'd', 'i', 'a', ' ']

def importWord : List Char := ['@', 'i', 'm', 'p', 'o', 'r', 't']

def MediaHeader.text (h : MediaHeader) : List Char := mediaWord ++ h.query.text

def Media.block (m : Media) : List Char := '\x7b' :: (rulesText m.rules ++ m.gap.text) ++ ['\x7d']

def Media.text (m : Media) : List Char := m.header.text ++ ' ' :: m.block

def Import.text (i : Import) : List Char :=
  importWord ++ i.space.text ++ i.quote :: i.path ++ i.quote :: i.ending

inductive Block where
  | rule (gap : Gap) (r : Rule)
  | media (gap : Gap) (m : Media)

def Block.text : Block → List Char
  | rule gap r => gap.text ++ r.text
  | media gap m => gap.text ++ m.text

def blocksText (bs : List Block) : List Char := bs.flatMap Block.text

/-- A new line begins before every import but one at the beginning. -/
def FreshLines : Bool → List (Gap × Import) → Prop
  | _, [] => True
  | fresh, gi :: imports => (fresh = true ∨ '\n' ∈ gi.1.text) ∧ FreshLines false imports

def importsText (imports : List (Gap × Import)) : List Char :=
  imports.flatMap fun gi => gi.1.text ++ gi.2.text

structure Sheet where
  blocks : List Block
  imports : List (Gap × Import)
  /-- Whatever is no import and has no block. -/
  rest : List Char
  fresh : FreshLines (decide (blocks = [])) imports
  noBlock : ∀ c ∈ rest, c ≠ '@' ∧ c ≠ '\x7b'
  lineEnds : imports ≠ [] → ∀ c ∈ rest.takeWhile (· ≠ '\n'), PyText.isSpace c = true

def Sheet.text (s : Sheet) : List Char := blocksText s.blocks ++ (importsText s.imports ++ s.rest)

/-- What a block pattern finds, header and block. -/
inductive Construct where
  | rule (r : Rule)
  | media (m : Media)

def Construct.header : Construct → List Char
  | rule r => r.selectors.text
  | media m => m.header.text

def Construct.block : Construct → List Char
  | rule r => r.block
  | media m => m.block

def Construct.text (c : Construct) : List Char := c.header ++ ' ' :: c.block

def Block.constructs : Block → List Construct
  | rule _ r => [.rule r]
  | media _ m => .media m :: m.rules.map fun gr => .rule gr.2

/-! ## Where the block pattern finds nothing -/

open ParserCss

variable {isAlnum : Char → Bool}

/-- No brace is opened any more. -/
theorem matchHere_reRule_of_notMem {here : Cursor} (h : '\x7b' ∉ here.after) :
    matchHere (reRule isAlnum) false here = none := by
  unfold matchHere reRule
  rw [run_seq, Option.map_eq_none_iff]
  refine run_eq_none fun s' hs' => ?_
  rw [run_lit, if_neg]
  intro hbrace
  obtain ⟨cs, hcs⟩ := List.isPrefixOf_iff_prefix.mp hbrace
  exact h (hs'.subset (by rw [← hcs]; simp))

def notBrace (c : Char) : Bool := !"\x7b\x7d".toList.contains c

/-- Away from an at sign, only the last of the three alternatives can match. -/
theorem matchHere_reRule_of_ne {before cs : List Char} {c : Char} (hc : c ≠ '@') :
    matchHere (reRule isAlnum) false ⟨before, c :: cs⟩ =
      if c ∉ ['\x7b', '\x7d', '\n'] ∧
          (cs.dropWhile notBrace).head? = some '\x7b' then
        let header := c :: cs.takeWhile notBrace
        let rest := (cs.dropWhile notBrace).tail
        some ⟨⟨before, c :: cs⟩, ⟨'\x7b' :: header.reverse ++ before, rest⟩, some header⟩
      else none := by
  have hlit : ∀ (text : String) (rs : List Regex) (k : MatchState → Option MatchState),
      text.toList.head? = some '@' →
      run (seqs (lit text :: rs)) k { cursor := ⟨before, c :: cs⟩ } = none := by
    intro text rs k htext
    obtain ⟨ds, hds⟩ := List.head?_eq_some_iff.mp htext
    rw [run_seqs_cons, run_lit, if_neg]
    simp [hds, List.isPrefixOf, Ne.symm hc]
  unfold matchHere reRule
  simp only [Bool.false_and, Bool.false_eq_true, if_false]
  rw [run_seq, run_group, run_alts_cons, run_alts_cons, hlit _ _ _ rfl, hlit _ _ _ rfl,
    Option.orElse_none, Option.orElse_none, alts, run_seq, noneOf, run_char]
  dsimp only
  by_cases hok : c ∈ ['\x7b', '\x7d', '\n']
  · have hstop : (!"@\x7b\x7d\n".toList.contains c) = false := by
      simp only [List.mem_cons, List.not_mem_nil, or_false] at hok
      rcases hok with rfl | rfl | rfl <;> rfl
    rw [if_neg (by rw [hstop]; simp), if_neg (by simp [hok])]
    rfl
  · have hgo : (!"@\x7b\x7d\n".toList.contains c) = true := by
      simp only [List.mem_cons, List.not_mem_nil, or_false, not_or] at hok
      simp [hc, hok]
    rw [if_pos hgo, noneOf, run_star_of_blocked, run_lit]
    · change Option.map _ (if "\x7b".toList.isPrefixOf (cs.dropWhile notBrace) then _ else none) = _
      by_cases hopen : (cs.dropWhile notBrace).head? = some '\x7b'
      · obtain ⟨ds, hds⟩ := List.head?_eq_some_iff.mp hopen
        rw [if_pos (by rw [hds]; simp), if_pos ⟨hok, hopen⟩]
        have hup : Cursor.upTo ⟨before, c :: cs⟩ (Cursor.skip ⟨c :: before, cs⟩ notBrace) =
            c :: cs.takeWhile notBrace := by
          have hcut := upTo_of_before before (c :: cs) (cs.dropWhile notBrace)
            (c :: cs.takeWhile notBrace)
          simpa [Cursor.skip] using hcut
        change some (Match.mk _ (Cursor.advance (Cursor.skip ⟨c :: before, cs⟩ notBrace) 1)
          (some (Cursor.upTo ⟨before, c :: cs⟩ (Cursor.skip ⟨c :: before, cs⟩ notBrace)))) = _
        rw [hup]
        simp [Cursor.advance, Cursor.skip, hds]
      · rw [if_neg, if_neg (by simp [hopen])]
        · rfl
        · intro hpre
          obtain ⟨ds, hds⟩ := List.isPrefixOf_iff_prefix.mp hpre
          exact hopen (by rw [← hds]; rfl)
    · intro s' hs'
      rw [run_lit, if_neg]
      intro hbrace
      obtain ⟨ds, hds⟩ := List.isPrefixOf_iff_prefix.mp hbrace
      rw [← hds] at hs'
      exact absurd hs' (by simp)

/-- What is left of a block: nothing opens in it, and a brace closes at its end. -/
structure Passive (p : List Char) : Prop where
  plain : ∀ c ∈ p, c ≠ '\x7b' ∧ c ≠ '@'
  closed : ∀ c ∈ p.getLast?, c = '\x7d'

theorem Passive.nil : Passive [] := ⟨by simp, by simp⟩

theorem Passive.of_cons {c : Char} {p : List Char} (h : Passive (c :: p)) : Passive p := by
  refine ⟨fun d hd => h.plain d (List.mem_cons_of_mem _ hd), fun d hd => h.closed d ?_⟩
  cases p with
  | nil => simp at hd
  | cons e p => rwa [List.getLast?_cons_cons]

theorem Passive.append_close {p q : List Char} (hp : Passive p)
    (hq : ∀ c ∈ q, c ≠ '\x7b' ∧ c ≠ '@') : Passive (p ++ q ++ ['\x7d']) := by
  refine ⟨fun c hc => ?_, by simp⟩
  simp only [List.mem_append, List.mem_singleton] at hc
  rcases hc with (hc | hc) | rfl
  · exact hp.plain c hc
  · exact hq c hc
  · simp

/-- The next brace closes. -/
theorem Passive.dropWhile {p rest : List Char} (h : Passive p) (hne : p ≠ []) :
    ((p ++ rest).dropWhile notBrace).head? = some '\x7d' := by
  induction p with
  | nil => exact absurd rfl hne
  | cons c p ih =>
    by_cases hclose : c = '\x7d'
    · subst hclose
      rfl
    · have hopen := (h.plain c List.mem_cons_self).1
      rw [List.cons_append, List.dropWhile_cons_of_pos (by simp [notBrace, hopen, hclose])]
      refine ih h.of_cons ?_
      rintro rfl
      exact hclose (h.closed c (by simp))

theorem searchFrom_passive {p : List Char} (h : Passive p) (before rest : List Char) :
    searchFrom (reRule isAlnum) false before (p ++ rest) =
      searchFrom (reRule isAlnum) false (p.reverse ++ before) rest := by
  induction p generalizing before with
  | nil => rfl
  | cons c p ih =>
    have hc := h.plain c List.mem_cons_self
    rw [List.cons_append, searchFrom, matchHere_reRule_of_ne hc.2, if_neg, Option.orElse_none,
      ih h.of_cons]
    · simp
    · rintro ⟨hok, hopen⟩
      have hp : p ≠ [] := by
        rintro rfl
        exact hok (by simp [h.closed c (by simp)])
      rw [h.of_cons.dropWhile hp] at hopen
      exact absurd hopen (by simp)

/-! ## Where the block pattern finds a block -/

theorem ne_of_isSpace {c : Char} (h : PyText.isSpace c = true) :
    c ≠ '\x7b' ∧ c ≠ '\x7d' ∧ c ≠ '@' := by
  refine ⟨?_, ?_, ?_⟩ <;> rintro rfl <;> exact absurd h (by decide)

/-- Blank space around does not count. -/
theorem strip_padded (lead trail : List Char) {text : List Char} (hlead : ∀ c ∈ lead, PyText.isSpace c = true)
    (htrail : ∀ c ∈ trail, PyText.isSpace c = true)
    (hfirst : ∃ c, text.head? = some c ∧ PyText.isSpace c = false)
    (hlast : ∃ c, text.getLast? = some c ∧ PyText.isSpace c = false) :
    strip (lead ++ text ++ trail) = text := by
  obtain ⟨c, hc, hcs⟩ := hfirst
  obtain ⟨d, hd, hds⟩ := hlast
  obtain ⟨cs, rfl⟩ := List.head?_eq_some_iff.mp hc
  unfold strip PyText.strip
  rw [String.toList_ofList, String.toList_ofList, List.append_assoc,
    List.dropWhile_append_of_pos hlead, List.cons_append,
    List.dropWhile_cons_of_neg (by simp [hcs]), ← List.cons_append, List.reverse_append,
    List.dropWhile_append_of_pos (by simpa using htrail)]
  have hrev : (c :: cs).reverse.head? = some d := by rw [List.head?_reverse, hd]
  obtain ⟨ds, hds'⟩ := List.head?_eq_some_iff.mp hrev
  rw [hds', List.dropWhile_cons_of_neg (by simp [hds]), ← hds', List.reverse_reverse]

theorem strip_trailing {text : List Char}
    (hfirst : ∃ c, text.head? = some c ∧ PyText.isSpace c = false)
    (hlast : ∃ c, text.getLast? = some c ∧ PyText.isSpace c = false) :
    strip (text ++ [' ']) = text :=
  strip_padded [] [' '] (by simp) (by simp [PyText.isSpace]) hfirst hlast

/-- The third alternative, from any character on that is not the newline. -/
theorem matchHere_header (isAlnum : Char → Bool) (before rest : List Char) {c : Char} {cs : List Char}
    (hc : c ≠ '@' ∧ c ≠ '\n') (hplain : ∀ d ∈ c :: cs, d ≠ '\x7b' ∧ d ≠ '\x7d') :
    ∃ m, matchHere (reRule isAlnum) false ⟨before, c :: (cs ++ '\x7b' :: rest)⟩ = some m ∧
      m.group = c :: cs ∧ m.stop.after = rest ∧ m.stop.after.length < m.start.after.length := by
  have hcs : ∀ d ∈ cs, notBrace d = true := by
    intro d hd
    have hne := hplain d (List.mem_cons_of_mem _ hd)
    simp [notBrace, hne]
  have hdrop : (cs ++ '\x7b' :: rest).dropWhile notBrace = '\x7b' :: rest := by
    rw [List.dropWhile_append_of_pos hcs]
    rfl
  have htake : (cs ++ '\x7b' :: rest).takeWhile notBrace = cs := by
    rw [List.takeWhile_append_of_pos hcs]
    simp [notBrace]
  have hne := hplain c List.mem_cons_self
  rw [matchHere_reRule_of_ne hc.1, if_pos]
  · refine ⟨_, rfl, ?_⟩
    simp only [hdrop, htake]
    refine ⟨rfl, rfl, ?_⟩
    simp
    omega
  · rw [hdrop]
    exact ⟨by simp [hne, hc.2], rfl⟩

/-- What comes behind a header: the brace, with the group set. -/
def behindHeader (start : Cursor) (s : MatchState) : Option MatchState :=
  run (lit "\x7b") some { s with captured := some (start.upTo s.cursor) }

theorem run_star_behindHeader (start : Cursor) (before rest : List Char) {cs : List Char}
    (captured : Option (List Char)) (h : ∀ c ∈ cs, c ≠ '\x7b') :
    run (.star (noneOf "\x7b")) (behindHeader start) ⟨⟨before, cs ++ '\x7b' :: rest⟩, captured⟩ =
      some ⟨⟨'\x7b' :: cs.reverse ++ before, rest⟩,
        some (start.upTo ⟨cs.reverse ++ before, '\x7b' :: rest⟩)⟩ := by
  have hcs : ∀ c ∈ cs, (!"\x7b".toList.contains c) = true := by
    intro c hc
    simp [h c hc]
  rw [noneOf, run_star_of_blocked]
  · have hskip : Cursor.skip ⟨before, cs ++ '\x7b' :: rest⟩ (fun c => !"\x7b".toList.contains c) =
        ⟨cs.reverse ++ before, '\x7b' :: rest⟩ := by
      unfold Cursor.skip
      rw [List.takeWhile_append_of_pos hcs, List.dropWhile_append_of_pos hcs]
      simp
    simp only [hskip, behindHeader]
    rw [run_lit, if_pos (by simp)]
    simp [Cursor.advance]
  · intro s' hs'
    rw [behindHeader, run_lit, if_neg]
    intro hbrace
    obtain ⟨ds, hds⟩ := List.isPrefixOf_iff_prefix.mp hbrace
    rw [← hds] at hs'
    exact absurd hs' (by simp)

/-- The first alternative, or the second where `\b` should not match. -/
theorem matchHere_media (isAlnum : Char → Bool) (before rest : List Char) {cs : List Char} (h : ∀ c ∈ cs, c ≠ '\x7b') :
    ∃ m, matchHere (reRule isAlnum) false ⟨before, mediaWord ++ (cs ++ '\x7b' :: rest)⟩ = some m ∧
      m.group = mediaWord ++ cs ∧ m.stop.after = rest ∧
      m.stop.after.length < m.start.after.length := by
  have hspace : ∀ c ∈ ' ' :: cs, c ≠ '\x7b' := by
    intro c hc
    rcases List.mem_cons.mp hc with rfl | hc
    · simp
    · exact h c hc
  let start : Cursor := ⟨before, mediaWord ++ (cs ++ '\x7b' :: rest)⟩
  -- the same end, whichever of the two it is
  let stop : MatchState :=
    ⟨⟨'\x7b' :: (mediaWord ++ cs).reverse ++ before, rest⟩, some (mediaWord ++ cs)⟩
  have hup : start.upTo ⟨(mediaWord ++ cs).reverse ++ before, '\x7b' :: rest⟩ =
      mediaWord ++ cs := upTo_of_before _ _ _ _
  have hstar : ∀ captured, run (.star (noneOf "\x7b")) (behindHeader start)
      ⟨⟨"@media".toList.reverse ++ before, ' ' :: (cs ++ '\x7b' :: rest)⟩, captured⟩ = some stop := by
    intro captured
    rw [← List.cons_append, run_star_behindHeader start _ _ _ hspace]
    have hbefore : (' ' :: cs).reverse ++ ("@media".toList.reverse ++ before) =
        (mediaWord ++ cs).reverse ++ before := by simp [mediaWord]
    rw [List.cons_append, hbefore, hup]
    rfl
  have hfirst : run (seqs [lit "@media", .wordEdge fun c => isAlnum c || c == '_',
        .star (noneOf "\x7b")]) (behindHeader start) { cursor := start } = none ∨
      run (seqs [lit "@media", .wordEdge fun c => isAlnum c || c == '_',
        .star (noneOf "\x7b")]) (behindHeader start) { cursor := start } = some stop := by
    rw [run_seqs_cons, run_lit, if_pos (by simp [start, mediaWord]), run_seqs_cons,
      run_wordEdge]
    split
    · exact .inl rfl
    · exact .inr (hstar none)
  have hsecond : run (seqs [lit "@", plus (.char fun c => 'a' ≤ c && c ≤ 'z' || c == '-'),
      .star (noneOf "\x7b")]) (behindHeader start) { cursor := start } = some stop := by
    rw [run_seqs_cons, run_lit, if_pos (by simp [start, mediaWord]), run_seqs_cons]
    exact run_plus_of_some rfl (hstar none)
  have hgroup : run (alts [seqs [lit "@media", .wordEdge fun c => isAlnum c || c == '_',
        .star (noneOf "\x7b")],
      seqs [lit "@", plus (.char fun c => 'a' ≤ c && c ≤ 'z' || c == '-'), .star (noneOf "\x7b")],
      .seq (noneOf "@\x7b\x7d\n") (.star (noneOf "\x7b\x7d"))]) (behindHeader start)
      { cursor := start } = some stop := by
    rw [run_alts_cons, run_alts_cons, hsecond]
    rcases hfirst with h1 | h1
    · rw [h1]
      rfl
    · rw [h1]
      rfl
  have hmatch : matchHere (reRule isAlnum) false start = some ⟨start, stop.cursor, stop.captured⟩ := by
    unfold matchHere reRule
    rw [run_seq, run_group]
    exact congrArg (Option.map _) hgroup
  refine ⟨_, hmatch, rfl, rfl, ?_⟩
  simp [start, stop]
  omega

/-- The match is of this header, and what is behind it begins behind the brace. -/
structure Reads (header rest : List Char) (m : Match) : Prop where
  header : strip m.group = header
  rest : m.stop.after = rest
  advances : m.stop.after.length < m.start.after.length

theorem matchHere_selectors (before rest : List Char) {h : Header} (hat : '@' ∉ h.text) :
    ∃ m, matchHere (reRule isAlnum) false ⟨before, h.text ++ ' ' :: '\x7b' :: rest⟩ = some m ∧
      Reads h.text rest m := by
  obtain ⟨c, hc, hcs⟩ := h.first
  obtain ⟨cs, hcons⟩ := List.head?_eq_some_iff.mp hc
  have hplain : ∀ d ∈ c :: (cs ++ [' ']), d ≠ '\x7b' ∧ d ≠ '\x7d' := by
    intro d hd
    rw [← List.cons_append, List.mem_append, ← hcons] at hd
    rcases hd with hd | hd
    · exact ⟨(h.plain d hd).1, (h.plain d hd).2.1⟩
    · rw [List.mem_singleton.mp hd]
      simp
  have hne : c ≠ '@' ∧ c ≠ '\n' := by
    have hmem : c ∈ h.text := by simp [hcons]
    exact ⟨fun heq => hat (heq ▸ hmem), (h.plain c hmem).2.2⟩
  obtain ⟨m, hm, hgroup, hrest, hlt⟩ := matchHere_header isAlnum before rest hne hplain
  refine ⟨m, ?_, ⟨?_, hrest, hlt⟩⟩
  · rw [← hm, hcons]
    simp
  · rw [hgroup, ← List.cons_append, ← hcons]
    exact strip_trailing h.first h.last

theorem MediaHeader.first (h : MediaHeader) : ∃ c, h.text.head? = some c ∧ PyText.isSpace c = false :=
  ⟨'@', rfl, by decide⟩

theorem MediaHeader.last (h : MediaHeader) :
    ∃ c, h.text.getLast? = some c ∧ PyText.isSpace c = false := by
  obtain ⟨c, hc, hcs⟩ := h.query.last
  refine ⟨c, ?_, hcs⟩
  unfold MediaHeader.text
  rw [List.getLast?_append, hc, Option.some_or]

theorem matchHere_mediaHeader (before rest : List Char) (h : MediaHeader) :
    ∃ m, matchHere (reRule isAlnum) false ⟨before, h.text ++ ' ' :: '\x7b' :: rest⟩ = some m ∧
      Reads h.text rest m := by
  have hplain : ∀ c ∈ h.query.text ++ [' '], c ≠ '\x7b' := by
    intro c hc
    rcases List.mem_append.mp hc with hc | hc
    · exact (h.query.plain c hc).1
    · rw [List.mem_singleton.mp hc]
      simp
  obtain ⟨m, hm, hgroup, hrest, hlt⟩ := matchHere_media isAlnum before rest hplain
  refine ⟨m, ?_, ⟨?_, hrest, hlt⟩⟩
  · unfold MediaHeader.text
    rw [List.append_assoc]
    rw [List.append_assoc, List.singleton_append] at hm
    exact hm
  · rw [hgroup, ← List.append_assoc]
    exact strip_trailing h.first h.last

/-- Behind blank space the match begins somewhere in it; `strip` takes the space off. -/
theorem searchFrom_gap {h rest : List Char} (hplain : ∀ c ∈ h, c ≠ '\x7b' ∧ c ≠ '\x7d')
    (hfirst : ∃ c, h.head? = some c ∧ PyText.isSpace c = false)
    (hlast : ∃ c, h.getLast? = some c ∧ PyText.isSpace c = false)
    (hself : ∀ before, ∃ m,
      matchHere (reRule isAlnum) false ⟨before, h ++ ' ' :: '\x7b' :: rest⟩ = some m ∧ Reads h rest m)
    {lead : List Char} (hlead : ∀ c ∈ lead, PyText.isSpace c = true) (before : List Char) :
    ∃ m, searchFrom (reRule isAlnum) false before (lead ++ (h ++ ' ' :: '\x7b' :: rest)) = some m ∧
      Reads h rest m := by
  induction lead generalizing before with
  | nil =>
    obtain ⟨m, hm, hreads⟩ := hself before
    obtain ⟨c, hc, -⟩ := hfirst
    obtain ⟨cs, rfl⟩ := List.head?_eq_some_iff.mp hc
    refine ⟨m, ?_, hreads⟩
    rw [List.nil_append, List.cons_append, searchFrom, ← List.cons_append, hm]
    rfl
  | cons c lead ih =>
    have hspace := hlead c List.mem_cons_self
    have hblank : ∀ d ∈ lead, PyText.isSpace d = true := fun d hd =>
      hlead d (List.mem_cons_of_mem _ hd)
    have hgap := ne_of_isSpace hspace
    rw [List.cons_append, searchFrom]
    by_cases hnewline : c = '\n'
    · rw [matchHere_reRule_of_ne hgap.2.2, if_neg (by simp [hnewline]), Option.orElse_none]
      exact ih hblank _
    · have hall : ∀ d ∈ c :: (lead ++ h ++ [' ']), d ≠ '\x7b' ∧ d ≠ '\x7d' := by
        intro d hd
        simp only [List.mem_cons, List.mem_append, List.not_mem_nil, or_false] at hd
        rcases hd with rfl | (hd | hd) | rfl
        · exact ⟨hgap.1, hgap.2.1⟩
        · exact ⟨(ne_of_isSpace (hblank d hd)).1, (ne_of_isSpace (hblank d hd)).2.1⟩
        · exact hplain d hd
        · simp
      obtain ⟨m, hm, hgroup, hrest, hlt⟩ := matchHere_header isAlnum before rest ⟨hgap.2.2, hnewline⟩ hall
      have htext : lead ++ (h ++ ' ' :: '\x7b' :: rest) = lead ++ h ++ [' '] ++ '\x7b' :: rest := by
        simp
      refine ⟨m, by rw [htext, hm]; rfl, ⟨?_, hrest, hlt⟩⟩
      rw [hgroup, List.append_assoc, ← List.cons_append, ← List.append_assoc]
      refine strip_padded _ _ ?_ (by simp [PyText.isSpace]) hfirst hlast
      intro d hd
      rcases List.mem_cons.mp hd with rfl | hd
      · exact hspace
      · exact hblank d hd

/-! ## The blocks, one after the other -/

/-- The match is of this header and this block. -/
def FoundAs (c : Construct) (m : Match) : Prop :=
  strip m.group = c.header ∧ Stylesheets.block m = c.block

/-- From what is left of a block on, the pattern finds these. -/
def Finds (isAlnum : Char → Bool) (cs : List Construct) (text : List Char) : Prop :=
  ∀ p, Passive p → ∀ (before : List Char) (n : Nat), (p ++ text).length < n →
    List.Forall₂ FoundAs cs (finditerFrom (reRule isAlnum) n false ⟨before, p ++ text⟩)

/-- Nothing where no brace is opened. -/
theorem Finds.nil {text : List Char} (h : '\x7b' ∉ text) : Finds isAlnum [] text := by
  intro p hp before n hn
  have hnone : ∀ (cs before : List Char), '\x7b' ∉ cs → searchFrom (reRule isAlnum) false before cs = none := by
    intro cs
    induction cs with
    | nil =>
      intro before hcs
      exact matchHere_reRule_of_notMem hcs
    | cons c cs ih =>
      intro before hcs
      rw [searchFrom, matchHere_reRule_of_notMem hcs, Option.orElse_none]
      exact ih _ fun hmem => hcs (List.mem_cons_of_mem _ hmem)
  cases n with
  | zero => exact absurd hn (by simp)
  | succ n =>
    rw [finditerFrom, hnone]
    · exact .nil
    · intro hmem
      rcases List.mem_append.mp hmem with hmem | hmem
      · exact (hp.plain _ hmem).1 rfl
      · exact h hmem

theorem Finds.close {cs : List Construct} {text : List Char} (h : Finds isAlnum cs text) (gap : Gap) :
    Finds isAlnum cs (gap.text ++ '\x7d' :: text) := by
  intro p hp before n hn
  have hpassive := hp.append_close (q := gap.text) fun c hc =>
    ⟨(ne_of_isSpace (gap.blank c hc)).1, (ne_of_isSpace (gap.blank c hc)).2.2⟩
  have htext : p ++ (gap.text ++ '\x7d' :: text) = p ++ gap.text ++ ['\x7d'] ++ text := by simp
  rw [htext] at hn ⊢
  exact h _ hpassive before n hn

/-- One block: its match, and from the brace on what is found behind. -/
theorem Finds.cons {c : Construct} {cs : List Construct} {gap : Gap} {inside : List Char}
    (hself : ∀ before, ∃ m, matchHere (reRule isAlnum) false
      ⟨before, c.header ++ ' ' :: '\x7b' :: inside⟩ = some m ∧ Reads c.header inside m)
    (hplain : ∀ d ∈ c.header, d ≠ '\x7b' ∧ d ≠ '\x7d')
    (hfirst : ∃ d, c.header.head? = some d ∧ PyText.isSpace d = false)
    (hlast : ∃ d, c.header.getLast? = some d ∧ PyText.isSpace d = false)
    (hblock : extractBlock 0 ('\x7b' :: inside) = c.block)
    (h : ∀ (before : List Char) (n : Nat), inside.length < n →
      List.Forall₂ FoundAs cs (finditerFrom (reRule isAlnum) n false ⟨before, inside⟩)) :
    Finds isAlnum (c :: cs) (gap.text ++ (c.header ++ ' ' :: '\x7b' :: inside)) := by
  intro p hp before n hn
  obtain ⟨m, hm, hreads⟩ := searchFrom_gap hplain hfirst hlast hself gap.blank (p.reverse ++ before)
  cases n with
  | zero => exact absurd hn (by simp)
  | succ n =>
    have hadvances : (m.start.after.length == m.stop.after.length) = false := by
      have := hreads.advances
      simp
      omega
    rw [finditerFrom, searchFrom_passive hp, hm]
    dsimp only
    rw [hadvances]
    refine .cons ⟨hreads.header, ?_⟩ ?_
    · rw [Stylesheets.block, hreads.rest, hblock]
    · have hstop : m.stop = ⟨m.stop.before, inside⟩ := by rw [← hreads.rest]
      rw [hstop]
      refine h _ n ?_
      simp only [List.length_append, List.length_cons] at hn
      omega

/-! ## What is in the braces -/

theorem extractBlock_plain {cs : List Char} (h : ∀ c ∈ cs, c ≠ '\x7b' ∧ c ≠ '\x7d') (depth : Nat)
    (rest : List Char) : extractBlock depth (cs ++ rest) = cs ++ extractBlock depth rest := by
  induction cs with
  | nil => rfl
  | cons c cs ih =>
    have hc := h c List.mem_cons_self
    rw [List.cons_append, extractBlock_of_ne hc.1 hc.2,
      ih fun d hd => h d (List.mem_cons_of_mem _ hd), List.cons_append]

theorem Rule.body_plain (r : Rule) : ∀ c ∈ r.body, c ≠ '\x7b' ∧ c ≠ '\x7d' := fun c hc =>
  ⟨(r.plain c hc).1, (r.plain c hc).2.1⟩

theorem Gap.plain (gap : Gap) : ∀ c ∈ gap.text, c ≠ '\x7b' ∧ c ≠ '\x7d' := fun c hc =>
  ⟨(ne_of_isSpace (gap.blank c hc)).1, (ne_of_isSpace (gap.blank c hc)).2.1⟩

theorem extractBlock_body (r : Rule) (rest : List Char) :
    extractBlock 0 ('\x7b' :: (r.body ++ '\x7d' :: rest)) = r.block := by
  rw [extractBlock_open, extractBlock_plain r.body_plain, extractBlock_close]
  rfl

/-- A whole rule inside a block. -/
theorem extractBlock_rule (r : Rule) (depth : Nat) (rest : List Char) :
    extractBlock (depth + 1) (r.text ++ rest) = r.text ++ extractBlock (depth + 1) rest := by
  have hheader : ∀ c ∈ r.selectors.text ++ [' '], c ≠ '\x7b' ∧ c ≠ '\x7d' := by
    intro c hc
    rcases List.mem_append.mp hc with hc | hc
    · exact ⟨(r.selectors.plain c hc).1, (r.selectors.plain c hc).2.1⟩
    · rw [List.mem_singleton.mp hc]
      simp
  have htext : r.text ++ rest = (r.selectors.text ++ [' ']) ++ '\x7b' :: (r.body ++ '\x7d' :: rest) := by
    simp [Rule.text, Rule.block]
  rw [htext, extractBlock_plain hheader, extractBlock_open, extractBlock_plain r.body_plain,
    extractBlock_close, if_neg (by omega)]
  simp [Rule.text, Rule.block]

theorem extractBlock_rules (rs : List (Gap × Rule)) (depth : Nat) (rest : List Char) :
    extractBlock (depth + 1) (rulesText rs ++ rest) =
      rulesText rs ++ extractBlock (depth + 1) rest := by
  induction rs with
  | nil => rfl
  | cons gr rs ih =>
    have htext : rulesText (gr :: rs) = gr.1.text ++ (gr.2.text ++ rulesText rs) := by
      simp [rulesText]
    rw [htext, List.append_assoc, extractBlock_plain gr.1.plain, List.append_assoc, extractBlock_rule, ih]
    simp

theorem extractBlock_media (m : Media) (rest : List Char) :
    extractBlock 0 ('\x7b' :: (rulesText m.rules ++ (m.gap.text ++ '\x7d' :: rest))) = m.block := by
  rw [extractBlock_open, extractBlock_rules, extractBlock_plain m.gap.plain, extractBlock_close]
  simp [Media.block]

/-! ## All blocks of a sheet -/

theorem Finds.rule {cs : List Construct} {text : List Char} (h : Finds isAlnum cs text) (gap : Gap)
    (r : Rule) : Finds isAlnum (.rule r :: cs) (gap.text ++ (r.text ++ text)) := by
  have htext : r.text ++ text = (Construct.rule r).header ++ ' ' :: '\x7b' :: (r.body ++ '\x7d' :: text) := by
    simp [Rule.text, Rule.block, Construct.header]
  rw [htext]
  refine Finds.cons (fun before => matchHere_selectors before _ r.noAt)
    (fun d hd => ⟨(r.selectors.plain d hd).1, (r.selectors.plain d hd).2.1⟩)
    r.selectors.first r.selectors.last (extractBlock_body r text) fun before n hn => ?_
  have hpassive : Passive (r.body ++ ['\x7d']) := by
    simpa using Passive.nil.append_close fun c hc => ⟨(r.plain c hc).1, (r.plain c hc).2.2⟩
  have hbody : r.body ++ '\x7d' :: text = r.body ++ ['\x7d'] ++ text := by simp
  rw [hbody] at hn ⊢
  exact h _ hpassive before n hn

theorem Finds.rules {cs : List Construct} {text : List Char} (h : Finds isAlnum cs text)
    (rs : List (Gap × Rule)) :
    Finds isAlnum (rs.map (fun gr => .rule gr.2) ++ cs) (rulesText rs ++ text) := by
  induction rs with
  | nil => exact h
  | cons gr rs ih =>
    have htext : rulesText (gr :: rs) ++ text = gr.1.text ++ (gr.2.text ++ (rulesText rs ++ text)) := by
      simp [rulesText]
    rw [htext]
    exact ih.rule gr.1 gr.2

theorem Finds.media {cs : List Construct} {text : List Char} (h : Finds isAlnum cs text) (gap : Gap)
    (m : Media) :
    Finds isAlnum (.media m :: (m.rules.map (fun gr => .rule gr.2) ++ cs))
      (gap.text ++ (m.text ++ text)) := by
  have htext : m.text ++ text = (Construct.media m).header ++
      ' ' :: '\x7b' :: (rulesText m.rules ++ (m.gap.text ++ '\x7d' :: text)) := by
    simp [Media.text, Media.block, Construct.header]
  rw [htext]
  refine Finds.cons (fun before => matchHere_mediaHeader before _ m.header) ?_
    m.header.first m.header.last (extractBlock_media m text) fun before n hn => ?_
  · intro d hd
    rcases List.mem_append.mp hd with hd | hd
    · have hword : ∀ d ∈ mediaWord, d ≠ '\x7b' ∧ d ≠ '\x7d' := by simp [mediaWord]
      exact hword d hd
    · exact ⟨(m.header.query.plain d hd).1, (m.header.query.plain d hd).2.1⟩
  · exact ((h.close m.gap).rules m.rules) [] Passive.nil before n hn

/-- **The pattern finds the blocks of the sheet**, those in media blocks among them. -/
theorem finds_blocks (bs : List Block) {text : List Char} (h : '\x7b' ∉ text) :
    Finds isAlnum (bs.flatMap Block.constructs) (blocksText bs ++ text) := by
  induction bs with
  | nil => exact Finds.nil h
  | cons b bs ih =>
    cases b with
    | rule gap r =>
      have htext : blocksText (.rule gap r :: bs) ++ text =
          gap.text ++ (r.text ++ (blocksText bs ++ text)) := by simp [blocksText, Block.text]
      rw [htext]
      exact ih.rule gap r
    | media gap m =>
      have htext : blocksText (.media gap m :: bs) ++ text =
          gap.text ++ (m.text ++ (blocksText bs ++ text)) := by simp [blocksText, Block.text]
      rw [htext, List.flatMap_cons]
      exact ih.media gap m

theorem Import.quote_ne (i : Import) : i.quote ≠ '@' ∧ i.quote ≠ '\x7b' ∧ i.quote ≠ '\n' ∧
    PyText.isSpace i.quote = false := by
  rcases i.isQuote with h | h <;> rw [h] <;> decide

theorem Import.noOpen (i : Import) : '\x7b' ∉ i.text := by
  unfold Import.text
  have hword : '\x7b' ∉ importWord := by simp [importWord]
  simp only [List.mem_append, List.mem_cons]
  rintro (((h | h) | h | h) | h | h)
  · exact hword h
  · exact (ne_of_isSpace (i.space.blank _ h)).1 rfl
  · exact i.quote_ne.2.1 h.symm
  · exact (i.noBlock _ (List.mem_append_left _ h)).2 rfl
  · exact i.quote_ne.2.1 h.symm
  · exact (i.noBlock _ (List.mem_append_right _ h)).2 rfl

theorem Sheet.noOpen (s : Sheet) : '\x7b' ∉ importsText s.imports ++ s.rest := by
  intro h
  rcases List.mem_append.mp h with h | h
  · obtain ⟨gi, -, h⟩ := List.mem_flatMap.mp h
    rcases List.mem_append.mp h with h | h
    · exact (ne_of_isSpace (gi.1.blank _ h)).1 rfl
    · exact gi.2.noOpen h
  · exact (s.noBlock _ h).2 rfl

def Sheet.constructs (s : Sheet) : List Construct := s.blocks.flatMap Block.constructs

theorem finditer_reRule (s : Sheet) :
    List.Forall₂ FoundAs s.constructs ((reRule isAlnum).finditer s.text) :=
  finds_blocks s.blocks s.noOpen [] Passive.nil [] _ (by simp [Sheet.text]; omega)

end PlainSheets
end OdooSemantic
