import OdooSemantic.Proof.PlainSheets

/-!
# The custom properties of a plain rule

The pattern for them looks for `--name:` anywhere in a rule, and a colon anywhere in it makes the
rule one that is not about custom properties only. Where `--name:` stands at the beginning of a
declaration and nowhere else, the pattern finds as many as there are declarations of custom
properties.
-/

namespace OdooSemantic

open Regex Stylesheets ParserCss

/-- Two things that `str.isalnum` is known for. -/
structure AlnumLaws (isAlnum : Char → Bool) : Prop where
  blank : ∀ c, PyText.isSpace c = true → isAlnum c = false
  colon : isAlnum ':' = false

namespace PlainSheets

/-! ## Declarations -/

section Declarations

variable (isAlnum : Char → Bool)

/-- A custom property begins the text. -/
def BeginsCustom (cs : List Char) : Prop :=
  ∃ name gap rest, cs = '-' :: '-' :: (name ++ (gap ++ ':' :: rest)) ∧ name ≠ [] ∧
    (∀ c ∈ name, nameChar isAlnum c = true) ∧ ∀ c ∈ gap, PyText.isSpace c = true

/-- Text between two names: no custom property begins in it, and it does not run into the next. -/
structure Loose (text : List Char) : Prop where
  none : ∀ q, q <:+ text → ¬ BeginsCustom isAlnum q
  ends : ∀ c, text.getLast? = some c → nameChar isAlnum c = false

/-- A declaration: its name, its value with the semicolon, and what is behind it up to the next one
    or, with the brace, to the end of the block. -/
structure Decl where
  name : List Char
  gap : Gap
  value : List Char
  behind : List Char
  name_ne : name ≠ []
  named : ∀ c ∈ name, nameChar isAlnum c = true
  /-- Two hyphens in a row are at the beginning, and a name follows. -/
  hyphens : (∃ c cs, name = '-' :: '-' :: c :: cs) ∨ ¬ ['-', '-'] <:+: name
  loose : Loose isAlnum (value ++ behind)

variable {isAlnum}

def Decl.text (d : Decl isAlnum) : List Char := d.name ++ (d.gap.text ++ ':' :: d.value)

def Decl.isCustom (d : Decl isAlnum) : Bool := ['-', '-'].isPrefixOf d.name

def declsText (ds : List (Decl isAlnum)) : List Char := ds.flatMap fun d => d.text ++ d.behind

/-- The declarations of a rule. -/
structure Declared (r : Rule) (ds : List (Decl isAlnum)) : Prop where
  body : ∃ lead, r.body ++ ['\x7d'] = lead ++ declsText ds ∧
    Loose isAlnum (r.selectors.text ++ ' ' :: '\x7b' :: lead)
  /-- Where they are all custom properties, the colons of the rule are theirs. -/
  colons : ds ≠ [] → (∀ d ∈ ds, d.isCustom = true) → r.text.count ':' = ds.length

end Declarations

variable {isAlnum : Char → Bool}

/-! ## Where the pattern finds nothing -/

theorem nameChar_hyphen : nameChar isAlnum '-' = true := by simp [nameChar]

theorem nameChar_blank (laws : AlnumLaws isAlnum) {c : Char} (h : PyText.isSpace c = true) :
    nameChar isAlnum c = false := by
  have hunder : c ≠ '_' := by rintro rfl; exact absurd h (by decide)
  have hhyphen : c ≠ '-' := by rintro rfl; exact absurd h (by decide)
  simp [nameChar, laws.blank c h, hunder, hhyphen]

theorem nameChar_colon (laws : AlnumLaws isAlnum) : nameChar isAlnum ':' = false := by
  simp [nameChar, laws.colon]

/-- The head of a name is not one that goes on with what is in front of it. -/
theorem head_name (laws : AlnumLaws isAlnum) {c : Char} (h : nameChar isAlnum c = true) :
    PyText.isSpace c = false ∧ c ≠ ':' := by
  constructor
  · refine Bool.eq_false_iff.mpr fun hspace => ?_
    rw [nameChar_blank laws hspace] at h
    exact absurd h (by decide)
  · rintro rfl
    rw [nameChar_colon laws] at h
    exact absurd h (by decide)

theorem hyphens_eq : "--".toList = ['-', '-'] := by simp

/-- What is found begins where it is found. -/
theorem beginsCustom_of_matchHere {before cs : List Char} {m : Match}
    (h : matchHere (reVarDecl isAlnum) false ⟨before, cs⟩ = some m) : BeginsCustom isAlnum cs := by
  unfold matchHere at h
  obtain ⟨s, hrun, -⟩ := Option.map_eq_some_iff.mp h
  simp only [Bool.false_and, Bool.false_eq_true, if_false] at hrun
  unfold reVarDecl at hrun
  rw [run_seqs_cons, run_lit, hyphens_eq] at hrun
  split at hrun
  case isFalse => exact absurd hrun (by simp)
  rename_i hhyphens
  obtain ⟨rest, rfl⟩ := List.isPrefixOf_iff_prefix.mp hhyphens
  rw [run_seqs_cons, ident] at hrun
  replace hrun : run (plus (.char (nameChar isAlnum))) (run (seqs [spaces, lit ":"]) some)
    { cursor := ⟨'-' :: '-' :: before, rest⟩ } = some s := hrun
  rw [plus, run_seq, run_char] at hrun
  cases rest with
  | nil => exact absurd hrun (by simp)
  | cons c rest =>
    dsimp only at hrun
    split at hrun
    case isFalse => exact absurd hrun (by simp)
    rename_i hc
    obtain ⟨name, behind, hname, hnamed, hrun⟩ := exists_of_run_star hrun
    rw [run_seqs_cons, spaces] at hrun
    obtain ⟨gap, rest', hgap, hblank, hrun⟩ := exists_of_run_star hrun
    change run (lit ":") _ _ = _ at hrun
    rw [run_lit] at hrun
    split at hrun
    case isFalse => exact absurd hrun (by simp)
    rename_i hcolon
    obtain ⟨rest'', hrest⟩ := List.isPrefixOf_iff_prefix.mp hcolon
    refine ⟨c :: name, gap, rest'', ?_, by simp, ?_, hblank⟩
    · have hrest' : ':' :: rest'' = rest' := by simpa using hrest
      obtain rfl : rest = name ++ behind := hname
      obtain rfl : behind = gap ++ rest' := hgap
      rw [← hrest']
      simp
    · simpa [hc] using hnamed

theorem matchHere_eq_none {before cs : List Char} (h : ¬ BeginsCustom isAlnum cs) :
    matchHere (reVarDecl isAlnum) false ⟨before, cs⟩ = none := by
  cases hm : matchHere (reVarDecl isAlnum) false ⟨before, cs⟩ with
  | none => rfl
  | some m => exact absurd (beginsCustom_of_matchHere hm) h

theorem searchFrom_cons {before cs : List Char} {c : Char} (h : ¬ BeginsCustom isAlnum (c :: cs)) :
    searchFrom (reVarDecl isAlnum) false before (c :: cs) =
      searchFrom (reVarDecl isAlnum) false (c :: before) cs := by
  rw [searchFrom, matchHere_eq_none h, Option.orElse_none]

/-- It begins in front of a text only if it begins in it, where the last character is in no name and
    what follows is not what a name is followed by. -/
theorem not_beginsCustom_append {text rest : List Char} (hne : text ≠ [])
    (hnone : ¬ BeginsCustom isAlnum text)
    (hends : ∀ c, text.getLast? = some c → nameChar isAlnum c = false)
    (hrest : ∀ c, rest.head? = some c → PyText.isSpace c = false ∧ c ≠ ':') :
    ¬ BeginsCustom isAlnum (text ++ rest) := by
  rintro ⟨name, gap, behind, hsplit, hname, hnamed, hblank⟩
  have hword : ∀ c ∈ '-' :: '-' :: name, nameChar isAlnum c = true := by
    simpa [nameChar_hyphen] using hnamed
  have hsplit' : text ++ rest = (('-' :: '-' :: name) ++ gap) ++ ':' :: behind := by
    simpa using hsplit
  rcases List.append_eq_append_iff.mp hsplit' with ⟨more, hlead, htail⟩ | ⟨more, htext, htail⟩
  · -- The colon is behind the text.
    have hmore : ∃ c, rest.head? = some c ∧ c ∈ more ++ [':'] := by
      rw [htail]
      cases more with
      | nil => exact ⟨':', rfl, by simp⟩
      | cons c more => exact ⟨c, rfl, by simp⟩
    obtain ⟨c, hhead, hc⟩ := hmore
    obtain ⟨hspace, hcolon⟩ := hrest c hhead
    rcases List.append_eq_append_iff.mp hlead with ⟨more', -, hgap⟩ | ⟨more', hin, -⟩
    · rcases List.mem_append.mp hc with hc | hc
      · rw [hblank c (by rw [hgap]; exact List.mem_append_right _ hc)] at hspace
        exact absurd hspace (by decide)
      · exact hcolon (List.mem_singleton.mp hc)
    · have hlast := hends _ (List.getLast?_eq_some_getLast hne)
      rw [hword _ (by rw [hin]; exact List.mem_append_left _ (List.getLast_mem hne))] at hlast
      exact absurd hlast (by decide)
  · cases more with
    | nil => exact (hrest ':' (by rw [List.nil_append] at htail; rw [← htail]; rfl)).2 rfl
    | cons c more =>
      obtain ⟨rfl, rfl⟩ := List.cons.inj htail
      exact hnone ⟨name, gap, more, by simpa using htext, hname, hnamed, hblank⟩

/-! ## The pattern over a rule -/

theorem searchFrom_loose {text : List Char} (h : Loose isAlnum text) (before : List Char)
    {rest : List Char} (hrest : ∀ c, rest.head? = some c → PyText.isSpace c = false ∧ c ≠ ':') :
    searchFrom (reVarDecl isAlnum) false before (text ++ rest) =
      searchFrom (reVarDecl isAlnum) false (text.reverse ++ before) rest := by
  induction text generalizing before with
  | nil => rfl
  | cons c text ih =>
    have hstep : ¬ BeginsCustom isAlnum (c :: (text ++ rest)) :=
      not_beginsCustom_append (by simp) (h.none _ (List.suffix_refl _)) h.ends hrest
    have htail : Loose isAlnum text :=
      ⟨fun q hq => h.none q (hq.trans (List.suffix_cons c text)), fun d hd => h.ends d (by
        rw [List.getLast?_cons, hd]
        rfl)⟩
    rw [List.cons_append, searchFrom_cons hstep, ih htail]
    simp

theorem searchFrom_noHyphen {text : List Char} (h : '-' ∉ text) (before rest : List Char) :
    searchFrom (reVarDecl isAlnum) false before (text ++ rest) =
      searchFrom (reVarDecl isAlnum) false (text.reverse ++ before) rest := by
  induction text generalizing before with
  | nil => rfl
  | cons c text ih =>
    have hstep : ¬ BeginsCustom isAlnum (c :: (text ++ rest)) := by
      rintro ⟨_, _, _, hsplit, -⟩
      exact h (List.mem_cons.mpr (.inl (List.cons.inj hsplit).1.symm))
    rw [List.cons_append, searchFrom_cons hstep, ih fun hmem => h (List.mem_cons_of_mem c hmem)]
    simp

/-- A name without two hyphens in a row. -/
theorem searchFrom_name {name rest : List Char} (h : ¬ ['-', '-'] <:+: name)
    (hrest : rest.head? ≠ some '-') (before : List Char) :
    searchFrom (reVarDecl isAlnum) false before (name ++ rest) =
      searchFrom (reVarDecl isAlnum) false (name.reverse ++ before) rest := by
  induction name generalizing before with
  | nil => rfl
  | cons c name ih =>
    have hstep : ¬ BeginsCustom isAlnum (c :: (name ++ rest)) := by
      rintro ⟨_, _, _, hsplit, -⟩
      obtain ⟨rfl, htail⟩ := List.cons.inj hsplit
      cases name with
      | nil => exact hrest (by rw [List.nil_append] at htail; rw [htail]; rfl)
      | cons d name =>
        obtain ⟨rfl, -⟩ := List.cons.inj htail
        exact h ⟨[], name, rfl⟩
    rw [List.cons_append, searchFrom_cons hstep,
      ih fun hpart => h (hpart.trans (List.suffix_cons c name).isInfix)]
    simp

/-- A custom property is found where it stands. -/
theorem matchHere_custom (laws : AlnumLaws isAlnum) {c : Char} {name : List Char} (gap : Gap)
    (h : ∀ d ∈ c :: name, nameChar isAlnum d = true) (before rest : List Char) :
    ∃ m stop, matchHere (reVarDecl isAlnum) false
        ⟨before, '-' :: '-' :: c :: name ++ (gap.text ++ ':' :: rest)⟩ = some m ∧
      m.start = ⟨before, '-' :: '-' :: c :: name ++ (gap.text ++ ':' :: rest)⟩ ∧ m.stop = ⟨stop, rest⟩ := by
  have hgap : ∀ before, Cursor.skip ⟨before, gap.text ++ ':' :: rest⟩ PyText.isSpace =
      ⟨gap.text.reverse ++ before, ':' :: rest⟩ := by
    intro before
    have hcolon : PyText.isSpace ':' = false := by decide
    unfold Cursor.skip
    rw [List.takeWhile_append_of_pos gap.blank, List.dropWhile_append_of_pos gap.blank,
      List.takeWhile_cons_of_neg (by simp [hcolon]), List.dropWhile_cons_of_neg (by simp [hcolon])]
    simp
  have hbehind : ∀ d, (gap.text ++ ':' :: rest).head? = some d → nameChar isAlnum d = false := by
    intro d hd
    cases htext : gap.text with
    | nil =>
      obtain rfl : ':' = d := by simpa [htext] using hd
      exact nameChar_colon laws
    | cons e es =>
      obtain rfl : e = d := by simpa [htext] using hd
      exact nameChar_blank laws (gap.blank e (by simp [htext]))
  have hname : ∀ before, Cursor.skip ⟨before, c :: name ++ (gap.text ++ ':' :: rest)⟩ (nameChar isAlnum) =
      ⟨(c :: name).reverse ++ before, gap.text ++ ':' :: rest⟩ := by
    intro before
    obtain ⟨d, ds, hcons⟩ : ∃ d ds, gap.text ++ ':' :: rest = d :: ds :=
      List.exists_cons_of_ne_nil (by simp)
    have hd := hbehind d (by rw [hcons]; rfl)
    unfold Cursor.skip
    rw [hcons, List.takeWhile_append_of_pos h, List.dropWhile_append_of_pos h,
      List.takeWhile_cons_of_neg (by simp [hd]), List.dropWhile_cons_of_neg (by simp [hd])]
    simp
  have hrun : run (reVarDecl isAlnum) some
      { cursor := ⟨before, '-' :: '-' :: c :: name ++ (gap.text ++ ':' :: rest)⟩ } =
      some ⟨⟨':' :: (gap.text.reverse ++ ((c :: name).reverse ++ '-' :: '-' :: before)), rest⟩, none⟩ := by
    unfold reVarDecl
    rw [run_seqs_cons, run_lit, hyphens_eq, if_pos (by simp), run_seqs_cons, ident]
    refine run_plus_of_some (by simpa [Cursor.advance] using h c (by simp)) ?_
    change run (seqs [spaces, lit ":"]) some
      { cursor := Cursor.skip ⟨'-' :: '-' :: before, c :: name ++ (gap.text ++ ':' :: rest)⟩
          (nameChar isAlnum) } = _
    rw [hname, run_seqs_cons, spaces]
    refine run_star_of_some ?_
    change run (lit ":") some
      { cursor := Cursor.skip ⟨(c :: name).reverse ++ '-' :: '-' :: before, gap.text ++ ':' :: rest⟩
          PyText.isSpace } = _
    rw [hgap, run_lit, if_pos (by simp)]
    simp [Cursor.advance]
  exact ⟨_, _, by
    unfold matchHere
    simp only [Bool.false_and, Bool.false_eq_true, if_false]
    exact congrArg (Option.map _) hrun, rfl, rfl⟩

/-! ## As many as there are declarations -/

theorem declsText_cons (d : Decl isAlnum) (ds : List (Decl isAlnum)) :
    declsText (d :: ds) =
      d.name ++ (d.gap.text ++ ':' :: ((d.value ++ d.behind) ++ declsText ds)) := by
  simp [declsText, Decl.text]

theorem head_declsText (laws : AlnumLaws isAlnum) (ds : List (Decl isAlnum)) (c : Char)
    (h : (declsText ds).head? = some c) : PyText.isSpace c = false ∧ c ≠ ':' := by
  cases ds with
  | nil => exact absurd h (by simp [declsText])
  | cons d ds =>
    obtain ⟨e, name, hname⟩ := List.exists_cons_of_ne_nil d.name_ne
    obtain rfl : e = c := by simpa [declsText_cons, hname] using h
    exact head_name laws (d.named e (by simp [hname]))

theorem head_gap (gap : Gap) (rest : List Char) : (gap.text ++ ':' :: rest).head? ≠ some '-' := by
  cases htext : gap.text with
  | nil => simp
  | cons c cs =>
    intro h
    obtain rfl : c = '-' := by simpa using h
    exact absurd (gap.blank '-' (by simp [htext])) (by decide)

/-- **The pattern finds the custom properties**, by induction on the declarations. -/
theorem finditerFrom_declsText (laws : AlnumLaws isAlnum) (ds : List (Decl isAlnum))
    (before : List Char) (n : Nat) (hn : (declsText ds).length < n) :
    (finditerFrom (reVarDecl isAlnum) n false ⟨before, declsText ds⟩).length =
      ds.countP Decl.isCustom := by
  induction ds generalizing before n with
  | nil =>
    have hnone : searchFrom (reVarDecl isAlnum) false before [] = none :=
      matchHere_eq_none (by rintro ⟨_, _, _, hsplit, -⟩; exact absurd hsplit (by simp))
    cases n with
    | zero => rfl
    | succ n =>
      have hnil : declsText ([] : List (Decl isAlnum)) = [] := rfl
      rw [hnil, finditerFrom]
      dsimp only
      rw [hnone]
      rfl
  | cons d ds ih =>
    have hhead := head_declsText laws ds
    have hrest : ∀ before n, (declsText ds).length < n →
        (finditerFrom (reVarDecl isAlnum) n false
          ⟨before, (d.value ++ d.behind) ++ declsText ds⟩).length = ds.countP Decl.isCustom := by
      intro before n hn
      rw [finditerFrom_skip n (searchFrom_loose d.loose before hhead)]
      exact ih _ n hn
    rw [declsText_cons] at hn ⊢
    simp only [List.length_append, List.length_cons] at hn
    rcases d.hyphens with ⟨c, cs, hname⟩ | hno
    · have hcustom : d.isCustom = true := by simp [Decl.isCustom, hname]
      have hnamed : ∀ e ∈ c :: cs, nameChar isAlnum e = true := fun e he =>
        d.named e (by rw [hname]; simp only [List.mem_cons] at he ⊢; exact .inr (.inr he))
      rw [List.countP_cons_of_pos hcustom, hname]
      obtain ⟨m, stop, hm, hstart, hstop⟩ := matchHere_custom laws d.gap hnamed before
        ((d.value ++ d.behind) ++ declsText ds)
      cases n with
      | zero => exact absurd hn (by simp)
      | succ n =>
        have hadvances : (m.start.after.length == m.stop.after.length) = false := by
          rw [hstart, hstop]
          simp only [List.length_append, List.length_cons, beq_eq_false_iff_ne, ne_eq]
          omega
        rw [finditerFrom]
        dsimp only [List.cons_append] at hm ⊢
        rw [searchFrom, hm, Option.orElse_some]
        dsimp only
        rw [hadvances, List.length_cons, hstop, hrest _ n (by omega)]
    · have hcustom : ¬ d.isCustom = true := fun h =>
        hno (List.isPrefixOf_iff_prefix.mp h).isInfix
      have hcolon : '-' ∉ d.gap.text ++ [':'] := by
        intro h
        rcases List.mem_append.mp h with h | h
        · exact absurd (d.gap.blank _ h) (by decide)
        · exact absurd h (by decide)
      rw [List.countP_cons_of_neg hcustom,
        finditerFrom_skip n (searchFrom_name hno (head_gap d.gap _) before)]
      have hsplit : ∀ rest : List Char, d.gap.text ++ ':' :: rest = (d.gap.text ++ [':']) ++ rest := by simp
      rw [hsplit, finditerFrom_skip n (searchFrom_noHyphen hcolon _ _)]
      exact hrest _ n (by omega)

variable {r : Rule} {ds : List (Decl isAlnum)}

theorem Declared.text_eq (h : Declared r ds) : ∃ front, r.text = front ++ declsText ds ∧
    Loose isAlnum front := by
  obtain ⟨lead, hbody, hfront⟩ := h.body
  refine ⟨_, ?_, hfront⟩
  have hblock : r.block = '\x7b' :: (lead ++ declsText ds) := by
    rw [← hbody]
    rfl
  rw [Rule.text, hblock]
  simp

/-- **The pattern finds as many as there are.** -/
theorem Declared.varLines (laws : AlnumLaws isAlnum) (h : Declared r ds) :
    ((reVarDecl isAlnum).finditer r.text).length = ds.countP Decl.isCustom := by
  obtain ⟨front, htext, hfront⟩ := h.text_eq
  unfold finditer
  rw [htext, finditerFrom_skip _ (searchFrom_loose hfront [] (head_declsText laws ds))]
  refine finditerFrom_declsText laws ds _ _ ?_
  rw [List.length_append]
  omega

theorem length_le_count (ds : List (Decl isAlnum)) : ds.length ≤ (declsText ds).count ':' := by
  induction ds with
  | nil => exact Nat.zero_le _
  | cons d ds ih =>
    rw [declsText_cons]
    simp only [List.count_append, List.count_cons_self, List.length_cons]
    omega

/-- **The colons are those of custom properties just if the declarations are.** -/
theorem Declared.only_iff (laws : AlnumLaws isAlnum) (h : Declared r ds) :
    (((reVarDecl isAlnum).finditer r.text).length ≠ 0 ∧
      ((reVarDecl isAlnum).finditer r.text).length = r.text.count ':') ↔
      ds ≠ [] ∧ ∀ d ∈ ds, d.isCustom = true := by
  rw [h.varLines laws]
  have hcolons : ds.length ≤ r.text.count ':' := by
    obtain ⟨front, htext, -⟩ := h.text_eq
    have hle := length_le_count ds
    rw [htext, List.count_append]
    omega
  constructor
  · rintro ⟨hne, hcount⟩
    have hall : ds.countP Decl.isCustom = ds.length := by
      have hle : ds.countP Decl.isCustom ≤ ds.length := List.countP_le_length
      omega
    refine ⟨?_, List.countP_eq_length.mp hall⟩
    rintro rfl
    exact hne rfl
  · rintro ⟨hne, hall⟩
    rw [h.colons hne hall, List.countP_eq_length.mpr hall]
    exact ⟨fun hlen => hne (List.eq_nil_of_length_eq_zero hlen), rfl⟩

end PlainSheets
end OdooSemantic
