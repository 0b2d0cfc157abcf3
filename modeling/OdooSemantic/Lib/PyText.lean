import Mathlib.Data.List.Basic

/-!
# Python text, where a program's behaviour hangs on its small print

`str.strip` and `str.splitlines`, on character lists. A text printed line by line comes back
line by line, provided no line holds one of the characters `splitlines` also breaks at
(`splitlines_printLines`).

`int` reads more than `str` writes: whitespace around the number, a sign, underscores between
digits, and the decimal digits of every script. What `str` writes it reads back (`int_str`).
-/

namespace OdooSemantic
namespace PyText

/-- `c.isspace()` -/
def isSpace (c : Char) : Bool :=
  c.toNat ∈ [0x09, 0x0a, 0x0b, 0x0c, 0x0d, 0x1c, 0x1d, 0x1e, 0x1f, 0x20, 0x85, 0xa0, 0x1680,
    0x2000, 0x2001, 0x2002, 0x2003, 0x2004, 0x2005, 0x2006, 0x2007, 0x2008, 0x2009, 0x200a,
    0x2028, 0x2029, 0x202f, 0x205f, 0x3000]

/-- `s.strip()` -/
def strip (s : String) : String :=
  String.ofList ((s.toList.dropWhile isSpace).reverse.dropWhile isSpace).reverse

theorem mem_dropWhile {p : Char → Bool} {cs : List Char} {c : Char} (h : c ∈ cs)
    (hp : p c = false) : c ∈ cs.dropWhile p := by
  induction cs with
  | nil => exact absurd h (by simp)
  | cons d cs ih =>
    rw [List.dropWhile_cons]
    split
    · rename_i hd
      have hne : c ≠ d := by
        intro heq
        rw [heq, hd] at hp
        exact absurd hp (by simp)
      exact ih ((List.mem_cons.mp h).resolve_left hne)
    · exact h

theorem strip_ne_empty {s : String} {c : Char} (h : c ∈ s.toList) (hc : isSpace c = false) :
    strip s ≠ "" := by
  have hmem : c ∈ (strip s).toList := by
    unfold strip
    rw [String.toList_ofList, List.mem_reverse]
    exact mem_dropWhile (List.mem_reverse.mpr (mem_dropWhile h hc)) hc
  intro he
  rw [he] at hmem
  exact absurd hmem (by simp)

/-- `s.startswith(t)` -/
def startswith (s t : String) : Bool := t.toList.isPrefixOf s.toList

/-- `s.endswith(t)` -/
def endswith (s t : String) : Bool := t.toList.isSuffixOf s.toList

/-- The characters a line ends at. -/
def isLineBoundary (c : Char) : Bool :=
  c.toNat ∈ [0x0a, 0x0b, 0x0c, 0x0d, 0x1c, 0x1d, 0x1e, 0x85, 0x2028, 0x2029]

/-- `acc` is the line read so far, backwards. -/
def splitlinesFrom (acc : List Char) : List Char → List (List Char)
  | [] => if acc = [] then [] else [acc.reverse]
  | '\r' :: '\n' :: cs => acc.reverse :: splitlinesFrom [] cs
  | c :: cs =>
      if isLineBoundary c then acc.reverse :: splitlinesFrom [] cs
      else splitlinesFrom (c :: acc) cs

/-- `s.splitlines()` -/
def splitlines (s : String) : List String := (splitlinesFrom [] s.toList).map String.ofList

/-- Every line and a newline after it. -/
def printLines (lines : List String) : String :=
  String.ofList (lines.flatMap fun l => l.toList ++ ['\n'])

example : splitlines "a\r\nb\x0bc\n" = ["a", "b", "c"] := by decide

theorem splitlinesFrom_line {line : List Char} (h : ∀ c ∈ line, isLineBoundary c = false)
    (acc rest : List Char) :
    splitlinesFrom acc (line ++ '\n' :: rest) = (acc.reverse ++ line) :: splitlinesFrom [] rest := by
  induction line generalizing acc with
  | nil =>
    rw [List.nil_append, splitlinesFrom]
    · simp [isLineBoundary]
    · intro cs hr
      exact absurd hr (by decide)
  | cons c line ih =>
    have hc : isLineBoundary c = false := h c List.mem_cons_self
    rw [List.cons_append, splitlinesFrom]
    · rw [if_neg (by simp [hc]), ih fun d hd => h d (List.mem_cons_of_mem _ hd)]
      simp
    · intro cs hr _
      subst hr
      exact absurd hc (by decide)

/-- **Printed line by line, read back line by line.** -/
theorem splitlines_printLines {lines : List String}
    (h : ∀ l ∈ lines, ∀ c ∈ l.toList, isLineBoundary c = false) :
    splitlines (printLines lines) = lines := by
  unfold splitlines printLines
  rw [String.toList_ofList]
  induction lines with
  | nil => rfl
  | cons l lines ih =>
    rw [List.flatMap_cons, List.append_assoc, List.singleton_append,
      splitlinesFrom_line (h l List.mem_cons_self), List.map_cons,
      ih fun l' hl' => h l' (List.mem_cons_of_mem _ hl')]
    simp

/-- `splitlines(keepends=True)`; `acc` is the line read so far, backwards. -/
def linesFrom (acc : List Char) : List Char → List (List Char)
  | [] => if acc = [] then [] else [acc.reverse]
  | '\r' :: '\n' :: cs => ('\n' :: '\r' :: acc).reverse :: linesFrom [] cs
  | c :: cs =>
      if isLineBoundary c then (c :: acc).reverse :: linesFrom [] cs else linesFrom (c :: acc) cs

/-- `s.rstrip()` -/
def rstrip (cs : List Char) : List Char := (cs.reverse.dropWhile isSpace).reverse

/-! ## UTF-8 -/

def isContinuation (b : UInt8) : Bool := 0x80 ≤ b && b < 0xc0

/-- The character that begins with `b`, and how many of the bytes behind it belong to it. -/
def headChar (b : UInt8) (bs : List UInt8) : Option (Char × Nat) :=
  let low (b : UInt8) : Nat := b.toNat % 0x40
  if b < 0x80 then some (Char.ofNat b.toNat, 0)
  else if b < 0xc2 then none
  else if b < 0xe0 then
    match bs with
    | b1 :: _ =>
        if isContinuation b1 then some (Char.ofNat (b.toNat % 0x20 * 0x40 + low b1), 1) else none
    | _ => none
  else if b < 0xf0 then
    match bs with
    | b1 :: b2 :: _ =>
        let code := b.toNat % 0x10 * 0x1000 + low b1 * 0x40 + low b2
        if isContinuation b1 && isContinuation b2 && 0x800 ≤ code &&
            !(0xd800 ≤ code && code < 0xe000) then some (Char.ofNat code, 2) else none
    | _ => none
  else if b < 0xf5 then
    match bs with
    | b1 :: b2 :: b3 :: _ =>
        let code := b.toNat % 0x08 * 0x40000 + low b1 * 0x1000 + low b2 * 0x40 + low b3
        if isContinuation b1 && isContinuation b2 && isContinuation b3 && 0x10000 ≤ code &&
            code < 0x110000 then some (Char.ofNat code, 3) else none
    | _ => none
  else none

/-- Behind so many bytes. -/
def decodeFrom : Nat → List UInt8 → List Char
  | _, [] => []
  | n + 1, _ :: bs => decodeFrom n bs
  | 0, b :: bs =>
      match headChar b bs with
      | some (c, n) => c :: decodeFrom n bs
      | none => decodeFrom 0 bs

/-- `bs.decode("utf-8", errors="ignore")` -/
def decode (bs : List UInt8) : List Char := decodeFrom 0 bs

example : decode [0x61, 0xc3, 0xa9, 0xe2, 0x82, 0x62, 0xff] = ['a', 'é', 'b'] := by rfl

/-! ## Numbers -/

/-- The zeros of the decimal digits; the nine characters behind each are the other digits. -/
def zeros : List Nat :=
  [0x30, 0x660, 0x6f0, 0x7c0, 0x966, 0x9e6, 0xa66, 0xae6, 0xb66, 0xbe6, 0xc66, 0xce6, 0xd66,
    0xde6, 0xe50, 0xed0, 0xf20, 0x1040, 0x1090, 0x17e0, 0x1810, 0x1946, 0x19d0, 0x1a80, 0x1a90,
    0x1b50, 0x1bb0, 0x1c40, 0x1c50, 0xa620, 0xa8d0, 0xa900, 0xa9d0, 0xa9f0, 0xaa50, 0xabf0,
    0xff10, 0x104a0, 0x10d30, 0x11066, 0x110f0, 0x11136, 0x111d0, 0x112f0, 0x11450, 0x114d0,
    0x11650, 0x116c0, 0x11730, 0x118e0, 0x11950, 0x11c50, 0x11d50, 0x11da0, 0x11f50, 0x16a60,
    0x16ac0, 0x16b50, 0x1d7ce, 0x1d7d8, 0x1d7e2, 0x1d7ec, 0x1d7f6, 0x1e140, 0x1e2f0, 0x1e4f0,
    0x1e950, 0x1fbf0]

/-- `unicodedata.decimal(c)` -/
def decimalValue (c : Char) : Option Nat :=
  (zeros.find? fun z => z ≤ c.toNat && c.toNat < z + 10).map (c.toNat - ·)

/-- `\d` -/
def isDecimal (c : Char) : Bool := (decimalValue c).isSome

/-- The digits behind a digit; `acc` is what has been read. -/
def digitsFrom (acc : Nat) : List Char → Option Nat
  | [] => some acc
  | '_' :: c :: cs => (decimalValue c).bind fun d => digitsFrom (10 * acc + d) cs
  | c :: cs => (decimalValue c).bind fun d => digitsFrom (10 * acc + d) cs

def natural : List Char → Option Nat
  | [] => none
  | c :: cs => (decimalValue c).bind fun d => digitsFrom d cs

/-- `int(s)` -/
def int (s : String) : Option Int :=
  match (strip s).toList with
  | '-' :: cs => (natural cs).map fun n => -(n : Int)
  | '+' :: cs => (natural cs).map fun n => (n : Int)
  | cs => (natural cs).map fun n => (n : Int)

example : int " -1_0" = some (-10) ∧ int "1__0" = none := by decide

/-- `str(n)` -/
def str (n : Nat) : String := toString n

theorem toNat_of_isDigit {c : Char} (h : c.isDigit = true) : 48 ≤ c.toNat ∧ c.toNat < 58 := by
  simp only [Char.isDigit, Bool.and_eq_true, decide_eq_true_eq, UInt32.le_iff_toNat_le] at h
  exact ⟨h.1, Nat.lt_succ_of_le h.2⟩

theorem decimalValue_of_isDigit {c : Char} (h : c.isDigit = true) :
    decimalValue c = some (c.toNat - 48) := by
  obtain ⟨hlow, hhigh⟩ := toNat_of_isDigit h
  have hzeros : zeros = 0x30 :: zeros.tail := rfl
  unfold decimalValue
  rw [hzeros, List.find?_cons_of_pos (by simp [hlow, hhigh])]
  rfl

theorem isSpace_of_isDigit {c : Char} (h : c.isDigit = true) : isSpace c = false := by
  obtain ⟨hlow, hhigh⟩ := toNat_of_isDigit h
  unfold isSpace
  rw [decide_eq_false_iff_not]
  simp only [List.mem_cons, List.not_mem_nil, or_false, not_or]
  omega

theorem blanks_notAlphanum :
    ([0x09, 0x0a, 0x0b, 0x0c, 0x0d, 0x1c, 0x1d, 0x1e, 0x1f, 0x20, 0x85, 0xa0, 0x1680, 0x2000, 0x2001,
      0x2002, 0x2003, 0x2004, 0x2005, 0x2006, 0x2007, 0x2008, 0x2009, 0x200a, 0x2028, 0x2029, 0x202f,
      0x205f, 0x3000].all fun n => !(Char.ofNat n).isAlphanum) = true := by
  decide

theorem isSpace_of_isAlphanum {c : Char} (h : c.isAlphanum = true) : isSpace c = false := by
  refine Bool.eq_false_iff.mpr fun hspace => ?_
  have hno := List.all_eq_true.mp blanks_notAlphanum c.toNat (of_decide_eq_true hspace)
  rw [Char.ofNat_toNat, h] at hno
  exact absurd hno (by decide)

theorem digitsFrom_eq {cs : List Char} (h : ∀ c ∈ cs, c.isDigit = true) (acc : Nat) :
    digitsFrom acc cs = some (Nat.ofDigitChars 10 cs acc) := by
  induction cs generalizing acc with
  | nil => simp [digitsFrom]
  | cons c cs ih =>
    have hc := h c List.mem_cons_self
    have hne : c ≠ '_' := by
      intro heq
      rw [heq] at hc
      exact absurd hc (by decide)
    rw [digitsFrom.eq_3 acc c cs (by
        intro d ds heq
        exact absurd heq hne),
      decimalValue_of_isDigit hc, Option.bind_some,
      ih (fun d hd => h d (List.mem_cons_of_mem _ hd)), Nat.ofDigitChars_cons]
    rfl

/-- What has no space in it is its own `strip`. -/
theorem strip_eq_self {s : String} (h : ∀ c ∈ s.toList, isSpace c = false) : strip s = s := by
  have hdrop : ∀ cs : List Char, (∀ c ∈ cs, isSpace c = false) → cs.dropWhile isSpace = cs := by
    intro cs hcs
    cases cs with
    | nil => rfl
    | cons c cs => rw [List.dropWhile_cons_of_neg (by simp [hcs c List.mem_cons_self])]
  unfold strip
  rw [hdrop _ h, hdrop _ (fun c hc => h c (List.mem_reverse.mp hc)), List.reverse_reverse,
    String.ofList_toList]

/-- **`int` reads what `str` writes.** -/
theorem int_str (n : Nat) : int (str n) = some (n : Int) := by
  have hlist : (str n).toList = Nat.toDigits 10 n := by
    rw [str, Nat.toString_eq_ofList_toDigits, String.toList_ofList]
  have hdigit : ∀ c ∈ (str n).toList, c.isDigit = true := by
    intro c hc
    rw [hlist] at hc
    exact Nat.isDigit_of_mem_toDigits (by decide) (by decide) hc
  have hvalue : Nat.ofDigitChars 10 (str n).toList 0 = n := by
    rw [hlist, Nat.ofDigitChars_ten_toDigits]
  have hnatural : natural (str n).toList = some n := by
    cases hds : (str n).toList with
    | nil => exact absurd (hlist.symm.trans hds) Nat.toDigits_ne_nil
    | cons c cs =>
      rw [hds] at hdigit hvalue
      rw [natural, decimalValue_of_isDigit (hdigit c List.mem_cons_self), Option.bind_some,
        digitsFrom_eq fun d hd => hdigit d (List.mem_cons_of_mem _ hd), ← hvalue,
        Nat.ofDigitChars_cons]
      simp
  unfold int
  rw [strip_eq_self fun c hc => isSpace_of_isDigit (hdigit c hc)]
  split
  · rename_i cs hcs
    exact absurd (hdigit '-' (hcs ▸ List.mem_cons_self)) (by decide)
  · rename_i cs hcs
    exact absurd (hdigit '+' (hcs ▸ List.mem_cons_self)) (by decide)
  · rw [hnatural]
    rfl

end PyText
end OdooSemantic
