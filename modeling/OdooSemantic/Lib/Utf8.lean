import OdooSemantic.Lib.PyText

/-!
# UTF-8 there and back

What is encoded is decoded to itself, whatever bytes stand behind it.
-/

namespace OdooSemantic
namespace PyText

/-- `s.encode()` -/
def encode (cs : List Char) : List UInt8 := cs.flatMap String.utf8EncodeChar

@[simp] theorem encode_nil : encode [] = [] := rfl

theorem encode_cons (c : Char) (cs : List Char) :
    encode (c :: cs) = String.utf8EncodeChar c ++ encode cs := rfl

@[simp] theorem encode_append (cs ds : List Char) : encode (cs ++ ds) = encode cs ++ encode ds :=
  List.flatMap_append

theorem isContinuation_ofNat {n : Nat} (h : n < 0x40) :
    isContinuation (UInt8.ofNat (n + 0x80)) = true := by
  simp only [isContinuation, Bool.and_eq_true, decide_eq_true_eq, UInt8.le_iff_toNat_le,
    UInt8.lt_iff_toNat_lt, UInt8.toNat_ofNat']
  constructor
  · show 0x80 ≤ _
    omega
  · show _ < 0xc0
    omega

theorem toNat_ofNat_of_lt {n : Nat} (h : n < 256) : (UInt8.ofNat n).toNat = n := by
  rw [UInt8.toNat_ofNat']
  exact Nat.mod_eq_of_lt h

theorem ofNat_lt {n m : Nat} (h : n < m) (hm : m < 256) : UInt8.ofNat n < UInt8.ofNat m := by
  rwa [UInt8.lt_iff_toNat_lt, toNat_ofNat_of_lt hm, toNat_ofNat_of_lt (by omega)]

theorem not_ofNat_lt {n m : Nat} (h : m ≤ n) (hn : n < 256) :
    ¬ UInt8.ofNat n < UInt8.ofNat m := by
  rw [UInt8.lt_iff_toNat_lt, toNat_ofNat_of_lt hn, toNat_ofNat_of_lt (by omega)]
  omega

section Lengths

variable {v : Nat} (rest : List UInt8)

/-! One lemma a length: the bytes of a code point, with anything behind. -/

theorem headChar_one (h : v ≤ 0x7f) :
    headChar (UInt8.ofNat v) rest = some (Char.ofNat v, 0) := by
  have hb : v < 256 := by omega
  have hlt : UInt8.ofNat v < 0x80 := @ofNat_lt v 0x80 (by omega) (by decide)
  unfold headChar
  simp only [hlt, if_true, toNat_ofNat_of_lt hb]

theorem headChar_two (h : 0x7f < v) (h' : v ≤ 0x7ff) :
    headChar (UInt8.ofNat (v / 64 % 0x20 + 0xc0)) (UInt8.ofNat (v % 0x40 + 0x80) :: rest) =
      some (Char.ofNat v, 1) := by
  have hb : v / 64 % 0x20 + 0xc0 < 256 := by omega
  have hlow : v % 0x40 + 0x80 < 256 := by omega
  have hcode : (v / 64 % 0x20 + 0xc0) % 0x20 * 0x40 + (v % 0x40 + 0x80) % 0x40 = v := by omega
  have hlast := isContinuation_ofNat (Nat.mod_lt v (by decide : 0 < 0x40))
  have h1 : ¬ UInt8.ofNat (v / 64 % 0x20 + 0xc0) < 0x80 := @not_ofNat_lt _ 0x80 (by omega) hb
  have h2 : ¬ UInt8.ofNat (v / 64 % 0x20 + 0xc0) < 0xc2 := @not_ofNat_lt _ 0xc2 (by omega) hb
  have h3 : UInt8.ofNat (v / 64 % 0x20 + 0xc0) < 0xe0 := @ofNat_lt _ 0xe0 (by omega) (by decide)
  rw [headChar, if_neg h1, if_neg h2,
    if_pos h3]
  simp only [hlast, if_true, toNat_ofNat_of_lt hb, toNat_ofNat_of_lt hlow, hcode]

theorem headChar_three (h : 0x7ff < v) (h' : v ≤ 0xffff) (hvalid : v < 0xd800 ∨ 0xdfff < v) :
    headChar (UInt8.ofNat (v / 4096 % 0x10 + 0xe0)) (UInt8.ofNat (v / 64 % 0x40 + 0x80) ::
      UInt8.ofNat (v % 0x40 + 0x80) :: rest) = some (Char.ofNat v, 2) := by
  have hb : v / 4096 % 0x10 + 0xe0 < 256 := by omega
  have hmid : v / 64 % 0x40 + 0x80 < 256 := by omega
  have hlow : v % 0x40 + 0x80 < 256 := by omega
  have hcode : (v / 4096 % 0x10 + 0xe0) % 0x10 * 0x1000 + (v / 64 % 0x40 + 0x80) % 0x40 * 0x40 +
      (v % 0x40 + 0x80) % 0x40 = v := by omega
  have hmiddle := isContinuation_ofNat (Nat.mod_lt (v / 64) (by decide : 0 < 0x40))
  have hlast := isContinuation_ofNat (Nat.mod_lt v (by decide : 0 < 0x40))
  have h1 : ¬ UInt8.ofNat (v / 4096 % 0x10 + 0xe0) < 0x80 := @not_ofNat_lt _ 0x80 (by omega) hb
  have h2 : ¬ UInt8.ofNat (v / 4096 % 0x10 + 0xe0) < 0xc2 := @not_ofNat_lt _ 0xc2 (by omega) hb
  have h3 : ¬ UInt8.ofNat (v / 4096 % 0x10 + 0xe0) < 0xe0 := @not_ofNat_lt _ 0xe0 (by omega) hb
  have h4 : UInt8.ofNat (v / 4096 % 0x10 + 0xe0) < 0xf0 := @ofNat_lt _ 0xf0 (by omega) (by decide)
  have hguard : (0x800 ≤ v && !(0xd800 ≤ v && v < 0xe000)) = true := by
    simp only [Bool.and_eq_true, Bool.not_eq_true', Bool.and_eq_false_iff, decide_eq_true_eq,
      decide_eq_false_iff_not]
    omega
  rw [headChar, if_neg h1, if_neg h2,
    if_neg h3, if_pos h4]
  simp only [hmiddle, hlast, Bool.true_and, toNat_ofNat_of_lt hb, toNat_ofNat_of_lt hmid,
    toNat_ofNat_of_lt hlow, hcode, hguard, if_true]

theorem headChar_four (h : 0xffff < v) (hvalid : v < 0x110000) :
    headChar (UInt8.ofNat (v / 262144 % 0x08 + 0xf0)) (UInt8.ofNat (v / 4096 % 0x40 + 0x80) ::
      UInt8.ofNat (v / 64 % 0x40 + 0x80) :: UInt8.ofNat (v % 0x40 + 0x80) :: rest) =
      some (Char.ofNat v, 3) := by
  have hb : v / 262144 % 0x08 + 0xf0 < 256 := by omega
  have hhigh : v / 4096 % 0x40 + 0x80 < 256 := by omega
  have hmid : v / 64 % 0x40 + 0x80 < 256 := by omega
  have hlow : v % 0x40 + 0x80 < 256 := by omega
  have hcode : (v / 262144 % 0x08 + 0xf0) % 0x08 * 0x40000 +
      (v / 4096 % 0x40 + 0x80) % 0x40 * 0x1000 + (v / 64 % 0x40 + 0x80) % 0x40 * 0x40 +
      (v % 0x40 + 0x80) % 0x40 = v := by omega
  have hfirst := isContinuation_ofNat (Nat.mod_lt (v / 4096) (by decide : 0 < 0x40))
  have hmiddle := isContinuation_ofNat (Nat.mod_lt (v / 64) (by decide : 0 < 0x40))
  have hlast := isContinuation_ofNat (Nat.mod_lt v (by decide : 0 < 0x40))
  have h1 : ¬ UInt8.ofNat (v / 262144 % 0x08 + 0xf0) < 0x80 := @not_ofNat_lt _ 0x80 (by omega) hb
  have h2 : ¬ UInt8.ofNat (v / 262144 % 0x08 + 0xf0) < 0xc2 := @not_ofNat_lt _ 0xc2 (by omega) hb
  have h3 : ¬ UInt8.ofNat (v / 262144 % 0x08 + 0xf0) < 0xe0 := @not_ofNat_lt _ 0xe0 (by omega) hb
  have h4 : ¬ UInt8.ofNat (v / 262144 % 0x08 + 0xf0) < 0xf0 := @not_ofNat_lt _ 0xf0 (by omega) hb
  have h5 : UInt8.ofNat (v / 262144 % 0x08 + 0xf0) < 0xf5 := @ofNat_lt _ 0xf5 (by omega) (by decide)
  have hguard : (0x10000 ≤ v && v < 0x110000) = true := by
    simp only [Bool.and_eq_true, decide_eq_true_eq]
    omega
  rw [headChar, if_neg h1, if_neg h2,
    if_neg h3, if_neg h4,
    if_pos h5]
  simp only [hfirst, hmiddle, hlast, Bool.true_and, toNat_ofNat_of_lt hb, toNat_ofNat_of_lt hhigh,
    toNat_ofNat_of_lt hmid, toNat_ofNat_of_lt hlow, hcode, hguard, if_true]

end Lengths

/-- The first byte tells how many follow, and all of them together the character. -/
theorem headChar_utf8EncodeChar (c : Char) (rest : List UInt8) :
    ∃ b bs, String.utf8EncodeChar c = b :: bs ∧ headChar b (bs ++ rest) = some (c, bs.length) := by
  have hvalid : c.val.toNat < 0xd800 ∨ 0xdfff < c.val.toNat ∧ c.val.toNat < 0x110000 := c.valid
  have hself : Char.ofNat c.val.toNat = c := Char.ofNat_toNat c
  generalize hv : c.val.toNat = v at hvalid hself
  unfold String.utf8EncodeChar
  simp only [hv]
  split
  · exact ⟨_, _, rfl, by rw [← hself]; exact headChar_one rest ‹_›⟩
  · split
    · exact ⟨_, _, rfl, by rw [← hself]; exact headChar_two rest (by omega) ‹_›⟩
    · split
      · exact ⟨_, _, rfl, by rw [← hself]; exact headChar_three rest (by omega) ‹_› (by omega)⟩
      · exact ⟨_, _, rfl, by rw [← hself]; exact headChar_four rest (by omega) (by omega)⟩

theorem decodeFrom_append (bs rest : List UInt8) : decodeFrom bs.length (bs ++ rest) = decode rest := by
  induction bs with
  | nil => rfl
  | cons b bs ih => rw [List.length_cons, List.cons_append, decodeFrom, ih]

theorem decode_utf8EncodeChar (c : Char) (rest : List UInt8) :
    decode (String.utf8EncodeChar c ++ rest) = c :: decode rest := by
  obtain ⟨b, bs, heq, hhead⟩ := headChar_utf8EncodeChar c rest
  rw [heq, List.cons_append, decode, decodeFrom, hhead]
  simp only [decodeFrom_append]

/-- **What is encoded is decoded to itself.** -/
theorem decode_encode (cs : List Char) : decode (encode cs) = cs := by
  induction cs with
  | nil => rfl
  | cons c cs ih => rw [encode_cons, decode_utf8EncodeChar, ih]

theorem length_le_length_encode (cs : List Char) : cs.length ≤ (encode cs).length := by
  induction cs with
  | nil => exact Nat.le_refl _
  | cons c cs ih =>
    have hpos := c.utf8Size_pos
    rw [encode_cons, List.length_append, String.length_utf8EncodeChar, List.length_cons]
    omega

end PyText
end OdooSemantic
