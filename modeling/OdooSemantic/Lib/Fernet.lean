import Mathlib.Data.List.Basic

/-!
# Authenticated encryption under a key

What a program sees of Fernet: a text that spells a key or is refused, an encryption that takes
fresh randomness, and a decryption that may fail. What it may rely on is `Fernet.Lawful`: the key
that was used for encryption decrypts, and a ciphertext that decrypts under one key does not
decrypt under any other.
-/

namespace OdooSemantic

abbrev Bytes := List UInt8

structure Fernet where
  Key : Type
  /-- `Fernet(key)`, or the text of the `ValueError`. -/
  key : String → Except String Key
  /-- `encrypt(data).decode()`; the seed is the initialisation vector and the time. -/
  encrypt : Key → Nat → Bytes → String
  /-- `decrypt(token)`; `none` is `InvalidToken`. -/
  decrypt : Key → String → Option Bytes

namespace Fernet

structure Lawful (F : Fernet) : Prop where
  decrypt_encrypt : ∀ k seed data, F.decrypt k (F.encrypt k seed data) = some data
  decrypt_other : ∀ k k' token data, F.decrypt k token = some data → k' ≠ k →
    F.decrypt k' token = none

variable {F : Fernet}

/-- A token can be read. -/
def Readable (F : Fernet) (k : F.Key) (token : String) : Prop := (F.decrypt k token).isSome

instance (k : F.Key) (token : String) : Decidable (F.Readable k token) :=
  inferInstanceAs (Decidable (_ = true))

theorem readable_iff {k : F.Key} {token : String} :
    F.Readable k token ↔ ∃ data, F.decrypt k token = some data :=
  Option.isSome_iff_exists

/-- What is encrypted under one key is not readable under another. -/
theorem Lawful.not_readable_encrypt (h : F.Lawful) {k k' : F.Key} (hne : k' ≠ k) (seed : Nat)
    (data : Bytes) : ¬ F.Readable k' (F.encrypt k seed data) := by
  intro hread
  obtain ⟨data', hdata'⟩ := readable_iff.mp hread
  rw [h.decrypt_other k k' _ data (h.decrypt_encrypt k seed data) hne] at hdata'
  exact absurd hdata' (by simp)

end Fernet
end OdooSemantic
