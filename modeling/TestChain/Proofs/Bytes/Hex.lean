import TestChain.Hash.Digest

/-! Hexadecimal text read back.

A written byte takes two characters of one byte each, so a written text passes the check for an even
length, and its digits join to the bytes that it was written from. -/
namespace TestChain

namespace Hex

/-- What is checked of a digit, for all sixteen. -/
theorem digitChar_spec :
    ∀ n < 16, digitValue? (digitChar n) = some n ∧ (digitChar n).utf8Size = 1 := by
  decide

theorem digitValue?_digitChar {n : Nat} (h : n < 16) : digitValue? (digitChar n) = some n :=
  (digitChar_spec n h).1

theorem utf8Size_digitChar {n : Nat} (h : n < 16) : (digitChar n).utf8Size = 1 :=
  (digitChar_spec n h).2

theorem storedLength_encodeChars (bs : Bytes) : storedLength (encodeChars bs) = 2 * bs.length := by
  induction bs with
  | nil => rfl
  | cons b bs ih =>
    have hb := b.toNat_lt
    show (digitChar (b.toNat / 16)).utf8Size +
      ((digitChar (b.toNat % 16)).utf8Size + storedLength (encodeChars bs)) = _
    rw [utf8Size_digitChar (by omega), utf8Size_digitChar (by omega), ih, List.length_cons]
    omega

/-- The values of written digits, wherever the text stands. -/
theorem digitValues_encodeChars (bs : Bytes) (position : Nat) :
    digitValues position (encodeChars bs) =
      .ok (bs.flatMap fun b => [b.toNat / 16, b.toNat % 16]) := by
  induction bs generalizing position with
  | nil => rfl
  | cons b bs ih =>
    have hb := b.toNat_lt
    show digitValues position
      (digitChar (b.toNat / 16) :: digitChar (b.toNat % 16) :: encodeChars bs) = _
    simp only [digitValues, digitValue?_digitChar (show b.toNat / 16 < 16 by omega),
      digitValue?_digitChar (show b.toNat % 16 < 16 by omega), ih, List.flatMap_cons,
      List.cons_append, List.nil_append]

theorem joinPairs_halves (bs : Bytes) :
    joinPairs (bs.flatMap fun b => [b.toNat / 16, b.toNat % 16]) = bs := by
  induction bs with
  | nil => rfl
  | cons b bs ih =>
    have hb : UInt8.ofNat (16 * (b.toNat / 16) + b.toNat % 16) = b := by
      rw [Nat.div_add_mod, UInt8.ofNat_toNat]
    simp only [List.flatMap_cons, List.cons_append, List.nil_append, joinPairs, hb, ih]

theorem decode_encodeChars (bs : Bytes) : decode (encodeChars bs) = .ok bs := by
  unfold decode
  rw [storedLength_encodeChars, if_neg (by omega), digitValues_encodeChars]
  exact congrArg Except.ok (joinPairs_halves bs)

theorem decode_encode (bs : Bytes) : decode (encode bs).toList = .ok bs := by
  rw [encode, String.toList_ofList, decode_encodeChars]

end Hex

/-- A digest reads back from its text. -/
theorem Digest.ofHex?_hex (d : Digest) : ofHex? d.hex = some d := by
  unfold ofHex? hex
  rw [Hex.decode_encode]
  exact FixedBytes.ofList?_eq_some_iff.2 rfl

end TestChain
