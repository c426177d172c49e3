import TestChain.Bytes.Basic

/-! Numbers as byte strings of a fixed width.

`encode w n` writes the lowest `w` bytes of `n`, least significant first, and `decode` reads a byte
string of any length. They undo one another on numbers that fit and on every byte string
(`decode_encode`, `encode_decode`). `BigEndian` is the same with the most significant byte first. -/
namespace TestChain

namespace LittleEndian

/-- The lowest `w` bytes of a number. -/
def encode : Nat → Nat → Bytes
  | 0, _ => []
  | w + 1, n => UInt8.ofNat n :: encode w (n / 256)

/-- The number that a byte string spells. -/
def decode : Bytes → Nat
  | [] => 0
  | b :: bs => b.toNat + 256 * decode bs

/-- How many numbers have `w` bytes. -/
def capacity : Nat → Nat
  | 0 => 1
  | w + 1 => 256 * capacity w

@[simp] theorem length_encode (w n : Nat) : (encode w n).length = w := by
  induction w generalizing n with
  | zero => rfl
  | succ w ih => simp [encode, ih]

theorem decode_lt (bs : Bytes) : decode bs < capacity bs.length := by
  induction bs with
  | nil => decide
  | cons b bs ih =>
    have hb := b.toNat_lt
    simp only [decode, List.length_cons, capacity]
    omega

/-- What does not fit the width is dropped. -/
theorem decode_encode (w n : Nat) : decode (encode w n) = n % capacity w := by
  induction w generalizing n with
  | zero => simp [encode, decode, capacity, Nat.mod_one]
  | succ w ih => rw [encode, decode, ih, capacity, Nat.mod_mul, UInt8.toNat_ofNat']

theorem encode_decode (bs : Bytes) : encode bs.length (decode bs) = bs := by
  induction bs with
  | nil => rfl
  | cons b bs ih =>
    have hb := b.toNat_lt
    have hdiv : (b.toNat + 256 * decode bs) / 256 = decode bs := by omega
    have hmod : UInt8.ofNat (b.toNat + 256 * decode bs) = b := by
      apply UInt8.toNat_inj.mp
      simp only [UInt8.toNat_ofNat']
      omega
    simp only [List.length_cons, encode, decode, hdiv, hmod, ih]

end LittleEndian

namespace BigEndian

/-- The lowest `w` bytes of a number, most significant first. -/
def encode (w n : Nat) : Bytes := (LittleEndian.encode w n).reverse

/-- The number that a byte string spells, most significant byte first. -/
def decode (bs : Bytes) : Nat := bs.foldl (fun n b => 256 * n + b.toNat) 0

@[simp] theorem length_encode (w n : Nat) : (encode w n).length = w := by simp [encode]

end BigEndian

end TestChain
