import Mathlib.SetTheory.Cardinal.Finite
import Mathlib.Tactic.Ring
import TestChain.Bytes.LittleEndian

/-! Byte strings as numbers and as bits, most significant first.

Strings of one length are ordered as the numbers that they spell (`le_iff_decode_le`), and each
number below the capacity of a length is spelled by one string of that length. The same number is
spelled by the bits of the string (`ofBits_bits`), and it is small just when the first bits are
zero (`ofBits_lt_iff`). -/
namespace TestChain

/-- The bits of a byte, most significant first. -/
def byteBits (b : UInt8) : List Bool := (List.range 8).reverse.map b.toNat.testBit

/-- The bits of a byte string: those of its first byte first, most significant first. -/
def Bytes.bits (bs : Bytes) : List Bool := bs.flatMap byteBits

theorem Bytes.length_bits (bs : Bytes) : (bits bs).length = 8 * bs.length := by
  induction bs with
  | nil => rfl
  | cons b bs ih =>
    show (byteBits b ++ bits bs).length = _
    rw [List.length_append, ih, List.length_cons]
    simp only [byteBits, List.length_map, List.length_reverse, List.length_range]
    omega

theorem LittleEndian.capacity_eq (w : Nat) : capacity w = 256 ^ w := by
  induction w with
  | zero => rfl
  | succ w ih => rw [capacity, ih, Nat.pow_succ']

namespace BigEndian

/-! ### Numbers -/

theorem decode_eq (bs : Bytes) : decode bs = LittleEndian.decode bs.reverse := by
  rw [decode, List.foldl_eq_foldr_reverse]
  induction bs.reverse with
  | nil => rfl
  | cons b rest ih => rw [List.foldr_cons, LittleEndian.decode, ih, Nat.add_comm]

theorem decode_lt (bs : Bytes) : decode bs < 256 ^ bs.length := by
  have h := LittleEndian.decode_lt bs.reverse
  rwa [List.length_reverse, LittleEndian.capacity_eq, ← decode_eq] at h

/-- What does not fit the width is dropped. -/
theorem decode_encode (w n : Nat) : decode (encode w n) = n % 256 ^ w := by
  rw [decode_eq, encode, List.reverse_reverse, LittleEndian.decode_encode,
    LittleEndian.capacity_eq]

theorem encode_decode (bs : Bytes) : encode bs.length (decode bs) = bs := by
  have h := LittleEndian.encode_decode bs.reverse
  rw [List.length_reverse, ← decode_eq] at h
  rw [encode, h, List.reverse_reverse]

theorem decode_append (as bs : Bytes) :
    decode (as ++ bs) = decode as * 256 ^ bs.length + decode bs := by
  induction bs using List.reverseRecOn with
  | nil => simp [decode]
  | append_singleton bs b ih =>
    have hlast (cs : Bytes) : decode (cs ++ [b]) = 256 * decode cs + b.toNat := by
      simp only [decode, List.foldl_append, List.foldl_cons, List.foldl_nil]
    rw [← List.append_assoc, hlast, hlast, ih, List.length_append, List.length_singleton,
      Nat.pow_succ]
    ring

theorem decode_cons (b : UInt8) (bs : Bytes) :
    decode (b :: bs) = b.toNat * 256 ^ bs.length + decode bs := by
  have hb : decode [b] = b.toNat := by simp [decode]
  rw [← hb, ← decode_append, List.singleton_append]

theorem decode_replicate_zero (n : Nat) : decode (List.replicate n 0) = 0 := by
  induction n with
  | zero => rfl
  | succ n ih => rw [List.replicate_succ, decode_cons, ih, UInt8.toNat_zero, Nat.zero_mul]

/-- The largest string of a length spells the largest number. -/
theorem decode_replicate_max (n : Nat) : decode (List.replicate n 0xff) + 1 = 256 ^ n := by
  induction n with
  | zero => rfl
  | succ n ih =>
    have hff : (0xff : UInt8).toNat = 255 := rfl
    rw [List.replicate_succ, decode_cons, List.length_replicate, hff, Nat.add_assoc, ih,
      Nat.pow_succ]
    omega

/-- **The order of byte strings of one length is that of the numbers they spell.** -/
theorem le_iff_decode_le {as bs : Bytes} (h : as.length = bs.length) :
    as.le bs = true ↔ decode as ≤ decode bs := by
  induction as generalizing bs with
  | nil =>
    obtain rfl : bs = [] := List.length_eq_zero_iff.1 h.symm
    exact ⟨fun _ => Nat.le_refl _, fun _ => rfl⟩
  | cons a as ih =>
    cases bs with
    | nil => cases h
    | cons b bs =>
      have hlength : as.length = bs.length := Nat.succ.inj h
      have has := decode_lt as
      have hbs := decode_lt bs
      rw [Bytes.le, Bool.or_eq_true, Bool.and_eq_true, decide_eq_true_iff, beq_iff_eq,
        ih hlength, decode_cons, decode_cons, ← UInt8.toNat_inj, UInt8.lt_iff_toNat_lt]
      rw [hlength] at has ⊢
      rcases Nat.lt_trichotomy a.toNat b.toNat with hlt | heq | hgt
      · have hstep : (a.toNat + 1) * 256 ^ bs.length ≤ b.toNat * 256 ^ bs.length :=
          Nat.mul_le_mul_right _ hlt
        rw [Nat.succ_mul] at hstep
        constructor <;> intro <;> omega
      · rw [heq]
        constructor <;> intro <;> omega
      · have hstep : (b.toNat + 1) * 256 ^ bs.length ≤ a.toNat * 256 ^ bs.length :=
          Nat.mul_le_mul_right _ hgt
        rw [Nat.succ_mul] at hstep
        constructor <;> intro <;> omega

/-! ### Bits -/

/-- The number that bits spell, most significant first. -/
def ofBits (bits : List Bool) : Nat := bits.foldl (fun n bit => 2 * n + bit.toNat) 0

theorem ofBits_append (xs ys : List Bool) :
    ofBits (xs ++ ys) = ofBits xs * 2 ^ ys.length + ofBits ys := by
  induction ys using List.reverseRecOn with
  | nil => simp [ofBits]
  | append_singleton ys y ih =>
    have hlast (zs : List Bool) : ofBits (zs ++ [y]) = 2 * ofBits zs + y.toNat := by
      simp only [ofBits, List.foldl_append, List.foldl_cons, List.foldl_nil]
    rw [← List.append_assoc, hlast, hlast, ih, List.length_append, List.length_singleton,
      Nat.pow_succ]
    ring

theorem ofBits_cons (x : Bool) (xs : List Bool) :
    ofBits (x :: xs) = x.toNat * 2 ^ xs.length + ofBits xs := by
  have hx : ofBits [x] = x.toNat := by simp [ofBits]
  rw [← hx, ← ofBits_append, List.singleton_append]

theorem ofBits_lt (bits : List Bool) : ofBits bits < 2 ^ bits.length := by
  induction bits with
  | nil => decide
  | cons x xs ih =>
    have hx : x.toNat ≤ 1 := Bool.toNat_le x
    have hmul : x.toNat * 2 ^ xs.length ≤ 1 * 2 ^ xs.length := Nat.mul_le_mul_right _ hx
    rw [ofBits_cons, List.length_cons, Nat.pow_succ]
    omega

/-- **A number is small when its first bits are zero**, and only then. -/
theorem ofBits_lt_iff {bits : List Bool} {m : Nat} (h : m ≤ bits.length) :
    ofBits bits < 2 ^ (bits.length - m) ↔ ∀ bit ∈ bits.take m, bit = false := by
  induction bits generalizing m with
  | nil =>
    rw [Nat.le_zero.1 h]
    exact ⟨fun _ => nofun, fun _ => by decide⟩
  | cons x xs ih =>
    cases m with
    | zero => exact ⟨fun _ => nofun, fun _ => ofBits_lt _⟩
    | succ m =>
      have hm : m ≤ xs.length := Nat.le_of_succ_le_succ h
      rw [List.length_cons, Nat.add_sub_add_right, List.take_succ_cons, List.forall_mem_cons,
        ofBits_cons, ← ih hm]
      cases x with
      | false => simp
      | true =>
        have hpow : 2 ^ (xs.length - m) ≤ 2 ^ xs.length :=
          Nat.pow_le_pow_right (by decide) (Nat.sub_le _ _)
        simp only [Bool.toNat_true, Bool.true_eq_false, false_and, iff_false]
        omega

theorem ofBits_byteBits (b : UInt8) : ofBits (byteBits b) = b.toNat := by
  have hall : ∀ n < 256, ofBits ((List.range 8).reverse.map (Nat.testBit n)) = n := by
    decide +kernel
  exact hall _ b.toNat_lt

/-- A byte string and its bits spell one number. -/
theorem ofBits_bits (bs : Bytes) : ofBits bs.bits = decode bs := by
  induction bs with
  | nil => rfl
  | cons b bs ih =>
    show ofBits (byteBits b ++ Bytes.bits bs) = _
    rw [ofBits_append, ofBits_byteBits, ih, Bytes.length_bits, Nat.pow_mul, decode_cons]

/-! ### How many -/

/-- The strings of a length that spell numbers below a bound are as many as there are such
numbers. -/
theorem card_decode_lt {w bound : Nat} (h : bound ≤ 256 ^ w) :
    Nat.card { bs : FixedBytes w // decode bs.toList < bound } = bound := by
  let numbers : { bs : FixedBytes w // decode bs.toList < bound } ≃ Fin bound :=
    { toFun := fun bs => ⟨decode bs.1.toList, bs.2⟩
      invFun := fun n => ⟨⟨encode w n, length_encode ..⟩, by
        rw [decode_encode, Nat.mod_eq_of_lt (by omega)]
        exact n.2⟩
      left_inv := by
        rintro ⟨bs, hbs⟩
        have hencode := encode_decode bs.toList
        rw [bs.length_toList] at hencode
        exact Subtype.ext (FixedBytes.ext hencode)
      right_inv := fun n => by
        apply Fin.ext
        show decode (encode w n) = n
        rw [decode_encode, Nat.mod_eq_of_lt (by omega)] }
  rw [Nat.card_congr numbers, Nat.card_fin]

end BigEndian

end TestChain
