import TestChain.Block.Header
import TestChain.Proofs.Bytes.BigEndian
import TestChain.Proofs.Store.Record

/-! What a difficulty asks for.

The target of a difficulty spells the largest number with so many leading zero bits of 256
(`decode_target`). So a hash comes no later than the target just when these bits of it are zero, or
when the number that it spells is below a power of two, and that power is how many hashes there are
to choose from. Work is the share of all hashes that this leaves to try, for as long as it fits
(`Header.target_work`).

`target` says what each byte is. `target.fill?` makes the same string in place, byte by byte, where
a place past the end or a shift by a whole byte has no result; for no difficulty does it come to
that (`target.fill?_eq`). -/
namespace TestChain

/-! ### In place -/

/-- A byte moved to the right by so many bits, which have to be fewer than it has. -/
def shiftRight? (b : UInt8) (count : Nat) : Option UInt8 :=
  if count < 8 then some (b >>> UInt8.ofNat count) else none

/-- A byte string with the byte at a place replaced, if there is such a place. -/
def setByte? (bs : Bytes) (place : Nat) (b : UInt8) : Option Bytes :=
  if place < bs.length then some (bs.set place b) else none

/-- The string of a target made in place: of 32 bytes that have all bits, the first are cleared,
and one more is moved to the right where the difficulty is not in whole bytes. -/
def target.fill? (difficulty : UInt32) : Option Bytes :=
  let whole := difficulty.toNat / 8
  let part := difficulty.toNat % 8
  let cleared := (List.replicate 32 0xff).mapIdx fun place b => if place < whole then 0 else b
  if whole < 32 ∧ 0 < part then (shiftRight? 0xff part).bind (setByte? cleared whole)
  else some cleared

/-- One moved to the left in 128 bits by the difficulty, or by 127 if it is more. -/
def Work.shift? (difficulty : UInt32) : Option Nat :=
  let count := min difficulty.toNat 127
  if count < 128 then some (1 <<< count) else none

theorem Work.shift?_eq (difficulty : UInt32) :
    shift? difficulty = some (ofDifficulty difficulty).toNat :=
  if_pos (by omega)

section
variable {difficulty : UInt32} {place : Nat}

theorem targetByte_of_lt (h : place < difficulty.toNat / 8) : targetByte difficulty place = 0 :=
  if_pos h

theorem targetByte_self (difficulty : UInt32) :
    targetByte difficulty (difficulty.toNat / 8) =
      0xff >>> UInt8.ofNat (difficulty.toNat % 8) :=
  (if_neg (Nat.lt_irrefl _)).trans (if_pos rfl)

theorem targetByte_of_gt (h : difficulty.toNat / 8 < place) :
    targetByte difficulty place = 0xff :=
  (if_neg (Nat.lt_asymm h)).trans (if_neg (Nat.ne_of_gt h))

theorem getElem_toList_target (h : place < (target difficulty).toList.length) :
    (target difficulty).toList[place] = targetByte difficulty place := by
  simp only [target, List.getElem_map, List.getElem_range]

end

/-- **Nothing is out of range**, whatever the difficulty, and what is made is the target. -/
theorem target.fill?_eq (difficulty : UInt32) :
    fill? difficulty = some (target difficulty).toList := by
  have hpart : difficulty.toNat % 8 < 8 := Nat.mod_lt _ (by decide)
  have hlength := (target difficulty).length_toList
  unfold fill?
  by_cases h : difficulty.toNat / 8 < 32 ∧ 0 < difficulty.toNat % 8
  · rw [if_pos h, shiftRight?, if_pos hpart, Option.bind_some, setByte?,
      if_pos (by simpa using h.1)]
    refine congrArg some (List.ext_getElem (by simp [hlength]) fun place _ hplace => ?_)
    rw [getElem_toList_target, List.getElem_set, List.getElem_mapIdx, List.getElem_replicate]
    rcases Nat.lt_trichotomy place (difficulty.toNat / 8) with hlt | rfl | hgt
    · rw [if_neg (Nat.ne_of_gt hlt), if_pos hlt, targetByte_of_lt hlt]
    · rw [if_pos rfl, targetByte_self]
    · rw [if_neg (Nat.ne_of_lt hgt), if_neg (Nat.lt_asymm hgt), targetByte_of_gt hgt]
  · rw [if_neg h]
    refine congrArg some (List.ext_getElem (by simp [hlength]) fun place _ hplace => ?_)
    rw [hlength] at hplace
    rw [getElem_toList_target, List.getElem_mapIdx, List.getElem_replicate]
    rcases Nat.lt_trichotomy place (difficulty.toNat / 8) with hlt | rfl | hgt
    · rw [if_pos hlt, targetByte_of_lt hlt]
    · -- A difficulty in whole bytes moves the byte after the cleared ones by nothing.
      have hwhole : difficulty.toNat % 8 = 0 := by omega
      rw [if_neg (Nat.lt_irrefl _), targetByte_self, hwhole]
      rfl
    · rw [if_neg (Nat.lt_asymm hgt), targetByte_of_gt hgt]

/-! ### As a number -/

/-- Cleared bytes, one that is moved to the right, and bytes that have all bits. -/
theorem toList_target {difficulty : UInt32} (h : difficulty.toNat < 256) :
    (target difficulty).toList = List.replicate (difficulty.toNat / 8) (0 : UInt8) ++
      (0xff >>> UInt8.ofNat (difficulty.toNat % 8)) ::
        List.replicate (31 - difficulty.toNat / 8) 0xff := by
  refine List.ext_getElem ?_ fun place _ _ => ?_
  · rw [(target difficulty).length_toList, List.length_append, List.length_cons,
      List.length_replicate, List.length_replicate]
    omega
  · rw [getElem_toList_target, List.getElem_append]
    simp only [List.length_replicate, List.getElem_replicate, List.getElem_cons]
    rcases Nat.lt_trichotomy place (difficulty.toNat / 8) with hlt | rfl | hgt
    · rw [dif_pos hlt, targetByte_of_lt hlt]
    · rw [dif_neg (Nat.lt_irrefl _), dif_pos (Nat.sub_self _), targetByte_self]
    · rw [dif_neg (Nat.lt_asymm hgt), dif_neg (Nat.sub_ne_zero_of_lt hgt), targetByte_of_gt hgt]

/-- From 256 on all bytes are cleared. -/
theorem toList_target_of_le {difficulty : UInt32} (h : 256 ≤ difficulty.toNat) :
    (target difficulty).toList = List.replicate 32 0 := by
  have hlength := (target difficulty).length_toList
  refine List.ext_getElem (by simp [hlength]) fun place hplace _ => ?_
  rw [hlength] at hplace
  rw [getElem_toList_target, List.getElem_replicate, targetByte_of_lt (by omega)]

theorem toNat_shiftRight_max : ∀ part < 8,
    ((0xff : UInt8) >>> UInt8.ofNat part).toNat + 1 = 2 ^ (8 - part) := by
  decide

/-- **The target as a number** is the last one with so many leading zero bits of 256. -/
theorem decode_target (difficulty : UInt32) :
    BigEndian.decode (target difficulty).toList + 1 = 2 ^ (256 - min difficulty.toNat 256) := by
  rcases Nat.lt_or_ge difficulty.toNat 256 with h | h
  · have hmoved := toNat_shiftRight_max (difficulty.toNat % 8) (Nat.mod_lt _ (by decide))
    have hrest := BigEndian.decode_replicate_max (31 - difficulty.toNat / 8)
    have hexponent : 256 - min difficulty.toNat 256 =
        8 - difficulty.toNat % 8 + 8 * (31 - difficulty.toNat / 8) := by omega
    rw [toList_target h, BigEndian.decode_append, BigEndian.decode_replicate_zero,
      BigEndian.decode_cons, List.length_replicate, Nat.zero_mul, Nat.zero_add, Nat.add_assoc,
      hrest, ← Nat.succ_mul, Nat.succ_eq_add_one, hmoved, hexponent, Nat.pow_add, Nat.pow_mul]
  · rw [toList_target_of_le h, BigEndian.decode_replicate_zero, Nat.min_eq_right h, Nat.sub_self,
      Nat.pow_zero]

theorem le_target_iff {difficulty : UInt32} {hash : Digest} :
    hash.le (target difficulty) = true ↔
      BigEndian.decode hash.toList < 2 ^ (256 - min difficulty.toNat 256) := by
  have hlength : hash.toList.length = (target difficulty).toList.length := by
    rw [hash.length_toList, (target difficulty).length_toList]
  rw [FixedBytes.le, BigEndian.le_iff_decode_le hlength, ← decode_target, Nat.lt_succ_iff]

/-- A hash meets a difficulty when its leading bits are zero. -/
theorem le_target_iff_bits {difficulty : UInt32} {hash : Digest} :
    hash.le (target difficulty) = true ↔
      ∀ bit ∈ hash.toList.bits.take (min difficulty.toNat 256), bit = false := by
  have hlength : hash.toList.bits.length = 256 := by
    rw [Bytes.length_bits, hash.length_toList]
  rw [le_target_iff, ← BigEndian.ofBits_bits, ← BigEndian.ofBits_lt_iff (by omega), hlength]

/-- As many hashes meet a difficulty as its target leaves room for. -/
theorem card_le_target (difficulty : UInt32) :
    Nat.card { hash : Digest // hash.le (target difficulty) = true } =
      2 ^ (256 - min difficulty.toNat 256) := by
  have hbound : 2 ^ (256 - min difficulty.toNat 256) ≤ 256 ^ 32 :=
    Nat.le_trans (Nat.pow_le_pow_right (by decide) (Nat.sub_le _ _)) (by decide)
  simp only [le_target_iff]
  exact BigEndian.card_decode_lt hbound

/-- A higher difficulty has no later target. -/
theorem target_le_target {lower higher : UInt32} (h : lower ≤ higher) :
    (target higher).le (target lower) = true := by
  have hle : lower.toNat ≤ higher.toNat := UInt32.le_iff_toNat_le.1 h
  rw [le_target_iff]
  refine Nat.lt_of_succ_le ?_
  rw [Nat.succ_eq_add_one, decode_target]
  exact Nat.pow_le_pow_right (by decide) (by omega)

/-- Hashes to choose from, times the tries that one of them is worth, are all hashes. -/
theorem work_mul_card {difficulty : UInt32} (h : difficulty.toNat ≤ 127) :
    (Work.ofDifficulty difficulty).toNat *
      Nat.card { hash : Digest // hash.le (target difficulty) = true } = 2 ^ 256 := by
  rw [Work.toNat_ofDifficulty, card_le_target, ← Nat.pow_add]
  exact congrArg (2 ^ ·) (by omega)

/-- **Target and work of a header agree**, at every difficulty. A hash meets the target just when
its leading bits are zero, and just when the number that it spells is below the power of two that
counts such hashes; a higher difficulty has no later target; and the work, until it stops at the
127th power, is what that number of hashes goes into all of them. On the way nothing is read,
written or shifted out of range. -/
theorem Header.target_work (h : Header) :
    (∀ hash : Digest,
      (hash.le h.target = true ↔
        ∀ bit ∈ hash.toList.bits.take (min h.difficulty.toNat 256), bit = false) ∧
      (hash.le h.target = true ↔
        BigEndian.decode hash.toList < 2 ^ (256 - min h.difficulty.toNat 256))) ∧
    (h.meetsTarget = true ↔
      BigEndian.decode h.hash.toList < 2 ^ (256 - min h.difficulty.toNat 256)) ∧
    (∀ other : Header, h.difficulty ≤ other.difficulty → other.target.le h.target = true) ∧
    Nat.card { hash : Digest // hash.le h.target = true } =
      2 ^ (256 - min h.difficulty.toNat 256) ∧
    (if h.difficulty.toNat ≤ 127 then
      h.work.toNat * Nat.card { hash : Digest // hash.le h.target = true } = 2 ^ 256
    else h.work.toNat = 2 ^ 127) ∧
    target.fill? h.difficulty = some h.target.toList ∧
    Work.shift? h.difficulty = some h.work.toNat := by
  refine ⟨fun hash => ⟨le_target_iff_bits, le_target_iff⟩, le_target_iff,
    fun _ => target_le_target, card_le_target _, ?_, target.fill?_eq _, Work.shift?_eq _⟩
  split
  next hfits => exact work_mul_card hfits
  next hlarge => rw [work, Work.toNat_ofDifficulty, Nat.min_eq_right (by omega)]

/-- Twelve leading zero bits: a byte and a half. -/
theorem Header.target_work_twelve :
    let h : Header := ⟨1, .zero, .zero, 0, 12, 0⟩
    let harder : Header := { h with difficulty := 13 }
    h.target.toList = 0x00 :: 0x0f :: List.replicate 30 0xff ∧
      harder.target.le h.target = true ∧
      Nat.card { hash : Digest // hash.le h.target = true } = 2 ^ 244 ∧
      h.work.toNat * 2 ^ 244 = 2 ^ 256 := by
  intro h harder
  obtain ⟨-, -, hmono, hcard, hwork, -⟩ := h.target_work
  rw [if_pos (by decide), hcard] at hwork
  exact ⟨by decide, hmono harder (by decide), hcard, hwork⟩

end TestChain
