import Mathlib.Algebra.Group.Nat.Defs
import Mathlib.Order.Bounds.Basic
import TestChain.Fixture.Basic

/-! How a value is split.

The first part is the magnitude of the draw, halved as often as it takes and no oftener: it is the
magnitude divided by the least power of two that brings it within the whole (`Split.first_eq`).
What matters to a payment follows from the halving before the last, which still was too much. The
first part is not zero unless there is nothing to split, and a magnitude that had to be halved
leaves it at least half of the whole, rounded down. The parts add up to the whole, and every part
that a draw of 64 bits has room for comes of some draw (`Split.parts_exact`). -/
namespace TestChain.Split

/-! ### Halving -/

/-- The least number of halvings that bring a number within a bound. -/
def LeastHalvings (bound n k : Nat) : Prop := IsLeast {k | n / 2 ^ k ≤ bound} k

theorem toNat_half (n : UInt64) : (n / 2).toNat = n.toNat / 2 := UInt64.toNat_div n 2

/-- Halving once more is dividing by twice as much. -/
theorem half_div_pow (n k : Nat) : n / 2 / 2 ^ k = n / 2 ^ (k + 1) := by
  rw [Nat.div_div_eq_div_mul, Nat.pow_succ, Nat.mul_comm]

namespace LeastHalvings
variable {bound n k : Nat}

/-- What is within the bound is not halved. -/
theorem zero (h : n ≤ bound) : LeastHalvings bound n 0 := by
  refine ⟨?_, fun _ _ => Nat.zero_le _⟩
  show n / 2 ^ 0 ≤ bound
  rwa [Nat.pow_zero, Nat.div_one]

/-- **One step**: what is too much takes one halving more than its half. -/
theorem succ (hlt : bound < n) (h : LeastHalvings bound (n / 2) k) :
    LeastHalvings bound n (k + 1) := by
  refine ⟨?_, fun j hj => ?_⟩
  · show n / 2 ^ (k + 1) ≤ bound
    rw [← half_div_pow]
    exact h.1
  · cases j with
    | zero => exact absurd (Nat.div_one n ▸ hj) (Nat.not_le.2 hlt)
    | succ j =>
      refine Nat.succ_le_succ (h.2 ?_)
      show n / 2 / 2 ^ j ≤ bound
      rw [half_div_pow]
      exact hj

theorem eq_zero (h : LeastHalvings bound n k) (hn : n ≤ bound) : k = 0 := h.unique (zero hn)

theorem le (h : LeastHalvings bound n k) {width : Nat} (hn : n < 2 ^ width) : k ≤ width := by
  refine h.2 ?_
  show n / 2 ^ width ≤ bound
  rw [Nat.div_eq_of_lt hn]
  exact Nat.zero_le _

/-- What is too much is left at half of the bound at least: the halving before the last left more
than the bound. -/
theorem bound_lt (h : LeastHalvings bound n k) (hn : bound < n) : bound < 2 * (n / 2 ^ k) + 1 := by
  cases k with
  | zero =>
    rw [Nat.pow_zero, Nat.div_one]
    omega
  | succ j =>
    have hbefore : bound < n / 2 ^ j :=
      Nat.not_le.1 fun hle => absurd (h.2 hle) (Nat.not_succ_le_self j)
    rw [Nat.pow_succ, ← Nat.div_div_eq_div_mul]
    omega

theorem pos (h : LeastHalvings bound n k) (hbound : 0 < bound) (hn : 0 < n) : 0 < n / 2 ^ k := by
  rcases Nat.lt_or_ge bound n with hlt | hle
  · have := h.bound_lt hlt
    omega
  · rwa [h.eq_zero hle, Nat.pow_zero, Nat.div_one]

end LeastHalvings

/-- **The loop** divides by the least power of two that brings the number within the bound. -/
theorem halveTo_eq (bound n : UInt64) :
    ∃ k, LeastHalvings bound.toNat n.toNat k ∧ (halveTo bound n).toNat = n.toNat / 2 ^ k := by
  fun_induction halveTo bound n with
  | case1 n hlt ih =>
    obtain ⟨k, hleast, hvalue⟩ := ih
    rw [toNat_half] at hleast hvalue
    rw [half_div_pow] at hvalue
    exact ⟨k + 1, hleast.succ (UInt64.lt_iff_toNat_lt.1 hlt), hvalue⟩
  | case2 n hle =>
    have hle : n.toNat ≤ bound.toNat := UInt64.le_iff_toNat_le.1 (UInt64.not_lt.1 hle)
    exact ⟨0, .zero hle, (Nat.div_one _).symm⟩

/-! ### The parts -/

/-- What a draw counts for: its distance from zero, which for the least of all is more than any draw
itself, or the fallback. -/
def magnitude (draw : Int64) : Nat := if draw = 0 then 15 else draw.toInt.natAbs

theorem magnitude_pos (draw : Int64) : 0 < magnitude draw := by
  unfold magnitude
  split
  · decide
  next hne =>
    refine Int.natAbs_pos.2 fun h => hne ?_
    exact Int64.toInt_inj.1 h

theorem magnitude_le (draw : Int64) : magnitude draw ≤ 2 ^ 63 := by
  have hlower := draw.le_toInt
  have hupper := draw.toInt_lt
  unfold magnitude
  split <;> omega

/-- The magnitude is what halving starts from. -/
theorem first_eq_halveTo (total : UInt64) (draw : Int64) :
    ∃ start : UInt64, start.toNat = magnitude draw ∧ first total draw = halveTo total start := by
  refine ⟨_, ?_, rfl⟩
  by_cases hzero : draw = 0
  · subst hzero
    rfl
  · have hpos := magnitude_pos draw
    have hle := magnitude_le draw
    rw [magnitude, if_neg hzero] at hpos hle ⊢
    have hsize : (UInt64.ofNat draw.toInt.natAbs).toNat = draw.toInt.natAbs :=
      UInt64.toNat_ofNat_of_lt' (by rw [UInt64.size]; omega)
    have hne : UInt64.ofNat draw.toInt.natAbs ≠ 0 := by
      intro h
      rw [h] at hsize
      exact Nat.ne_of_lt hpos hsize
    rw [if_neg hne, hsize]

theorem first_eq (total : UInt64) (draw : Int64) :
    ∃ k, LeastHalvings total.toNat (magnitude draw) k ∧
      (first total draw).toNat = magnitude draw / 2 ^ k := by
  obtain ⟨start, hstart, hfirst⟩ := first_eq_halveTo total draw
  rw [hfirst, ← hstart]
  exact halveTo_eq total start

/-- The draw of a part is its negative: only below zero is there room for all of them. -/
theorem exists_first_eq {total value : UInt64} (hpos : 0 < value)
    (hle : value.toNat ≤ min total.toNat (2 ^ 63)) : ∃ draw, first total draw = value := by
  rw [UInt64.lt_iff_toNat_lt] at hpos
  have hpos : 0 < value.toNat := hpos
  obtain ⟨htotal, hroom⟩ := Nat.le_min.1 hle
  have hdraw : (Int64.ofInt (-value.toNat)).toInt = -value.toNat :=
    Int64.toInt_ofInt_of_le (by omega) (by omega)
  have hmagnitude : magnitude (.ofInt (-value.toNat)) = value.toNat := by
    have hne : Int64.ofInt (-value.toNat) ≠ 0 := by
      intro h
      rw [h] at hdraw
      have : (0 : Int64).toInt = 0 := rfl
      omega
    rw [magnitude, if_neg hne, hdraw, Int.natAbs_neg, Int.natAbs_natCast]
  obtain ⟨k, hleast, hfirst⟩ := first_eq total (.ofInt (-value.toNat))
  refine ⟨.ofInt (-value.toNat), UInt64.toNat_inj.1 ?_⟩
  rw [hmagnitude] at hleast hfirst
  rw [hfirst, hleast.eq_zero htotal, Nat.pow_zero, Nat.div_one]

/-- **How a value is split.** The first part is the magnitude of the draw, halved the least number
of times that brings it within the whole, which is 64 at most; and the parts add up to the whole. If
there is anything to split, the first part is not zero. It is the magnitude where that is within the
whole, and else at least half of the whole, rounded down. Every number from one to the whole that is
the magnitude of some draw is the first part of some draw. -/
theorem parts_exact (total : UInt64) (draw : Int64) :
    (∃ k ≤ 64, IsLeast {k | magnitude draw / 2 ^ k ≤ total.toNat} k ∧
        (first total draw).toNat = magnitude draw / 2 ^ k) ∧
      (first total draw).toNat ≤ total.toNat ∧
      (parts total draw).1.toNat + (parts total draw).2.toNat = total.toNat ∧
      (1 ≤ total.toNat → 1 ≤ (first total draw).toNat) ∧
      (magnitude draw ≤ total.toNat → (first total draw).toNat = magnitude draw) ∧
      (total.toNat < magnitude draw → total.toNat < 2 * (first total draw).toNat + 1) ∧
      ∀ value : UInt64, 1 ≤ value → value.toNat ≤ min total.toNat (2 ^ 63) →
        ∃ draw', first total draw' = value := by
  obtain ⟨k, hleast, hpart⟩ := first_eq total draw
  have hle : (first total draw).toNat ≤ total.toNat := hpart ▸ hleast.1
  have hwidth : magnitude draw < 2 ^ 64 := Nat.lt_of_le_of_lt (magnitude_le draw) (by decide)
  have hsum : (total - first total draw).toNat = total.toNat - (first total draw).toNat :=
    UInt64.toNat_sub_of_le _ _ (UInt64.le_iff_toNat_le.2 hle)
  refine ⟨⟨k, hleast.le hwidth, hleast, hpart⟩, hle, ?_, fun htotal => ?_, fun hm => ?_,
    fun hm => ?_, fun value hvalue => exists_first_eq ?_⟩
  · show (first total draw).toNat + (total - first total draw).toNat = total.toNat
    omega
  · show 0 < (first total draw).toNat
    rw [hpart]
    exact hleast.pos htotal (magnitude_pos draw)
  · rw [hpart, hleast.eq_zero hm, Nat.pow_zero, Nat.div_one]
  · rw [hpart]
    exact hleast.bound_lt hm
  · exact UInt64.lt_iff_toNat_lt.2 (UInt64.le_iff_toNat_le.1 hvalue)

/-- The least of all draws takes 37 halvings to come within a coin, and a draw of seven takes none.
-/
theorem parts_exact_least :
    let coin := Money.coin
    magnitude Int64.minValue = 2 ^ 63 ∧ coin.toNat < 2 ^ 63 ∧
      (first coin Int64.minValue).toNat = 2 ^ 26 ∧
      coin.toNat < 2 * (first coin Int64.minValue).toNat + 1 ∧
      1 ≤ (first coin Int64.minValue).toNat ∧ (first coin 7).toNat = 7 ∧
      ∃ draw, first coin draw = coin := by
  intro coin
  obtain ⟨⟨k, -, hleast, hpart⟩, -, -, hpos, -, hhalf, hall⟩ := parts_exact coin Int64.minValue
  obtain ⟨-, -, -, -, hsmall, -⟩ := parts_exact coin 7
  have hk : k = 37 := by
    refine hleast.unique ⟨by decide, fun j hj => ?_⟩
    have hfew : ∀ j < 37, ¬2 ^ 63 / 2 ^ j ≤ coin.toNat := by decide
    exact Nat.not_lt.1 fun hlt => hfew j hlt hj
  refine ⟨by decide, by decide, ?_, hhalf (by decide), hpos (by decide), hsmall (by decide),
    hall coin (by decide) (by decide)⟩
  rw [hpart, hk]
  decide

end TestChain.Split
