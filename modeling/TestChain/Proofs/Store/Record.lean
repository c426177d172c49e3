import Mathlib.Algebra.Group.Nat.Defs
import TestChain.Proofs.Outcome
import TestChain.Store.Basic

/-! Records that follow one another.

A record is made of a block and the record before it (`ChainRecord.build_eq_ok`), one higher and
with the work of one more header. `ChainRecord.Follows` is what the record of a solved block has in
common with the one before it, and settles all of a record but its header. -/
namespace TestChain

namespace Work

/-- Work is counted up to the most that 128 bits hold. -/
theorem toNat_add (a b : Work) : (a.add b).toNat = min (a.toNat + b.toNat) (2 ^ 128 - 1) := by
  have hsize : size = 2 ^ 128 := by decide
  unfold add saturate
  split
  · next h =>
    show a.toNat + b.toNat = _
    omega
  · next h =>
    show size - 1 = _
    omega

theorem toNat_ofDifficulty (difficulty : UInt32) :
    (ofDifficulty difficulty).toNat = 2 ^ min difficulty.toNat 127 :=
  Nat.one_shiftLeft _

end Work

namespace ChainRecord

theorem build_eq_ok {parent r : ChainRecord} {b : Block} (e : parent.build b = .ok r) :
    b.header.previous = parent.hash ∧ r.header = b.header ∧
      r.height.toNat = parent.height.toNat + 1 ∧ r.chainWork = parent.chainWork.add b.work := by
  unfold build at e
  split at e
  · cases e
  · next hprevious =>
    split at e
    · next hheight =>
      cases e
      refine ⟨Decidable.not_not.1 hprevious, rfl, ?_, rfl⟩
      rw [UInt32.toNat_add]
      exact Nat.mod_eq_of_lt hheight
    · cases e

/-- The record of a solved block on a parent, of the parent's difficulty. -/
structure Follows (r parent : ChainRecord) : Prop where
  previous : r.header.previous = parent.hash
  difficulty : r.header.difficulty = parent.header.difficulty
  meetsTarget : r.header.meetsTarget = true
  height : r.height.toNat = parent.height.toNat + 1
  chainWork : r.chainWork = parent.chainWork.add r.header.work

/-- A record is settled by its header and the record that it follows. -/
theorem Follows.unique {r s parent : ChainRecord} (hr : r.Follows parent) (hs : s.Follows parent)
    (h : r.header = s.header) : r = s := by
  obtain ⟨header, chainWork, height⟩ := r
  obtain rfl : header = s.header := h
  obtain rfl : chainWork = s.chainWork := hr.chainWork.trans hs.chainWork.symm
  obtain rfl : height = s.height := UInt32.toNat_inj.1 (hr.height.trans hs.height.symm)
  rfl

/-- The record of a solved block that follows none. -/
structure First (r : ChainRecord) : Prop where
  previous : r.header.previous = .zero
  meetsTarget : r.header.meetsTarget = true
  height : r.height = 0
  chainWork : r.chainWork = r.header.work

end ChainRecord

end TestChain
