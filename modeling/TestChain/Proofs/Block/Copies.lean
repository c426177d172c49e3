import Mathlib.Algebra.Group.Nat.Defs
import TestChain.Block.Basic
import TestChain.Proofs.Block.Merkle

/-! Copies that a Merkle root does not see.

Going up one level halves a list, and what is appended to a list of even length is halved by itself
(`Merkle.levelAbove_append`). So `k` levels up, the last `2 ^ k` digests of a list that divides into
such runs are one digest, and a copy of them is that digest once more. Where the level there is of
odd length it completes itself with just that digest, and the copy is not seen (`root_append_last`).
The exception is a level of one digest, which is a root and not completed: then the copy makes two
equal halves (`root_append_self`). -/
namespace TestChain

namespace Merkle

theorem levelAbove_drop (level : List Digest) (i : Nat) :
    levelAbove (level.drop (2 * i)) = (levelAbove level).drop i := by
  induction i generalizing level with
  | zero => rfl
  | succ i ih =>
    match level with
    | [] => rfl
    | [last] => exact (List.drop_nil (i := i)).symm
    | left :: right :: rest => exact ih rest

section
variable {level : List Digest}

/-- The last digest of a level of odd length, once more. -/
theorem root_append_last_one (hodd : level.length % 2 = 1) (hlen : 3 ≤ level.length) :
    root (level ++ level.drop (level.length - 1)) = root level := by
  have hne : level ≠ [] := List.length_pos_iff.1 (by omega)
  obtain ⟨front, last, rfl⟩ : ∃ front last, level = front ++ [last] :=
    ⟨_, _, (List.dropLast_append_getLast hne).symm⟩
  rw [List.length_append, List.length_singleton] at hodd hlen ⊢
  have hfront : front ≠ [] := List.length_pos_iff.1 (by omega)
  rw [Nat.add_sub_cancel, List.drop_left, List.append_assoc]
  exact (root_strings_repeat_last (by omega) last hfront).1

/-- **A copy of the last `2 ^ k` digests is not seen**, where the level `k` above is of odd length
and not yet the root. -/
theorem root_append_last (k : Nat) {m : Nat} (hodd : m % 2 = 1) (hm : 3 ≤ m)
    (hlen : level.length = 2 ^ k * m) :
    root (level ++ level.drop (level.length - 2 ^ k)) = root level := by
  induction k generalizing level with
  | zero =>
    rw [Nat.pow_zero, Nat.one_mul] at hlen
    exact root_append_last_one (hlen ▸ hodd) (hlen ▸ hm)
  | succ k ih =>
    have hdouble : 2 ^ (k + 1) * m = 2 * (2 ^ k * m) := by rw [Nat.pow_succ', Nat.mul_assoc]
    have hpos : 0 < 2 ^ k * m := Nat.mul_pos (Nat.two_pow_pos k) (by omega)
    have habove : (levelAbove level).length = 2 ^ k * m := by
      rw [length_levelAbove]
      omega
    have hdrop : level.length - 2 ^ (k + 1) = 2 * ((levelAbove level).length - 2 ^ k) := by
      rw [habove, hlen, hdouble, Nat.pow_succ', Nat.mul_sub]
    have hcopy : levelAbove (level ++ level.drop (level.length - 2 ^ (k + 1))) =
        levelAbove level ++ (levelAbove level).drop ((levelAbove level).length - 2 ^ k) := by
      rw [levelAbove_append (by omega), hdrop, levelAbove_drop]
    rw [root_levelAbove (by rw [List.length_append]; omega), hcopy, ih habove,
      ← root_levelAbove (by omega)]

/-- **A copy of all digests** of a list whose halves are halved to the end makes two equal halves. -/
theorem root_append_self (k : Nat) (hlen : level.length = 2 ^ k) :
    root (level ++ level) = join (root level) (root level) := by
  induction k generalizing level with
  | zero =>
    obtain ⟨only, rfl⟩ := List.length_eq_one_iff.1 hlen
    rw [List.singleton_append, root_levelAbove (show 2 ≤ [only, only].length from Nat.le_refl 2)]
    simp only [levelAbove, root]
  | succ k ih =>
    have hpos := Nat.two_pow_pos k
    rw [Nat.pow_succ'] at hlen
    have habove : (levelAbove level).length = 2 ^ k := by
      rw [length_levelAbove]
      omega
    rw [root_levelAbove (by rw [List.length_append]; omega), levelAbove_append (by omega),
      ih habove, ← root_levelAbove (by omega)]

end

end Merkle

/-- **Which copies the root cannot see.** Of `2 ^ k` times an odd number of transactions, more than
one time, the last `2 ^ k` can be appended once more under the same root. Of `2 ^ k` transactions a
copy of all makes a root over two equal roots. -/
theorem merkleRoot_append_copy (k : Nat) (txs : List Tx) :
    (∀ m, m % 2 = 1 → 3 ≤ m → txs.length = 2 ^ k * m →
      merkleRoot (txs ++ txs.drop (txs.length - 2 ^ k)) = merkleRoot txs) ∧
    (txs.length = 2 ^ k →
      merkleRoot (txs ++ txs) =
        sha256d ((merkleRoot txs).toList ++ (merkleRoot txs).toList)) := by
  have hlength : (txs.map Tx.txid).length = txs.length := List.length_map ..
  constructor
  · intro m hodd hm hlen
    have hroot := Merkle.root_append_last k hodd hm (hlength.trans hlen)
    rw [hlength, ← List.map_drop, ← List.map_append] at hroot
    exact hroot
  · intro hlen
    have hroot := Merkle.root_append_self k (hlength.trans hlen)
    rw [← List.map_append] at hroot
    exact hroot

/-- Of six transactions the last two can be appended once more: the level above has three digests.
Four are no such case, for the level with one digest is the root. -/
theorem merkleRoot_append_copy_six :
    let txs (n : Nat) := (List.range n).map fun h => Tx.coinbase (some (UInt32.ofNat h)) []
    (txs 6).length = 2 ^ 1 * 3 ∧ merkleRoot (txs 6 ++ (txs 6).drop 4) = merkleRoot (txs 6) ∧
      (txs 4).length = 2 ^ 2 ∧
      merkleRoot (txs 4 ++ txs 4) =
        sha256d ((merkleRoot (txs 4)).toList ++ (merkleRoot (txs 4)).toList) := by
  intro txs
  exact ⟨rfl, (merkleRoot_append_copy 1 (txs 6)).1 3 rfl (Nat.le_refl 3) rfl, rfl,
    (merkleRoot_append_copy 2 (txs 4)).2 rfl⟩

end TestChain
