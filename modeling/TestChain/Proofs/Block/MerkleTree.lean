import Mathlib.Algebra.Order.Floor.Div
import Mathlib.Algebra.Order.Ring.Nat
import Mathlib.Data.Nat.Log
import Mathlib.GroupTheory.GroupAction.Ring
import TestChain.Block.Basic
import TestChain.Proofs.Block.Merkle

/-! The tree under a Merkle root, place by place.

`Merkle.node?` says what digest stands at a place of a level: a leaf, or the digest of the two
places below it, where the last place of a level of odd length counts twice. Each level has half as
many places as the one below, rounded up, so level `j` over `n` leaves has `n ⌈/⌉ 2 ^ j` of them, and
level `Nat.clog 2 n` is the first with one.

`Merkle.Climb` is the loop that makes the levels: as long as a level has more than one digest it is
cut in twos, and what stands in a cut is read by position. A read past the end is no step of the
loop. `merkleRoot_climb` says that the loop has one run over every list but the empty one, that its
levels are those of the tree, and that it leaves the root. -/
namespace TestChain

namespace Merkle

/-! ### The tree -/

/-- The digest at a place of a level: below, a leaf; above, the join of two neighbours of the level
below, of which the second stands no further than at the end. `none` past the end of the level. -/
def node? (leaves : List Digest) : Nat → Nat → Option Digest
  | 0, i => leaves[i]?
  | j + 1, i => do
    let left ← node? leaves j (2 * i)
    let right ← node? leaves j (min (2 * i + 1) (leaves.length ⌈/⌉ 2 ^ j - 1))
    return join left right

/-- Half of a length, halved as often again. -/
theorem half_ceilDiv (n j : Nat) : (n + 1) / 2 ⌈/⌉ 2 ^ j = n ⌈/⌉ 2 ^ (j + 1) := by
  refine eq_of_forall_ge_iff fun c => ?_
  rw [ceilDiv_le_iff_le_mul (Nat.two_pow_pos j), ceilDiv_le_iff_le_mul (Nat.two_pow_pos (j + 1)),
    Nat.pow_succ, Nat.mul_right_comm]
  omega

theorem ceilDiv_two_pow_pos {n : Nat} (h : 0 < n) (j : Nat) : 0 < n ⌈/⌉ 2 ^ j := by
  rw [← Nat.not_le, ceilDiv_le_iff_le_mul (Nat.two_pow_pos j)]
  omega

section
variable {level : List Digest}

/-- A place of the level above takes two places of the level, or the last one twice. -/
theorem getElem?_levelAbove (level : List Digest) (i : Nat) :
    (levelAbove level)[i]? = (do
      let left ← level[2 * i]?
      let right ← level[min (2 * i + 1) (level.length - 1)]?
      return join left right) := by
  fun_induction levelAbove level generalizing i with
  | case1 => rfl
  | case2 last =>
    cases i with
    | zero => rfl
    | succ i => rfl
  | case3 left right rest ih =>
    cases i with
    | zero => simp
    | succ i =>
      have hleft : 2 * (i + 1) = 2 * i + 1 + 1 := by omega
      rw [List.getElem?_cons_succ, ih, hleft, List.getElem?_cons_succ, List.getElem?_cons_succ]
      by_cases hrest : rest = []
      · simp [hrest]
      · have hpos : 0 < rest.length := List.length_pos_iff.2 hrest
        have hright : min (2 * i + 1 + 1 + 1) ((left :: right :: rest).length - 1) =
            min (2 * i + 1) (rest.length - 1) + 1 + 1 := by
          rw [List.length_cons, List.length_cons]
          omega
        rw [hright, List.getElem?_cons_succ, List.getElem?_cons_succ]

/-- The tree over the level above is the tree without its leaves. -/
theorem node?_levelAbove (level : List Digest) (j i : Nat) :
    node? (levelAbove level) j i = node? level (j + 1) i := by
  induction j generalizing i with
  | zero =>
    rw [node?, getElem?_levelAbove, node?, Nat.pow_zero, ceilDiv_one]
    rfl
  | succ j ih =>
    rw [node?, ih, ih, length_levelAbove, half_ceilDiv]
    rfl

theorem clog_length (h : 2 ≤ level.length) :
    Nat.clog 2 level.length = Nat.clog 2 (levelAbove level).length + 1 := by
  rw [length_levelAbove, Nat.clog_of_two_le (by decide) h]
  rfl

/-- **The root** is the first place of the first level that has no other. -/
theorem node?_root (h : level ≠ []) :
    node? level (Nat.clog 2 level.length) 0 = some (root level) := by
  fun_induction root level with
  | case1 => exact absurd rfl h
  | case2 only => rfl
  | case3 left right rest ih =>
    have hlen : 2 ≤ (left :: right :: rest).length := by simp
    rw [clog_length hlen, ← node?_levelAbove, ih (levelAbove_ne_nil hlen)]

end

/-! ### The loop -/

/-- A level cut in twos from the front. What is left at the end is cut as it is. -/
def cutInTwos : List Digest → List (List Digest)
  | [] => []
  | first :: rest => (first :: rest).take 2 :: cutInTwos ((first :: rest).drop 2)
  termination_by level => level.length
  decreasing_by simp only [List.length_drop, List.length_cons]; omega

/-- The join of a cut: its first digest is read, and its second where there is one. -/
def joinCut? (cut : List Digest) : Option Digest :=
  cut[0]?.map fun left => join left (cut[1]?.getD left)

/-- One round of the loop. -/
def round? (level : List Digest) : Option (List Digest) := (cutInTwos level).mapM joinCut?

/-- No cut is empty, so a round reads nothing out of range. -/
theorem round?_eq (level : List Digest) : round? level = some (levelAbove level) := by
  fun_induction levelAbove level with
  | case1 =>
    rw [round?, cutInTwos]
    rfl
  | case2 last =>
    have hcut : cutInTwos [last] = [[last]] := by
      rw [cutInTwos, List.drop_of_length_le (by simp), cutInTwos]
      rfl
    rw [round?, hcut]
    rfl
  | case3 left right rest ih =>
    have hcut : cutInTwos (left :: right :: rest) = [left, right] :: cutInTwos rest := by
      rw [cutInTwos]
      rfl
    rw [round?] at ih
    rw [round?, hcut, List.mapM_cons, ih]
    rfl

/-- A run of the loop from a level on: the levels that it meets, and the digest that it leaves. -/
inductive Climb : List Digest → List (List Digest) → Digest → Prop
  | done {level : List Digest} {left : Digest} : level.length ≤ 1 → level[0]? = some left →
    Climb level [level] left
  | round {level above : List Digest} {met : List (List Digest)} {left : Digest} :
    1 < level.length → round? level = some above → Climb above met left →
    Climb level (level :: met) left

section
variable {level : List Digest} {met met' : List (List Digest)} {left left' : Digest}

/-- The loop goes one way only. -/
theorem Climb.unique (h : Climb level met left) (h' : Climb level met' left') :
    met = met' ∧ left = left' := by
  induction h generalizing met' with
  | done hlen hleft =>
    cases h' with
    | done _ hleft' => exact ⟨rfl, Option.some.inj (hleft.symm.trans hleft')⟩
    | round hlen' => omega
  | round hlen habove _ ih =>
    cases h' with
    | done hlen' => omega
    | round _ habove' hrest =>
      obtain rfl := Option.some.inj (habove.symm.trans habove')
      obtain ⟨rfl, rfl⟩ := ih hrest
      exact ⟨rfl, rfl⟩

/-- The levels are those of the tree over the leaves, from these up to the first with one place. -/
structure LevelsOf (leaves : List Digest) (levels : List (List Digest)) : Prop where
  length_eq : levels.length = Nat.clog 2 leaves.length + 1
  places : ∀ {j : Nat} {level : List Digest}, levels[j]? = some level →
    level.length = leaves.length ⌈/⌉ 2 ^ j ∧ ∀ i, level[i]? = node? leaves j i

theorem LevelsOf.single (only : Digest) : LevelsOf [only] [[only]] where
  length_eq := rfl
  places {j level} h := by
    cases j with
    | zero =>
      obtain rfl := Option.some.inj h
      exact ⟨by rw [Nat.pow_zero, ceilDiv_one], fun _ => rfl⟩
    | succ j => cases h

/-- **One round**: a level before those of the tree over the level above. -/
theorem LevelsOf.cons (hlen : 2 ≤ level.length) (h : LevelsOf (levelAbove level) met) :
    LevelsOf level (level :: met) where
  length_eq := by rw [List.length_cons, h.length_eq, clog_length hlen]
  places {j top} htop := by
    cases j with
    | zero =>
      obtain rfl := Option.some.inj htop
      exact ⟨by rw [Nat.pow_zero, ceilDiv_one], fun _ => rfl⟩
    | succ j =>
      obtain ⟨hwidth, hplaces⟩ := h.places (List.getElem?_cons_succ ▸ htop)
      rw [length_levelAbove, half_ceilDiv] at hwidth
      exact ⟨hwidth, fun i => (hplaces i).trans (node?_levelAbove level j i)⟩

/-- **The whole loop**: it comes to an end at the root, and meets the levels of the tree. -/
theorem exists_climb (h : level ≠ []) : ∃ met, Climb level met (root level) ∧ LevelsOf level met := by
  fun_induction root level with
  | case1 => exact absurd rfl h
  | case2 only => exact ⟨[[only]], .done (Nat.le_refl 1) rfl, .single only⟩
  | case3 left right rest ih =>
    have hlen : 2 ≤ (left :: right :: rest).length := by simp
    obtain ⟨met, hclimb, hlevels⟩ := ih (levelAbove_ne_nil hlen)
    exact ⟨_ :: met, .round hlen (round?_eq _) hclimb, hlevels.cons hlen⟩

end

end Merkle

/-- **The loop computes the tree.** Without transactions the root is 32 zero bytes. Otherwise it is
the one place of the first level of the tree that has no other, which is the least whose power of two
is no less than the number of transactions. The loop over the identities has one run; it takes as
many rounds as that level is high, meets the levels of the tree, none of which is empty, and leaves
the root. -/
theorem merkleRoot_climb :
    (merkleRoot []).toList = List.replicate 32 0 ∧
    ∀ txs : List Tx, txs ≠ [] →
      let leaves := txs.map Tx.txid
      let depth := Nat.clog 2 txs.length
      IsLeast {d | txs.length ≤ 2 ^ d} depth ∧
      Merkle.node? leaves depth 0 = some (merkleRoot txs) ∧
      ∃ levels : List (List Digest), levels.length = depth + 1 ∧
        (∀ met left, Merkle.Climb leaves met left ↔ met = levels ∧ left = merkleRoot txs) ∧
        ∀ j ≤ depth, ∃ level, levels[j]? = some level ∧
          level.length = txs.length ⌈/⌉ 2 ^ j ∧ level ≠ [] ∧
          ∀ i, level[i]? = Merkle.node? leaves j i := by
  refine ⟨by rw [merkleRoot, List.map_nil, Merkle.root]; rfl, fun txs htxs => ?_⟩
  intro leaves depth
  have hlength : leaves.length = txs.length := List.length_map ..
  have hleaves : leaves ≠ [] := by simpa [leaves] using htxs
  have hroot := Merkle.node?_root hleaves
  obtain ⟨levels, hclimb, hlevels⟩ := Merkle.exists_climb hleaves
  rw [hlength] at hroot
  refine ⟨⟨Nat.le_pow_clog (by decide) _, fun d hd => Nat.clog_le_of_le_pow hd⟩, hroot, levels,
    by rw [hlevels.length_eq, hlength], fun met left => ⟨fun h => h.unique hclimb, ?_⟩, fun j hj => ?_⟩
  · rintro ⟨rfl, rfl⟩
    exact hclimb
  · have hj' : j < levels.length := by
      rw [hlevels.length_eq, hlength]
      exact Nat.lt_succ_of_le hj
    obtain ⟨hwidth, hplaces⟩ := hlevels.places (List.getElem?_eq_getElem hj')
    rw [hlength] at hwidth
    refine ⟨levels[j], List.getElem?_eq_getElem hj', hwidth, fun hnil => ?_, hplaces⟩
    have hpos := Merkle.ceilDiv_two_pow_pos (List.length_pos_iff.2 htxs) j
    rw [← hwidth, hnil] at hpos
    exact Nat.lt_irrefl 0 hpos

/-- Over five transactions the loop takes three rounds, and in two of them a digest is left over: one
of the leaves, and one of the level above. -/
theorem merkleRoot_climb_five :
    let txs := (List.range 5).map fun n => Tx.coinbase (some (UInt32.ofNat n)) []
    txs ≠ [] ∧ ∃ levels, Merkle.Climb (txs.map Tx.txid) levels (merkleRoot txs) ∧
      levels.map List.length = [5, 3, 2, 1] := by
  intro txs
  have htxs : txs ≠ [] := List.cons_ne_nil _ _
  obtain ⟨-, -, levels, hlength, hrun, hplaces⟩ := merkleRoot_climb.2 txs htxs
  refine ⟨htxs, levels, (hrun _ _).2 ⟨rfl, rfl⟩, ?_⟩
  have hdepth : Nat.clog 2 txs.length = 3 := by decide +kernel
  have hwidths : ∀ j : Fin 4, 5 ⌈/⌉ 2 ^ j.val = [5, 3, 2, 1][j] := by decide
  rw [hdepth] at hlength hplaces
  refine List.ext_getElem (by rw [List.length_map, hlength]; rfl) fun j hj _ => ?_
  rw [List.length_map, hlength] at hj
  obtain ⟨level, hlevel, hwidth, -⟩ := hplaces j (Nat.le_of_lt_succ hj)
  obtain ⟨_, rfl⟩ := List.getElem?_eq_some_iff.1 hlevel
  rw [List.getElem_map, hwidth]
  exact hwidths ⟨j, hj⟩

end TestChain
