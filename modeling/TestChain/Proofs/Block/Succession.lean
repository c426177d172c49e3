import Mathlib.Algebra.Group.Nat.Defs
import TestChain.Proofs.Block.HeaderBytes
import TestChain.Proofs.Fixture.Solved

/-! Coinbases under a running number.

Every block that is started takes the next number of a counter, whichever header it goes on and
whatever it is to hold, and the number is part of what its coinbase is identified by
(`Tx.preimage_reward_inj`). In a run of such blocks the number of each is known from its place
(`Succession.run_eq`), so coinbases are apart until the counter has gone round, and what goes round
with it is the same again (`Succession.run_apart`). -/
namespace TestChain

/-! ### Numbers -/

namespace CoinbaseCounter

/-- The number that comes after so many others. -/
def numberAfter (made : CoinbaseCounter) (count : Nat) : UInt32 := made.next + UInt32.ofNat count

theorem numberAfter_zero (made : CoinbaseCounter) : made.numberAfter 0 = made.next :=
  UInt32.add_zero made.next

theorem numberAfter_succ (made : CoinbaseCounter) (count : Nat) :
    numberAfter ⟨made.next + 1⟩ count = made.numberAfter (count + 1) := by
  rw [numberAfter, numberAfter, UInt32.ofNat_add, UInt32.add_comm (UInt32.ofNat count),
    ← UInt32.add_assoc]
  rfl

/-- Numbers repeat just after all of them have been given. -/
theorem numberAfter_eq_iff (made : CoinbaseCounter) {i j : Nat} (h : i ≤ j) :
    made.numberAfter i = made.numberAfter j ↔ 2 ^ 32 ∣ j - i := by
  rw [numberAfter, numberAfter, UInt32.add_right_inj, ← UInt32.toNat_inj, UInt32.toNat_ofNat',
    UInt32.toNat_ofNat']
  omega

end CoinbaseCounter

/-! ### Coinbases -/

namespace Tx
variable {m n : UInt32} {p q : Address} {h k : Option UInt32}

theorem reward_inj : reward m p h = reward n q k ↔ m = n ∧ p = q ∧ h = k := by
  constructor
  · intro e
    have hinputs := (List.cons.inj (congrArg Tx.inputs e)).1
    have houtputs := (List.cons.inj (congrArg Tx.outputs e)).1
    obtain ⟨hheight, hextra⟩ := UnlockScript.coinbase.inj (congrArg TxInput.script hinputs)
    have hpayee := LockScript.payToAddress.inj (congrArg TxOutput.script houtputs)
    have hnumber := (Wire.u32_reads.delimited m n [] [] trivial trivial (by rw [hextra])).1
    exact ⟨hnumber, hpayee, hheight⟩
  · rintro ⟨rfl, rfl, rfl⟩
    rfl

theorem canonical_reward (number : UInt32) (payee : Address) (height : Option UInt32) :
    (reward number payee height).Canonical where
  bare := by
    have h : (reward number payee height).strip = reward number payee height := rfl
    rw [← h]
    exact isBare_strip _
  fits := lengthsFit_of_checkStructure (Chain.checkStructure_reward number payee height)

/-- The number, the payee and the height are part of what a coinbase is identified by. -/
theorem preimage_reward_inj :
    (reward m p h).preimage = (reward n q k).preimage ↔ m = n ∧ p = q ∧ h = k := by
  rw [(canonical_reward m p h).preimage_eq_iff (canonical_reward n q k), reward_inj]

end Tx

/-! ### Runs -/

/-- A block that is asked for: the header that it comes after, and what it is to say. -/
structure Succession where
  parent : Header
  payee : Address
  version : UInt32
  timestamp : UInt64
  height : Option UInt32

namespace Succession
variable {s t : Succession} {made : CoinbaseCounter} {m n : UInt32}

/-- The block, under the next number. -/
def start (s : Succession) : Numbered Block :=
  s.parent.nextBlock s.payee s.version s.timestamp s.height

/-- The blocks of a run, one after the other. -/
def run (calls : List Succession) : Numbered (List Block) := calls.mapM start

/-- The blocks of a run that starts after some were made. -/
def blocks (calls : List Succession) (made : CoinbaseCounter) : List Block :=
  ((run calls).run made).1

/-- The block under a number. -/
def block (s : Succession) (number : UInt32) : Block :=
  s.parent.successor number s.payee s.version s.timestamp s.height

/-- The coinbase under a number. -/
def coinbase (s : Succession) (number : UInt32) : Tx := .reward number s.payee s.height

theorem coinbase?_block (s : Succession) (number : UInt32) :
    (s.block number).coinbase? = some (s.coinbase number) := rfl

/-- One block takes one number. -/
theorem run_start (s : Succession) (made : CoinbaseCounter) :
    s.start.run made = (s.block made.next, ⟨made.next + 1⟩) := rfl

/-- Each block of a run has the number of its place. -/
theorem run_eq (calls : List Succession) (made : CoinbaseCounter) :
    (run calls).run made = (calls.mapIdx fun i s => s.block (made.numberAfter i),
      ⟨made.numberAfter calls.length⟩) := by
  induction calls generalizing made with
  | nil =>
    rw [List.mapIdx_nil, List.length_nil, made.numberAfter_zero]
    rfl
  | cons s rest ih =>
    have hrest := ih ⟨made.next + 1⟩
    simp only [made.numberAfter_succ] at hrest
    rw [run, List.mapM_cons, StateT.run_bind, run_start]
    show ((run rest >>= fun blocks => pure (s.block made.next :: blocks)).run ⟨made.next + 1⟩) = _
    rw [StateT.run_bind, hrest, List.mapIdx_cons, made.numberAfter_zero]
    rfl

theorem getElem?_blocks {calls : List Succession} {i : Nat} (h : calls[i]? = some s) :
    (blocks calls made)[i]? = some (s.block (made.numberAfter i)) := by
  rw [blocks, run_eq, List.getElem?_mapIdx, h]
  rfl

/-! ### Two blocks -/

/-- The root of a block that holds nothing but its coinbase is the identity of the coinbase. -/
theorem merkleRoot_block (s : Succession) (number : UInt32) :
    (s.block number).header.merkleRoot = (s.coinbase number).txid :=
  Chain.merkleRoot_singleton _

theorem coinbase_inj : s.coinbase m = s.coinbase n ↔ m = n := by
  rw [coinbase, coinbase, Tx.reward_inj, and_iff_left ⟨rfl, rfl⟩]

theorem block_inj : s.block m = s.block n ↔ m = n := by
  refine ⟨fun h => ?_, congrArg s.block⟩
  exact coinbase_inj.1 (List.cons.inj (congrArg Block.transactions h)).1

theorem txid_coinbase_eq_iff : (s.coinbase m).txid = (s.coinbase n).txid ↔
    m = n ∨ Collision (s.coinbase m).preimage (s.coinbase n).preimage := by
  have hcanonical (number : UInt32) : (s.coinbase number).Canonical := Tx.canonical_reward ..
  rw [(hcanonical m).txid_eq_iff (hcanonical n), coinbase_inj]

/-- Coinbases under two numbers are told apart, and with them the blocks, by root and by header,
unless the coinbases collide. -/
theorem apart_or_collision (h : m ≠ n) :
    (s.coinbase m).preimage ≠ (t.coinbase n).preimage ∧
      ((s.block m).header.merkleRoot ≠ (t.block n).header.merkleRoot ∧
          (s.block m).header.preimage ≠ (t.block n).header.preimage ∨
        Collision (s.coinbase m).preimage (t.coinbase n).preimage) := by
  have hpreimage : (s.coinbase m).preimage ≠ (t.coinbase n).preimage := fun e =>
    h (Tx.preimage_reward_inj.1 e).1
  refine ⟨hpreimage, ?_⟩
  by_cases htxid : (s.coinbase m).txid = (t.coinbase n).txid
  · exact .inr ⟨hpreimage, htxid⟩
  · have hroot : (s.block m).header.merkleRoot ≠ (t.block n).header.merkleRoot := by
      rw [merkleRoot_block, merkleRoot_block]
      exact htxid
    exact .inl ⟨hroot, fun e => hroot (congrArg Header.merkleRoot (Header.preimage_inj e))⟩

/-- Blocks that are asked for alike differ in their roots only. -/
theorem header_block_eq (h : (s.coinbase m).txid = (s.coinbase n).txid) :
    (s.block m).header = (s.block n).header := by
  have hroot : (s.block m).header.merkleRoot = (s.block n).header.merkleRoot := by
    rw [merkleRoot_block, merkleRoot_block, h]
  exact congrArg (Header.mk s.version s.parent.hash · s.timestamp s.parent.difficulty 0) hroot

theorem beq_block_iff : (s.block m == s.block n) = true ↔
    m = n ∨ Collision (s.coinbase m).preimage (s.coinbase n).preimage := by
  rw [← txid_coinbase_eq_iff]
  show (decide ((s.block m).header = (s.block n).header) && [s.coinbase m] == [s.coinbase n]) = true
    ↔ _
  rw [Bool.and_eq_true, decide_eq_true_iff, List.cons_beq_cons, Bool.and_eq_true]
  constructor
  · rintro ⟨-, htxid, -⟩
    exact of_decide_eq_true htxid
  · intro htxid
    exact ⟨header_block_eq htxid, decide_eq_true htxid, rfl⟩

/-- **Coinbases of a run are apart until the numbers come round.** Of two blocks less than 2^32
places apart, whatever headers they go on and whatever was asked for, the coinbases have different
preimages, and so the blocks have different roots and headers unless the coinbases collide. Two
blocks that were asked for alike are the same block just when their places are a multiple of 2^32
apart, and compare equal just then or by a collision. -/
theorem run_apart {calls : List Succession} {i j : Nat} (made : CoinbaseCounter) (hij : i < j)
    (hs : calls[i]? = some s) (ht : calls[j]? = some t) :
    ∃ (b c : Block) (x y : Tx), (blocks calls made)[i]? = some b ∧
      (blocks calls made)[j]? = some c ∧ b.coinbase? = some x ∧ c.coinbase? = some y ∧
      (j - i < 2 ^ 32 → x.preimage ≠ y.preimage ∧
        (b.header.merkleRoot ≠ c.header.merkleRoot ∧ b.header.preimage ≠ c.header.preimage ∨
          Collision x.preimage y.preimage)) ∧
      (s = t → (b = c ↔ 2 ^ 32 ∣ j - i) ∧
        ((b == c) = true ↔ 2 ^ 32 ∣ j - i ∨ Collision x.preimage y.preimage)) := by
  have hnumber := made.numberAfter_eq_iff (Nat.le_of_lt hij)
  refine ⟨_, _, _, _, getElem?_blocks hs, getElem?_blocks ht, coinbase?_block ..,
    coinbase?_block .., fun hnear => apart_or_collision ?_, ?_⟩
  · intro hsame
    have hdvd := hnumber.1 hsame
    omega
  · rintro rfl
    rw [block_inj, beq_block_iff, hnumber]
    exact ⟨Iff.rfl, Iff.rfl⟩

/-- One block asked for again and again: the second differs from the first, and the first comes back
when all numbers have been given. -/
theorem run_apart_again :
    let call : Succession :=
      ⟨⟨1, .zero, .zero, 0, 0, 0⟩, ⟨.unittest, FixedBytes.zero 20⟩, 1, 0, none⟩
    let calls := List.replicate (2 ^ 32 + 1) call
    (∃ b c x y, (blocks calls ⟨0⟩)[0]? = some b ∧ (blocks calls ⟨0⟩)[1]? = some c ∧
      b.coinbase? = some x ∧ c.coinbase? = some y ∧ x.preimage ≠ y.preimage ∧ b ≠ c) ∧
    ∃ b, (blocks calls ⟨0⟩)[0]? = some b ∧ (blocks calls ⟨0⟩)[2 ^ 32]? = some b := by
  intro call calls
  have hcalls {i : Nat} (h : i < 2 ^ 32 + 1) : calls[i]? = some call :=
    List.getElem?_replicate_of_lt h
  obtain ⟨b, c, x, y, hb, hc, hx, hy, hnear, hsame⟩ :=
    run_apart ⟨0⟩ (i := 0) (j := 1) (by decide) (hcalls (by decide)) (hcalls (by decide))
  obtain ⟨b', c', _, _, hb', hc', -, -, -, hround⟩ :=
    run_apart ⟨0⟩ (i := 0) (j := 2 ^ 32) (by decide) (hcalls (by decide)) (hcalls (by decide))
  obtain rfl : b' = c' := (hround rfl).1.2 ⟨1, rfl⟩
  refine ⟨⟨b, c, x, y, hb, hc, hx, hy, (hnear (by decide)).1, fun h => ?_⟩, b', hb', hc'⟩
  exact absurd ((hsame rfl).1.1 h) (by decide)

end Succession

end TestChain
