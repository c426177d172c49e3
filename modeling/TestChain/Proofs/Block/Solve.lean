import TestChain.Block.Solve
import TestChain.Block.Verify
import TestChain.Proofs.Outcome

/-! Solved blocks, and headers that pass their checks.

The search for a nonce moves the time and the nonce of a header and nothing else, and it stops at a
hash that meets the target. A solved block is thus the given block up to these two fields, and its
header meets the target that it started with. -/
namespace TestChain

namespace Header

/-- The headers differ in their times and nonces at most. -/
def SameTask (h next : Header) : Prop :=
  next = { h with timestamp := next.timestamp, nonce := next.nonce }

theorem SameTask.trans {a b c : Header} (hab : a.SameTask b) (hbc : b.SameTask c) :
    a.SameTask c := by
  unfold SameTask at *
  rw [hbc, hab]

theorem sameTask_advance? {h next : Header} (e : h.advance? = some next) : h.SameTask next := by
  unfold advance? at e
  split at e
  · cases e
    rfl
  · split at e
    · cases e
      rfl
    · cases e

/-- Where a search stops, the hash meets the goal. -/
theorem search_solved {goal : Digest} {h solved : Header} (e : h.search goal = .solved solved) :
    h.SameTask solved ∧ solved.hash.le goal = true := by
  fun_induction search goal h with
  | case1 h hle =>
    cases e
    exact ⟨rfl, hle⟩
  | case2 h hle hlast => cases e
  | case3 h hle next hnext ih =>
    obtain ⟨hsame, hgoal⟩ := ih e
    exact ⟨(sameTask_advance? hnext).trans hsame, hgoal⟩

end Header

namespace Block

theorem solve_eq_ok {b solved : Block} (e : b.solve = .ok solved) :
    b.header.difficulty ≤ NetworkParams.maxDifficulty ∧ solved.transactions = b.transactions ∧
      b.header.SameTask solved.header ∧ solved.header.meetsTarget = true := by
  unfold solve search at e
  by_cases hmax : NetworkParams.maxDifficulty < b.header.difficulty
  · rw [if_pos hmax] at e
    cases e
  · rw [if_neg hmax] at e
    cases hsearch : b.header.search b.header.target with
    | exhausted h =>
      rw [hsearch] at e
      cases e
    | solved h =>
      rw [hsearch] at e
      cases e
      obtain ⟨hsame, hgoal⟩ := Header.search_solved hsearch
      have htarget : h.target = b.header.target := by
        rw [hsame]
        rfl
      exact ⟨UInt32.not_lt.1 hmax, rfl, hsame, by rw [Header.meetsTarget, htarget, hgoal]⟩

/-- A search that comes to an end solves the block, unless the difficulty is out of reach. -/
theorem solve_of_search {b : Block} (hsearch : ∀ last, b.search ≠ .exhausted last) :
    if NetworkParams.maxDifficulty < b.header.difficulty then
      b.solve = .error (.error (.block (.unreachable b.header.difficulty)))
    else ∃ solved, b.solve = .ok solved := by
  unfold search at hsearch
  unfold solve search
  split
  · rfl
  next hmax =>
    rw [if_neg hmax] at hsearch
    cases hend : b.header.search b.header.target with
    | solved h => exact ⟨_, rfl⟩
    | exhausted h =>
      rw [hend] at hsearch
      exact absurd rfl (hsearch _)

theorem exists_solve {b : Block} (hmax : ¬ NetworkParams.maxDifficulty < b.header.difficulty)
    (hsearch : ∀ last, b.search ≠ .exhausted last) : ∃ solved, b.solve = .ok solved := by
  have hsolve := solve_of_search hsearch
  rwa [if_neg hmax] at hsolve

end Block

/-! ### Difficulty zero

A difficulty of zero asks for nothing, so the first pair of time and nonce will do. -/

theorem Bytes.le_replicate (bs : Bytes) {n : Nat} (h : bs.length ≤ n) :
    bs.le (List.replicate n 0xff) = true := by
  induction bs generalizing n with
  | nil => rfl
  | cons b bs ih =>
    cases n with
    | zero => cases h
    | succ n =>
      have hb : b < 255 ∨ b = 255 := by
        have hlt := b.toNat_lt
        rw [UInt8.lt_iff_toNat_lt, ← UInt8.toNat_inj]
        show b.toNat < 255 ∨ b.toNat = 255
        omega
      have hrest : Bytes.le bs (List.replicate n 0xff) = true := ih (Nat.le_of_succ_le_succ h)
      simpa only [List.replicate_succ, Bytes.le, hrest, Bool.and_true, Bool.or_eq_true,
        decide_eq_true_iff, beq_iff_eq] using hb

theorem le_target_zero (d : Digest) : d.le (target 0) = true := by
  have htarget : (target 0).toList = List.replicate 32 0xff := by decide
  rw [FixedBytes.le, htarget]
  exact Bytes.le_replicate _ (Nat.le_of_eq d.length_toList)

theorem Header.meetsTarget_of_difficulty {h : Header} (hd : h.difficulty = 0) :
    h.meetsTarget = true := by
  rw [meetsTarget, target, hd, le_target_zero]

theorem Block.search_of_difficulty {b : Block} (hd : b.header.difficulty = 0) :
    b.search = .solved b := by
  have hmeets : b.header.hash.le b.header.target = true := Header.meetsTarget_of_difficulty hd
  have hsearch : b.header.search b.header.target = .solved b.header := by
    rw [Header.search, if_pos hmeets]
  rw [search, if_neg (by rw [hd]; decide), hsearch]

theorem Block.search_ne_exhausted {b : Block} (hd : b.header.difficulty = 0) (last : Block) :
    b.search ≠ .exhausted last := by
  rw [search_of_difficulty hd]
  nofun

theorem Block.solve_of_difficulty {b : Block} (hd : b.header.difficulty = 0) :
    b.solve = .ok b := by
  rw [solve, search_of_difficulty hd]

/-- A first block of difficulty zero is solved as it stands. -/
theorem Block.genesis_of_difficulty {params : NetworkParams} (hd : params.genesisDifficulty = 0) :
    genesis params = .ok (genesisTemplate params) := by
  have hreachable : params.Reachable := by
    rw [NetworkParams.Reachable, hd]
    decide
  have hvalid : orFail params.validate = .ok () := by
    rw [NetworkParams.validate, if_pos hreachable]
    rfl
  exact except_bind_eq_ok.2 ⟨(), hvalid, Block.solve_of_difficulty hd⟩

/-! ### Headers that pass -/

namespace Block

/-- A header passes when the first transaction and no other is a coinbase, the root is that of the
transactions, and the hash meets the target. -/
theorem verifyHeader_eq_ok_iff {b : Block} :
    b.verifyHeader = .ok () ↔ ∃ first others, b.transactions = first :: others ∧
      first.isCoinbase = true ∧ others.any Tx.isCoinbase = false ∧
      merkleRoot b.transactions = b.header.merkleRoot ∧ b.header.meetsTarget = true := by
  unfold verifyHeader
  cases htxs : b.transactions with
  | nil =>
    constructor
    · intro h
      cases h
    · intro h
      obtain ⟨_, _, h, -⟩ := h
      cases h
  | cons first others =>
    constructor
    · intro h
      by_cases hfirst : first.isCoinbase = true
      · by_cases hothers : others.any Tx.isCoinbase = true
        · simp [hfirst, hothers] at h
        · by_cases hroot : merkleRoot (first :: others) = b.header.merkleRoot
          · by_cases hmeets : b.header.meetsTarget = true
            · exact ⟨first, others, rfl, hfirst, Bool.eq_false_iff.2 hothers, hroot, hmeets⟩
            · simp [hfirst, hothers, hroot, hmeets] at h
          · simp [hfirst, hothers, hroot] at h
      · simp [hfirst] at h
    · intro h
      obtain ⟨_, _, hcons, hfirst, hothers, hroot, hmeets⟩ := h
      cases hcons
      simp only [hfirst, hothers, hroot, hmeets, Bool.not_true, ne_eq, not_true_eq_false, if_false,
        Bool.false_eq_true]

end Block

end TestChain
