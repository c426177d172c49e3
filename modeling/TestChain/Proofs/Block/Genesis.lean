import TestChain.Proofs.Block.Conflicts
import TestChain.Proofs.Fixture.Growth
import TestChain.Proofs.Fixture.RoundTrip
import TestChain.Proofs.Tx.Structure

/-! First blocks.

A block that starts from a coinbase, has its root up to date and is then solved passes all checks,
unless the transactions behind the coinbase do not (`Block.verify_of_solve`): the search for a nonce
touches nothing else that is looked at. In a first block there are none, so it passes
(`Block.IsGenesis`).

The parameters show in a first block: the difficulty in its header, and the network in the address
that its coinbase pays. The address is part of what the coinbase is identified by, and in a block of
one transaction the root is that identity. So the headers of first blocks on two networks differ,
unless the two coinbases collide (`Block.genesis_exact`). -/
namespace TestChain

/-! ### Solved blocks -/

/-- A solved block passes all checks just when none of the transactions behind its coinbase is a
coinbase, each of them passes its own checks, and no two that differ spend one output. -/
theorem Block.verify_of_solve {b solved : Block} (hsolve : b.solve = .ok solved)
    (hroot : merkleRoot b.transactions = b.header.merkleRoot) {first : Tx} {others : List Tx}
    (htxs : b.transactions = first :: others) (hfirst : first.isCoinbase = true)
    (hpass : first.checkStructure = .ok ()) :
    (solved.verifyHeader = .ok () ↔ ∀ tx ∈ others, tx.isCoinbase = false) ∧
      (solved.verify = .ok () ↔ (∀ tx ∈ others, tx.isCoinbase = false) ∧
        (∀ tx ∈ others, tx.checkStructure = .ok ()) ∧
        ∀ s ∈ others, ∀ t ∈ others, s.txid ≠ t.txid → s.spent.Disjoint t.spent) := by
  have hheader : solved.verifyHeader = .ok () ↔ ∀ tx ∈ others, tx.isCoinbase = false := by
    rw [verifyHeader_of_solve hsolve hroot htxs hfirst]
    cases hothers : others.any Tx.isCoinbase with
    | true =>
      refine iff_of_false nofun fun h => ?_
      obtain ⟨tx, htx, hcoinbase⟩ := List.any_eq_true.1 hothers
      rw [h tx htx] at hcoinbase
      cases hcoinbase
    | false =>
      refine iff_of_true rfl fun tx htx => Bool.eq_false_iff.2 ?_
      exact List.any_eq_false.1 hothers tx htx
  refine ⟨hheader, ?_⟩
  obtain ⟨-, hsame, -, -⟩ := solve_eq_ok hsolve
  rw [htxs] at hsame
  rw [verify_eq_ok_iff, ← checkDoubleSpends_eq_ok_iff, checkDoubleSpends_eq_ok_iff_disjoint,
    hheader, hsame, List.forall_mem_cons, and_iff_right hpass]
  refine and_congr_right fun hothers => and_congr_right fun _ => ?_
  rw [payments_of_cons hsame hfirst hothers]

/-! ### First blocks -/

namespace Block
variable {p q : NetworkParams} {b c : Block} {m n : Network}

theorem size_genesisCoinbase (n : Network) : (genesisCoinbase n).size = 124 :=
  Tx.size_coinbase ..

theorem checkStructure_genesisCoinbase (n : Network) :
    (genesisCoinbase n).checkStructure = .ok () :=
  Tx.checkStructure_coinbase (by decide) (by decide)

/-- The network is part of what a coinbase is identified by. -/
theorem genesisCoinbase_inj (h : (genesisCoinbase m).preimage = (genesisCoinbase n).preimage) :
    m = n := by
  have hfit (n : Network) : (genesisCoinbase n).LengthsFit :=
    Tx.lengthsFit_of_checkStructure (checkStructure_genesisCoinbase n)
  have hstrip := (Tx.preimage_eq_iff (hfit m) (hfit n)).1 h
  have houtputs : (genesisCoinbase m).outputs = (genesisCoinbase n).outputs :=
    congrArg Tx.outputs hstrip
  have hpaid := (List.cons.inj houtputs).1
  have hscript := congrArg TxOutput.script hpaid
  exact congrArg Address.network (LockScript.payToAddress.inj hscript)

/-- What the first block of some parameters is like. -/
structure IsGenesis (p : NetworkParams) (b : Block) : Prop where
  passes : b.verify = .ok ()
  previous : b.header.previous.toList = List.replicate 32 0
  difficulty : b.header.difficulty = p.genesisDifficulty
  coinbase : ∃ coinbase, b.transactions = [coinbase] ∧ coinbase.isCoinbase = true ∧
    coinbase.outputs = [.toAddress Money.fiftyCoins ⟨p.network, FixedBytes.zero 20⟩]
  survives : b.mustRoundTrip = .ok b
  height : (ChainRecord.genesis b).height = 0
  chainWork : (ChainRecord.genesis b).chainWork = b.work ∧
    b.work.toNat = 2 ^ min p.genesisDifficulty.toNat 127

/-- The template of a first block, solved, is a first block. -/
theorem isGenesis_of_solve (hsolve : (genesisTemplate p).solve = .ok b) : IsGenesis p b := by
  obtain ⟨-, htxs, hsame, -⟩ := solve_eq_ok hsolve
  have htxs : b.transactions = [genesisCoinbase p.network] := htxs
  have hdifficulty : b.header.difficulty = p.genesisDifficulty := by
    rw [hsame]
    rfl
  have hpasses : b.verify = .ok () :=
    (verify_of_solve hsolve rfl rfl rfl (checkStructure_genesisCoinbase _)).2.2
      ⟨nofun, nofun, nofun⟩
  have hstrip : b.strip = b := by
    have hkept : b.transactions.map Tx.strip = b.transactions := by rw [htxs]; rfl
    rw [strip, hkept]
  have hlength : b.encode.length ≤ Wire.Item.block.limit := by
    rw [length_encode, size, htxs, Wire.listSize_cons, size_genesisCoinbase]
    decide
  have hback : b.roundTrip = .ok b.strip := (Block.passes.bind_eq b).trans (if_pos hlength)
  refine ⟨hpasses, ?_, hdifficulty, ⟨_, htxs, rfl, rfl⟩, ?_, rfl, rfl, ?_⟩
  · rw [hsame]
    rfl
  · rw [mustRoundTrip, hback, hstrip]
    rfl
  · rw [work, Header.work, Work.toNat_ofDifficulty, hdifficulty]

theorem isGenesis_of_genesis (e : genesis p = .ok b) : IsGenesis p b := by
  obtain ⟨_, -, hsolve⟩ := except_bind_eq_ok.1 e
  exact isGenesis_of_solve hsolve

theorem genesis_of_unreachable (hmax : NetworkParams.maxDifficulty < p.genesisDifficulty) :
    genesis p = .error (.error (.configuration (.difficulty p.genesisDifficulty))) := by
  have hrefused : p.validate = .error (.configuration (.difficulty p.genesisDifficulty)) :=
    if_neg (UInt32.not_le.2 hmax)
  rw [genesis, hrefused]
  rfl

theorem exists_genesis (hmax : ¬ NetworkParams.maxDifficulty < p.genesisDifficulty)
    (hsearch : ∀ last, (genesisTemplate p).search ≠ .exhausted last) :
    ∃ b, genesis p = .ok b := by
  have hvalid : p.validate = .ok () := if_pos (UInt32.not_lt.1 hmax)
  obtain ⟨b, hsolve⟩ := exists_solve (b := genesisTemplate p) hmax hsearch
  exact ⟨b, except_bind_eq_ok.2 ⟨(), orFail_eq_ok.2 hvalid, hsolve⟩⟩

/-- The root of a first block is the identity of its coinbase. -/
theorem merkleRoot_genesis (e : genesis p = .ok b) :
    b.header.merkleRoot = (genesisCoinbase p.network).txid := by
  obtain ⟨_, -, hsolve⟩ := except_bind_eq_ok.1 e
  obtain ⟨-, -, hsame, -⟩ := solve_eq_ok hsolve
  have hroot : b.header.merkleRoot = merkleRoot [genesisCoinbase p.network] := by
    rw [hsame]
    rfl
  rw [hroot, Chain.merkleRoot_singleton]

/-- One header for first blocks on two networks takes a collision of their coinbases. -/
theorem collision_of_header_eq (hb : genesis p = .ok b) (hc : genesis q = .ok c)
    (hnetwork : p.network ≠ q.network) (hheader : b.header = c.header) :
    Collision (genesisCoinbase p.network).preimage (genesisCoinbase q.network).preimage := by
  have htxid : (genesisCoinbase p.network).txid = (genesisCoinbase q.network).txid := by
    rw [← merkleRoot_genesis hb, ← merkleRoot_genesis hc, hheader]
  exact ⟨fun h => hnetwork (genesisCoinbase_inj h), htxid⟩

/-- **First blocks.** A difficulty out of reach is refused as a fault of the configuration. Else
there is a first block where the search for a nonce comes to an end, and any first block passes all
checks, goes through the wire as it is, and starts the count of heights and of work. Parameters that
differ in network or in difficulty have first blocks with different headers, unless the coinbases of
the two networks collide. -/
theorem genesis_exact (p : NetworkParams) :
    (if NetworkParams.maxDifficulty < p.genesisDifficulty then
      genesis p = .error (.error (.configuration (.difficulty p.genesisDifficulty)))
    else
      ((∀ last, (genesisTemplate p).search ≠ .exhausted last) → ∃ b, genesis p = .ok b) ∧
        ∀ b, genesis p = .ok b → IsGenesis p b) ∧
    ∀ q b c, genesis p = .ok b → genesis q = .ok c →
      p.network ≠ q.network ∨ p.genesisDifficulty ≠ q.genesisDifficulty →
      b.header ≠ c.header ∨
        Collision (genesisCoinbase p.network).preimage (genesisCoinbase q.network).preimage := by
  constructor
  · split
    next hmax => exact genesis_of_unreachable hmax
    next hmax => exact ⟨exists_genesis hmax, fun b => isGenesis_of_genesis⟩
  · intro q b c hb hc hdiffer
    by_cases hheader : b.header = c.header
    · have hdifficulty : p.genesisDifficulty = q.genesisDifficulty := by
        rw [← (isGenesis_of_genesis hb).difficulty, ← (isGenesis_of_genesis hc).difficulty,
          hheader]
      have hnetwork := hdiffer.resolve_right (not_not_intro hdifficulty)
      exact .inr (collision_of_header_eq hb hc hnetwork hheader)
    · exact .inl hheader

/-- On the test network and the main one, at difficulty zero, and for a difficulty out of reach. -/
theorem genesis_exact_plain :
    (∃ b c, genesis Chain.plain = .ok b ∧ IsGenesis Chain.plain b ∧
      genesis { Chain.plain with network := .mainnet } = .ok c ∧ b.header ≠ c.header) ∧
    genesis { Chain.plain with genesisDifficulty := 256 } =
      .error (.error (.configuration (.difficulty 256))) := by
  obtain ⟨htest, hapart⟩ := genesis_exact Chain.plain
  have hmain := (genesis_exact { Chain.plain with network := .mainnet }).1
  have hrefused := (genesis_exact { Chain.plain with genesisDifficulty := 256 }).1
  rw [if_neg (by decide)] at htest hmain
  rw [if_pos (by decide)] at hrefused
  obtain ⟨b, hb⟩ := htest.1 (search_ne_exhausted rfl)
  obtain ⟨c, hc⟩ := hmain.1 (search_ne_exhausted rfl)
  have htxids : (genesisCoinbase .unittest).txid ≠ (genesisCoinbase .mainnet).txid := by
    decide +kernel
  have hheaders := (hapart _ b c hb hc (.inl nofun)).resolve_right fun h => htxids h.2
  exact ⟨⟨b, c, hb, htest.2 b hb, hc, hheaders⟩, hrefused⟩

end Block

end TestChain
