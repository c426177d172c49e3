import TestChain.Fixture.Chain
import TestChain.Proofs.Block.Commitment
import TestChain.Proofs.Fixture.Knowledge

/-! What a header and a number of transactions settle.

Lists of one length have trees of one shape, so one root over both is one list of identities, and
identities stand for contents. Nothing is needed of the transactions for that: two blocks of equally
many transactions that pass the check of one header say the same, transaction by transaction, unless
strings that were hashed for them collide (`Block.verifyHeader_binds`). What their holders know may
still differ. -/
namespace TestChain

namespace Block
variable {b c : Block}

theorem length_txids (b : Block) : b.txids.length = b.transactions.length := List.length_map ..

/-- Equally many identities under one root are the same ones. -/
theorem txids_eq_of_header (hapart : TellsApart (b.hashed ++ c.hashed))
    (hb : b.verifyHeader = .ok ()) (hc : c.verifyHeader = .ok ()) (h : b.header = c.header)
    (hlen : b.transactions.length = c.transactions.length) : b.txids = c.txids := by
  have hlen' : b.txids.length = c.txids.length := by rw [length_txids, length_txids, hlen]
  refine Merkle.eq_of_root_eq (hapart.mono strings_subset_hashed) hlen' ?_
  rw [(root_txids hb).2, (root_txids hc).2, h]

/-- The same identities stand for the same strings. -/
theorem map_preimage_eq_of_txids (hapart : TellsApart (b.hashed ++ c.hashed))
    (h : b.txids = c.txids) :
    b.transactions.map Tx.preimage = c.transactions.map Tx.preimage := by
  have hagree : Agree b.txids c.txids := h ▸ .refl _
  rw [txids_eq_map_preimage, txids_eq_map_preimage] at hagree
  refine (hagree.of_map fun s hs t ht => ?_).eq_of_length ?_
  · exact hapart s (List.mem_append_left _ (List.mem_append_left _ hs)) t
      (List.mem_append_right _ (List.mem_append_left _ ht))
  · rw [List.length_map, List.length_map, ← length_txids, ← length_txids, h]

/-- Transactions that stand for the same strings say the same. -/
theorem sameContent_of_map_preimage {txs txs' : List Tx} (hfit : ∀ tx ∈ txs, tx.LengthsFit)
    (hfit' : ∀ tx ∈ txs', tx.LengthsFit) (h : txs.map Tx.preimage = txs'.map Tx.preimage) :
    List.Forall₂ Tx.SameContent txs txs' := by
  induction txs generalizing txs' with
  | nil =>
    obtain rfl := List.map_eq_nil_iff.1 h.symm
    exact .nil
  | cons tx txs ih =>
    obtain ⟨tx', txs', rfl, hhead, htail⟩ := List.map_eq_cons_iff.1 h.symm
    obtain ⟨htx, htxs⟩ := List.forall_mem_cons.1 hfit
    obtain ⟨htx', htxs'⟩ := List.forall_mem_cons.1 hfit'
    refine .cons (Tx.sameContent_iff_strip_eq.2 ?_) (ih htxs htxs' htail.symm)
    exact (Tx.preimage_eq_iff htx htx').1 hhead.symm

/-- **A header and a number of transactions bind the transactions.** Two blocks of equally many
transactions that pass the check of one header say the same position by position, or two of the
strings that are hashed for their identities and roots collide. That lengths can be counted in 64
bits is true of all that a machine can hold. -/
theorem verifyHeader_binds (hb : b.verifyHeader = .ok ()) (hc : c.verifyHeader = .ok ())
    (h : b.header = c.header) (hlen : b.transactions.length = c.transactions.length)
    (hfit : ∀ tx ∈ b.transactions, tx.LengthsFit) (hfit' : ∀ tx ∈ c.transactions, tx.LengthsFit) :
    List.Forall₂ Tx.SameContent b.transactions c.transactions ∨
      ∃ s ∈ b.hashed ++ c.hashed, ∃ t ∈ b.hashed ++ c.hashed, Collision s t := by
  rcases tellsApart_or_collision (b.hashed ++ c.hashed) with hapart | hcollision
  · have htxids := txids_eq_of_header hapart hb hc h hlen
    exact .inl (sameContent_of_map_preimage hfit hfit' (map_preimage_eq_of_txids hapart htxids))
  · exact .inr hcollision

/-- A block of two payments and the same block as it is heard of on the network: the transactions
are held differently and say the same. -/
theorem verifyHeader_binds_heard :
    let heard : Block := { pair with transactions := pair.transactions.map Tx.fromNetwork }
    pair.verifyHeader = .ok () ∧ heard.verifyHeader = .ok () ∧ pair.header = heard.header ∧
      pair.transactions.length = heard.transactions.length ∧
      pair.transactions ≠ heard.transactions ∧
      List.Forall₂ Tx.SameContent pair.transactions heard.transactions := by
  intro heard
  have hstrip : heard.strip = pair.strip := by
    show Block.mk _ ((pair.transactions.map Tx.fromNetwork).map Tx.strip) = _
    rw [List.map_map]
    rfl
  have hheard : heard.verify = .ok () := by
    rw [← verify_strip, hstrip, verify_strip, verify_pair]
  have hhashed : heard.hashed = pair.hashed := by
    have hpreimages : heard.transactions.map Tx.preimage = pair.transactions.map Tx.preimage :=
      List.map_map
    rw [hashed, txids_eq_map_preimage, hpreimages, ← txids_eq_map_preimage, hashed]
  obtain ⟨hpass, hfit, -⟩ := verify_eq_ok_iff.1 verify_pair
  obtain ⟨hpass', hfit', -⟩ := verify_eq_ok_iff.1 hheard
  refine ⟨hpass, hpass', rfl, rfl, fun h => ?_, ?_⟩
  · exact absurd (congrArg (List.map Tx.provenance) h) (by decide)
  · rcases verifyHeader_binds hpass hpass' rfl rfl
      (fun tx htx => Tx.lengthsFit_of_checkStructure (hfit tx htx))
      (fun tx htx => Tx.lengthsFit_of_checkStructure (hfit' tx htx)) with
      hsame | ⟨s, hs, t, ht, hcollision⟩
    · exact hsame
    · rw [hhashed, List.mem_append, or_self] at hs ht
      exact absurd hcollision (tellsApart_pair.not_collision s (List.mem_append_left _ hs) t
        (List.mem_append_left _ ht))

end Block

end TestChain
