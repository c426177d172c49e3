import TestChain.Proofs.Block.Merkle
import TestChain.Proofs.Block.Spends

/-! What a header commits to.

The header of a block names the root of the transactions' identities. Two blocks that pass their
checks under one header hold the same identities up to a repetition at the end, unless strings that
were hashed for them collide (`Block.verify_commits`); the same identities in the same order, if
neither spends an output twice. Identities stand for longer strings than two joined digests, so none
of them passes for a joined one.

The repetition is there: the last payment of a block with an odd number of transactions can be
repeated under the block's header, and the block still passes (`Block.verify_repeat_last`). -/
namespace TestChain

namespace Block
variable {b c : Block}

def txids (b : Block) : List Digest := b.transactions.map Tx.txid

/-- The strings that are hashed for the identities of the transactions, and from those for the root.
-/
def hashed (b : Block) : List Bytes := b.transactions.map Tx.preimage ++ Merkle.strings b.txids

theorem txids_eq_map_preimage (b : Block) :
    b.txids = (b.transactions.map Tx.preimage).map sha256d := List.map_map.symm

/-- The preimages of a block that spends nothing twice differ: those of its payments from each
other, and the coinbase's from those. -/
theorem nodup_transactions_preimage (h : b.verify = .ok ()) (hspent : b.spent.Nodup) :
    (b.transactions.map Tx.preimage).Nodup := by
  obtain ⟨hheader, hpass, -⟩ := verify_eq_ok_iff.1 h
  obtain ⟨coinbase, htxs, hcoinbase⟩ := exists_coinbase_cons_payments hheader
  rw [htxs]
  refine List.nodup_cons.2 ⟨fun hmem => ?_, nodup_preimages hpass hspent⟩
  obtain ⟨tx, htx, hsame⟩ := List.mem_map.1 hmem
  obtain ⟨hmem, hpays⟩ := mem_payments htx
  have hstrip := (Tx.preimage_eq_iff (Tx.lengthsFit_of_checkStructure (hpass tx hmem))
    (Tx.lengthsFit_of_checkStructure (hpass coinbase (htxs ▸ List.mem_cons_self)))).1 hsame
  have hkind := congrArg Tx.isCoinbase hstrip
  rw [Tx.isCoinbase_strip, Tx.isCoinbase_strip, hpays, hcoinbase] at hkind
  cases hkind

theorem nodup_txids (hapart : TellsApart b.hashed) (h : b.verify = .ok ())
    (hspent : b.spent.Nodup) : b.txids.Nodup := by
  rw [txids_eq_map_preimage]
  refine (nodup_transactions_preimage h hspent).map_on fun s hs t ht => ?_
  exact hapart s (List.mem_append_left _ hs) t (List.mem_append_left _ ht)

/-- An identity stands for a string longer than two joined digests. -/
theorem exists_long_of_mem_txids (h : b.verify = .ok ()) {d : Digest} (hd : d ∈ b.txids) :
    ∃ s ∈ b.hashed, d = sha256d s ∧ 64 < s.length := by
  obtain ⟨-, hpass, -⟩ := verify_eq_ok_iff.1 h
  obtain ⟨tx, htx, rfl⟩ := List.mem_map.1 hd
  have hinputs := (Tx.checkStructure_eq_ok_iff.1 (hpass tx htx)).1
  exact ⟨tx.preimage, List.mem_append_left _ (List.mem_map_of_mem htx), rfl,
    Tx.length_preimage hinputs⟩

theorem root_txids (h : b.verifyHeader = .ok ()) :
    b.txids ≠ [] ∧ Merkle.root b.txids = b.header.merkleRoot := by
  obtain ⟨_, _, htxs, -, -, hroot, -⟩ := verifyHeader_eq_ok_iff.1 h
  exact ⟨by simp [txids, htxs], hroot⟩

theorem strings_subset_hashed :
    Merkle.strings b.txids ++ Merkle.strings c.txids ⊆ b.hashed ++ c.hashed := by
  intro s hs
  simp only [hashed, List.mem_append] at hs ⊢
  tauto

/-- The root settles the identities up to repetition, as long as no two hashed strings collide. -/
theorem agree_txids (hapart : TellsApart (b.hashed ++ c.hashed)) (hb : b.verify = .ok ())
    (hc : c.verify = .ok ()) (h : b.header = c.header) : Agree b.txids c.txids := by
  obtain ⟨hne, hroot⟩ := root_txids (verify_eq_ok_iff.1 hb).1
  obtain ⟨hne', hroot'⟩ := root_txids (verify_eq_ok_iff.1 hc).1
  refine Merkle.agree_of_root_eq (hapart.mono strings_subset_hashed) (fun d hd s hs hsame => ?_) hne hne'
    (by rw [hroot, hroot', h])
  -- An identity is that of a joined string only if a longer string collides with it.
  have hlong : ∃ t ∈ b.hashed ++ c.hashed, d = sha256d t ∧ 64 < t.length := by
    rcases List.mem_append.1 hd with hd | hd
    · obtain ⟨t, ht, hlong⟩ := exists_long_of_mem_txids hb hd
      exact ⟨t, List.mem_append_left _ ht, hlong⟩
    · obtain ⟨t, ht, hlong⟩ := exists_long_of_mem_txids hc hd
      exact ⟨t, List.mem_append_right _ ht, hlong⟩
  obtain ⟨t, ht, rfl, hlen⟩ := hlong
  have hlen' : s.length = 64 := by
    rcases List.mem_append.1 hs with hs | hs <;> exact Merkle.length_of_mem_strings hs
  rw [hapart t ht s (strings_subset_hashed hs) hsame, hlen'] at hlen
  exact Nat.lt_irrefl _ hlen

/-! ### The repetition -/

section Repeated
variable {header : Header} {txs : List Tx} {last : Tx} (heven : txs.length % 2 = 0) (hne : txs ≠ [])
include heven hne

/-- **The last transaction can be repeated** under the header of a block with an odd number of
transactions, more than one: the block still passes. -/
theorem verify_repeat_last (h : verify ⟨header, txs ++ [last]⟩ = .ok ()) :
    verify ⟨header, txs ++ [last, last]⟩ = .ok () := by
  obtain ⟨hheader, hpass, hone⟩ := verify_eq_ok_iff.1 h
  obtain ⟨first, others, rfl⟩ := List.exists_cons_of_ne_nil hne
  obtain ⟨_, _, hcons, hfirst, hothers, hroot, hmeets⟩ := verifyHeader_eq_ok_iff.1 hheader
  obtain ⟨rfl, rfl⟩ := List.cons.inj hcons
  have hroot' : merkleRoot (first :: others ++ [last, last]) = header.merkleRoot := by
    rw [← hroot]
    simp only [merkleRoot, List.map_append, List.map_cons, List.map_nil]
    exact (Merkle.root_strings_repeat_last (by simpa using heven) _ (List.cons_ne_nil _ _)).1
  refine verify_eq_ok_iff.2 ⟨verifyHeader_eq_ok_iff.2 ⟨_, _, rfl, hfirst, ?_, hroot', hmeets⟩,
    fun tx htx => hpass tx (by simpa using htx), ?_⟩
  · simpa using hothers
  · rw [oneSpender_spends_iff, payments, List.filter_append, List.pairwise_append] at hone ⊢
    obtain ⟨hfront, -, hlast⟩ := hone
    have hsub : [last, last].filter (!·.isCoinbase) ⊆ [last].filter (!·.isCoinbase) :=
      fun tx htx => by simpa using htx
    refine ⟨hfront, ?_, fun s hs t ht => hlast s hs t (hsub ht)⟩
    refine List.pairwise_of_forall_mem_list fun s hs t ht => ?_
    rw [List.mem_singleton.1 (List.mem_of_mem_filter (hsub hs)),
      List.mem_singleton.1 (List.mem_of_mem_filter (hsub ht))]
    exact .inr rfl

/-- No other strings are hashed for it. -/
theorem hashed_repeat_last :
    hashed ⟨header, txs ++ [last, last]⟩ ⊆ hashed ⟨header, txs ++ [last]⟩ := by
  have heven' : (txs.map Tx.txid).length % 2 = 0 := by simpa using heven
  have hstrings := (Merkle.root_strings_repeat_last heven' last.txid (by simpa using hne)).2
  intro s hs
  simp only [hashed, txids, List.map_append, List.map_cons, List.map_nil, hstrings,
    List.mem_append, List.mem_cons] at hs ⊢
  tauto

end Repeated

/-! Two blocks under one header: two payments, and the second of them repeated. Six strings are
hashed for them, and their digests differ. -/

def pair : Block := spending [⟨.zero, 0⟩, ⟨.zero, 1⟩]

def pairRepeated : Block :=
  { pair with transactions := pair.transactions ++ [leastPayment ⟨.zero, 1⟩] }

theorem even_pair : [leastCoinbase, leastPayment ⟨.zero, 0⟩].length % 2 = 0 := rfl

theorem verify_pair : pair.verify = .ok () := verify_spending (by decide)

theorem verify_pairRepeated : pairRepeated.verify = .ok () :=
  verify_repeat_last even_pair (List.cons_ne_nil _ _) verify_pair

/-- The digest that a number spells. -/
def digestOf (n : Nat) : Digest := ⟨BigEndian.encode 32 n, BigEndian.length_encode ..⟩

/-- The identities of the three transactions, then the digests on the way to the root. -/
def pairDigests : List Digest :=
  [digestOf 0x1ba4e2d31aee41eb77d137510926f9e3542939311ca0539f6eb8bed9049268dc,
    digestOf 0xd6f0b071f616e393f5689f6e1a2185a58e67e892508a5e89c76084a5d1c9b860,
    digestOf 0x5c82fbca09bf132e074357b5d9296f80bf4c19c8e6270fdeeefa1c7ed2180ce0,
    digestOf 0x7049dcebeaf5746460133e1f1f0d8084cddcd958b50ad2ef948ba5cd9ae8f28f,
    digestOf 0x973c0c5b63662f62c77279a62f61e8361bf789299956793984f6f7e4869ddf76,
    digestOf 0x9325c9beb4e3f0723a7293de0293ec972b501af67ac7f993b079595f57c6e98e]

theorem txids_pair : pair.txids = pairDigests.take 3 := by
  decide +kernel

theorem strings_pair : (Merkle.strings (pairDigests.take 3)).map sha256d = pairDigests.drop 3 := by
  decide +kernel

theorem tellsApart_pair : TellsApart (pair.hashed ++ pairRepeated.hashed) := by
  have hdigests : pair.hashed.map sha256d = pairDigests := by
    rw [hashed, List.map_append, ← txids_eq_map_preimage, txids_pair, strings_pair,
      List.take_append_drop]
  have hapart : TellsApart pair.hashed := tellsApart_of_nodup (by rw [hdigests]; decide +kernel)
  have hsub : pairRepeated.hashed ⊆ pair.hashed :=
    hashed_repeat_last even_pair (List.cons_ne_nil _ _)
  exact hapart.mono (List.append_subset.2 ⟨List.Subset.refl _, hsub⟩)

/-! ### The commitment -/

/-- **A header commits to one list of transactions**, as far as repetition goes and unless strings
that are hashed for the identities or the roots collide. -/
theorem verify_commits (hb : b.verify = .ok ()) (hc : c.verify = .ok ())
    (h : b.header = c.header) :
    (Agree b.txids c.txids ∧ (b.spent.Nodup → c.spent.Nodup → b.txids = c.txids)) ∨
      ∃ s ∈ b.hashed ++ c.hashed, ∃ t ∈ b.hashed ++ c.hashed, Collision s t := by
  rcases tellsApart_or_collision (b.hashed ++ c.hashed) with hapart | hcollision
  · have hagree := agree_txids hapart hb hc h
    refine .inl ⟨hagree, fun hspent hspent' => hagree.eq_of_nodup ?_ ?_⟩
    · exact nodup_txids (hapart.mono (List.subset_append_left _ _)) hb hspent
    · exact nodup_txids (hapart.mono (List.subset_append_right _ _)) hc hspent'
  · exact .inr hcollision

/-- What the header of the two blocks does settle. -/
theorem agree_pair :
    pair.verify = .ok () ∧ pairRepeated.verify = .ok () ∧ pair.header = pairRepeated.header ∧
      Agree pair.txids pairRepeated.txids := by
  refine ⟨verify_pair, verify_pairRepeated, rfl, ?_⟩
  rcases verify_commits verify_pair verify_pairRepeated rfl with h | ⟨s, hs, t, ht, hcollision⟩
  · exact h.1
  · exact absurd hcollision (tellsApart_pair.not_collision s hs t ht)

/-- **The header of the two blocks does not settle** which of them it is of: both pass, their
identities differ, and no strings that are hashed for them collide. -/
theorem txids_pair_ne :
    pair.verify = .ok () ∧ pairRepeated.verify = .ok () ∧ pair.header = pairRepeated.header ∧
      pair.txids ≠ pairRepeated.txids ∧
      ∀ s ∈ pair.hashed ++ pairRepeated.hashed, ∀ t ∈ pair.hashed ++ pairRepeated.hashed,
        ¬Collision s t := by
  refine ⟨verify_pair, verify_pairRepeated, rfl, fun h => ?_, tellsApart_pair.not_collision⟩
  exact absurd (congrArg List.length h) (by decide)

end Block

end TestChain
