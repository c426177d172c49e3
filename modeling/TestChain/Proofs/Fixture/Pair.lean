import TestChain.Proofs.Block.Conflicts
import TestChain.Proofs.Fixture.Payment

/-! Payments in a row.

The second payment of a pair spends the first output of the first payment, and the first spends its
feeder's. The three are never one transaction, whoever is paid: they differ in how much they spend
or in how much they pay. So the two payments spend different outputs, unless the first collides with
its feeder, and a block may hold both, in either order, as far as the checks of a block on its own
go: those do not ask that an output is made before it is spent (`Payment.pair_linked`). -/
namespace TestChain.Payment

section
variable (value : UInt64) (payee source change : Address)

theorem canonical_pairFirst : (pairFirst value payee source).Canonical :=
  (sound_plain value payee _).canonical

theorem canonical_pairSecond : (pairSecond value payee source change).Canonical :=
  (sound_withChange value payee change _ (by decide)).canonical

/-- A payment that spends something is no feeder, which spends nothing. -/
theorem bare_cons_ne_feeder {source : Tx} {sources : List Tx} {script : UnlockScript}
    {outputs : List TxOutput} {o : TxOutput} :
    bare (source :: sources) script outputs ≠ feeder o :=
  fun h => List.cons_ne_nil _ _ (congrArg Tx.inputs h)

/-- Only the second payment gives change. -/
theorem pairSecond_ne_pairFirst :
    pairSecond value payee source change ≠ pairFirst value payee source := by
  intro h
  have houtputs := congrArg (fun tx => tx.outputs.length) h
  cases houtputs

/-- No two of the transactions are one. -/
theorem nodup_preimages_pair :
    ([feeder (.toAddress value source), pairFirst value payee source,
      pairSecond value payee source change].map Tx.preimage).Nodup := by
  have hfeeder := canonical_marked value source 0
  have hfirst := canonical_pairFirst value payee source
  have hsecond := canonical_pairSecond value payee source change
  simp only [List.map_cons, List.map_nil, List.nodup_cons, List.mem_cons, List.not_mem_nil,
    or_false, not_or, List.nodup_nil, and_true, not_false_eq_true]
  refine ⟨⟨?_, ?_⟩, ?_⟩
  · exact (hfeeder.preimage_eq_iff hfirst).not.2 bare_cons_ne_feeder.symm
  · exact (hfeeder.preimage_eq_iff hsecond).not.2 bare_cons_ne_feeder.symm
  · exact (hfirst.preimage_eq_iff hsecond).not.2
      (pairSecond_ne_pairFirst value payee source change).symm

theorem spent_pairFirst :
    (pairFirst value payee source).spent = [(feeder (.toAddress value source)).outPoint 0] :=
  spent_bare

theorem spent_pairSecond : (pairSecond value payee source change).spent =
    [(pairFirst value payee source).outPoint 0] := spent_bare

/-- The payments spend different outputs, unless the first collides with its feeder. -/
theorem collision_or_disjoint_pair :
    Collision (pairFirst value payee source).preimage
        (feeder (.toAddress value source)).preimage ∨
      (pairFirst value payee source).spent.Disjoint
        (pairSecond value payee source change).spent := by
  have hcollision : (feeder (.toAddress value source)).txid = (pairFirst value payee source).txid ↔
      Collision (pairFirst value payee source).preimage
        (feeder (.toAddress value source)).preimage := by
    rw [eq_comm, feeder_eq, (canonical_pairFirst value payee source).txid_eq_iff
      (canonical_marked value source 0)]
    exact or_iff_right bare_cons_ne_feeder
  rw [← hcollision, spent_pairFirst, spent_pairSecond, List.singleton_disjoint,
    List.mem_singleton, outPoint_inj]
  exact Decidable.em _

/-- Behind a coinbase that passes, the change decides: what is in range with it is in range without
it. -/
theorem verifyTransactions_of_disjoint {b : Block} {coinbase : Tx}
    (hcoinbase : coinbase.isCoinbase = true) (hpass : coinbase.checkStructure = .ok ())
    (hdisjoint : (pairFirst value payee source).spent.Disjoint
      (pairSecond value payee source change).spent)
    (htxs : b.transactions =
        [coinbase, pairFirst value payee source, pairSecond value payee source change] ∨
      b.transactions =
        [coinbase, pairSecond value payee source change, pairFirst value payee source]) :
    b.verifyTransactions = .ok () ↔
      value.toNat + changeValue.toNat ≤ Money.maximum.toNat := by
  have hfirst := finished_pairFirst value payee source
  have hsecond := finished_pairSecond value payee source change
  have hvalue : value.toNat + changeValue.toNat ≤ Money.maximum.toNat → value ≤ Money.maximum :=
    fun h => UInt64.le_iff_toNat_le.2 (Nat.le_of_add_right_le h)
  rcases htxs with htxs | htxs
  -- The coinbase and what the payments spend are alike in both orders; only the limits swap.
  · rw [Block.verifyTransactions_pair htxs hcoinbase hpass hfirst.notCoinbase hsecond.notCoinbase
      hdisjoint, hfirst.checks, hsecond.checks]
    exact and_iff_right_of_imp hvalue
  · rw [Block.verifyTransactions_pair htxs hcoinbase hpass hsecond.notCoinbase hfirst.notCoinbase
      (List.disjoint_comm.1 hdisjoint), hfirst.checks, hsecond.checks]
    exact and_iff_left_of_imp hvalue

end

/-- **A pair is two payments in a row.** The second spends the first output of the first, as it
comes back, which pays the value to the payee; the first spends the output of a transaction that
pays it to the source and does nothing else; and no two of the three are one transaction, whatever
the addresses. Behind a coinbase that passes, the payments pass the checks of a block, in either
order, just when the value and the change are no more than all money, unless the first payment and
its feeder collide. -/
theorem pair_linked (value : UInt64) (payee source change : Address) :
    ∃ first second, pair value payee source change = .ok (first, second) ∧
      second.spent = [first.outPoint 0] ∧
      first.spent = [(feeder (.toAddress value source)).outPoint 0] ∧
      first.outputs[0]? = some (.toAddress value payee) ∧
      ([feeder (.toAddress value source), first, second].map Tx.preimage).Nodup ∧
      (Collision first.preimage (feeder (.toAddress value source)).preimage ∨
        ∀ (b : Block) (coinbase : Tx), coinbase.isCoinbase = true →
          coinbase.checkStructure = .ok () →
          b.transactions = [coinbase, first, second] ∨ b.transactions = [coinbase, second, first] →
          (b.verifyTransactions = .ok () ↔
            value.toNat + changeValue.toNat ≤ Money.maximum.toNat)) := by
  refine ⟨_, _, pair_eq value payee source change, spent_pairSecond value payee source change,
    spent_pairFirst value payee source, rfl, nodup_preimages_pair value payee source change, ?_⟩
  refine (collision_or_disjoint_pair value payee source change).imp_right ?_
  intro hdisjoint b coinbase hcoinbase hpass htxs
  exact verifyTransactions_of_disjoint value payee source change hcoinbase hpass hdisjoint htxs

/-- The first payment of a coin, from one address to itself, and its feeder do not collide. -/
theorem txid_pairFirst_ne :
    let own : Address := ⟨.unittest, .zero 20⟩
    (pairFirst Money.coin own own).txid ≠ (feeder (.toAddress Money.coin own)).txid := by
  decide +kernel

/-- All addresses one: the payments of a coin are still two, and pass behind the least coinbase. -/
theorem pair_linked_self :
    let own : Address := ⟨.unittest, .zero 20⟩
    ∃ first second, pair Money.coin own own own = .ok (first, second) ∧
      first.preimage ≠ second.preimage ∧
      Block.verifyTransactions
        ⟨⟨1, .zero, .zero, 0, 0, 0⟩, [Block.leastCoinbase, first, second]⟩ = .ok () := by
  intro own
  obtain ⟨first, second, hmade, -, -, -, hnodup, h⟩ := pair_linked Money.coin own own own
  have hpair := hmade.symm.trans (pair_eq Money.coin own own own)
  obtain rfl : first = pairFirst Money.coin own own := congrArg Prod.fst (Except.ok.inj hpair)
  have hpass := h.resolve_left fun hcollision => txid_pairFirst_ne hcollision.2
  refine ⟨_, second, hmade, fun hsame => ?_, ?_⟩
  · exact (List.nodup_cons.1 (List.nodup_cons.1 hnodup).2).1 (List.mem_singleton.2 hsame)
  · exact (hpass _ Block.leastCoinbase rfl Block.checkStructure_leastCoinbase (.inl rfl)).2
      (by decide)

end TestChain.Payment
