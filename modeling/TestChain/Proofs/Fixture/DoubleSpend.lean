import TestChain.Proofs.Block.Conflicts
import TestChain.Proofs.Fixture.Payment

/-! When double spends are caught.

The two payments of a double spend take their one output from the same feeder, so whether a block
may hold both comes down to whether they are one payment. They differ in whom they pay and in
nothing else, although the second gets its output after its input: paid to the cheat's own address
the first is the second, and no block is refused for holding it twice
(`Payment.doubleSpend_caught`). -/
namespace TestChain.Payment

/-- The payment of a cheat's coin to an address. -/
def loot (cheat payee : Address) : Tx :=
  bare [feeder (.toAddress Money.coin cheat)] .empty [.toAddress Money.coin payee]

variable {payee payee' cheat : Address}

theorem canonical_loot (cheat payee : Address) : (loot cheat payee).Canonical :=
  (sound_plain Money.coin payee _).canonical

theorem spent_loot (cheat payee : Address) :
    (loot cheat payee).spent = [(feeder (.toAddress Money.coin cheat)).outPoint 0] := spent_bare

theorem loot_inj : loot cheat payee = loot cheat payee' ↔ payee = payee' := by
  refine ⟨fun h => ?_, congrArg (loot cheat)⟩
  have houtputs : [TxOutput.toAddress Money.coin payee] = [.toAddress Money.coin payee'] :=
    congrArg Tx.outputs h
  exact (toAddress_inj.1 (List.cons.inj houtputs).1).1

/-- One payment twice is no double spend. -/
theorem checkDoubleSpends_loot_self {b : Block}
    (h : b.payments = [loot cheat payee, loot cheat payee]) : b.checkDoubleSpends = .ok () :=
  (Block.checkDoubleSpends_pair h).2 (.inl rfl)

/-- Payments to two addresses are reported, unless they collide. -/
theorem checkDoubleSpends_loot {b : Block} (h : b.payments = [loot cheat payee, loot cheat payee'])
    (hne : payee ≠ payee') :
    b.checkDoubleSpends = .error (.doubleSpend ((feeder (.toAddress Money.coin cheat)).outPoint 0)
        (loot cheat payee).txid (loot cheat payee').txid) ∨
      Collision (loot cheat payee).preimage (loot cheat payee').preimage := by
  by_cases htxid : (loot cheat payee).txid = (loot cheat payee').txid
  · right
    refine (((canonical_loot cheat payee).txid_eq_iff (canonical_loot cheat payee')).1
      htxid).resolve_left fun hsame => hne (loot_inj.1 hsame)
  · left
    exact Block.checkDoubleSpends_clash h (spent_loot cheat payee) (spent_loot cheat payee') htxid

/-- **Double spends are caught just when the cheat is not the payee.** Both payments spend the first
output of the feeder and nothing else, and they say the same just when they pay one address. In a
block of the two, in either order, the output is reported with both of them when they pay two,
unless they collide, and nothing is reported when they pay one. -/
theorem doubleSpend_caught (payee cheat : Address) :
    ∃ spends, doubleSpend payee cheat = .ok spends ∧
      spends.first.spent = [spends.previous.outPoint 0] ∧
      spends.second.spent = [spends.previous.outPoint 0] ∧
      (spends.first.SameContent spends.second ↔ payee = cheat) ∧
      ∀ (b : Block) (s t : Tx), b.payments = [s, t] →
        (s = spends.first ∧ t = spends.second ∨ s = spends.second ∧ t = spends.first) →
        (payee = cheat → b.checkDoubleSpends = .ok ()) ∧
        (payee ≠ cheat →
          b.checkDoubleSpends =
              .error (.doubleSpend (spends.previous.outPoint 0) s.txid t.txid) ∨
            Collision spends.first.preimage spends.second.preimage) := by
  refine ⟨_, doubleSpend_eq payee cheat, spent_loot cheat payee, spent_loot cheat cheat, ?_, ?_⟩
  · exact ((canonical_loot cheat payee).sameContent_iff (canonical_loot cheat cheat)).trans loot_inj
  · rintro b s t hpayments (⟨rfl, rfl⟩ | ⟨rfl, rfl⟩)
    · refine ⟨?_, checkDoubleSpends_loot hpayments⟩
      rintro rfl
      exact checkDoubleSpends_loot_self hpayments
    · refine ⟨?_, fun hne => (checkDoubleSpends_loot hpayments hne.symm).imp_right ?_⟩
      · rintro rfl
        exact checkDoubleSpends_loot_self hpayments
      · exact fun h => ⟨h.1.symm, h.2.symm⟩

/-- A payee who is the cheat: the payments are one, and the block that holds it twice passes. -/
theorem doubleSpend_caught_self :
    let cheat : Address := ⟨.unittest, .zero 20⟩
    ∃ spends, doubleSpend cheat cheat = .ok spends ∧ spends.first.SameContent spends.second ∧
      ∀ b : Block, b.payments = [spends.first, spends.second] → b.checkDoubleSpends = .ok () := by
  intro cheat
  obtain ⟨spends, hmade, -, -, hsame, hcaught⟩ := doubleSpend_caught cheat cheat
  exact ⟨spends, hmade, hsame.2 rfl, fun b hb => (hcaught b _ _ hb (.inl ⟨rfl, rfl⟩)).1 rfl⟩

end TestChain.Payment
