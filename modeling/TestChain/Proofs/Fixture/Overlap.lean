import TestChain.Proofs.Block.Conflicts
import TestChain.Proofs.Block.Merkle
import TestChain.Proofs.Fixture.Payment

/-! When payments spend one output, and when they are one payment.

The feeders of a payment are made anew each time, and from a part only of what the payment is made
from. So payments that are asked for apart may come to spend one output: payments with change do
when they pay one value to one address, whoever gets the change, and a split payment shares its
first feeder with a payment with change of just the first part (`Payment.Order.Overlaps`). Whether
payments are the same is another matter, since the change shows and so does the value
(`Payment.Order.Same`).

All of this is read off the feeders and outputs of the two payments, which the hash has to tell
apart. As long as it does, a block of two payments is refused just when they overlap and are not the
same (`Payment.Order.overlaps_exact`). -/
namespace TestChain

/-- Lists are told apart by a function that tells their items apart. -/
theorem map_eq_map_iff_of_inj {α β : Type} {f : α → β} {xs ys : List α}
    (h : ∀ x ∈ xs, ∀ y ∈ ys, f x = f y → x = y) : xs.map f = ys.map f ↔ xs = ys := by
  refine ⟨fun hmap => ?_, congrArg (List.map f)⟩
  induction xs generalizing ys with
  | nil => exact (List.map_eq_nil_iff.1 hmap.symm).symm
  | cons x xs ih =>
    obtain ⟨y, ys, rfl, hhead, htail⟩ := List.map_eq_cons_iff.1 hmap.symm
    rw [h x List.mem_cons_self y List.mem_cons_self hhead.symm, ih (fun x' hx' y' hy' =>
      h x' (List.mem_cons_of_mem _ hx') y' (List.mem_cons_of_mem _ hy')) htail.symm]

namespace Payment

/-- What a payment to an address is made from. -/
inductive Order
  | withChange (value : UInt64) (payee change : Address)
  | split (value : UInt64) (payee : Address) (draw : Int64)

namespace Order

/-- The payment that is asked for. -/
def make : Order → Except ChainError Tx
  | withChange value payee change => Payment.withChange value payee change
  | split value payee draw => Payment.split value payee draw

/-- The transactions that are made for it to spend. -/
def feeders : Order → List Tx
  | withChange value payee _ => [feeder (.toAddress value payee)]
  | split value payee draw => [(splitFeeders value payee draw).1, (splitFeeders value payee draw).2]

/-- What it pays. -/
def outputs : Order → List TxOutput
  | withChange value payee change => [.toAddress value payee, .toAddress changeValue change]
  | split value payee _ => [.toAddress value payee]

/-- The payments spend one output. -/
def Overlaps : Order → Order → Prop
  | withChange value payee _, withChange value' payee' _ => payee = payee' ∧ value = value'
  | withChange value payee _, split value' payee' draw' =>
    payee = payee' ∧ value = Split.first value' draw'
  | split value payee draw, withChange value' payee' _ =>
    payee = payee' ∧ Split.first value draw = value'
  | split value payee draw, split value' payee' draw' =>
    payee = payee' ∧ (Split.first value draw = Split.first value' draw' ∨
      value - Split.first value draw = value' - Split.first value' draw')

/-- The payments are one payment. -/
def Same : Order → Order → Prop
  | withChange value payee change, withChange value' payee' change' =>
    payee = payee' ∧ value = value' ∧ change = change'
  | split value payee draw, split value' payee' draw' =>
    payee = payee' ∧ value = value' ∧ Split.first value draw = Split.first value' draw'
  | withChange .., split .. => False
  | split .., withChange .. => False

/-- The payment as it comes back from the wire. -/
def payment (o : Order) : Tx := bare o.feeders .placeholder o.outputs

theorem make_eq (o : Order) : o.make = .ok o.payment := by
  cases o with
  | withChange value payee change => exact withChange_eq value payee change
  | split value payee draw => exact split_eq value payee draw

/-- The payment and its feeders. -/
def involved (o : Order) : List Tx := o.payment :: o.feeders

/-! ### What the hash has to tell apart -/

theorem canonical_payment (o : Order) : o.payment.Canonical := by
  cases o with
  | withChange value payee change =>
    exact (sound_withChange value payee change _
      (Nat.le_of_eq UnlockScript.size_placeholder)).canonical
  | split value payee draw => exact (sound_split value payee _ _).canonical

theorem canonical_of_mem_feeders {o : Order} {tx : Tx} (h : tx ∈ o.feeders) : tx.Canonical := by
  cases o with
  | withChange value payee change =>
    rw [List.mem_singleton.1 h]
    exact canonical_marked value payee 0
  | split value payee draw =>
    obtain ⟨hfirst, hsecond⟩ := canonical_splitFeeders value payee draw
    rcases List.mem_pair.1 h with rfl | rfl
    · exact hfirst
    · exact hsecond

theorem canonical_of_mem_involved {o : Order} {tx : Tx} (h : tx ∈ o.involved) : tx.Canonical := by
  rcases List.mem_cons.1 h with rfl | h
  · exact o.canonical_payment
  · exact canonical_of_mem_feeders h

/-- What is hashed to make two payments. -/
def hashed (o o' : Order) : List Bytes := (o.involved ++ o'.involved).map Tx.preimage

variable {o o' : Order} {a b : Tx}

/-- Of two payments and their feeders, only equal ones have equal identities. -/
theorem txid_eq_iff (h : TellsApart (hashed o o')) (ha : a ∈ o.involved) (hb : b ∈ o'.involved) :
    a.txid = b.txid ↔ a = b := by
  have ha' : a.preimage ∈ hashed o o' := List.mem_map_of_mem (List.mem_append_left _ ha)
  have hb' : b.preimage ∈ hashed o o' := List.mem_map_of_mem (List.mem_append_right _ hb)
  rw [(canonical_of_mem_involved ha).txid_eq_iff (canonical_of_mem_involved hb)]
  exact or_iff_left (h.not_collision _ ha' _ hb')

/-! ### Feeders -/

theorem overlaps_iff_feeders : o.Overlaps o' ↔ ∃ f ∈ o.feeders, f ∈ o'.feeders := by
  cases o with
  | withChange value payee change =>
    cases o' with
    | withChange value' payee' change' => simp [Overlaps, feeders, feeder_eq, marked_inj]
    | split value' payee' draw' =>
      simp [Overlaps, feeders, feeder_eq, splitFeeders_eq, marked_inj]
  | split value payee draw =>
    cases o' with
    | withChange value' payee' change' =>
      simp [Overlaps, feeders, feeder_eq, splitFeeders_eq, marked_inj, eq_comm]
    | split value' payee' draw' =>
      -- The lock times keep a first feeder from being a second one, so two cases of four are left.
      have hfeeders : (∃ f ∈ (split value payee draw).feeders,
          f ∈ (split value' payee' draw').feeders) ↔
          payee = payee' ∧ Split.first value draw = Split.first value' draw' ∨
            payee = payee' ∧
              value - Split.first value draw = value' - Split.first value' draw' := by
        simp [feeders, splitFeeders_eq, marked_inj]
      rw [hfeeders, ← and_or_left, Overlaps]

theorem same_iff_feeders : o.Same o' ↔ o.feeders = o'.feeders ∧ o.outputs = o'.outputs := by
  cases o with
  | withChange value payee change =>
    cases o' with
    | withChange value' payee' change' =>
      simp only [Same, feeders, outputs, feeder_eq, List.cons.injEq, marked_inj, toAddress_inj,
        and_true]
      exact ⟨fun ⟨hpayee, hvalue, hchange⟩ => ⟨⟨hpayee, hvalue⟩, ⟨hpayee, hvalue⟩, hchange⟩,
        fun ⟨⟨hpayee, hvalue⟩, _, hchange⟩ => ⟨hpayee, hvalue, hchange⟩⟩
    | split value' payee' draw' => simp [Same, feeders]
  | split value payee draw =>
    cases o' with
    | withChange value' payee' change' => simp [Same, feeders]
    | split value' payee' draw' =>
      simp only [Same, feeders, outputs, splitFeeders_eq, List.cons.injEq, marked_inj,
        toAddress_inj, and_true]
      constructor
      · rintro ⟨rfl, rfl, hfirst⟩
        exact ⟨⟨⟨rfl, hfirst⟩, rfl, by rw [hfirst]⟩, rfl, rfl⟩
      · rintro ⟨⟨⟨-, hfirst⟩, -⟩, hpayee, hvalue⟩
        exact ⟨hpayee, hvalue, hfirst⟩

/-! ### Two payments -/

/-- Payments share an output when they share a feeder. -/
theorem exists_spent_iff (h : TellsApart (hashed o o')) :
    (∃ out ∈ o.payment.spent, out ∈ o'.payment.spent) ↔ o.Overlaps o' := by
  rw [overlaps_iff_feeders, payment, payment, spent_bare, spent_bare]
  constructor
  · rintro ⟨out, hout, hout'⟩
    obtain ⟨f, hf, rfl⟩ := List.mem_map.1 hout
    obtain ⟨f', hf', hsame⟩ := List.mem_map.1 hout'
    have htxid : f.txid = f'.txid := (outPoint_inj.1 hsame).symm
    obtain rfl := (txid_eq_iff h (List.mem_cons_of_mem _ hf) (List.mem_cons_of_mem _ hf')).1 htxid
    exact ⟨f, hf, hf'⟩
  · rintro ⟨f, hf, hf'⟩
    exact ⟨f.outPoint 0, List.mem_map_of_mem hf, List.mem_map_of_mem hf'⟩

theorem payment_txid_eq_iff (h : TellsApart (hashed o o')) :
    o.payment.txid = o'.payment.txid ↔ o.Same o' := by
  rw [txid_eq_iff h List.mem_cons_self List.mem_cons_self, same_iff_feeders]
  refine ⟨fun hsame => ?_, fun ⟨hfeeders, houtputs⟩ => by rw [payment, payment, hfeeders, houtputs]⟩
  -- A payment names its feeders by their identities only, and these tell the feeders apart.
  have hspent : o.feeders.map (·.outPoint 0) = o'.feeders.map (·.outPoint 0) := by
    rw [← spent_bare, ← spent_bare]
    exact congrArg Tx.spent hsame
  refine ⟨(map_eq_map_iff_of_inj fun f hf f' hf' hout => ?_).1 hspent, congrArg Tx.outputs hsame⟩
  exact (txid_eq_iff h (List.mem_cons_of_mem _ hf) (List.mem_cons_of_mem _ hf')).1
    (outPoint_inj.1 hout)

/-- **When payments overlap and when they are the same.** Two payments are always made; and unless
two different strings among those that are hashed to make them collide, they spend one output just
when they overlap, they have one identity just when they are the same, and a block of the two passes
the check for double spends just when they have one identity or do not overlap. -/
theorem overlaps_exact (o o' : Order) :
    ∃ tx tx', o.make = .ok tx ∧ o'.make = .ok tx' ∧
      ((∃ s ∈ hashed o o', ∃ t ∈ hashed o o', Collision s t) ∨
        ((∃ out ∈ tx.spent, out ∈ tx'.spent) ↔ o.Overlaps o') ∧
        (tx.txid = tx'.txid ↔ o.Same o') ∧
        ∀ b : Block, b.payments = [tx, tx'] →
          (b.checkDoubleSpends = .ok () ↔ tx.txid = tx'.txid ∨ ¬o.Overlaps o')) := by
  refine ⟨_, _, o.make_eq, o'.make_eq, ?_⟩
  rcases tellsApart_or_collision (hashed o o') with h | h
  · refine .inr ⟨exists_spent_iff h, payment_txid_eq_iff h, fun b hb => ?_⟩
    rw [Block.checkDoubleSpends_pair hb, ← exists_spent_iff h]
    refine or_congr_right ⟨fun hdisjoint ⟨out, hout, hout'⟩ => hdisjoint hout hout', ?_⟩
    exact fun hnone out hout hout' => hnone ⟨out, hout, hout'⟩
  · exact .inl h

/-- Payments with change of one value to one address are made from one feeder. -/
theorem hashed_withChange (value : UInt64) (payee change change' : Address) :
    hashed (withChange value payee change) (withChange value payee change') ⊆
      [feeder (.toAddress value payee), (withChange value payee change).payment,
        (withChange value payee change').payment].map Tx.preimage := by
  intro s hs
  obtain ⟨tx, htx, rfl⟩ := List.mem_map.1 hs
  refine List.mem_map_of_mem ?_
  simp only [involved, feeders, List.cons_append, List.nil_append, List.mem_cons] at htx ⊢
  tauto

/-- The strings that are hashed to pay a coin twice to one address, with change to two. -/
theorem tellsApart_change :
    let payee : Address := ⟨.unittest, .zero 20⟩
    TellsApart ([feeder (.toAddress Money.coin payee),
      (withChange Money.coin payee payee).payment,
      (withChange Money.coin payee ⟨.mainnet, .zero 20⟩).payment].map Tx.preimage) :=
  tellsApart_of_nodup (by decide +kernel)

/-- A coin paid twice to one address, with change to two: behind a coinbase the payments are
refused, though nobody meant them to spend one output. -/
theorem overlaps_exact_change :
    let payee : Address := ⟨.unittest, .zero 20⟩
    let o := withChange Money.coin payee payee
    let o' := withChange Money.coin payee ⟨.mainnet, .zero 20⟩
    let b : Block := ⟨⟨1, .zero, .zero, 0, 0, 0⟩, [Block.leastCoinbase, o.payment, o'.payment]⟩
    o.payment.txid ≠ o'.payment.txid ∧ b.checkDoubleSpends ≠ .ok () := by
  intro payee o o' b
  obtain ⟨tx, tx', htx, htx', h⟩ := overlaps_exact o o'
  obtain rfl := Except.ok.inj (o.make_eq.symm.trans htx)
  obtain rfl := Except.ok.inj (o'.make_eq.symm.trans htx')
  have hapart := (tellsApart_change.mono (hashed_withChange ..)).not_collision
  obtain ⟨-, hsame, hcheck⟩ :=
    h.resolve_left fun ⟨s, hs, t, ht, hcollision⟩ => hapart s hs t ht hcollision
  have hdiffer : o.payment.txid ≠ o'.payment.txid := by
    rw [Ne, hsame]
    rintro ⟨-, -, hchange⟩
    have hnetwork : Network.unittest = .mainnet := congrArg Address.network hchange
    cases hnetwork
  have hcoinbase : Block.leastCoinbase.isCoinbase = true := rfl
  have hpayments : b.payments = [o.payment, o'.payment] :=
    Block.payments_of_cons rfl hcoinbase (List.forall_mem_cons.2
      ⟨isCoinbase_bare, List.forall_mem_singleton.2 isCoinbase_bare⟩)
  refine ⟨hdiffer, fun hpass => ?_⟩
  exact ((hcheck b hpayments).1 hpass).elim hdiffer fun hnone => hnone ⟨rfl, rfl⟩

end Order

end Payment

end TestChain
