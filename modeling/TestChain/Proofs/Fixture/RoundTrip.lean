import TestChain.Fixture.Basic
import TestChain.Proofs.Block.Bytes
import TestChain.Proofs.Tx.Identity

/-! Round trips through the wire.

A round trip takes away just what the holder knows, or fails because the item is too large to be
written; there is no third outcome. What comes back has the identity, the hash and the written form
of what went in, so it compares equal, and it is a fixed point: another round trip changes nothing.

Transactions and blocks go through the wire in one way (`Wire.Passes`), so the outcome is settled
once for both; what each keeps beside its written form is added to it. -/
namespace TestChain

open Wire (Reader Reads)

/-! ### Through the wire and back -/

namespace Wire

/-- A kind of item that is read back as it is written, less what is stripped from it: stripping does
not show in the written form, takes everything away at once, and leaves a value that the reader
takes whenever the item is within its limit. -/
structure Passes (item : Item) (reader : Reader α) (write : α → Bytes) (strip : α → α) : Prop where
  reads : ∃ good, Reads reader good write ∧ ∀ a, (write a).length ≤ item.limit → good (strip a)
  write_strip : ∀ a, write (strip a) = write a
  strip_strip : ∀ a, strip (strip a) = strip a

/-- Going on with the bytes of an item, if they are within the limit. -/
theorem Item.bounded_bind (item : Item) (bs : Bytes) (f : Bytes → Except ChainError α) :
    item.bounded bs >>= f =
      if bs.length ≤ item.limit then f bs else .error (.encoding item) := by
  unfold bounded
  split <;> rfl

namespace Passes
variable {item : Item} {reader : Reader α} {write : α → Bytes} {strip : α → α}

/-- What is written reads back stripped. -/
theorem readAll_of_bounded (h : Passes item reader write strip) {a : α} {bs : Bytes}
    (e : item.bounded (write a) = .ok bs) : item.readAll reader bs = .ok (strip a) := by
  obtain ⟨hlimit, rfl⟩ := Item.bounded_eq_ok.1 e
  obtain ⟨good, hreads, hgood⟩ := h.reads
  exact (Item.readAll_eq_ok hreads).2 ⟨hgood a hlimit, (h.write_strip a).symm⟩

theorem bind_eq (h : Passes item reader write strip) (a : α) :
    item.bounded (write a) >>= item.readAll reader =
      if (write a).length ≤ item.limit then .ok (strip a) else .error (.encoding item) := by
  rw [Item.bounded_bind]
  split
  next hlimit => exact h.readAll_of_bounded (Item.bounded_eq_ok.2 ⟨hlimit, rfl⟩)
  next => rfl

/-- What comes back is the stripped value, and comes back from another round trip. -/
theorem of_bind_eq_ok (h : Passes item reader write strip) {a copy : α}
    (e : item.bounded (write a) >>= item.readAll reader = .ok copy) :
    copy = strip a ∧ item.bounded (write copy) >>= item.readAll reader = .ok copy := by
  rw [h.bind_eq] at e
  split at e
  next hlimit =>
    cases e
    refine ⟨rfl, ?_⟩
    rw [h.bind_eq, h.write_strip, if_pos hlimit, h.strip_strip]
  next => cases e

end Passes

end Wire

/-! ### Transactions -/

namespace Tx

theorem passes : Wire.Passes .transaction read encode strip where
  reads := ⟨_, reads, fun tx h => ⟨lengthsFit_strip.2 (lengthsFit_of_encode h), isBare_strip tx⟩⟩
  write_strip := encode_strip
  strip_strip tx := strip_of_isBare (isBare_strip tx)

theorem beq_strip (tx : Tx) : (tx.strip == tx) = true := decide_eq_true (txid_strip tx)

/-- What is within the limit comes back stripped. -/
theorem roundTrip_of_size {tx : Tx} (h : tx.size ≤ Wire.Item.transaction.limit) :
    tx.roundTrip = .ok tx.strip := by
  rw [← length_encode] at h
  exact (passes.bind_eq tx).trans (if_pos h)

/-- What a round trip leaves of a transaction. -/
theorem roundTrip_keeps {tx copy : Tx} (h : tx.roundTrip = .ok copy) :
    copy = tx.strip ∧ copy.txid = tx.txid ∧ copy.encode = tx.encode ∧ (copy == tx) = true ∧
      copy.roundTrip = .ok copy := by
  obtain ⟨rfl, hagain⟩ := passes.of_bind_eq_ok h
  exact ⟨rfl, txid_strip tx, encode_strip tx, beq_strip tx, hagain⟩

end Tx

/-! ### Blocks -/

namespace Block

theorem passes : Wire.Passes .block read encode strip where
  reads := ⟨_, reads, fun b h => ⟨lengthsFit_strip.2 (lengthsFit_of_encode h), isBare_strip b⟩⟩
  write_strip := encode_strip
  strip_strip b := strip_of_isBare (isBare_strip b)

theorem txids_strip (b : Block) :
    b.strip.transactions.map Tx.txid = b.transactions.map Tx.txid := by
  rw [strip, List.map_map]
  exact List.map_congr_left fun tx _ => Tx.txid_strip tx

/-- Stripped transactions compare equal to those they come from, one by one. -/
theorem beq_map_strip (txs : List Tx) : (txs.map Tx.strip == txs) = true := by
  induction txs with
  | nil => rfl
  | cons tx txs ih =>
    rw [List.map_cons, List.cons_beq_cons, Tx.beq_strip, ih]
    rfl

theorem beq_strip (b : Block) : (b.strip == b) = true := by
  show (decide (b.header = b.header) && b.transactions.map Tx.strip == b.transactions) = true
  rw [beq_map_strip, decide_eq_true rfl]
  rfl

/-- What a round trip leaves of a block. -/
theorem roundTrip_keeps {b copy : Block} (h : b.roundTrip = .ok copy) :
    copy = b.strip ∧ copy.hash = b.hash ∧
      copy.transactions.map Tx.txid = b.transactions.map Tx.txid ∧ copy.encode = b.encode ∧
      (copy == b) = true ∧ copy.roundTrip = .ok copy := by
  obtain ⟨rfl, hagain⟩ := passes.of_bind_eq_ok h
  exact ⟨rfl, rfl, txids_strip b, encode_strip b, beq_strip b, hagain⟩

end Block

/-- **A round trip takes away what the holder knows and nothing else.** What is written reads back
stripped. A round trip ends in the stripped value when the written form is within the limit, and
else in the error of its encoding; its result keeps identities, hash and written form, compares
equal to the original, and is what another round trip gives. -/
theorem roundTrip_eq_strip :
    (∀ tx : Tx, (∀ bs, tx.toBytes = .ok bs → Tx.ofBytes bs = .ok tx.strip) ∧
      (tx.roundTrip = if tx.encode.length ≤ Wire.Item.transaction.limit then .ok tx.strip
        else .error (.encoding .transaction)) ∧
      ∀ copy, tx.roundTrip = .ok copy →
        copy = tx.strip ∧ copy.txid = tx.txid ∧ copy.encode = tx.encode ∧ (copy == tx) = true ∧
          copy.roundTrip = .ok copy) ∧
    ∀ b : Block, (∀ bs, b.toBytes = .ok bs → Block.ofBytes bs = .ok b.strip) ∧
      (b.roundTrip = if b.encode.length ≤ Wire.Item.block.limit then .ok b.strip
        else .error (.encoding .block)) ∧
      ∀ copy, b.roundTrip = .ok copy →
        copy = b.strip ∧ copy.hash = b.hash ∧
          copy.transactions.map Tx.txid = b.transactions.map Tx.txid ∧ copy.encode = b.encode ∧
          (copy == b) = true ∧ copy.roundTrip = .ok copy := by
  refine ⟨fun tx => ⟨fun bs h => ?_, Tx.passes.bind_eq tx, fun copy h => Tx.roundTrip_keeps h⟩,
    fun b => ⟨fun bs h => ?_, Block.passes.bind_eq b, fun copy h => Block.roundTrip_keeps h⟩⟩
  · exact Tx.passes.readAll_of_bounded h
  · exact Block.passes.readAll_of_bounded h

/-- A coinbase heard of from the network, alone and in a block. -/
theorem roundTrip_eq_strip_coinbase :
    let tx : Tx := { Tx.coinbase (some 1) [7] with provenance := .network }
    let b : Block := ⟨⟨0, .zero, .zero, 0, 0, 0⟩, [tx]⟩
    tx.roundTrip = .ok (.coinbase (some 1) [7]) ∧
      b.roundTrip = .ok { b with transactions := [.coinbase (some 1) [7]] } ∧
      (Tx.coinbase (some 1) [7] == tx) = true := by
  intro tx b
  have htx : tx.roundTrip = .ok (.coinbase (some 1) [7]) := by
    rw [(roundTrip_eq_strip.1 tx).2.1, if_pos (by decide)]
    rfl
  refine ⟨htx, ?_, ((roundTrip_eq_strip.1 tx).2.2 _ htx).2.2.2.1⟩
  rw [(roundTrip_eq_strip.2 b).2.1, if_pos (by decide +kernel)]
  rfl

end TestChain
