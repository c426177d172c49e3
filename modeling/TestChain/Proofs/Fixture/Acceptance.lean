import Mathlib.Algebra.Ring.Nat
import TestChain.Proofs.Fixture.Knowledge

/-! Transactions that pass the size check are those that can be written.

The size that is checked is counted without writing, under no limit; the writer counts under its own
limit before it writes. Both come to the length of the written form, which a few numbers settle
(`Tx.encode_length_eq_widths`), and the limits are the same, so the check and the writer refuse the
same transactions (`Tx.sizes_agree`). What comes back of an accepted transaction is accepted again.
-/
namespace TestChain

theorem Wire.listSize_eq_sum {α : Type} (size : α → Nat) (xs : List α) :
    listSize size xs = 8 + (xs.map size).sum := by
  rw [listSize, List.sum, List.foldr_map]

/-- The bytes that an input adds to a transaction: an outpoint, a script and a sequence number. -/
def TxInput.width (i : TxInput) : Nat :=
  match i.script with
  | .empty => 44
  | .signature s => 56 + s.bytes.length
  | .coinbase none extra => 53 + extra.length
  | .coinbase (some _) extra => 57 + extra.length

/-- The bytes that an output adds to a transaction: a value and a script. -/
def TxOutput.width (o : TxOutput) : Nat :=
  match o.script with
  | .payToAddress _ => 36
  | .payToKey publicKey => 20 + publicKey.length

theorem TxInput.size_eq_width (i : TxInput) : i.size = i.width := by
  obtain ⟨previous, script, sequence, connected⟩ := i
  cases script with
  | empty => rfl
  | signature s =>
    simp only [size, UnlockScript.size, width]
    omega
  | coinbase height extra =>
    cases height <;> simp only [size, UnlockScript.size, width] <;> omega

theorem TxOutput.size_eq_width (o : TxOutput) : o.size = o.width := by
  obtain ⟨value, script⟩ := o
  cases script with
  | payToAddress a => rfl
  | payToKey publicKey =>
    simp only [size, LockScript.size, width]
    omega

namespace Tx

theorem encode_length_eq_widths (tx : Tx) : tx.encode.length =
    24 + (tx.inputs.map TxInput.width).sum + (tx.outputs.map TxOutput.width).sum := by
  rw [length_encode, size, Wire.listSize_eq_sum, Wire.listSize_eq_sum,
    funext TxInput.size_eq_width, funext TxOutput.size_eq_width]
  omega

theorem sizeWithin?_none (tx : Tx) : tx.sizeWithin? none = some tx.encode.length := by
  rw [length_encode]
  rfl

theorem sizeWithin?_some (limit : Nat) (tx : Tx) : tx.sizeWithin? (some limit) =
    if tx.encode.length ≤ limit then some tx.encode.length else none := by
  rw [length_encode, sizeWithin?]
  simp only [Option.all_some, decide_eq_true_eq]

/-- The writer gives up just when its count does. -/
theorem toBytes_eq_sizeWithin? (tx : Tx) :
    tx.toBytes = match tx.sizeWithin? (some Wire.Item.transaction.limit) with
      | none => .error (.encoding .transaction)
      | some _ => .ok tx.encode := by
  rw [toBytes, Wire.Item.bounded, sizeWithin?_some]
  split <;> rfl

theorem validateSize_eq_ok_iff_toBytes {tx : Tx} :
    tx.validateSize = .ok () ↔ ∃ bs, tx.toBytes = .ok bs := by
  rw [validateSize_eq_ok_iff, ← length_encode]
  constructor
  · intro h
    exact ⟨tx.encode, Wire.Item.bounded_eq_ok.2 ⟨h, rfl⟩⟩
  · rintro ⟨bs, h⟩
    exact (Wire.Item.bounded_eq_ok.1 h).1

/-- What comes back of a transaction that passes its checks passes them too. -/
theorem exists_roundTrip_of_checkStructure {tx : Tx} (h : tx.checkStructure = .ok ()) :
    ∃ copy, tx.roundTrip = .ok copy ∧ copy.checkStructure = .ok () := by
  obtain ⟨-, -, hsize, -⟩ := checkStructure_eq_ok_iff.1 h
  exact ⟨tx.strip, roundTrip_of_size (validateSize_eq_ok_iff.1 hsize),
    (checkStructure_strip tx).trans h⟩

/-- **The size check and the writer agree.** The count under no limit is the length of the written
form, which is `24` and the widths of the inputs and outputs. Under a limit it is that length again
or is given up; the writer counts under its own limit and writes nothing when that is given up. So a
transaction passes the size check just when it can be written, and one that passes all its checks
comes back from the wire as one that does. -/
theorem sizes_agree (tx : Tx) :
    tx.encode.length =
      24 + (tx.inputs.map TxInput.width).sum + (tx.outputs.map TxOutput.width).sum ∧
    tx.sizeWithin? none = some tx.encode.length ∧
    (∀ limit, tx.sizeWithin? (some limit) =
      if tx.encode.length ≤ limit then some tx.encode.length else none) ∧
    (tx.toBytes = match tx.sizeWithin? (some Wire.Item.transaction.limit) with
      | none => .error (.encoding .transaction)
      | some _ => .ok tx.encode) ∧
    (tx.validateSize = .ok () ↔ ∃ bs, tx.toBytes = .ok bs) ∧
    (tx.checkStructure = .ok () →
      ∃ copy, tx.roundTrip = .ok copy ∧ copy.checkStructure = .ok ()) :=
  ⟨encode_length_eq_widths tx, sizeWithin?_none tx, fun limit => sizeWithin?_some limit tx,
    toBytes_eq_sizeWithin? tx, validateSize_eq_ok_iff_toBytes, exists_roundTrip_of_checkStructure⟩

/-- A payment that is as large as a transaction may be passes the check and is written. One more byte
is too many for both. -/
theorem sizes_agree_limit :
    let paying (n : Nat) : Tx := Block.keyPayment (List.replicate n 0) ⟨.zero, 0⟩
    let full := paying (Wire.Item.transaction.limit - 88)
    let beyond := paying (Wire.Item.transaction.limit - 87)
    full.sizeWithin? none = some Wire.Item.transaction.limit ∧ full.validateSize = .ok () ∧
      (∃ bs, full.toBytes = .ok bs) ∧
      (∃ copy, full.roundTrip = .ok copy ∧ copy.checkStructure = .ok ()) ∧
      beyond.validateSize ≠ .ok () ∧ beyond.toBytes = .error (.encoding .transaction) := by
  intro paying full beyond
  have hsize : full.size = Wire.Item.transaction.limit := by
    rw [Block.size_keyPayment, List.length_replicate]
    rfl
  have hbeyond : beyond.size = Wire.Item.transaction.limit + 1 := by
    rw [Block.size_keyPayment, List.length_replicate]
    rfl
  have hfull : full.checkStructure = .ok () := by
    refine Block.checkStructure_keyPayment (by decide) ?_
    rw [List.length_replicate]
    decide
  obtain ⟨-, hcount, -, -, hiff, htrip⟩ := sizes_agree full
  have hvalid : full.validateSize = .ok () := validateSize_eq_ok_iff.2 (Nat.le_of_eq hsize)
  have hlarge : ¬beyond.size ≤ Wire.Item.transaction.limit := by omega
  refine ⟨by rw [hcount, length_encode, hsize], hvalid, hiff.1 hvalid, htrip hfull,
    fun h => hlarge (validateSize_eq_ok_iff.1 h), ?_⟩
  rw [(sizes_agree beyond).2.2.2.1, sizeWithin?_some, length_encode, if_neg hlarge]

end Tx

end TestChain
