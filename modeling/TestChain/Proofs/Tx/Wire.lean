import TestChain.Proofs.Wire.Reads
import TestChain.Tx.Wire

/-! The transaction format, read exactly.

`Tx.reads` says what the reader of transactions takes: the written forms of bare transactions whose
lengths fit, and nothing else. A transaction is bare when it carries nothing of what its holder
knows; `Tx.strip` makes it so without a change to what is written. Below the limit of a transaction,
or of a block, no length is too large to be written (`Tx.lengthsFit`). -/
namespace TestChain

open Wire (Reader Reads FitsCount)

/-! ### Transactions that can be written and read -/

/-- Every byte string in the script is short enough to be counted. -/
def LockScript.LengthsFit : LockScript → Prop
  | payToAddress _ => True
  | payToKey publicKey => FitsCount publicKey

/-- Every byte string in the script is short enough to be counted. -/
def UnlockScript.LengthsFit : UnlockScript → Prop
  | empty => True
  | signature s => FitsCount s.bytes
  | coinbase _ extra => FitsCount extra

namespace Tx

/-- Every list and every byte string of the transaction is short enough to be counted. -/
structure LengthsFit (tx : Tx) : Prop where
  inputs : FitsCount tx.inputs
  unlocks : ∀ i ∈ tx.inputs, i.script.LengthsFit
  outputs : FitsCount tx.outputs
  locks : ∀ o ∈ tx.outputs, o.script.LengthsFit

/-- Nothing but what the transaction says: no copies of outputs, and heard of nowhere. -/
structure IsBare (tx : Tx) : Prop where
  inputs : ∀ i ∈ tx.inputs, i.connected = none
  provenance : tx.provenance = .unknown

theorem isBare_strip (tx : Tx) : tx.strip.IsBare := by
  refine ⟨fun i hi => ?_, rfl⟩
  obtain ⟨j, -, rfl⟩ := List.mem_map.1 hi
  rfl

theorem strip_of_isBare {tx : Tx} (h : tx.IsBare) : tx.strip = tx := by
  obtain ⟨version, inputs, outputs, lockTime, provenance⟩ := tx
  obtain ⟨hinputs, rfl⟩ := h
  have hmap : inputs.map TxInput.strip = inputs := by
    rw [List.map_congr_left (g := id), List.map_id]
    intro i hi
    have hi' : i.connected = none := hinputs i hi
    simp only [TxInput.strip, ← hi', id]
  simp only [strip, hmap]

theorem lengthsFit_strip {tx : Tx} : tx.strip.LengthsFit ↔ tx.LengthsFit := by
  constructor
  · intro hparts
    obtain ⟨hi, hu, ho, hl⟩ := hparts
    refine ⟨by simpa [FitsCount, strip] using hi, fun i hi => ?_, ho, hl⟩
    exact hu i.strip (List.mem_map_of_mem hi)
  · intro hparts
    obtain ⟨hi, hu, ho, hl⟩ := hparts
    refine ⟨by simpa [FitsCount, strip] using hi, fun i hi => ?_, ho, hl⟩
    obtain ⟨j, hj, rfl⟩ := List.mem_map.1 hi
    exact hu j hj

/-- What the holder knows is not written. -/
@[simp] theorem encode_strip (tx : Tx) : tx.strip.encode = tx.encode := by
  have h : tx.strip.inputs.flatMap TxInput.encode = tx.inputs.flatMap TxInput.encode := by
    rw [strip, List.flatMap_map]
    rfl
  simp only [encode, Wire.list, h]
  simp only [strip, List.length_map]

end Tx

/-! ### Readers of the parts -/

theorem Network.reads : Reads Network.read (fun _ => True) Network.encode := by
  intro bs n rest
  rw [Network.read, Reader.choose_eq_ok (by decide)]
  simp only [Network.all, List.map, List.zipIdx, List.mem_cons, List.not_mem_nil, or_false,
    exists_eq_or_imp, exists_eq_left, Reader.pure_eq_ok]
  constructor
  · intro h
    obtain ⟨_, rfl, rfl, rfl⟩ | ⟨_, rfl, rfl, rfl⟩ | ⟨_, rfl, rfl, rfl⟩ | ⟨_, rfl, rfl, rfl⟩ := h
      <;> exact ⟨trivial, rfl⟩
  · intro h
    obtain ⟨-, rfl⟩ := h
    cases n
    · exact .inl ⟨rest, rfl, rfl, rfl⟩
    · exact .inr (.inl ⟨rest, rfl, rfl, rfl⟩)
    · exact .inr (.inr (.inl ⟨rest, rfl, rfl, rfl⟩))
    · exact .inr (.inr (.inr ⟨rest, rfl, rfl, rfl⟩))

theorem SigHash.reads : Reads SigHash.read (fun _ => True) SigHash.encode := by
  intro bs s rest
  rw [SigHash.read, Reader.choose_eq_ok (by decide)]
  simp only [List.zipIdx, List.mem_cons, List.not_mem_nil, or_false, exists_eq_or_imp,
    exists_eq_left, Reader.pure_eq_ok]
  constructor
  · intro h
    obtain ⟨_, rfl, rfl, rfl⟩ | ⟨_, rfl, rfl, rfl⟩ | ⟨_, rfl, rfl, rfl⟩ := h
      <;> exact ⟨trivial, rfl⟩
  · intro h
    obtain ⟨-, rfl⟩ := h
    cases s
    · exact .inl ⟨rest, rfl, rfl, rfl⟩
    · exact .inr (.inl ⟨rest, rfl, rfl, rfl⟩)
    · exact .inr (.inr ⟨rest, rfl, rfl, rfl⟩)

theorem Address.reads : Reads Address.read (fun _ => True) Address.encode := by
  intro bs a rest
  simp only [Address.read, Network.reads.bind_eq_ok, (Wire.fixed_reads 20).bind_eq_ok,
    Reader.pure_eq_ok]
  constructor
  · intro h
    obtain ⟨n, _, ⟨-, rfl⟩, hash, _, ⟨-, rfl⟩, rfl, rfl⟩ := h
    exact ⟨trivial, by rw [Address.encode, List.append_assoc]⟩
  · intro h
    obtain ⟨-, rfl⟩ := h
    exact ⟨a.network, a.hash.toList ++ rest, ⟨trivial, List.append_assoc ..⟩, a.hash, rest,
      ⟨trivial, rfl⟩, rfl, rfl⟩

theorem OutPoint.reads : Reads OutPoint.read (fun _ => True) OutPoint.encode := by
  intro bs o rest
  simp only [OutPoint.read, (Wire.fixed_reads 32).bind_eq_ok, Wire.u32_reads.bind_eq_ok,
    Reader.pure_eq_ok]
  constructor
  · intro h
    obtain ⟨txid, _, ⟨-, rfl⟩, vout, _, ⟨-, rfl⟩, rfl, rfl⟩ := h
    exact ⟨trivial, by rw [OutPoint.encode, List.append_assoc]⟩
  · intro h
    obtain ⟨-, rfl⟩ := h
    exact ⟨o.txid, Wire.u32 o.vout ++ rest, ⟨trivial, List.append_assoc ..⟩, o.vout, rest,
      ⟨trivial, rfl⟩, rfl, rfl⟩

theorem Signature.reads : Reads Signature.read (fun s => FitsCount s.bytes) Signature.encode := by
  intro bs s rest
  simp only [Signature.read, Wire.string_reads.bind_eq_ok, SigHash.reads.bind_eq_ok,
    Reader.pure_eq_ok]
  constructor
  · intro h
    obtain ⟨bytes, _, ⟨hbytes, rfl⟩, sighash, _, ⟨-, rfl⟩, rfl, rfl⟩ := h
    exact ⟨hbytes, by rw [Signature.encode, List.append_assoc]⟩
  · intro h
    obtain ⟨hs, rfl⟩ := h
    exact ⟨s.bytes, s.sighash.encode ++ rest, ⟨hs, List.append_assoc ..⟩, s.sighash, rest,
      ⟨trivial, rfl⟩, rfl, rfl⟩

theorem LockScript.reads : Reads LockScript.read LengthsFit encode := by
  intro bs script rest
  rw [LockScript.read, Reader.choose_eq_ok (by decide)]
  simp only [List.zipIdx, List.mem_cons, List.not_mem_nil, or_false, exists_eq_or_imp,
    exists_eq_left, Address.reads.map_eq_ok, Wire.string_reads.map_eq_ok]
  constructor
  · intro h
    obtain ⟨_, rfl, a, ⟨-, rfl⟩, rfl⟩ | ⟨_, rfl, publicKey, ⟨hkey, rfl⟩, rfl⟩ := h
    · exact ⟨trivial, by rw [encode, List.append_assoc]; rfl⟩
    · exact ⟨hkey, by rw [encode, List.append_assoc]; rfl⟩
  · intro h
    obtain ⟨hfit, rfl⟩ := h
    cases script with
    | payToAddress a =>
      exact .inl ⟨a.encode ++ rest, List.append_assoc .., a, ⟨trivial, rfl⟩, rfl⟩
    | payToKey publicKey =>
      exact .inr ⟨Wire.string publicKey ++ rest, List.append_assoc .., publicKey, ⟨hfit, rfl⟩, rfl⟩

theorem UnlockScript.readCoinbase_eq_ok {bs rest : Bytes} {script : UnlockScript} :
    readCoinbase bs = .ok (script, rest) ↔ ∃ height extra, script = coinbase height extra ∧
      FitsCount extra ∧ bs = Wire.option Wire.u32 height ++ Wire.string extra ++ rest := by
  simp only [readCoinbase, (Wire.option_reads Wire.u32_reads).bind_eq_ok,
    Wire.string_reads.bind_eq_ok, Reader.pure_eq_ok]
  constructor
  · intro h
    obtain ⟨height, _, ⟨-, rfl⟩, extra, _, ⟨hextra, rfl⟩, rfl, rfl⟩ := h
    exact ⟨height, extra, rfl, hextra, (List.append_assoc ..).symm⟩
  · intro h
    obtain ⟨height, extra, rfl, hextra, rfl⟩ := h
    exact ⟨height, Wire.string extra ++ rest, ⟨fun _ _ => trivial, List.append_assoc ..⟩, extra,
      rest, ⟨hextra, rfl⟩, rfl, rfl⟩

theorem UnlockScript.reads : Reads UnlockScript.read LengthsFit encode := by
  intro bs script rest
  rw [UnlockScript.read, Reader.choose_eq_ok (by decide)]
  simp only [List.zipIdx, List.mem_cons, List.not_mem_nil, or_false, exists_eq_or_imp,
    exists_eq_left, Reader.pure_eq_ok, Signature.reads.map_eq_ok, readCoinbase_eq_ok]
  constructor
  · intro h
    obtain ⟨_, rfl, rfl, rfl⟩ | ⟨_, rfl, s, ⟨hs, rfl⟩, rfl⟩ |
      ⟨_, rfl, height, extra, rfl, hextra, rfl⟩ := h
    · exact ⟨trivial, rfl⟩
    · exact ⟨hs, by rw [encode, List.append_assoc]; rfl⟩
    · exact ⟨hextra, by simp only [encode, List.append_assoc]; rfl⟩
  · intro h
    obtain ⟨hfit, rfl⟩ := h
    cases script with
    | empty => exact .inl ⟨rest, rfl, rfl, rfl⟩
    | signature s =>
      exact .inr (.inl ⟨s.encode ++ rest, List.append_assoc .., s, ⟨hfit, rfl⟩, rfl⟩)
    | coinbase height extra =>
      refine .inr (.inr ⟨_, ?_, height, extra, rfl, hfit, rfl⟩)
      simp only [encode, List.append_assoc]
      rfl

theorem TxInput.reads : Reads TxInput.read (fun i => i.script.LengthsFit ∧ i.connected = none)
    TxInput.encode := by
  intro bs i rest
  simp only [TxInput.read, OutPoint.reads.bind_eq_ok, UnlockScript.reads.bind_eq_ok,
    Wire.u32_reads.bind_eq_ok, Reader.pure_eq_ok]
  constructor
  · intro h
    obtain ⟨previous, _, ⟨-, rfl⟩, script, _, ⟨hfit, rfl⟩, sequence, _, ⟨-, rfl⟩, rfl, rfl⟩ := h
    exact ⟨⟨hfit, rfl⟩, by simp only [TxInput.encode, List.append_assoc]⟩
  · intro h
    obtain ⟨⟨hfit, hbare⟩, rfl⟩ := h
    obtain ⟨previous, script, sequence, connected⟩ := i
    cases hbare
    refine ⟨previous, _, ⟨trivial, ?_⟩, script, _, ⟨hfit, rfl⟩, sequence, rest, ⟨trivial, rfl⟩,
      rfl, rfl⟩
    simp only [TxInput.encode, List.append_assoc]

theorem TxOutput.reads : Reads TxOutput.read (fun o => o.script.LengthsFit) TxOutput.encode := by
  intro bs o rest
  simp only [TxOutput.read, Wire.u64_reads.bind_eq_ok, LockScript.reads.bind_eq_ok,
    Reader.pure_eq_ok]
  constructor
  · intro h
    obtain ⟨value, _, ⟨-, rfl⟩, script, _, ⟨hfit, rfl⟩, rfl, rfl⟩ := h
    exact ⟨hfit, by rw [TxOutput.encode, List.append_assoc]⟩
  · intro h
    obtain ⟨hfit, rfl⟩ := h
    exact ⟨o.value, o.script.encode ++ rest, ⟨trivial, List.append_assoc ..⟩, o.script, rest,
      ⟨hfit, rfl⟩, rfl, rfl⟩

/-- **The reader of transactions takes the written forms of bare transactions whose lengths fit**,
and nothing else. -/
theorem Tx.reads : Reads Tx.read (fun tx => tx.LengthsFit ∧ tx.IsBare) Tx.encode := by
  intro bs tx rest
  simp only [Tx.read, Wire.u32_reads.bind_eq_ok, (Wire.list_reads TxInput.reads).bind_eq_ok,
    (Wire.list_reads TxOutput.reads).bind_eq_ok, Reader.pure_eq_ok]
  constructor
  · intro h
    obtain ⟨version, _, ⟨-, rfl⟩, inputs, _, ⟨⟨hin, hinputs⟩, rfl⟩, outputs, _,
      ⟨⟨hout, houtputs⟩, rfl⟩, lockTime, _, ⟨-, rfl⟩, rfl, rfl⟩ := h
    refine ⟨⟨⟨hin, fun i hi => (hinputs i hi).1, hout, houtputs⟩,
      fun i hi => (hinputs i hi).2, rfl⟩, ?_⟩
    simp only [Tx.encode, List.append_assoc]
  · intro h
    obtain ⟨⟨hfit, hbare⟩, rfl⟩ := h
    obtain ⟨version, inputs, outputs, lockTime, provenance⟩ := tx
    obtain ⟨hinputs, rfl⟩ := hbare
    refine ⟨version, _, ⟨trivial, ?_⟩, inputs, _,
      ⟨⟨hfit.inputs, fun i hi => ⟨hfit.unlocks i hi, hinputs i hi⟩⟩, rfl⟩, outputs, _,
      ⟨⟨hfit.outputs, hfit.locks⟩, rfl⟩, lockTime, rest, ⟨trivial, rfl⟩, rfl, rfl⟩
    simp only [Tx.encode, List.append_assoc]

end TestChain
