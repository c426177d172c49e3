import TestChain.Proofs.Tx.Size
import TestChain.Tx.Basic

/-! What an identity commits to.

The preimage of a transaction is laid out otherwise than its written form: alternatives stand behind
one byte, an address is given by the byte of its network, a signature's flag takes one byte. So it
has to be settled again that it can be taken apart. A form is `Delimited` when it ends where it
says: whatever follows two of them, equal strings start with equal contents. The fields of a
transaction are delimited one by one, hence so is the whole.

`preimage_eq_iff_sameContent`: equal preimages are equal contents, which are equal written forms,
and transactions compare equal when their contents do, or when their preimages collide. -/
namespace TestChain

open Wire (Reads FitsCount)

/-! ### Forms that end where they say -/

namespace Wire

/-- The front of a string that starts with a form of a good value settles the value's content, and
where the form ends. -/
def Delimited (good : α → Prop) (write : α → Bytes) (content : α → β) : Prop :=
  ∀ a b r s, good a → good b → write a ++ r = write b ++ s → content a = content b ∧ r = s

/-- What can be read is delimited. -/
theorem Reads.delimited {reader : Reader α} {good : α → Prop} {write : α → Bytes}
    (h : Reads reader good write) : Delimited good write id := by
  intro a b r s ha hb e
  have hread : reader (write a ++ r) = .ok (a, r) := (h _ _ _).2 ⟨ha, rfl⟩
  have hread' : reader (write a ++ r) = .ok (b, s) := (h _ _ _).2 ⟨hb, e⟩
  rw [hread] at hread'
  cases hread'
  exact ⟨rfl, rfl⟩

theorem count_inj {m n : Nat} (hm : m < UInt64.size) (hn : n < UInt64.size)
    (h : count m = count n) : m = n := by
  have hm : m % LittleEndian.capacity 8 = m := Nat.mod_eq_of_lt hm
  have hn : n % LittleEndian.capacity 8 = n := Nat.mod_eq_of_lt hn
  rw [← hm, ← hn, ← LittleEndian.decode_encode, ← LittleEndian.decode_encode]
  exact congrArg LittleEndian.decode h

section Lists
variable {good : α → Prop} {write : α → Bytes} {content : α → β}

/-- Forms of equally many items, one after the other. -/
theorem Delimited.flatMap (h : Delimited good write content) {xs ys : List α} {r s : Bytes}
    (hlen : xs.length = ys.length) (hx : ∀ x ∈ xs, good x) (hy : ∀ y ∈ ys, good y)
    (e : xs.flatMap write ++ r = ys.flatMap write ++ s) :
    xs.map content = ys.map content ∧ r = s := by
  induction xs generalizing ys with
  | nil =>
    obtain rfl := List.eq_nil_of_length_eq_zero hlen.symm
    exact ⟨rfl, e⟩
  | cons x xs ih =>
    obtain ⟨y, ys, rfl⟩ := List.exists_cons_of_length_eq_add_one hlen.symm
    obtain ⟨hx, hxs⟩ := List.forall_mem_cons.1 hx
    obtain ⟨hy, hys⟩ := List.forall_mem_cons.1 hy
    rw [List.flatMap_cons, List.flatMap_cons, List.append_assoc, List.append_assoc] at e
    obtain ⟨hhead, htail⟩ := h x y _ _ hx hy e
    obtain ⟨hcontent, hrest⟩ := ih (Nat.succ.inj hlen) hxs hys htail
    exact ⟨by rw [List.map_cons, List.map_cons, hhead, hcontent], hrest⟩

theorem Delimited.list (h : Delimited good write content) :
    Delimited (fun xs => FitsCount xs ∧ ∀ x ∈ xs, good x) (list write) (List.map content) := by
  intro xs ys r s hxs hys e
  rw [Wire.list, Wire.list, List.append_assoc, List.append_assoc] at e
  obtain ⟨hcount, hitems⟩ := List.append_inj e (by rw [length_count, length_count])
  exact h.flatMap (count_inj hxs.1 hys.1 hcount) hxs.2 hys.2 hitems

end Lists

end Wire

/-! ### The fields of a transaction -/

theorem Network.addressByte_inj {m n : Network} (h : m.addressByte = n.addressByte) : m = n := by
  revert h
  cases m <;> cases n <;> decide

theorem SigHash.code_inj {a b : SigHash} (h : a.code = b.code) : a = b := by
  revert h
  cases a <;> cases b <;> decide

theorem OutPoint.delimited : Wire.Delimited (fun _ => True) OutPoint.preimage id :=
  OutPoint.reads.delimited

theorem LockScript.delimited : Wire.Delimited LengthsFit preimage id := by
  intro a b r s ha hb e
  cases a with
  | payToAddress a =>
    cases b with
    | payToAddress b =>
      obtain ⟨-, e⟩ := List.cons.inj e
      obtain ⟨hnetwork, e⟩ := List.cons.inj e
      obtain ⟨hhash, hrest⟩ := List.append_inj e
        (by rw [a.hash.length_toList, b.hash.length_toList])
      obtain ⟨network, hash⟩ := a
      obtain rfl := Network.addressByte_inj hnetwork
      obtain rfl := FixedBytes.ext hhash
      exact ⟨rfl, hrest⟩
    | payToKey publicKey => exact absurd (List.cons.inj e).1 (by decide)
  | payToKey publicKey =>
    cases b with
    | payToAddress b => exact absurd (List.cons.inj e).1 (by decide)
    | payToKey publicKey' =>
      obtain ⟨hkey, hrest⟩ := Wire.string_reads.delimited _ _ _ _ ha hb (List.cons.inj e).2
      exact ⟨congrArg payToKey hkey, hrest⟩

theorem Signature.delimited {a b : Signature} {r s : Bytes} (ha : FitsCount a.bytes)
    (hb : FitsCount b.bytes)
    (e : Wire.string a.bytes ++ [a.sighash.code] ++ r =
      Wire.string b.bytes ++ [b.sighash.code] ++ s) :
    a = b ∧ r = s := by
  rw [List.append_assoc, List.append_assoc] at e
  obtain ⟨hbytes, e⟩ := Wire.string_reads.delimited _ _ _ _ ha hb e
  obtain ⟨hcode, hrest⟩ := List.cons.inj e
  obtain ⟨bytes, sighash⟩ := a
  obtain rfl : bytes = b.bytes := hbytes
  obtain rfl := SigHash.code_inj hcode
  exact ⟨rfl, hrest⟩

theorem UnlockScript.delimited : Wire.Delimited LengthsFit preimage id := by
  intro a b r s ha hb e
  -- Alternatives that differ do so in their first byte.
  have hfirst := congrArg List.head? e
  cases a with
  | empty =>
    cases b with
    | empty => exact ⟨rfl, (List.cons.inj e).2⟩
    | signature b => exact absurd (Option.some.inj hfirst) (by decide)
    | coinbase height extra => exact absurd (Option.some.inj hfirst) (by decide)
  | signature a =>
    cases b with
    | empty => exact absurd (Option.some.inj hfirst) (by decide)
    | signature b =>
      obtain ⟨hsig, hrest⟩ := Signature.delimited ha hb (List.cons.inj e).2
      exact ⟨congrArg signature hsig, hrest⟩
    | coinbase height extra => exact absurd (Option.some.inj hfirst) (by decide)
  | coinbase height extra =>
    cases b with
    | empty => exact absurd (Option.some.inj hfirst) (by decide)
    | signature b => exact absurd (Option.some.inj hfirst) (by decide)
    | coinbase height' extra' =>
      have e : Wire.option Wire.u32 height ++ Wire.string extra ++ r =
          Wire.option Wire.u32 height' ++ Wire.string extra' ++ s := (List.cons.inj e).2
      rw [List.append_assoc, List.append_assoc] at e
      obtain ⟨hheight, e⟩ := (Wire.option_reads Wire.u32_reads).delimited _ _ _ _
        (fun _ _ => trivial) (fun _ _ => trivial) e
      obtain ⟨hextra, hrest⟩ := Wire.string_reads.delimited _ _ _ _ ha hb e
      obtain rfl : height = height' := hheight
      exact ⟨congrArg (coinbase height) hextra, hrest⟩

theorem TxInput.delimited :
    Wire.Delimited (fun i => i.script.LengthsFit) TxInput.preimage TxInput.strip := by
  intro i j r s hi hj e
  simp only [preimage, List.append_assoc] at e
  obtain ⟨hprevious, e⟩ := OutPoint.delimited _ _ _ _ trivial trivial e
  obtain ⟨hscript, e⟩ := UnlockScript.delimited _ _ _ _ hi hj e
  obtain ⟨hsequence, hrest⟩ := Wire.u32_reads.delimited _ _ _ _ trivial trivial e
  obtain ⟨previous, script, sequence, connected⟩ := i
  obtain rfl : previous = j.previous := hprevious
  obtain rfl : script = j.script := hscript
  obtain rfl : sequence = j.sequence := hsequence
  exact ⟨rfl, hrest⟩

theorem TxOutput.delimited :
    Wire.Delimited (fun o => o.script.LengthsFit) TxOutput.preimage id := by
  intro a b r s ha hb e
  simp only [preimage, List.append_assoc] at e
  obtain ⟨hvalue, e⟩ := Wire.u64_reads.delimited _ _ _ _ trivial trivial e
  obtain ⟨hscript, hrest⟩ := LockScript.delimited _ _ _ _ ha hb e
  obtain ⟨value, script⟩ := a
  obtain rfl : value = b.value := hvalue
  obtain rfl : script = b.script := hscript
  exact ⟨rfl, hrest⟩

namespace Tx

theorem delimited : Wire.Delimited LengthsFit preimage strip := by
  intro a b r s ha hb e
  simp only [preimage, List.append_assoc] at e
  obtain ⟨hversion, e⟩ := Wire.u32_reads.delimited _ _ _ _ trivial trivial e
  obtain ⟨hinputs, e⟩ := TxInput.delimited.list _ _ _ _ ⟨ha.inputs, ha.unlocks⟩
    ⟨hb.inputs, hb.unlocks⟩ e
  obtain ⟨houtputs, e⟩ := TxOutput.delimited.list _ _ _ _ ⟨ha.outputs, ha.locks⟩
    ⟨hb.outputs, hb.locks⟩ e
  obtain ⟨hlockTime, hrest⟩ := Wire.u32_reads.delimited _ _ _ _ trivial trivial e
  rw [List.map_id, List.map_id] at houtputs
  obtain ⟨version, inputs, outputs, lockTime, provenance⟩ := a
  obtain rfl : version = b.version := hversion
  obtain rfl : outputs = b.outputs := houtputs
  obtain rfl : lockTime = b.lockTime := hlockTime
  refine ⟨?_, hrest⟩
  simp only [strip, hinputs]

/-- What the holder knows is not part of the identity. -/
@[simp] theorem preimage_strip (tx : Tx) : tx.strip.preimage = tx.preimage := by
  have h : tx.strip.inputs.flatMap TxInput.preimage = tx.inputs.flatMap TxInput.preimage := by
    rw [strip, List.flatMap_map]
    rfl
  simp only [preimage, Wire.list, h]
  simp only [strip, List.length_map]

@[simp] theorem txid_strip (tx : Tx) : tx.strip.txid = tx.txid := by
  rw [txid, txid, preimage_strip]

/-- The preimage of a transaction that spends something is longer than two digests. -/
theorem length_preimage {tx : Tx} (h : tx.inputs ≠ []) : 64 < tx.preimage.length := by
  obtain ⟨i, rest, hinputs⟩ := List.exists_cons_of_ne_nil h
  simp only [preimage, hinputs, Wire.list, List.flatMap_cons, TxInput.preimage, OutPoint.preimage,
    List.length_append, Wire.length_u32, Wire.length_count, i.previous.txid.length_toList]
  have hscript : 0 < i.script.preimage.length := by
    cases i.script <;> exact Nat.zero_lt_succ _
  omega

/-! ### Contents -/

/-- The transactions say the same: they agree in version and lock time, in what their inputs spend,
offer and number, and in what their outputs pay, all in order. -/
structure SameContent (a b : Tx) : Prop where
  version : a.version = b.version
  inputs : a.inputs.map (fun i => (i.previous, i.script, i.sequence)) =
    b.inputs.map (fun i => (i.previous, i.script, i.sequence))
  outputs : a.outputs.map (fun o => (o.value, o.script)) =
    b.outputs.map (fun o => (o.value, o.script))
  lockTime : a.lockTime = b.lockTime

theorem sameContent_iff_strip_eq {a b : Tx} : a.SameContent b ↔ a.strip = b.strip := by
  constructor
  · intro h
    have hinputs := congrArg (List.map fun p => TxInput.mk p.1 p.2.1 p.2.2 none) h.inputs
    have houtputs := congrArg (List.map fun p => TxOutput.mk p.1 p.2) h.outputs
    simp only [List.map_map] at hinputs houtputs
    have ha : a.outputs = b.outputs := by
      rw [← List.map_id a.outputs, ← List.map_id b.outputs]
      exact houtputs
    exact Tx.mk.injEq .. ▸ ⟨h.version, hinputs, ha, h.lockTime, rfl⟩
  · intro h
    have hinputs := congrArg (fun tx => tx.inputs.map fun i => (i.previous, i.script, i.sequence)) h
    simp only [strip, List.map_map] at hinputs
    have hversion : a.strip.version = b.strip.version := by rw [h]
    have houtputs : a.strip.outputs = b.strip.outputs := by rw [h]
    have hlockTime : a.strip.lockTime = b.strip.lockTime := by rw [h]
    exact ⟨hversion, hinputs, congrArg (List.map fun o => (o.value, o.script)) houtputs, hlockTime⟩

theorem preimage_eq_iff {a b : Tx} (ha : a.LengthsFit) (hb : b.LengthsFit) :
    a.preimage = b.preimage ↔ a.strip = b.strip := by
  constructor
  · intro h
    exact (delimited a b [] [] ha hb (by rw [h])).1
  · intro h
    rw [← preimage_strip a, ← preimage_strip b, h]

theorem encode_eq_iff {a b : Tx} (ha : a.LengthsFit) (hb : b.LengthsFit) :
    a.encode = b.encode ↔ a.strip = b.strip := by
  constructor
  · intro h
    rw [← encode_strip a, ← encode_strip b] at h
    exact (Tx.reads.delimited a.strip b.strip [] []
      ⟨lengthsFit_strip.2 ha, isBare_strip a⟩ ⟨lengthsFit_strip.2 hb, isBare_strip b⟩ (by rw [h])).1
  · intro h
    rw [← encode_strip a, ← encode_strip b, h]

/-- A transaction that is just what it says, and that can be written. -/
structure Canonical (tx : Tx) : Prop where
  bare : tx.IsBare
  fits : tx.LengthsFit

namespace Canonical
variable {a b : Tx} (ha : a.Canonical) (hb : b.Canonical)
include ha hb

theorem preimage_eq_iff : a.preimage = b.preimage ↔ a = b := by
  rw [Tx.preimage_eq_iff ha.fits hb.fits, strip_of_isBare ha.bare, strip_of_isBare hb.bare]

theorem sameContent_iff : a.SameContent b ↔ a = b := by
  rw [sameContent_iff_strip_eq, strip_of_isBare ha.bare, strip_of_isBare hb.bare]

theorem txid_eq_iff : a.txid = b.txid ↔ a = b ∨ Collision a.preimage b.preimage := by
  rw [← ha.preimage_eq_iff hb]
  constructor
  · intro h
    by_cases he : a.preimage = b.preimage
    · exact .inl he
    · exact .inr ⟨he, h⟩
  · rintro (h | h)
    · exact congrArg sha256d h
    · exact h.2

end Canonical

/-- **The identity of a transaction commits to all that it says and to nothing else**: the strings
that are hashed are equal just when the transactions agree field by field, which is when their
written forms are equal. So they compare equal when they agree, and else only by a collision. -/
theorem preimage_eq_iff_sameContent {a b : Tx} (ha : a.LengthsFit) (hb : b.LengthsFit) :
    (a.preimage = b.preimage ↔ a.SameContent b) ∧ (a.SameContent b ↔ a.encode = b.encode) ∧
      ((a == b) = true ↔ a.SameContent b ∨ Collision a.preimage b.preimage) := by
  have hpre := preimage_eq_iff ha hb
  refine ⟨by rw [hpre, sameContent_iff_strip_eq], ?_, ?_⟩
  · rw [sameContent_iff_strip_eq, encode_eq_iff ha hb]
  · rw [sameContent_iff_strip_eq, ← hpre]
    show decide (a.txid = b.txid) = true ↔ _
    rw [decide_eq_true_iff]
    constructor
    · intro h
      by_cases he : a.preimage = b.preimage
      · exact .inl he
      · exact .inr ⟨he, h⟩
    · intro h
      rcases h with h | h
      · exact congrArg sha256d h
      · exact h.2

/-- A height is told apart from the bytes that follow it. -/
theorem coinbase_preimage_ne :
    (coinbase none [1]).LengthsFit ∧ (coinbase (some 1) []).LengthsFit ∧
      (coinbase none [1]).preimage ≠ (coinbase (some 1) []).preimage := by
  have ha : (coinbase none [1]).LengthsFit := lengthsFit_of_size (by decide)
  have hb : (coinbase (some 1) []).LengthsFit := lengthsFit_of_size (by decide)
  refine ⟨ha, hb, fun h => ?_⟩
  have hsame := (preimage_eq_iff_sameContent ha hb).1.1 h
  exact absurd hsame.inputs (by decide)

end Tx

end TestChain
