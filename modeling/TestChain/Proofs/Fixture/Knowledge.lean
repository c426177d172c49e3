import Mathlib.Data.List.Forall2
import TestChain.Proofs.Block.Spends
import TestChain.Proofs.Fixture.RoundTrip

/-! What the holder of a transaction knows makes no difference.

A holder may know where a transaction was heard of, and have copies of the outputs that it spends.
Nothing that names, writes, checks or spends a transaction looks at that: each gives for a
transaction what it gives for the stripped one (`Tx.checkStructure_strip`, `Block.verify_strip` and
the like). So transactions that say the same are alike in everything that is asked of them
(`Tx.Alike`), errors included, and blocks of such transactions are too (`Block.Alike`). A round trip
strips and does nothing else, so it changes no verdict. -/
namespace TestChain

/-- What does not show when stripped is the same for all that strip to the same. -/
theorem eq_of_strip_eq {α β : Type} {strip : α → α} {f : α → β} (hf : ∀ a, f (strip a) = f a)
    {a b : α} (h : strip a = strip b) : f a = f b := by
  rw [← hf a, h, hf b]

/-! ### Transactions -/

namespace Tx

theorem sameContent_strip (tx : Tx) : tx.SameContent tx.strip :=
  sameContent_iff_strip_eq.2 (strip_of_isBare (isBare_strip tx)).symm

@[simp] theorem totalOutput_strip (tx : Tx) : tx.strip.totalOutput = tx.totalOutput := rfl

@[simp] theorem toBytes_strip (tx : Tx) : tx.strip.toBytes = tx.toBytes := by
  rw [toBytes, encode_strip, toBytes]

@[simp] theorem size_strip (tx : Tx) : tx.strip.size = tx.size := by
  rw [← length_encode, encode_strip, length_encode]

@[simp] theorem validateSize_strip (tx : Tx) : tx.strip.validateSize = tx.validateSize := by
  rw [validateSize, sizeWithin?, size_strip, validateSize, sizeWithin?]

theorem firstRepeat?_map_strip (seen : Std.HashSet OutPoint) (inputs : List TxInput) :
    firstRepeat? seen (inputs.map TxInput.strip) = firstRepeat? seen inputs := by
  induction inputs generalizing seen with
  | nil => rfl
  | cons i rest ih =>
    rw [List.map_cons, firstRepeat?, firstRepeat?, ih]
    rfl

@[simp] theorem checkRepeats_strip (tx : Tx) : tx.strip.checkRepeats = tx.checkRepeats := by
  have hinputs : firstRepeat? ∅ tx.strip.inputs = firstRepeat? ∅ tx.inputs :=
    firstRepeat?_map_strip ∅ tx.inputs
  rw [checkRepeats, hinputs, txid_strip, checkRepeats]

@[simp] theorem checkNull_strip (tx : Tx) : tx.strip.checkNull = tx.checkNull := by
  have hall : tx.strip.inputs.all (·.script.isCoinbase) = tx.inputs.all (·.script.isCoinbase) :=
    List.all_map
  have hany : tx.strip.inputs.any (·.previous.isNull) = tx.inputs.any (·.previous.isNull) :=
    List.any_map
  rw [checkNull, isCoinbase_strip, hall, hany, checkNull]

@[simp] theorem checkStructure_strip (tx : Tx) : tx.strip.checkStructure = tx.checkStructure := by
  have hinputs : tx.strip.inputs.isEmpty = tx.inputs.isEmpty := List.isEmpty_map
  have houtputs : tx.strip.outputs = tx.outputs := rfl
  simp only [checkStructure, hinputs, houtputs, txid_strip, validateSize_strip, checkRepeats_strip,
    checkNull_strip]

@[simp] theorem outPoint_strip (tx : Tx) (vout : UInt32) :
    tx.strip.outPoint vout = tx.outPoint vout := by
  rw [outPoint, txid_strip, outPoint]

/-- Spending an output takes the outpoint and the output, and no more of the transaction. -/
@[simp] theorem connect_strip (spender previous : Tx) (vout : UInt32) (script : UnlockScript) :
    spender.connect previous.strip vout script = spender.connect previous vout script := by
  have houtputs : previous.strip.outputs = previous.outputs := rfl
  simp only [connect, houtputs, txid_strip, outPoint_strip]

/-- The input that is added does not depend on the transaction that it is added to. -/
theorem connect_getLast? (a b previous : Tx) (vout : UInt32) (script : UnlockScript) :
    (a.connect previous vout script).map (·.inputs.getLast?) =
      (b.connect previous vout script).map (·.inputs.getLast?) := by
  unfold connect
  cases previous.outputs[vout.toNat]? with
  | none => rfl
  | some output => simp only [Except.map, addInput, List.getLast?_concat]

theorem spends_strip (tx : Tx) : tx.strip.spends = tx.spends := by
  rw [spends, txid_strip]
  exact List.map_map

/-- Nothing that is asked of the transactions tells them apart. -/
structure Alike (a b : Tx) : Prop where
  txid : a.txid = b.txid
  equal : (a == b) = true
  equalTo : ∀ c : Tx, (a == c) = (b == c) ∧ (c == a) = (c == b)
  isCoinbase : a.isCoinbase = b.isCoinbase
  totalOutput : a.totalOutput = b.totalOutput
  toBytes : a.toBytes = b.toBytes
  validateSize : a.validateSize = b.validateSize
  checkStructure : a.checkStructure = b.checkStructure
  /-- Spending an output of either is the same. -/
  connect : ∀ (spender : Tx) vout script, spender.connect a vout script =
    spender.connect b vout script
  /-- The same input is added to either. -/
  added : ∀ previous vout script, (a.connect previous vout script).map (·.inputs.getLast?) =
    (b.connect previous vout script).map (·.inputs.getLast?)

section SameContent
variable {a b : Tx} (h : a.SameContent b)
include h

/-- What does not show when stripped is settled by what the transaction says. -/
theorem SameContent.eq {β : Type} {f : Tx → β} (hf : ∀ tx, f tx.strip = f tx) : f a = f b :=
  eq_of_strip_eq hf (sameContent_iff_strip_eq.1 h)

/-- **Transactions that say the same are alike.** -/
theorem SameContent.alike : a.Alike b where
  txid := h.eq txid_strip
  equal := decide_eq_true (h.eq txid_strip)
  equalTo c := by
    have htxid : a.txid = b.txid := h.eq txid_strip
    constructor
    · show decide (a.txid = c.txid) = decide (b.txid = c.txid)
      rw [htxid]
    · show decide (c.txid = a.txid) = decide (c.txid = b.txid)
      rw [htxid]
  isCoinbase := h.eq isCoinbase_strip
  totalOutput := h.eq totalOutput_strip
  toBytes := h.eq toBytes_strip
  validateSize := h.eq validateSize_strip
  checkStructure := h.eq checkStructure_strip
  connect spender vout script :=
    h.eq (f := (spender.connect · vout script)) fun tx => connect_strip spender tx vout script
  added := connect_getLast? a b

end SameContent

end Tx

/-! ### Blocks -/

theorem merkleRoot_map_strip (txs : List Tx) : merkleRoot (txs.map Tx.strip) = merkleRoot txs := by
  have htxids : (txs.map Tx.strip).map Tx.txid = txs.map Tx.txid := by
    rw [List.map_map]
    exact List.map_congr_left fun tx _ => Tx.txid_strip tx
  rw [merkleRoot, htxids, merkleRoot]

namespace Block

/-- The blocks say the same: they have one header, and their transactions say the same one by one.
-/
structure SameContent (b c : Block) : Prop where
  header : b.header = c.header
  transactions : List.Forall₂ Tx.SameContent b.transactions c.transactions

theorem SameContent.strip_eq {b c : Block} (h : b.SameContent c) : b.strip = c.strip := by
  have hmap {txs txs' : List Tx} (h : List.Forall₂ Tx.SameContent txs txs') :
      txs.map Tx.strip = txs'.map Tx.strip := by
    induction h with
    | nil => rfl
    | cons hsame _ ih =>
      rw [List.map_cons, List.map_cons, ih, Tx.sameContent_iff_strip_eq.1 hsame]
  rw [strip, strip, h.header, hmap h.transactions]

theorem sameContent_strip (b : Block) : b.SameContent b.strip := by
  refine ⟨rfl, List.forall₂_map_right_iff.2 ?_⟩
  exact List.forall₂_same.2 fun tx _ => tx.sameContent_strip

@[simp] theorem toBytes_strip (b : Block) : b.strip.toBytes = b.toBytes := by
  rw [toBytes, encode_strip, toBytes]

theorem any_isCoinbase_map_strip (txs : List Tx) :
    (txs.map Tx.strip).any Tx.isCoinbase = txs.any Tx.isCoinbase := by
  rw [List.any_map]
  exact congrArg txs.any (funext Tx.isCoinbase_strip)

@[simp] theorem verifyHeader_strip (b : Block) : b.strip.verifyHeader = b.verifyHeader := by
  obtain ⟨header, txs⟩ := b
  cases txs with
  | nil => rfl
  | cons first others =>
    have hroot := merkleRoot_map_strip (first :: others)
    rw [List.map_cons] at hroot
    simp only [verifyHeader, strip, List.map_cons, Tx.isCoinbase_strip, any_isCoinbase_map_strip,
      hroot]

theorem payments_strip (b : Block) : b.strip.payments = b.payments.map Tx.strip := by
  rw [payments, strip, List.filter_map, payments]
  refine congrArg (List.map Tx.strip) (congrArg (List.filter · b.transactions) ?_)
  funext tx
  rw [Function.comp_apply, Tx.isCoinbase_strip]

theorem spends_strip (b : Block) : b.strip.spends = b.spends := by
  rw [spends, payments_strip, List.flatMap_map, spends]
  exact congrArg b.payments.flatMap (funext Tx.spends_strip)

@[simp] theorem checkDoubleSpends_strip (b : Block) :
    b.strip.checkDoubleSpends = b.checkDoubleSpends := by
  rw [checkDoubleSpends_eq, checkDoubleSpends_eq, spends_strip]

@[simp] theorem verifyTransactions_strip (b : Block) :
    b.strip.verifyTransactions = b.verifyTransactions := by
  have hforM (txs : List Tx) :
      (txs.map Tx.strip).forM Tx.checkStructure = txs.forM Tx.checkStructure := by
    induction txs with
    | nil => rfl
    | cons tx rest ih =>
      show (tx.strip.checkStructure >>= fun _ => (rest.map Tx.strip).forM Tx.checkStructure) = _
      rw [Tx.checkStructure_strip, ih]
      rfl
  rw [verifyTransactions, checkDoubleSpends_strip, strip, hforM, verifyTransactions]

@[simp] theorem verify_strip (b : Block) : b.strip.verify = b.verify := by
  rw [verify, verifyHeader_strip, verifyTransactions_strip, verify]

/-- Nothing that is asked of the blocks tells them apart. -/
structure Alike (b c : Block) : Prop where
  merkleRoot : merkleRoot b.transactions = TestChain.merkleRoot c.transactions
  hash : b.hash = c.hash
  equal : (b == c) = true
  toBytes : b.toBytes = c.toBytes
  verifyHeader : b.verifyHeader = c.verifyHeader
  verifyTransactions : b.verifyTransactions = c.verifyTransactions
  verify : b.verify = c.verify
  checkDoubleSpends : b.checkDoubleSpends = c.checkDoubleSpends

section SameContent
variable {b c : Block} (h : b.SameContent c)
include h

theorem SameContent.eq {β : Type} {f : Block → β} (hf : ∀ b, f b.strip = f b) : f b = f c :=
  eq_of_strip_eq hf h.strip_eq

/-- **Blocks that say the same are alike.** -/
theorem SameContent.alike : b.Alike c where
  merkleRoot := h.eq (f := fun b => TestChain.merkleRoot b.transactions) fun b =>
    merkleRoot_map_strip b.transactions
  hash := congrArg Header.hash h.header
  equal := by
    have hall {txs txs' : List Tx} (h : List.Forall₂ Tx.SameContent txs txs') :
        (txs == txs') = true := by
      induction h with
      | nil => rfl
      | cons hsame _ ih =>
        rw [List.cons_beq_cons, hsame.alike.equal, ih]
        rfl
    show (decide (b.header = c.header) && b.transactions == c.transactions) = true
    rw [hall h.transactions, decide_eq_true h.header]
    rfl
  toBytes := h.eq toBytes_strip
  verifyHeader := h.eq verifyHeader_strip
  verifyTransactions := h.eq verifyTransactions_strip
  verify := h.eq verify_strip
  checkDoubleSpends := h.eq checkDoubleSpends_strip

end SameContent

end Block

/-! ### All of it -/

/-- **What a holder knows shows nowhere.** Transactions that say the same, whatever is known of
them, are alike in everything that is asked of them, and so are blocks whose transactions say the
same one by one. In particular a transaction or a block is like what comes back of it from the
wire, so a round trip changes no verdict. -/
theorem alike_of_sameContent :
    (∀ a b : Tx, a.SameContent b → a.Alike b) ∧ (∀ b c : Block, b.SameContent c → b.Alike c) ∧
      (∀ tx copy : Tx, tx.roundTrip = .ok copy → tx.Alike copy) ∧
      ∀ b copy : Block, b.roundTrip = .ok copy → b.Alike copy := by
  refine ⟨fun _ _ h => h.alike, fun _ _ h => h.alike, fun tx copy h => ?_, fun b copy h => ?_⟩
  · rw [(Tx.roundTrip_keeps h).1]
    exact tx.sameContent_strip.alike
  · rw [(Block.roundTrip_keeps h).1]
    exact b.sameContent_strip.alike

/-- A payment that is held with the output it spends, and the same payment from the wire, are told
apart by none of the checks, alone or in a block. -/
theorem alike_of_sameContent_connected :
    let bare := Block.leastPayment ⟨.zero, 0⟩
    let held : Tx := { bare with
      inputs := bare.inputs.map ({ · with connected := some ⟨1, .payToKey []⟩ })
      provenance := .network }
    held ≠ bare ∧ held.SameContent bare ∧ held.checkStructure = bare.checkStructure ∧
      held.roundTrip = .ok bare ∧ held.Alike bare ∧
      ∀ header, Block.verify ⟨header, [held]⟩ = Block.verify ⟨header, [bare]⟩ := by
  intro bare held
  have hsame : held.SameContent bare := ⟨rfl, rfl, rfl, rfl⟩
  have htrip : held.roundTrip = .ok bare :=
    (Tx.passes.bind_eq held).trans (if_pos (by decide))
  have hblocks (header : Header) : Block.SameContent ⟨header, [held]⟩ ⟨header, [bare]⟩ :=
    ⟨rfl, .cons hsame .nil⟩
  refine ⟨fun h => ?_, hsame, (alike_of_sameContent.1 _ _ hsame).checkStructure, htrip,
    alike_of_sameContent.2.2.1 _ _ htrip, fun header => ?_⟩
  · exact absurd (congrArg Tx.provenance h) (by decide)
  · exact (alike_of_sameContent.2.1 _ _ (hblocks header)).verify

end TestChain
