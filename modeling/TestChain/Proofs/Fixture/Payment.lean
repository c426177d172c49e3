import TestChain.Fixture.Payment
import TestChain.Proofs.Fixture.Draw
import TestChain.Proofs.Fixture.Knowledge
import TestChain.Proofs.Tx.Structure

/-! What payments to test with are like.

Every builder connects the first outputs of some transactions to outputs of its own, and sends the
result through the wire. What comes back says which transactions are spent, under which script, and
what is paid, and nothing else: it is a `Payment.bare`. So a builder is settled by saying what it
gives (`Payment.withChange_eq` and the like), and what such a payment is like is settled once for
all builders (`Payment.Sound.finished`).

No builder fails, and a payment passes its checks unless it pays more than all money. That a source
is not spent twice has to be asked only of split payments, whose two feeders are different but might
collide (`Payment.builders_finish`). Drawing is the only step of a random payment that can fail, and
only where nothing is left to draw from. -/
namespace TestChain

/-! ### Connecting first outputs -/

namespace Tx

/-- The first of some outputs is there. -/
theorem connect_first {source : Tx} {o : TxOutput} {rest : List TxOutput}
    (h : source.outputs = o :: rest) (tx : Tx) (script : UnlockScript) :
    tx.connect source 0 script =
      .ok (tx.addInput { TxInput.new (source.outPoint 0) script with connected := some o }) := by
  rw [connect, h]
  rfl

end Tx

@[simp] theorem UnlockScript.size_empty : UnlockScript.empty.size = 4 := rfl

@[simp] theorem UnlockScript.size_placeholder : UnlockScript.placeholder.size = 80 := by decide

@[simp] theorem TxOutput.size_toAddress (value : UInt64) (payee : Address) :
    (toAddress value payee).size = 36 := rfl

@[simp] theorem TxOutput.size_toKey (value : UInt64) (payee : Key) :
    (toKey value payee).size = 53 := by
  rw [size, toKey, LockScript.ofKey, LockScript.size, FixedBytes.length_toList]

namespace Payment
variable {sources : List Tx} {script : UnlockScript} {outputs : List TxOutput}

/-! ### Bare payments -/

/-- The payment that spends the first output of each source under one script, as it comes back from
the wire. -/
def bare (sources : List Tx) (script : UnlockScript) (outputs : List TxOutput) : Tx where
  version := Tx.currentVersion
  inputs := sources.map fun source => .new (source.outPoint 0) script
  outputs := outputs
  lockTime := 0
  provenance := .unknown

theorem isBare_bare : (bare sources script outputs).IsBare := by
  refine ⟨fun i hi => ?_, rfl⟩
  obtain ⟨source, -, rfl⟩ := List.mem_map.1 hi
  rfl

theorem strip_bare : (bare sources script outputs).strip = bare sources script outputs :=
  Tx.strip_of_isBare isBare_bare

theorem spent_bare : (bare sources script outputs).spent = sources.map (·.outPoint 0) :=
  List.map_map

theorem size_bare : (bare sources script outputs).size =
    8 + Wire.listSize (fun _ => 40 + script.size) sources +
      Wire.listSize TxOutput.size outputs := by
  rw [Tx.size, bare, Wire.listSize_map]
  rfl

theorem outPoint_ne_null (source : Tx) : source.outPoint 0 ≠ .null := by
  intro h
  have hvout : (0 : UInt32) = 0xffffffff := congrArg OutPoint.vout h
  cases hvout

/-- A coinbase spends no first output. -/
theorem isCoinbase_bare : (bare sources script outputs).isCoinbase = false := by
  refine Bool.eq_false_iff.2 fun h => ?_
  obtain ⟨i, hinputs, hnull⟩ := Tx.isCoinbase_iff.1 h
  have hi : i ∈ (bare sources script outputs).inputs := hinputs ▸ List.mem_singleton_self i
  obtain ⟨source, -, rfl⟩ := List.mem_map.1 hi
  exact outPoint_ne_null source hnull

theorem outPoint_inj {s t : Tx} : s.outPoint 0 = t.outPoint 0 ↔ s.txid = t.txid := by
  rw [Tx.outPoint, Tx.outPoint, OutPoint.mk.injEq, and_iff_left rfl]

/-- First outputs are told apart by their transactions. -/
theorem nodup_spent_bare :
    (bare sources script outputs).spent.Nodup ↔ (sources.map Tx.txid).Nodup := by
  rw [spent_bare, List.Nodup, List.Nodup, List.pairwise_map, List.pairwise_map]
  simp only [ne_eq, outPoint_inj]

/-- Something is spent and something paid, and it all fits on the wire. -/
structure Sound (sources : List Tx) (script : UnlockScript) (outputs : List TxOutput) : Prop where
  spends : sources ≠ []
  pays : outputs ≠ []
  size : (bare sources script outputs).size ≤ Wire.Item.transaction.limit

/-- What a payment is like that has been through the wire: there is nothing beside what it says, so
it comes back from the wire as it is; it spends first outputs, as no coinbase does; and it passes
its checks just when the condition holds. -/
structure Finished (accepted : Prop) (tx : Tx) : Prop where
  survives : tx.mustRoundTrip = .ok tx
  bare : tx.IsBare
  notCoinbase : tx.isCoinbase = false
  firstOutputs : ∀ o ∈ tx.spent, o.vout = 0
  checks : tx.checkStructure = .ok () ↔ accepted

namespace Sound
variable (h : Sound sources script outputs)
include h

/-- What was connected to its sources comes back bare. -/
theorem roundTrip {tx : Tx} (hstrip : tx.strip = bare sources script outputs) :
    tx.roundTrip = .ok (bare sources script outputs) := by
  have hsize := h.size
  rw [← hstrip, Tx.size_strip] at hsize
  rw [Tx.roundTrip_of_size hsize, hstrip]

theorem checkStructure_iff :
    (bare sources script outputs).checkStructure = .ok () ↔
      (bare sources script outputs).paid ≤ Money.maximum.toNat ∧
        (sources.map Tx.txid).Nodup := by
  rw [Tx.checkStructure_eq_ok_iff_wellFormed, ← nodup_spent_bare]
  constructor
  · exact fun hwell => ⟨hwell.paid, hwell.distinct⟩
  · rintro ⟨hpaid, hdistinct⟩
    have hnull : ∀ i ∈ (bare sources script outputs).inputs, i.previous ≠ .null := by
      intro i hi
      obtain ⟨source, -, rfl⟩ := List.mem_map.1 hi
      exact outPoint_ne_null source
    refine ⟨fun hinputs => h.spends (List.map_eq_nil_iff.1 hinputs), h.pays, ?_, hpaid, hdistinct,
      .inr ⟨isCoinbase_bare, hnull⟩⟩
    rw [Tx.length_encode]
    exact h.size

theorem finished {accepted : Prop} (haccepted : (bare sources script outputs).paid ≤
    Money.maximum.toNat ∧ (sources.map Tx.txid).Nodup ↔ accepted) :
    Finished accepted (bare sources script outputs) where
  survives := by
    rw [Tx.mustRoundTrip, h.roundTrip strip_bare]
    rfl
  bare := isBare_bare
  notCoinbase := isCoinbase_bare
  firstOutputs o ho := by
    rw [spent_bare] at ho
    obtain ⟨source, -, rfl⟩ := List.mem_map.1 ho
    rfl
  checks := h.checkStructure_iff.trans haccepted

end Sound

/-- From one source there is nothing to spend twice. -/
theorem Sound.finished_one {source : Tx} {accepted : Prop} (h : Sound [source] script outputs)
    (haccepted : (bare [source] script outputs).paid ≤ Money.maximum.toNat ↔ accepted) :
    Finished accepted (bare [source] script outputs) :=
  h.finished ((and_iff_left (List.nodup_singleton _)).trans haccepted)

/-! ### What the builders give -/

section Builders
variable (value : UInt64) (payee source change cheat : Address) (draw : Int64)

theorem sound_plain (funds : Tx) : Sound [funds] .empty [.toAddress value payee] := by
  refine ⟨List.cons_ne_nil _ _, List.cons_ne_nil _ _, ?_⟩
  simp [size_bare, Wire.listSize, Wire.Item.limit]

theorem sound_withChange (funds : Tx) (hscript : script.size ≤ 80) :
    Sound [funds] script [.toAddress value payee, .toAddress changeValue change] := by
  refine ⟨List.cons_ne_nil _ _, List.cons_ne_nil _ _, ?_⟩
  simp only [size_bare, Wire.listSize, List.foldr, TxOutput.size_toAddress, Wire.Item.limit]
  omega

theorem sound_toKey (funds : Tx) (payee change : Key) :
    Sound [funds] .empty [.toKey value payee, .toKey changeValue change] := by
  refine ⟨List.cons_ne_nil _ _, List.cons_ne_nil _ _, ?_⟩
  simp [size_bare, Wire.listSize, Wire.Item.limit]

theorem sound_split (first second : Tx) :
    Sound [first, second] .placeholder [.toAddress value payee] := by
  refine ⟨List.cons_ne_nil _ _, List.cons_ne_nil _ _, ?_⟩
  simp [size_bare, Wire.listSize, Wire.Item.limit]

theorem withChange_eq : withChange value payee change =
    .ok (bare [feeder (.toAddress value payee)] .placeholder
      [.toAddress value payee, .toAddress changeValue change]) := by
  have hsound := sound_withChange value payee change (feeder (.toAddress value payee))
    (Nat.le_of_eq UnlockScript.size_placeholder)
  exact except_bind_eq_ok.2 ⟨_, Tx.connect_first rfl _ _, hsound.roundTrip rfl⟩

theorem toKey_eq (payee change : Key) : toKey value payee change =
    .ok (bare [feeder (.toKey value payee)] .empty
      [.toKey value payee, .toKey changeValue change]) := by
  have hsound := sound_toKey value (feeder (.toKey value payee)) payee change
  exact except_bind_eq_ok.2 ⟨_, Tx.connect_first rfl _ _, hsound.roundTrip rfl⟩

theorem split_eq : split value payee draw =
    .ok (bare [(splitFeeders value payee draw).1, (splitFeeders value payee draw).2] .placeholder
      [.toAddress value payee]) := by
  have hsound := sound_split value payee (splitFeeders value payee draw).1
    (splitFeeders value payee draw).2
  exact except_bind_eq_ok.2 ⟨_, Tx.connect_first rfl _ _,
    except_bind_eq_ok.2 ⟨_, Tx.connect_first rfl _ _, hsound.roundTrip rfl⟩⟩

/-- The first payment of a pair, as it comes back. -/
def pairFirst : Tx := bare [feeder (.toAddress value source)] .empty [.toAddress value payee]

/-- The second payment of a pair, as it comes back. -/
def pairSecond : Tx :=
  bare [pairFirst value payee source] .empty
    [.toAddress value payee, .toAddress changeValue change]

/-- The second payment spends the first as it comes back, although it was connected to the first
before that: what is spent goes by identity. -/
theorem pair_eq : pair value payee source change =
    .ok (pairFirst value payee source, pairSecond value payee source change) := by
  have hfirst := sound_plain value payee (feeder (.toAddress value source))
  have hscript : UnlockScript.empty.size ≤ 80 := by decide
  have hsecond := sound_withChange value payee change (pairFirst value payee source) hscript
  refine except_bind_eq_ok.2 ⟨_, Tx.connect_first rfl _ _, except_bind_eq_ok.2
    ⟨_, Tx.connect_first rfl _ _, except_bind_eq_ok.2 ⟨_, hfirst.roundTrip rfl,
      except_bind_eq_ok.2 ⟨_, hsecond.roundTrip ?_, rfl⟩⟩⟩⟩
  rw [← Tx.outPoint_strip]
  rfl

theorem doubleSpend_eq : doubleSpend payee cheat =
    .ok ⟨feeder (.toAddress Money.coin cheat),
      bare [feeder (.toAddress Money.coin cheat)] .empty [.toAddress Money.coin payee],
      bare [feeder (.toAddress Money.coin cheat)] .empty [.toAddress Money.coin cheat]⟩ := by
  have hsound (payee : Address) :=
    sound_plain Money.coin payee (feeder (.toAddress Money.coin cheat))
  exact except_bind_eq_ok.2 ⟨_, Tx.connect_first rfl _ _, except_bind_eq_ok.2
    ⟨_, Tx.connect_first rfl _ _, except_bind_eq_ok.2 ⟨_, (hsound payee).roundTrip rfl,
      except_bind_eq_ok.2 ⟨_, (hsound cheat).roundTrip rfl, rfl⟩⟩⟩⟩

end Builders

/-! ### Canonical payments -/

theorem Sound.canonical (h : Sound sources script outputs) :
    (bare sources script outputs).Canonical :=
  ⟨isBare_bare, Tx.lengthsFit_of_size (Nat.lt_of_le_of_lt h.size (by decide))⟩

/-- The feeder of an address with a lock time. -/
def marked (value : UInt64) (payee : Address) (lockTime : UInt32) : Tx :=
  { feeder (.toAddress value payee) with lockTime }

theorem canonical_marked (value : UInt64) (payee : Address) (lockTime : UInt32) :
    (marked value payee lockTime).Canonical :=
  ⟨⟨nofun, rfl⟩, Tx.lengthsFit_of_size (by decide : 60 < UInt64.size)⟩

theorem feeder_eq (value : UInt64) (payee : Address) :
    feeder (.toAddress value payee) = marked value payee 0 := rfl

theorem toAddress_inj {value value' : UInt64} {payee payee' : Address} :
    TxOutput.toAddress value payee = .toAddress value' payee' ↔
      payee = payee' ∧ value = value' := by
  rw [TxOutput.toAddress, TxOutput.toAddress, TxOutput.mk.injEq, LockScript.payToAddress.injEq,
    and_comm]

theorem marked_inj {value value' : UInt64} {payee payee' : Address} {lockTime lockTime' : UInt32} :
    marked value payee lockTime = marked value' payee' lockTime' ↔
      payee = payee' ∧ value = value' ∧ lockTime = lockTime' := by
  constructor
  · intro h
    have houtputs : [TxOutput.toAddress value payee] = [.toAddress value' payee'] :=
      congrArg Tx.outputs h
    obtain ⟨hpayee, hvalue⟩ := toAddress_inj.1 (List.cons.inj houtputs).1
    exact ⟨hpayee, hvalue, congrArg Tx.lockTime h⟩
  · rintro ⟨rfl, rfl, rfl⟩
    rfl

section Split
variable (value : UInt64) (payee : Address) (draw : Int64)

theorem splitFeeders_eq : splitFeeders value payee draw =
    (marked (Split.first value draw) payee 0, marked (value - Split.first value draw) payee 1) :=
  rfl

/-- The lock time tells the feeders apart, even where the parts are equal. -/
theorem splitFeeders_ne :
    (splitFeeders value payee draw).1 ≠ (splitFeeders value payee draw).2 := by
  rw [splitFeeders_eq, Ne, marked_inj]
  rintro ⟨-, -, hlockTime⟩
  cases hlockTime

theorem canonical_splitFeeders : (splitFeeders value payee draw).1.Canonical ∧
    (splitFeeders value payee draw).2.Canonical :=
  ⟨canonical_marked _ payee 0, canonical_marked _ payee 1⟩

theorem preimage_splitFeeders_ne : (splitFeeders value payee draw).1.preimage ≠
    (splitFeeders value payee draw).2.preimage := by
  obtain ⟨hfirst, hsecond⟩ := canonical_splitFeeders value payee draw
  rw [Ne, hfirst.preimage_eq_iff hsecond]
  exact splitFeeders_ne value payee draw

/-- Only a collision gives the feeders one identity. -/
theorem nodup_splitFeeders :
    [(splitFeeders value payee draw).1.txid, (splitFeeders value payee draw).2.txid].Nodup ↔
      ¬Collision (splitFeeders value payee draw).1.preimage
        (splitFeeders value payee draw).2.preimage := by
  obtain ⟨hfirst, hsecond⟩ := canonical_splitFeeders value payee draw
  rw [List.nodup_cons, List.mem_singleton, and_iff_left (List.nodup_singleton _),
    hfirst.txid_eq_iff hsecond, or_iff_right (splitFeeders_ne value payee draw)]

end Split

/-! ### What is paid -/

theorem paid_one (o : TxOutput) : (bare sources script [o]).paid = o.value.toNat := by
  rw [Tx.paid, bare, List.map_singleton, List.sum_singleton]

theorem paid_two (o p : TxOutput) :
    (bare sources script [o, p]).paid = o.value.toNat + p.value.toNat := by
  rw [Tx.paid, bare, List.map_cons, List.sum_cons, List.map_singleton, List.sum_singleton]

/-- A payment of one value to an address may pay all money. -/
theorem paid_plain (value : UInt64) (payee : Address) :
    (bare sources script [.toAddress value payee]).paid ≤ Money.maximum.toNat ↔
      value ≤ Money.maximum := by
  rw [paid_one, UInt64.le_iff_toNat_le]
  rfl

theorem finished_plain (value : UInt64) (payee : Address) (funds : Tx) :
    Finished (value ≤ Money.maximum) (bare [funds] .empty [.toAddress value payee]) :=
  (sound_plain value payee funds).finished_one (paid_plain value payee)

/-- A payment of a coin always passes. -/
theorem finished_coin (payee : Address) (funds : Tx) :
    Finished True (bare [funds] .empty [.toAddress Money.coin payee]) := by
  refine (sound_plain Money.coin payee funds).finished_one ?_
  rw [paid_plain]
  exact iff_true_intro (by decide)

theorem finished_withChange (value : UInt64) (payee change : Address) (funds : Tx)
    (hscript : script.size ≤ 80) :
    Finished (value.toNat + changeValue.toNat ≤ Money.maximum.toNat)
      (bare [funds] script [.toAddress value payee, .toAddress changeValue change]) := by
  refine (sound_withChange value payee change funds hscript).finished_one ?_
  rw [paid_two]
  rfl

theorem finished_toKey (value : UInt64) (payee change : Key) (funds : Tx) :
    Finished (value.toNat + changeValue.toNat ≤ Money.maximum.toNat)
      (bare [funds] .empty [.toKey value payee, .toKey changeValue change]) := by
  refine (sound_toKey value funds payee change).finished_one ?_
  rw [paid_two]
  rfl

theorem finished_pairFirst (value : UInt64) (payee source : Address) :
    Finished (value ≤ Money.maximum) (pairFirst value payee source) :=
  finished_plain value payee _

theorem finished_pairSecond (value : UInt64) (payee source change : Address) :
    Finished (value.toNat + changeValue.toNat ≤ Money.maximum.toNat)
      (pairSecond value payee source change) :=
  finished_withChange value payee change _ (by decide)

theorem finished_split (value : UInt64) (payee : Address) (draw : Int64) :
    Finished (value ≤ Money.maximum ∧ ¬Collision (splitFeeders value payee draw).1.preimage
        (splitFeeders value payee draw).2.preimage)
      (bare [(splitFeeders value payee draw).1, (splitFeeders value payee draw).2] .placeholder
        [.toAddress value payee]) :=
  (sound_split value payee _ _).finished
    (and_congr (paid_plain value payee) (nodup_splitFeeders value payee draw))

/-! ### Random payments -/

section Draws
variable (params : NetworkParams) (value : UInt64) (payee : Address)

theorem drawWithChange_eq : drawWithChange params value payee =
    Draw.address params >>= fun change => pure (bare [feeder (.toAddress value payee)] .placeholder
      [.toAddress value payee, .toAddress changeValue change]) := by
  rw [drawWithChange]
  simp only [withChange_eq]
  rfl

theorem onlyDrains_drawWithChange : OnlyDrains (drawWithChange params value payee) := by
  rw [drawWithChange_eq]
  exact (onlyDrains_address params).bind fun _ => onlyDrains_pure _

theorem onlyDrains_drawSplit : OnlyDrains (drawSplit value payee) :=
  onlyDrains_integer.bind fun draw => onlyDrains_must (split_eq value payee draw)

theorem onlyDrains_drawAny : OnlyDrains (drawAny params) :=
  (onlyDrains_address params).bind fun payee => onlyDrains_drawSplit Money.coin payee

theorem onlyDrains_drawToKey (payee : Key) : OnlyDrains (drawToKey value payee) :=
  onlyDrains_key.bind fun change => onlyDrains_must (toKey_eq value payee change)

theorem onlyDrains_drawPair (source : Address) :
    OnlyDrains (drawPair params value payee source) :=
  (onlyDrains_address params).bind fun change =>
    onlyDrains_must (pair_eq value payee source change)

theorem onlyDrains_drawDoubleSpend : OnlyDrains (drawDoubleSpend params payee) :=
  (onlyDrains_address params).bind fun cheat => onlyDrains_must (doubleSpend_eq payee cheat)

/-- The payment that is spent has a first output. -/
theorem onlyDrains_drawSpending (output : TxOutput) : OnlyDrains (drawSpending params output) := by
  rw [drawSpending]
  simp only [drawWithChange_eq, bind_assoc, pure_bind]
  exact (onlyDrains_address params).bind fun _ => (onlyDrains_address params).bind fun _ =>
    onlyDrains_must (Tx.connect_first rfl _ _)

end Draws

/-! ### All builders -/

/-- **No builder fails, and what it gives passes the checks as far as there is money.** Payments
with change pass when the value and the change are no more than all money, other payments when the
value is, and double spends always. The feeders of a split payment are different, and it takes that
they do not collide. A random payment fails only where there is nothing left to draw from. -/
theorem builders_finish :
    (∀ value payee change, ∃ tx, withChange value payee change = .ok tx ∧
      Finished (value.toNat + changeValue.toNat ≤ Money.maximum.toNat) tx) ∧
    (∀ value payee draw, ∃ tx, split value payee draw = .ok tx ∧
      (splitFeeders value payee draw).1.preimage ≠ (splitFeeders value payee draw).2.preimage ∧
      Finished (value ≤ Money.maximum ∧ ¬Collision (splitFeeders value payee draw).1.preimage
        (splitFeeders value payee draw).2.preimage) tx) ∧
    (∀ value payee change, ∃ tx, toKey value payee change = .ok tx ∧
      Finished (value.toNat + changeValue.toNat ≤ Money.maximum.toNat) tx) ∧
    (∀ value payee source change, ∃ first second,
      pair value payee source change = .ok (first, second) ∧
      Finished (value ≤ Money.maximum) first ∧
      Finished (value.toNat + changeValue.toNat ≤ Money.maximum.toNat) second) ∧
    (∀ payee cheat, ∃ spends, doubleSpend payee cheat = .ok spends ∧
      Finished True spends.first ∧ Finished True spends.second) ∧
    ∀ (params : NetworkParams) (value : UInt64) (payee : Address),
      (∀ change, ∃ tx, must .paymentWithChange (withChange value payee change) = .ok tx) ∧
      OnlyDrains (drawWithChange params value payee) ∧ OnlyDrains (drawSplit value payee) ∧
      OnlyDrains (drawAny params) ∧ (∀ key, OnlyDrains (drawToKey value key)) ∧
      (∀ source, OnlyDrains (drawPair params value payee source)) ∧
      OnlyDrains (drawDoubleSpend params payee) ∧
      ∀ output, OnlyDrains (drawSpending params output) := by
  refine ⟨fun value payee change => ⟨_, withChange_eq value payee change, ?_⟩,
    fun value payee draw => ⟨_, split_eq value payee draw, ?_, finished_split value payee draw⟩,
    fun value payee change => ⟨_, toKey_eq value payee change, finished_toKey value payee change _⟩,
    fun value payee source change => ⟨_, _, pair_eq value payee source change,
      finished_pairFirst value payee source, finished_pairSecond value payee source change⟩,
    fun payee cheat =>
      ⟨_, doubleSpend_eq payee cheat, finished_coin payee _, finished_coin cheat _⟩,
    fun params value payee => ?_⟩
  · exact finished_withChange value payee change _ (Nat.le_of_eq UnlockScript.size_placeholder)
  · exact preimage_splitFeeders_ne value payee draw
  · exact ⟨fun change => ⟨_, by rw [withChange_eq]; rfl⟩,
      onlyDrains_drawWithChange params value payee, onlyDrains_drawSplit value payee,
      onlyDrains_drawAny params, onlyDrains_drawToKey value,
      onlyDrains_drawPair params value payee, onlyDrains_drawDoubleSpend params payee,
      onlyDrains_drawSpending params⟩

/-- A payment with change takes all money but the change, and not one unit more. -/
theorem builders_finish_limit :
    let payee : Address := ⟨.unittest, .zero 20⟩
    let most := Money.maximum - changeValue
    (∃ tx, withChange most payee payee = .ok tx ∧ tx.checkStructure = .ok ()) ∧
      ∃ tx, withChange (most + 1) payee payee = .ok tx ∧ tx.checkStructure ≠ .ok () := by
  intro payee most
  obtain ⟨tx, hmade, hfinished⟩ := builders_finish.1 most payee payee
  obtain ⟨tx', hmade', hfinished'⟩ := builders_finish.1 (most + 1) payee payee
  exact ⟨⟨tx, hmade, hfinished.checks.2 (by decide)⟩,
    ⟨tx', hmade', fun h => absurd (hfinished'.checks.1 h) (by decide)⟩⟩

end Payment

end TestChain
