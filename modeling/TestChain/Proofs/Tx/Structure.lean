import Mathlib.Algebra.Ring.Nat
import TestChain.Proofs.Tx.Check

/-! What the checks of a transaction come to.

`Tx.WellFormed` says it without a run: something is spent and something paid, the written form is
within the limit, the values add up to what money there is, nothing is spent twice, and the null
outpoint is spent by the script of a coinbase or not at all. The checks pass just then
(`Tx.checkStructure_exact`), although they add up the values in words of 64 bits and stop on the way:
no sum that they take leaves the range of a word, because each value and each sum before it is at
most all money, and twice that is far from 2^64. -/
namespace TestChain

/-! ### Sums in words -/

/-- A number that is at most a word fits in one. -/
theorem toNat_ofNat_of_le {n : Nat} {bound : UInt64} (h : n ≤ bound.toNat) :
    (UInt64.ofNat n).toNat = n :=
  UInt64.toNat_ofNat_of_lt' (Nat.lt_of_le_of_lt h bound.toNat_lt)

/-- A running sum in words whose steps add exactly, up to a bound, adds up exactly up to the bound. -/
theorem foldlM_sum_eq_ok_iff {ε α : Type} {step : UInt64 → α → Except ε UInt64} {value : α → Nat}
    {bound : Nat} (hstep : ∀ total a sum, step total a = .ok sum ↔
      sum.toNat = total.toNat + value a ∧ sum.toNat ≤ bound) {xs : List α} {total sum : UInt64}
    (htotal : total.toNat ≤ bound) : xs.foldlM step total = .ok sum ↔
      sum.toNat = total.toNat + (xs.map value).sum ∧ sum.toNat ≤ bound := by
  induction xs generalizing total with
  | nil =>
    rw [List.foldlM_nil, List.map_nil, List.sum_nil, Nat.add_zero, UInt64.toNat_inj]
    constructor
    · intro h
      cases h
      exact ⟨rfl, htotal⟩
    · rintro ⟨rfl, -⟩
      rfl
  | cons a xs ih =>
    rw [List.foldlM_cons, except_bind_eq_ok, List.map_cons, List.sum_cons, ← Nat.add_assoc]
    constructor
    · rintro ⟨mid, hmid, hrest⟩
      obtain ⟨hmid, hle⟩ := (hstep ..).1 hmid
      rw [← hmid]
      exact (ih hle).1 hrest
    · rintro ⟨hsum, hle⟩
      -- The sum after this item is no more than the last one, so it is a word too.
      have hle' : total.toNat + value a ≤ sum.toNat := by omega
      have hmid := toNat_ofNat_of_le hle'
      refine ⟨.ofNat (total.toNat + value a), (hstep ..).2 ⟨hmid, by omega⟩, ?_⟩
      exact (ih (by omega)).2 ⟨by rw [hmid, hsum], hle⟩

namespace Tx

/-- What the outputs are worth together. -/
def paid (tx : Tx) : Nat := (tx.outputs.map fun o => o.value.toNat).sum

theorem addValue_eq_ok_iff {total sum : UInt64} {o : TxOutput} : addValue total o = .ok sum ↔
    sum.toNat = total.toNat + o.value.toNat ∧ sum.toNat ≤ Money.maximum.toNat := by
  rw [← addChecked_eq_ok_iff]
  unfold addValue
  split
  next hvalue =>
    refine iff_of_false nofun fun ⟨hsum, hle⟩ => ?_
    have hvalue : Money.maximum.toNat < o.value.toNat := UInt64.lt_iff_toNat_lt.1 hvalue
    have hsum := addChecked_eq_ok_iff.1 hsum
    omega
  next =>
    cases addChecked total o.value with
    | error e => exact iff_of_false nofun nofun
    | ok s =>
      dsimp only
      rw [Except.ok.injEq]
      by_cases hle : s ≤ Money.maximum
      · rw [if_pos hle, Except.ok.injEq]
        exact ⟨fun h => ⟨h, h ▸ UInt64.le_iff_toNat_le.1 hle⟩, And.left⟩
      · rw [if_neg hle]
        refine iff_of_false nofun ?_
        rintro ⟨rfl, h⟩
        exact hle (UInt64.le_iff_toNat_le.2 h)

/-- Some outputs are added up when they are worth no more than all money. -/
theorem foldlM_addValue_eq_ok_iff {outputs : List TxOutput} {total : UInt64} :
    outputs.foldlM addValue 0 = .ok total ↔
      total.toNat = (outputs.map fun o => o.value.toNat).sum ∧
        total.toNat ≤ Money.maximum.toNat := by
  have hstep : ∀ (total : UInt64) (o : TxOutput) (sum : UInt64), addValue total o = .ok sum ↔
      sum.toNat = total.toNat + o.value.toNat ∧ sum.toNat ≤ Money.maximum.toNat :=
    fun _ _ _ => addValue_eq_ok_iff
  rw [foldlM_sum_eq_ok_iff hstep (Nat.zero_le _)]
  simp

theorem checkValues_eq_ok_iff {tx : Tx} :
    checkValues 0 tx.outputs = .ok () ↔ tx.paid ≤ Money.maximum.toNat := by
  unfold checkValues
  rw [except_bind_eq_ok]
  constructor
  · rintro ⟨total, htotal, -⟩
    obtain ⟨hpaid, hle⟩ := foldlM_addValue_eq_ok_iff.1 htotal
    rw [paid, ← hpaid]
    exact hle
  · intro hle
    have hpaid := toNat_ofNat_of_le hle
    exact ⟨.ofNat tx.paid, foldlM_addValue_eq_ok_iff.2 ⟨hpaid, hpaid.symm ▸ hle⟩, rfl⟩

theorem totalOutput_eq_ok_iff {tx : Tx} {total : UInt64} :
    tx.totalOutput = .ok total ↔ total.toNat = tx.paid := by
  have hstep : ∀ (total : UInt64) (o : TxOutput) (sum : UInt64),
      addChecked total o.value = .ok sum ↔
        sum.toNat = total.toNat + o.value.toNat ∧ sum.toNat ≤ 2 ^ 64 - 1 := by
    intro total o sum
    have hlt := sum.toNat_lt
    rw [addChecked_eq_ok_iff]
    exact (and_iff_left (by omega)).symm
  have hlt := total.toNat_lt
  rw [totalOutput, foldlM_sum_eq_ok_iff hstep (Nat.zero_le _), and_iff_left (by omega)]
  simp [paid]

/-- What the check of the values adds, a word can hold. -/
theorem exists_addChecked {before : List TxOutput} {total value : UInt64}
    (h : before.foldlM addValue 0 = .ok total) (hvalue : value ≤ Money.maximum) :
    ∃ sum, addChecked total value = .ok sum ∧ sum.toNat = total.toNat + value.toNat := by
  obtain ⟨-, htotal⟩ := foldlM_addValue_eq_ok_iff.1 h
  have hvalue := UInt64.le_iff_toNat_le.1 hvalue
  have hmaximum : Money.maximum.toNat = 2100000000000000 := rfl
  have hsum : (UInt64.ofNat (total.toNat + value.toNat)).toNat = total.toNat + value.toNat :=
    UInt64.toNat_ofNat_of_lt' (by rw [UInt64.size]; omega)
  exact ⟨_, addChecked_eq_ok_iff.2 hsum, hsum⟩

/-! ### The null outpoint -/

theorem isCoinbase_iff {tx : Tx} :
    tx.isCoinbase = true ↔ ∃ i, tx.inputs = [i] ∧ i.previous = .null := by
  unfold isCoinbase
  split
  next i h => simp [h, OutPoint.isNull]
  next h => exact iff_of_false nofun fun ⟨i, hi, _⟩ => h i hi

theorem checkNull_eq_ok_iff {tx : Tx} : tx.checkNull = .ok () ↔
    (∃ i, tx.inputs = [i] ∧ i.previous = .null ∧ i.script.isCoinbase = true) ∨
      (tx.isCoinbase = false ∧ ∀ i ∈ tx.inputs, i.previous ≠ .null) := by
  unfold checkNull
  cases h : tx.isCoinbase with
  | true =>
    obtain ⟨i, hi, hnull⟩ := isCoinbase_iff.1 h
    simp [hi, hnull]
  | false =>
    have hnone : ¬∃ i, tx.inputs = [i] ∧ i.previous = .null ∧ i.script.isCoinbase = true :=
      fun ⟨i, hi, hnull, _⟩ => by simp [isCoinbase_iff.2 ⟨i, hi, hnull⟩] at h
    simp [hnone, OutPoint.isNull]

/-! ### Errors -/

section Blames
variable {α β : Type}

/-- A check that blames the transaction for whatever it finds. -/
def Blames (check : Except ChainError α) : Prop :=
  ∀ e, check = .error e → ∃ fault, e = .transaction fault

theorem blames_ok (a : α) : Blames (.ok a) := nofun

theorem blames_fault (fault : TxFault) : Blames (.error (.transaction fault) : Except ChainError α) :=
  fun _ h => ⟨fault, (Except.error.inj h).symm⟩

theorem Blames.bind {check : Except ChainError α} {next : α → Except ChainError β}
    (h : Blames check) (hnext : ∀ a, Blames (next a)) : Blames (check >>= next) := by
  intro e he
  rcases except_bind_eq_error.1 he with he | ⟨a, -, he⟩
  · exact h e he
  · exact hnext a e he

theorem Blames.ite {p : Prop} [Decidable p] {check check' : Except ChainError α} (h : Blames check)
    (h' : Blames check') : Blames (if p then check else check') := by
  split
  · exact h
  · exact h'

theorem blames_addValue (total : UInt64) (o : TxOutput) : Blames (addValue total o) := by
  refine .ite (blames_fault _) ?_
  cases addChecked total o.value with
  | error e => exact blames_fault _
  | ok sum => exact .ite (blames_ok _) (blames_fault _)

theorem blames_checkValues (outputs : List TxOutput) : Blames (checkValues 0 outputs) := by
  have hsum : ∀ total, Blames (outputs.foldlM addValue total) := by
    induction outputs with
    | nil => exact blames_ok
    | cons o rest ih => exact fun total => (blames_addValue total o).bind ih
  exact (hsum 0).bind fun _ => blames_ok ()

theorem blames_checkRepeats (tx : Tx) : Blames tx.checkRepeats := by
  unfold checkRepeats
  cases firstRepeat? ∅ tx.inputs with
  | none => exact blames_ok ()
  | some o => exact blames_fault _

theorem blames_checkNull (tx : Tx) : Blames tx.checkNull :=
  .ite (.ite (blames_ok ()) (blames_fault _)) (.ite (blames_fault _) (blames_ok ()))

theorem blames_validateSize (tx : Tx) : Blames tx.validateSize := by
  rw [validateSize_eq]
  exact .ite (blames_ok ()) (blames_fault _)

theorem blames_checkStructure (tx : Tx) : Blames tx.checkStructure := by
  have hrest : Blames (do tx.validateSize; checkValues 0 tx.outputs; tx.checkRepeats; tx.checkNull) :=
    (blames_validateSize tx).bind fun _ => (blames_checkValues tx.outputs).bind fun _ =>
      (blames_checkRepeats tx).bind fun _ => blames_checkNull tx
  unfold checkStructure
  dsimp only
  exact .ite (blames_fault _) (.ite (blames_fault _) hrest)

end Blames

/-! ### Well-formed transactions -/

/-- What a transaction is like that can be taken as it is, with no chain at hand. -/
structure WellFormed (tx : Tx) : Prop where
  spends : tx.inputs ≠ []
  pays : tx.outputs ≠ []
  size : tx.encode.length ≤ Wire.Item.transaction.limit
  paid : tx.paid ≤ Money.maximum.toNat
  distinct : tx.spent.Nodup
  /-- A coinbase carries the script of one, and nothing else spends the null outpoint. -/
  null : (∃ i, tx.inputs = [i] ∧ i.previous = .null ∧ i.script.isCoinbase = true) ∨
    (tx.isCoinbase = false ∧ ∀ i ∈ tx.inputs, i.previous ≠ .null)

theorem checkStructure_eq_ok_iff_wellFormed {tx : Tx} :
    tx.checkStructure = .ok () ↔ tx.WellFormed := by
  rw [checkStructure_eq_ok_iff, validateSize_eq_ok_iff, ← length_encode, checkValues_eq_ok_iff,
    checkNull_eq_ok_iff]
  exact ⟨fun ⟨hspends, hpays, hsize, hpaid, hdistinct, hnull⟩ =>
      ⟨hspends, hpays, hsize, hpaid, hdistinct, hnull⟩,
    fun h => ⟨h.spends, h.pays, h.size, h.paid, h.distinct, h.null⟩⟩

theorem checkStructure_coinbase {height : Option UInt32} {extra : Bytes} {value : UInt64}
    {payee : Address} (hextra : 117 + extra.length ≤ Wire.Item.transaction.limit)
    (hvalue : value ≤ Money.maximum) :
    ((coinbase height extra).addOutput (.toAddress value payee)).checkStructure = .ok () := by
  have hsize : ((coinbase height extra).addOutput (.toAddress value payee)).size ≤
      117 + extra.length := by
    rw [size_coinbase]
    split <;> omega
  refine checkStructure_eq_ok_iff_wellFormed.2 ⟨List.cons_ne_nil _ _, List.cons_ne_nil _ _, ?_,
    UInt64.le_iff_toNat_le.1 hvalue, List.nodup_singleton _, .inl ⟨_, rfl, rfl, rfl⟩⟩
  rw [length_encode]
  exact Nat.le_trans hsize hextra

/-- **A transaction passes its checks just when it is well-formed**, and else is itself to blame.
Wherever the check of the values comes to an output in range, the sum with it is a word. The outputs
of a transaction that passes have a total, which is what they are worth together. -/
theorem checkStructure_exact (tx : Tx) :
    (tx.checkStructure = .ok () ↔ tx.WellFormed) ∧
    (∀ e, tx.checkStructure = .error e → e.kind = .transaction) ∧
    (∀ before o after, tx.outputs = before ++ o :: after →
      ∀ total, before.foldlM addValue 0 = .ok total → o.value ≤ Money.maximum →
        ∃ sum, addChecked total o.value = .ok sum ∧
          sum.toNat = total.toNat + o.value.toNat) ∧
    (tx.checkStructure = .ok () → ∃ total, tx.totalOutput = .ok total ∧ total.toNat = tx.paid) := by
  refine ⟨checkStructure_eq_ok_iff_wellFormed, fun e h => ?_,
    fun _ _ _ _ _ hsum hvalue => exists_addChecked hsum hvalue, fun h => ?_⟩
  · obtain ⟨fault, rfl⟩ := blames_checkStructure tx e h
    rfl
  · have htotal := toNat_ofNat_of_le (checkStructure_eq_ok_iff_wellFormed.1 h).paid
    exact ⟨.ofNat tx.paid, totalOutput_eq_ok_iff.2 htotal, htotal⟩

/-- All money may be paid in two outputs. One unit more may not, nor the last value of a word, and
then the transaction is to blame. -/
theorem checkStructure_exact_maximum :
    let paying (values : List UInt64) : Tx := { coinbase none [] with
      outputs := values.map fun value => ⟨value, .payToKey []⟩ }
    let all := paying [Money.maximum - 1, 1]
    all.checkStructure = .ok () ∧
      (∃ total, all.totalOutput = .ok total ∧ total.toNat = Money.maximum.toNat) ∧
      ∀ tx ∈ [paying [Money.maximum, 1], paying [1, 0xffffffffffffffff]],
        ∃ e, tx.checkStructure = .error e ∧ e.kind = .transaction := by
  intro paying all
  have hall : all.checkStructure = .ok () := by
    refine (checkStructure_exact all).1.2 ⟨by decide, by decide, by decide, by decide, by decide, ?_⟩
    exact .inl ⟨_, rfl, rfl, rfl⟩
  refine ⟨hall, (checkStructure_exact all).2.2.2 hall, fun tx htx => ?_⟩
  have hpaid : ¬tx.paid ≤ Money.maximum.toNat := by
    revert tx
    decide
  cases h : tx.checkStructure with
  | ok u => exact absurd ((checkStructure_exact tx).1.1 h).paid hpaid
  | error e => exact ⟨e, rfl, (checkStructure_exact tx).2.1 e h⟩

end Tx

end TestChain
