import Mathlib.Data.List.Nodup
import TestChain.Proofs.Outcome
import TestChain.Proofs.Tx.Identity

/-! What a transaction that passes its own checks is like. -/
namespace TestChain.Tx

/-- The outputs that a transaction spends, in the order of its inputs. -/
def spent (tx : Tx) : List OutPoint := tx.inputs.map TxInput.previous

/-- Nothing is met again just when the outpoints differ from each other and from those met before.
-/
theorem firstRepeat?_eq_none_iff (seen : Std.HashSet OutPoint) (inputs : List TxInput) :
    firstRepeat? seen inputs = none ↔
      (inputs.map TxInput.previous).Nodup ∧ ∀ o ∈ inputs.map TxInput.previous, o ∉ seen := by
  induction inputs generalizing seen with
  | nil => simp [firstRepeat?]
  | cons i rest ih =>
    rw [List.map_cons, List.nodup_cons, List.forall_mem_cons]
    by_cases hseen : i.previous ∈ seen
    · rw [firstRepeat?, if_pos (Std.HashSet.contains_iff_mem.2 hseen)]
      exact ⟨nofun, fun h => absurd hseen h.2.1⟩
    · have hcontains : ¬seen.contains i.previous = true := fun h =>
        hseen (Std.HashSet.contains_iff_mem.1 h)
      rw [firstRepeat?, if_neg hcontains, ih]
      grind

theorem checkRepeats_eq_ok_iff {tx : Tx} : tx.checkRepeats = .ok () ↔ tx.spent.Nodup := by
  have hnone : firstRepeat? ∅ tx.inputs = none ↔ tx.spent.Nodup := by
    rw [firstRepeat?_eq_none_iff]
    exact and_iff_left fun o _ => Std.HashSet.not_mem_empty
  rw [← hnone, checkRepeats]
  cases firstRepeat? ∅ tx.inputs with
  | none => exact ⟨fun _ => rfl, fun _ => rfl⟩
  | some o => exact ⟨nofun, nofun⟩

/-- A count under no limit is never given up. -/
theorem validateSize_eq (tx : Tx) :
    tx.validateSize = if tx.size ≤ Wire.Item.transaction.limit then .ok ()
      else .error (.transaction (.tooLarge tx.size)) := rfl

theorem validateSize_eq_ok_iff {tx : Tx} :
    tx.validateSize = .ok () ↔ tx.size ≤ Wire.Item.transaction.limit := by
  rw [validateSize_eq]
  split
  next hle => exact iff_of_true rfl hle
  next hle => exact iff_of_false nofun hle

/-- A transaction passes when it passes each check. -/
theorem checkStructure_eq_ok_iff {tx : Tx} :
    tx.checkStructure = .ok () ↔ tx.inputs ≠ [] ∧ tx.outputs ≠ [] ∧ tx.validateSize = .ok () ∧
      checkValues 0 tx.outputs = .ok () ∧ tx.spent.Nodup ∧ tx.checkNull = .ok () := by
  rw [← checkRepeats_eq_ok_iff]
  unfold checkStructure
  cases tx.inputs with
  | nil => exact ⟨nofun, fun h => absurd rfl h.1⟩
  | cons i inputs =>
    cases tx.outputs with
    | nil => exact ⟨nofun, fun h => absurd rfl h.2.1⟩
    | cons o outputs =>
      simp only [List.isEmpty_cons, Bool.false_eq_true, if_false, except_check_eq_ok]
      exact ⟨fun h => ⟨List.cons_ne_nil _ _, List.cons_ne_nil _ _, h⟩, fun h => h.2.2⟩

/-- Within the limit no length is too large to be written. -/
theorem lengthsFit_of_checkStructure {tx : Tx} (h : tx.checkStructure = .ok ()) :
    tx.LengthsFit := by
  obtain ⟨-, -, hsize, -⟩ := checkStructure_eq_ok_iff.1 h
  exact lengthsFit_of_size (Nat.lt_of_le_of_lt (validateSize_eq_ok_iff.1 hsize) (by decide))

theorem spent_strip (tx : Tx) : tx.strip.spent = tx.spent := List.map_map

theorem isCoinbase_strip (tx : Tx) : tx.strip.isCoinbase = tx.isCoinbase := by
  unfold isCoinbase strip
  match tx.inputs with
  | [] => rfl
  | [i] => rfl
  | i :: j :: rest => rfl

/-- What a transaction spends is part of its identity. -/
theorem spent_eq_of_preimage_eq {s t : Tx} (hs : s.checkStructure = .ok ())
    (ht : t.checkStructure = .ok ()) (h : s.preimage = t.preimage) : s.spent = t.spent := by
  have hstrip := (preimage_eq_iff (lengthsFit_of_checkStructure hs)
    (lengthsFit_of_checkStructure ht)).1 h
  rw [← spent_strip s, ← spent_strip t, hstrip]

end TestChain.Tx
