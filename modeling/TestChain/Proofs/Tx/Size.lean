import TestChain.Proofs.Tx.Wire
import TestChain.Tx.Check

/-! Sizes on the wire.

`Tx.size` counts the bytes of a transaction without writing them, and `Tx.length_encode` says that
it counts right. A size that fits 64 bits bounds every length in the transaction, so what is within
a limit can be written faithfully (`Tx.lengthsFit_of_size`). -/
namespace TestChain

namespace Wire

@[simp] theorem length_u32 (x : UInt32) : (u32 x).length = 4 := LittleEndian.length_encode ..

@[simp] theorem length_u64 (x : UInt64) : (u64 x).length = 8 := LittleEndian.length_encode ..

@[simp] theorem length_count (n : Nat) : (count n).length = 8 := LittleEndian.length_encode ..

theorem length_string (bs : Bytes) : (string bs).length = 8 + bs.length := by
  rw [string, List.length_append, length_count]

section Lists
variable {write : α → Bytes} {size : α → Nat}

theorem length_list (h : ∀ x, (write x).length = size x) (xs : List α) :
    (list write xs).length = listSize size xs := by
  have hitems : (xs.flatMap write).length = xs.foldr (fun x n => size x + n) 0 := by
    induction xs with
    | nil => rfl
    | cons x xs ih => rw [List.flatMap_cons, List.length_append, h, ih, List.foldr_cons]
  rw [list, List.length_append, length_count, hitems, listSize]

theorem listSize_cons (size : α → Nat) (x : α) (xs : List α) :
    listSize size (x :: xs) = size x + listSize size xs := by
  rw [listSize, List.foldr_cons, listSize]
  omega

theorem listSize_concat (size : α → Nat) (xs : List α) (x : α) :
    listSize size (xs ++ [x]) = listSize size xs + size x := by
  induction xs with
  | nil => rw [List.nil_append, listSize_cons, Nat.add_comm]
  | cons y ys ih => rw [List.cons_append, listSize_cons, ih, listSize_cons, Nat.add_assoc]

theorem listSize_map {β : Type} (size : α → Nat) (f : β → α) (xs : List β) :
    listSize size (xs.map f) = listSize (fun x => size (f x)) xs := by
  rw [listSize, List.foldr_map, listSize]

/-- Items that take so many bytes at most. -/
theorem listSize_le {n : Nat} {xs : List α} (h : ∀ x ∈ xs, size x ≤ n) :
    listSize size xs ≤ 8 + xs.length * n := by
  induction xs with
  | nil => exact Nat.le_add_right ..
  | cons x xs ih =>
    obtain ⟨hx, hxs⟩ := List.forall_mem_cons.1 h
    have := ih hxs
    rw [listSize_cons, List.length_cons, Nat.succ_mul]
    omega

/-- An item takes less than its list. -/
theorem size_lt_listSize {x : α} {xs : List α} (hx : x ∈ xs) : size x < listSize size xs := by
  induction xs with
  | nil => cases hx
  | cons y ys ih =>
    rw [listSize_cons]
    rcases List.mem_cons.1 hx with rfl | hx
    · rw [listSize]
      omega
    · have := ih hx
      omega

/-- There are fewer items than bytes. -/
theorem length_lt_listSize (pos : ∀ x, 0 < size x) (xs : List α) :
    xs.length < listSize size xs := by
  induction xs with
  | nil => exact Nat.zero_lt_succ _
  | cons x xs ih =>
    have := pos x
    rw [listSize_cons, List.length_cons]
    omega

end Lists

end Wire

theorem SigHash.length_encode (s : SigHash) : s.encode.length = 4 := Wire.length_u32 _

theorem Address.length_encode (a : Address) : a.encode.length = 24 := by
  rw [encode, List.length_append, Network.encode, Wire.length_u32, a.hash.length_toList]

theorem OutPoint.length_encode (o : OutPoint) : o.encode.length = 36 := by
  rw [encode, List.length_append, o.txid.length_toList, Wire.length_u32]

theorem LockScript.length_encode (script : LockScript) : script.encode.length = script.size := by
  cases script with
  | payToAddress a => rw [encode, List.length_append, Wire.length_u32, a.length_encode, size]
  | payToKey publicKey =>
    rw [encode, List.length_append, Wire.length_u32, Wire.length_string, size, ← Nat.add_assoc]

theorem UnlockScript.length_encode (script : UnlockScript) :
    script.encode.length = script.size := by
  cases script with
  | empty => rfl
  | signature s =>
    simp only [encode, Signature.encode, List.length_append, Wire.length_u32, Wire.length_string,
      SigHash.length_encode, size]
    omega
  | coinbase height extra =>
    cases height <;>
      simp only [encode, Wire.option, List.length_append, List.length_cons, List.length_nil,
        Wire.length_u32, Wire.length_string, size] <;> omega

theorem TxInput.length_encode (i : TxInput) : i.encode.length = i.size := by
  simp only [encode, List.length_append, OutPoint.length_encode, UnlockScript.length_encode,
    Wire.length_u32, size]
  omega

theorem TxOutput.length_encode (o : TxOutput) : o.encode.length = o.size := by
  rw [encode, List.length_append, Wire.length_u64, LockScript.length_encode, size]

theorem TxInput.size_pos (i : TxInput) : 0 < i.size := by
  rw [size]
  omega

theorem TxOutput.size_pos (o : TxOutput) : 0 < o.size := by
  rw [size]
  omega

namespace Tx

/-- The size that is counted is the length of what is written. -/
theorem length_encode (tx : Tx) : tx.encode.length = tx.size := by
  simp only [encode, List.length_append, Wire.length_u32, Wire.length_list TxInput.length_encode,
    Wire.length_list TxOutput.length_encode, size]
  omega

theorem size_pos (tx : Tx) : 0 < tx.size := by
  rw [size]
  omega

@[simp] theorem size_empty : empty.size = 24 := rfl

@[simp] theorem size_addInput (tx : Tx) (i : TxInput) : (tx.addInput i).size = tx.size + i.size := by
  simp only [size, addInput, Wire.listSize_concat]
  omega

@[simp] theorem size_addOutput (tx : Tx) (o : TxOutput) :
    (tx.addOutput o).size = tx.size + o.size := by
  simp only [size, addOutput, Wire.listSize_concat]
  omega

/-- The size of a coinbase that pays an address. -/
theorem size_coinbase (height : Option UInt32) (extra : Bytes) (value : UInt64) (payee : Address) :
    ((coinbase height extra).addOutput (.toAddress value payee)).size =
      (if height.isSome then 117 else 113) + extra.length := by
  rw [coinbase, size_addOutput, size_addInput, size_empty, TxInput.size, TxInput.new, TxOutput.size,
    TxOutput.toAddress, LockScript.size]
  cases height with
  | none =>
    rw [UnlockScript.size, Option.isSome_none, if_neg Bool.false_ne_true]
    omega
  | some height =>
    rw [UnlockScript.size, Option.isSome_some, if_pos rfl]
    omega

end Tx

/-! ### Sizes bound lengths -/

theorem LockScript.lengthsFit_of_size {script : LockScript} (h : script.size < UInt64.size) :
    script.LengthsFit := by
  cases script with
  | payToAddress a => trivial
  | payToKey publicKey =>
    rw [size] at h
    exact Nat.lt_of_le_of_lt (Nat.le_add_left ..) h

theorem UnlockScript.lengthsFit_of_size {script : UnlockScript} (h : script.size < UInt64.size) :
    script.LengthsFit := by
  cases script with
  | empty => trivial
  | signature s =>
    rw [size] at h
    exact Nat.lt_of_le_of_lt (Nat.le_add_left ..) h
  | coinbase height extra =>
    cases height <;>
    · rw [size] at h
      exact Nat.lt_of_le_of_lt (Nat.le_add_left ..) h

/-- No length in a transaction is too large when its size is not. -/
theorem Tx.lengthsFit_of_size {tx : Tx} (h : tx.size < UInt64.size) : tx.LengthsFit := by
  have hin := Wire.length_lt_listSize TxInput.size_pos tx.inputs
  have hout := Wire.length_lt_listSize TxOutput.size_pos tx.outputs
  rw [size] at h
  refine ⟨Nat.lt_trans hin (by omega), fun i hi => ?_, Nat.lt_trans hout (by omega), fun o ho => ?_⟩
  · have hi : i.size < Wire.listSize TxInput.size tx.inputs := Wire.size_lt_listSize hi
    apply UnlockScript.lengthsFit_of_size
    rw [TxInput.size] at hi
    omega
  · have ho : o.size < Wire.listSize TxOutput.size tx.outputs := Wire.size_lt_listSize ho
    apply LockScript.lengthsFit_of_size
    rw [TxOutput.size] at ho
    omega

end TestChain
