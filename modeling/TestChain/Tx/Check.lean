import Std.Data.HashSet
import TestChain.Tx.Basic
import TestChain.Tx.Wire

/-! The checks that a transaction passes on its own, with no chain at hand.

`Tx.checkStructure` asks, in this order: that something is spent and something paid, that the
written form is within the limit, that the values are in range, that no output is spent twice, and
that the null outpoint is spent by a coinbase script in a coinbase and nowhere else. Signatures are
not looked at. -/
namespace TestChain

/-- The bytes that an unlocking script takes on the wire. -/
def UnlockScript.size : UnlockScript → Nat
  | empty => 4
  | signature s => 16 + s.bytes.length
  | coinbase none extra => 13 + extra.length
  | coinbase (some _) extra => 17 + extra.length

/-- The bytes that a locking script takes on the wire. -/
def LockScript.size : LockScript → Nat
  | payToAddress _ => 28
  | payToKey publicKey => 12 + publicKey.length

def TxInput.size (i : TxInput) : Nat := 40 + i.script.size

def TxOutput.size (o : TxOutput) : Nat := 8 + o.script.size

namespace Tx

/-- The bytes that the transaction takes on the wire, counted without writing it. -/
def size (tx : Tx) : Nat :=
  8 + Wire.listSize TxInput.size tx.inputs + Wire.listSize TxOutput.size tx.outputs

/-- The size, counted under a limit if there is one. A count that passes it is given up. -/
def sizeWithin? (limit : Option Nat) (tx : Tx) : Option Nat :=
  if limit.all (tx.size ≤ ·) then some tx.size else none

/-- The size, counted under no limit, is within that of a transaction. -/
def validateSize (tx : Tx) : Except ChainError Unit :=
  match tx.sizeWithin? none with
  | none => .error .uncounted
  | some n =>
    if n ≤ Wire.Item.transaction.limit then .ok () else .error (.transaction (.tooLarge n))

/-- The total with one more output, if its value and the sum are in range. -/
def addValue (total : UInt64) (o : TxOutput) : Except ChainError UInt64 :=
  if Money.maximum < o.value then .error (.transaction (.valueTooHigh o.value))
  else
    match addChecked total o.value with
    | .error _ => .error (.transaction .totalOutOfRange)
    | .ok sum =>
      if sum ≤ Money.maximum then .ok sum else .error (.transaction .totalOutOfRange)

/-- Each value, and the sum after it, is in range. -/
def checkValues (total : UInt64) (outputs : List TxOutput) : Except ChainError Unit := do
  let _ ← outputs.foldlM addValue total
  return

/-- The first outpoint that is spent again, or was spent before. -/
def firstRepeat? (seen : Std.HashSet OutPoint) : List TxInput → Option OutPoint
  | [] => none
  | i :: rest =>
    if seen.contains i.previous then some i.previous else firstRepeat? (seen.insert i.previous) rest

/-- No output is spent twice. -/
def checkRepeats (tx : Tx) : Except ChainError Unit :=
  match firstRepeat? ∅ tx.inputs with
  | none => .ok ()
  | some spent => .error (.transaction (.repeatedInput tx.txid spent))

/-- A coinbase carries a coinbase script, and nothing else spends the null outpoint. -/
def checkNull (tx : Tx) : Except ChainError Unit :=
  if tx.isCoinbase then
    if tx.inputs.all (·.script.isCoinbase) then .ok ()
    else .error (.transaction .noCoinbaseScript)
  else if tx.inputs.any (·.previous.isNull) then .error (.transaction .nullOutPoint)
  else .ok ()

/-- All checks that need no chain, the first that fails naming the fault. -/
def checkStructure (tx : Tx) : Except ChainError Unit := do
  if tx.inputs.isEmpty then throw (.transaction (.noInputs tx.txid))
  if tx.outputs.isEmpty then throw (.transaction (.noOutputs tx.txid))
  tx.validateSize
  checkValues 0 tx.outputs
  tx.checkRepeats
  tx.checkNull

end Tx

end TestChain
