import TestChain.Fixture.Basic
import TestChain.Tx.Basic

/-! Payments to test with.

A payment spends outputs of feeders: transactions that pay something and spend nothing, made so that
the payment's inputs point at real outputs. The same arguments give the same payment. Unless said
otherwise a payment has been through the wire, so that nothing beside it is left of its making. -/
namespace TestChain.Payment

/-- The value of the change in payments with change: one coin and eleven hundredths. -/
def changeValue : UInt64 := 111000000

/-- The transaction that makes an output and nothing else. -/
def feeder (o : TxOutput) : Tx := Tx.empty.addOutput o

/-- Pays a value to an address, with change to another, from one feeder. -/
def withChange (value : UInt64) (payee change : Address) : Except ChainError Tx := do
  let outputs := (feeder (.toAddress value payee)).addOutput (.toAddress changeValue change)
  let tx ← outputs.connect (feeder (.toAddress value payee)) 0 .placeholder
  tx.roundTrip

/-- The two feeders of a split payment. The second is marked by its lock time, so that equal parts
do not make one feeder of both. -/
def splitFeeders (value : UInt64) (payee : Address) (draw : Int64) : Tx × Tx :=
  let (first, second) := Split.parts value draw
  (feeder (.toAddress first payee), { feeder (.toAddress second payee) with lockTime := 1 })

/-- Pays a value to an address, without change, from two feeders. -/
def split (value : UInt64) (payee : Address) (draw : Int64) : Except ChainError Tx := do
  let (first, second) := splitFeeders value payee draw
  let tx ← (feeder (.toAddress value payee)).connect first 0 .placeholder
  let tx ← tx.connect second 0 .placeholder
  tx.roundTrip

/-- Pays a value to a key, with change to another, from one feeder. The input is not signed. -/
def toKey (value : UInt64) (payee change : Key) : Except ChainError Tx := do
  let outputs := (feeder (.toKey value payee)).addOutput (.toKey changeValue change)
  let tx ← outputs.connect (feeder (.toKey value payee)) 0 .empty
  tx.roundTrip

/-- Two payments to an address, the second spending the first, which spends a feeder that paid
`source`. -/
def pair (value : UInt64) (payee source change : Address) : Except ChainError (Tx × Tx) := do
  let outputs := (feeder (.toAddress value payee)).addOutput (.toAddress changeValue change)
  let first ← (feeder (.toAddress value payee)).connect (feeder (.toAddress value source)) 0 .empty
  let second ← outputs.connect first 0 .empty
  return (← first.roundTrip, ← second.roundTrip)

/-- Two payments of the same output, and the feeder that made it. -/
structure DoubleSpend where
  previous : Tx
  first : Tx
  second : Tx

/-- Pays an output of a cheat's feeder to an address, and again to the cheat. The feeder has not
been through the wire. -/
def doubleSpend (payee cheat : Address) : Except ChainError DoubleSpend := do
  let previous := feeder (.toAddress Money.coin cheat)
  let first ← (feeder (.toAddress Money.coin payee)).connect previous 0 .empty
  let second ← Tx.empty.connect previous 0 .empty
  let first ← first.roundTrip
  let second ← (second.addOutput (.toAddress Money.coin cheat)).roundTrip
  return ⟨previous, first, second⟩

/-! ### Payments by draws -/

/-- Pays a value to an address from two feeders, split at random. -/
def drawSplit (value : UInt64) (payee : Address) : Draw Tx := do
  let draw ← Draw.integer
  Draw.must .splitPayment (split value payee draw)

/-- Pays a coin to a random address. -/
def drawAny (params : NetworkParams) : Draw Tx := do
  let payee ← Draw.address params
  drawSplit Money.coin payee

/-- Pays a value to an address, with change to a random one. -/
def drawWithChange (params : NetworkParams) (value : UInt64) (payee : Address) : Draw Tx := do
  let change ← Draw.address params
  Draw.must .paymentWithChange (withChange value payee change)

/-- Pays a value to a key, with change to a random one. -/
def drawToKey (value : UInt64) (payee : Key) : Draw Tx := do
  let change ← Draw.key
  Draw.must .paymentToKey (toKey value payee change)

/-- Two payments in a row, with change to a random address. -/
def drawPair (params : NetworkParams) (value : UInt64) (payee source : Address) :
    Draw (Tx × Tx) := do
  let change ← Draw.address params
  Draw.must .transactionPair (pair value payee source change)

/-- Two payments of the same output, the second back to a random cheat. -/
def drawDoubleSpend (params : NetworkParams) (payee : Address) : Draw DoubleSpend := do
  let cheat ← Draw.address params
  Draw.must .doubleSpends (doubleSpend payee cheat)

/-- Makes an output from a payment to a random address, which is kept as a copy at the input. The
result has not been through the wire. -/
def drawSpending (params : NetworkParams) (output : TxOutput) : Draw Tx := do
  let payee ← Draw.address params
  let previous ← drawWithChange params Money.coin payee
  Draw.must .spendFeeder ((feeder output).connect previous 0 .empty)

/-- A coinbase that pays the reward to a random key. It has not been through the wire. -/
def drawCoinbase : Draw Tx := do
  let payee ← Draw.key
  return (Tx.coinbase none []).addOutput (.toKey Money.fiftyCoins payee)

end TestChain.Payment
