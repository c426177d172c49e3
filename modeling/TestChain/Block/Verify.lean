import Std.Data.HashMap
import TestChain.Block.Basic
import TestChain.Tx.Check

/-! The checks that a block passes on its own.

`Block.verifyHeader` asks that the first transaction and no other is a coinbase, that the root is
that of the transactions, and that the hash meets the target. `Block.verifyTransactions` asks that
each transaction passes its own checks and that no two different ones spend the same output;
coinbases are left out of the latter. `Block.verify` asks both. -/
namespace TestChain.Block

/-- The placing of the coinbase, the root and the work. -/
def verifyHeader (b : Block) : Except ChainError Unit :=
  match b.transactions with
  | [] => .error (.block .empty)
  | first :: others =>
    if !first.isCoinbase then .error (.block .firstNotCoinbase)
    else if others.any Tx.isCoinbase then .error (.block .secondCoinbase)
    else if merkleRoot b.transactions ≠ b.header.merkleRoot then .error .merkleRoot
    else if !b.header.meetsTarget then .error .proofOfWork
    else .ok ()

/-- The outputs spent so far, each with the last transaction that spends it. -/
abbrev Spends := Std.HashMap OutPoint Digest

/-- Notes what an input of a transaction spends, unless another transaction spends it too. -/
def Spends.note (txid : Digest) (spends : Spends) (i : TxInput) : Except ChainError Spends :=
  match spends[i.previous]? with
  | some first =>
    if first ≠ txid then .error (.doubleSpend i.previous first txid)
    else .ok (spends.insert i.previous txid)
  | none => .ok (spends.insert i.previous txid)

/-- Notes what the inputs of a transaction spend. -/
def Spends.noteAll (spends : Spends) (tx : Tx) : Except ChainError Spends :=
  tx.inputs.foldlM (Spends.note tx.txid) spends

/-- No output is spent by two transactions that differ. -/
def checkDoubleSpends (b : Block) : Except ChainError Unit := do
  let _ ← (b.transactions.filter (!·.isCoinbase)).foldlM Spends.noteAll ∅

/-- Every transaction on its own, and the spends of all together. -/
def verifyTransactions (b : Block) : Except ChainError Unit := do
  b.transactions.forM Tx.checkStructure
  b.checkDoubleSpends

/-- All checks of a block. -/
def verify (b : Block) : Except ChainError Unit := do
  b.verifyHeader
  b.verifyTransactions

end TestChain.Block
