import TestChain.Tx.Script
import TestChain.Wire.Basic

/-! Transactions.

A `Tx` spends outputs of earlier transactions and makes new ones. Beside what it says, it may carry
what its holder knows: where it was heard of (`provenance`) and copies of the outputs that it spends
(`TxInput.connected`). That knowledge is not part of the transaction; `Tx.strip` is the transaction
without it.

A transaction is identified by the digest of its `preimage`, which spells out every field that is
part of it, with the length before each list and string and a byte before each alternative. Two
transactions are the same (`==`) when their identities are. -/
namespace TestChain

structure TxOutput where
  value : UInt64
  script : LockScript
  deriving DecidableEq

namespace TxOutput

def toAddress (value : UInt64) (payee : Address) : TxOutput := ⟨value, .payToAddress payee⟩

def toKey (value : UInt64) (payee : Key) : TxOutput := ⟨value, .ofKey payee⟩

end TxOutput

structure TxInput where
  /-- The output that is spent. -/
  previous : OutPoint
  script : UnlockScript
  sequence : UInt32
  /-- A copy of that output, where it is at hand. -/
  connected : Option TxOutput
  deriving DecidableEq

namespace TxInput

/-- The last sequence number: the input is final. -/
def sequenceFinal : UInt32 := 0xffffffff

/-- A final input without a copy of what it spends. -/
def new (previous : OutPoint) (script : UnlockScript) : TxInput :=
  ⟨previous, script, sequenceFinal, none⟩

/-- The input without the copy. -/
def strip (i : TxInput) : TxInput := { i with connected := none }

end TxInput

/-- Where a transaction was heard of. -/
inductive Provenance
  | unknown
  | network
  | selfOwned
  deriving DecidableEq

structure Tx where
  version : UInt32
  inputs : List TxInput
  outputs : List TxOutput
  lockTime : UInt32
  provenance : Provenance

namespace Tx

/-- The version of a new transaction. -/
def currentVersion : UInt32 := 1

/-- A transaction that spends and pays nothing. -/
def empty : Tx := ⟨currentVersion, [], [], 0, .unknown⟩

/-- What the transaction says, without what its holder knows. -/
def strip (tx : Tx) : Tx :=
  { tx with inputs := tx.inputs.map TxInput.strip, provenance := .unknown }

def addInput (tx : Tx) (i : TxInput) : Tx := { tx with inputs := tx.inputs ++ [i] }

def addOutput (tx : Tx) (o : TxOutput) : Tx := { tx with outputs := tx.outputs ++ [o] }

/-- A coinbase that pays nothing yet: its one input spends the null outpoint. -/
def coinbase (height : Option UInt32) (extra : Bytes) : Tx :=
  empty.addInput (.new .null (.coinbase height extra))

/-- One input, and that spends the null outpoint. -/
def isCoinbase (tx : Tx) : Bool :=
  match tx.inputs with
  | [i] => i.previous.isNull
  | _ => false

/-- The sum of the outputs' values, unless it overflows. -/
def totalOutput (tx : Tx) : Except Overflow UInt64 :=
  tx.outputs.foldlM (fun total o => addChecked total o.value) 0

end Tx

/-! ### Identity -/

def OutPoint.preimage (o : OutPoint) : Bytes := o.txid.toList ++ Wire.u32 o.vout

def LockScript.preimage : LockScript → Bytes
  | payToAddress a => 0 :: a.network.addressByte :: a.hash.toList
  | payToKey publicKey => 1 :: Wire.string publicKey

def UnlockScript.preimage : UnlockScript → Bytes
  | empty => [0]
  | signature s => 1 :: (Wire.string s.bytes ++ [s.sighash.code])
  | coinbase height extra => 2 :: (Wire.option Wire.u32 height ++ Wire.string extra)

def TxInput.preimage (i : TxInput) : Bytes :=
  i.previous.preimage ++ i.script.preimage ++ Wire.u32 i.sequence

def TxOutput.preimage (o : TxOutput) : Bytes := Wire.u64 o.value ++ o.script.preimage

namespace Tx

/-- Every field of the transaction, in order. -/
def preimage (tx : Tx) : Bytes :=
  Wire.u32 tx.version ++ Wire.list TxInput.preimage tx.inputs ++
    Wire.list TxOutput.preimage tx.outputs ++ Wire.u32 tx.lockTime

/-- The identity of the transaction. -/
def txid (tx : Tx) : Digest := sha256d tx.preimage

/-- Transactions are compared by identity. -/
instance : BEq Tx := ⟨fun a b => a.txid = b.txid⟩

/-- The outpoint of an output. -/
def outPoint (tx : Tx) (vout : UInt32) : OutPoint := ⟨tx.txid, vout⟩

/-- The transaction with one more input, which spends an output of `previous` and keeps a copy of
it. -/
def connect (tx previous : Tx) (vout : UInt32) (script : UnlockScript) : Except ChainError Tx :=
  match previous.outputs[vout.toNat]? with
  | none => .error (.transaction (.noOutput previous.txid vout))
  | some output =>
    .ok (tx.addInput { TxInput.new (previous.outPoint vout) script with connected := some output })

end Tx

end TestChain
