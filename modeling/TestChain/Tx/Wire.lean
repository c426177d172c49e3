import TestChain.Tx.Basic
import TestChain.Wire.Basic

/-! Transactions on the wire.

`Tx.encode` writes a transaction whatever its size, and `Tx.toBytes` refuses one over the limit.
`Tx.ofBytes` reads a transaction of any size from all of a byte string. What the holder knows is not
written, so it is absent from what is read. -/
namespace TestChain

open Wire (Reader)

def Network.encode (n : Network) : Bytes := Wire.u32 n.index

def Network.read : Reader Network := Reader.choose (Network.all.map pure)

def Address.encode (a : Address) : Bytes := a.network.encode ++ a.hash.toList

def Address.read : Reader Address := do
  let network ← Network.read
  let hash ← Reader.fixed 20
  return ⟨network, hash⟩

def OutPoint.encode (o : OutPoint) : Bytes := o.txid.toList ++ Wire.u32 o.vout

def OutPoint.read : Reader OutPoint := do
  let txid ← Reader.fixed 32
  let vout ← Reader.u32
  return ⟨txid, vout⟩

def LockScript.encode : LockScript → Bytes
  | payToAddress a => Wire.u32 0 ++ a.encode
  | payToKey publicKey => Wire.u32 1 ++ Wire.string publicKey

def LockScript.read : Reader LockScript :=
  Reader.choose [payToAddress <$> Address.read, payToKey <$> Reader.string]

def SigHash.encode (s : SigHash) : Bytes := Wire.u32 s.code.toUInt32

def SigHash.read : Reader SigHash := Reader.choose [pure .all, pure .none, pure .single]

def Signature.encode (s : Signature) : Bytes := Wire.string s.bytes ++ s.sighash.encode

def Signature.read : Reader Signature := do
  let bytes ← Reader.string
  let sighash ← SigHash.read
  return ⟨bytes, sighash⟩

def UnlockScript.encode : UnlockScript → Bytes
  | empty => Wire.u32 0
  | signature s => Wire.u32 1 ++ s.encode
  | coinbase height extra => Wire.u32 2 ++ Wire.option Wire.u32 height ++ Wire.string extra

def UnlockScript.readCoinbase : Reader UnlockScript := do
  let height ← Reader.option Reader.u32
  let extra ← Reader.string
  return coinbase height extra

def UnlockScript.read : Reader UnlockScript :=
  Reader.choose [pure empty, signature <$> Signature.read, readCoinbase]

def TxInput.encode (i : TxInput) : Bytes :=
  i.previous.encode ++ i.script.encode ++ Wire.u32 i.sequence

def TxInput.read : Reader TxInput := do
  let previous ← OutPoint.read
  let script ← UnlockScript.read
  let sequence ← Reader.u32
  return ⟨previous, script, sequence, none⟩

def TxOutput.encode (o : TxOutput) : Bytes := Wire.u64 o.value ++ o.script.encode

def TxOutput.read : Reader TxOutput := do
  let value ← Reader.u64
  let script ← LockScript.read
  return ⟨value, script⟩

/-- The bytes of an item that has so many at most. -/
def Wire.Item.bounded (item : Wire.Item) (bs : Bytes) : Except ChainError Bytes :=
  if bs.length ≤ item.limit then .ok bs else .error (.encoding item)

/-- The item in all of a byte string. -/
def Wire.Item.readAll (item : Wire.Item) (reader : Reader α) (bs : Bytes) : Except ChainError α :=
  (reader.run bs).mapError (.decoding item)

namespace Tx

/-- The transaction written, whatever its size. -/
def encode (tx : Tx) : Bytes :=
  Wire.u32 tx.version ++ Wire.list TxInput.encode tx.inputs ++
    Wire.list TxOutput.encode tx.outputs ++ Wire.u32 tx.lockTime

def read : Reader Tx := do
  let version ← Reader.u32
  let inputs ← Reader.list TxInput.read
  let outputs ← Reader.list TxOutput.read
  let lockTime ← Reader.u32
  return ⟨version, inputs, outputs, lockTime, .unknown⟩

/-- The transaction written, if it is within the limit. -/
def toBytes (tx : Tx) : Except ChainError Bytes := Wire.Item.transaction.bounded tx.encode

/-- The transaction in all of a byte string. -/
def ofBytes (bs : Bytes) : Except ChainError Tx := Wire.Item.transaction.readAll read bs

end Tx

end TestChain
