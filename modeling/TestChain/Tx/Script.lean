import TestChain.Key.Address

/-! Scripts: what an output asks for, and what an input offers.

Only three offers exist: nothing, a signature, and the free text of a coinbase. Signatures are
carried and never checked here, so a placeholder of the right size (`Signature.placeholder`) serves.
-/
namespace TestChain

/-- What it takes to spend an output. -/
inductive LockScript
  /-- A proof of owning the key behind the address. -/
  | payToAddress (address : Address)
  /-- A signature under the compressed public key. -/
  | payToKey (publicKey : Bytes)
  deriving DecidableEq

namespace LockScript

/-- Pay to the public key of a key. -/
def ofKey (key : Key) : LockScript := payToKey key.publicKey.toList

end LockScript

/-- The part of a transaction that a signature covers. -/
inductive SigHash
  | all
  | none
  | single
  deriving DecidableEq

/-- The flag as a byte, and as an index on the wire. -/
def SigHash.code : SigHash → UInt8
  | .all => 0
  | .none => 1
  | .single => 2

structure Signature where
  bytes : Bytes
  sighash : SigHash
  deriving DecidableEq

/-- Twice half the order of the curve's group: the largest low signature, valid under no key. -/
def Signature.placeholder : Signature :=
  let half := BigEndian.encode 32 (Curve.groupOrder / 2)
  ⟨half ++ half, .all⟩

/-- What an input offers. -/
inductive UnlockScript
  | empty
  | signature (value : Signature)
  /-- The script of a coinbase: the height of its block where it is known, and bytes that keep
  coinbases apart. -/
  | coinbase (height : Option UInt32) (extra : Bytes)
  deriving DecidableEq

namespace UnlockScript

def placeholder : UnlockScript := signature Signature.placeholder

def isEmpty : UnlockScript → Bool
  | empty => true
  | _ => false

def isCoinbase : UnlockScript → Bool
  | coinbase .. => true
  | _ => false

end UnlockScript

end TestChain
