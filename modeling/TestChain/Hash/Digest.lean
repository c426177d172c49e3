import TestChain.Bytes.Hex
import TestChain.Hash.Sha256

/-! Identities: the double SHA-256 of a byte string.

Transactions, blocks and addresses are named by a `Digest`, and an output of a transaction by an
`OutPoint`. Two byte strings with one digest are a `Collision`; what depends on digests telling
strings apart is said up to one. -/
namespace TestChain

/-- A hash of 32 bytes. -/
abbrev Digest := FixedBytes 32

namespace Digest

/-- The digest of nothing: 32 zero bytes, which no known string hashes to. -/
def zero : Digest := FixedBytes.zero 32

/-- The digest in lower-case hexadecimal, first byte first. -/
def hex (d : Digest) : String := Hex.encode d.toList

/-- The digest that a hexadecimal text of 32 bytes spells. -/
def ofHex? (text : String) : Option Digest :=
  match Hex.decode text.toList with
  | .ok bs => FixedBytes.ofList? 32 bs
  | .error _ => none

end Digest

/-- SHA-256 applied twice. -/
def sha256d (bs : Bytes) : Digest := Sha256.hash (Sha256.hash bs).toList

/-- The double SHA-256 of a message that arrives in pieces. -/
def sha256dOfChunks (chunks : List Bytes) : Digest := sha256d chunks.flatten

/-- Two different strings with one digest. -/
def Collision (a b : Bytes) : Prop := a ≠ b ∧ sha256d a = sha256d b

/-- An output named by the transaction that made it and its place there. -/
structure OutPoint where
  txid : Digest
  vout : UInt32
  deriving DecidableEq, Hashable

namespace OutPoint

/-- The outpoint that a coinbase spends: no transaction, the last index. -/
def null : OutPoint := ⟨Digest.zero, 0xffffffff⟩

def isNull (o : OutPoint) : Bool := o = null

/-- The transaction in hexadecimal, a colon, the index. -/
def text (o : OutPoint) : String := s!"{o.txid.hex}:{o.vout.toNat}"

end OutPoint

end TestChain
