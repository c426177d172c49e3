import TestChain.Hash.Digest
import TestChain.Tx.Wire

/-! Block headers, and the work that they ask for.

A difficulty counts leading zero bits. `target` is the largest hash with that many, and a hash meets
the difficulty when it comes no later than the target in the order of byte strings. `Work` is the
expected number of tries, in 128 bits, with sums that stop at the largest value.

A header names the block before it, commits to the block's transactions, and is itself named by its
hash, the digest of its `preimage`. On the wire a header takes 88 bytes. -/
namespace TestChain

/-! ### Targets and work -/

/-- The byte at a place of the largest hash with so many leading zero bits. -/
def targetByte (difficulty : UInt32) (place : Nat) : UInt8 :=
  let whole := difficulty.toNat / 8
  let part := difficulty.toNat % 8
  if place < whole then 0
  else if place = whole then 0xff >>> UInt8.ofNat part
  else 0xff

/-- The largest hash with so many leading zero bits; all zero from 256 on. -/
def target (difficulty : UInt32) : Digest :=
  ⟨(List.range 32).map (targetByte difficulty), by simp⟩

/-- How many amounts of work there are: as many as 128 bits can tell apart. -/
def Work.size : Nat := 340282366920938463463374607431768211456

/-- An amount of work. -/
structure Work where
  toNat : Nat
  toNat_lt : toNat < Work.size
  deriving DecidableEq

namespace Work

/-- The most work. -/
def maximum : Work := ⟨size - 1, by decide⟩

/-- A number as work, or the most work if it does not fit. -/
def saturate (n : Nat) : Work := if h : n < size then ⟨n, h⟩ else maximum

instance : Inhabited Work := ⟨saturate 0⟩

/-- The sum, or the most work if it does not fit. -/
def add (a b : Work) : Work := saturate (a.toNat + b.toNat)

theorem shiftLeft_lt_size {k : Nat} (h : k < 128) : 1 <<< k < size := by
  rw [Nat.one_shiftLeft]
  exact Nat.pow_lt_pow_right (n := 128) (by decide) h

/-- The expected number of tries to meet a difficulty: a doubling for each bit, up to 127. -/
def ofDifficulty (difficulty : UInt32) : Work :=
  ⟨1 <<< min difficulty.toNat 127, shiftLeft_lt_size (by omega)⟩

end Work

/-! ### Headers -/

open Wire (Reader)

structure Header where
  version : UInt32
  /-- The hash of the block before. -/
  previous : Digest
  merkleRoot : Digest
  /-- Seconds since 1970. -/
  timestamp : UInt64
  /-- The leading zero bits that the hash must have. -/
  difficulty : UInt32
  nonce : UInt64
  deriving DecidableEq

namespace Header

/-- Every field of the header, in order. -/
def preimage (h : Header) : Bytes :=
  Wire.u32 h.version ++ h.previous.toList ++ h.merkleRoot.toList ++ Wire.u64 h.timestamp ++
    Wire.u32 h.difficulty ++ Wire.u64 h.nonce

/-- The name of the block. -/
def hash (h : Header) : Digest := sha256d h.preimage

def target (h : Header) : Digest := TestChain.target h.difficulty

/-- The hash has the zero bits that the difficulty asks for. -/
def meetsTarget (h : Header) : Bool := h.hash.le h.target

def work (h : Header) : Work := .ofDifficulty h.difficulty

/-- The header written. -/
def encode (h : Header) : Bytes :=
  Wire.u32 h.version ++ (h.previous.toList ++ (h.merkleRoot.toList ++ (Wire.u64 h.timestamp ++
    (Wire.u32 h.difficulty ++ Wire.u64 h.nonce))))

def read : Reader Header := do
  let version ← Reader.u32
  let previous ← Reader.fixed 32
  let merkleRoot ← Reader.fixed 32
  let timestamp ← Reader.u64
  let difficulty ← Reader.u32
  let nonce ← Reader.u64
  return ⟨version, previous, merkleRoot, timestamp, difficulty, nonce⟩

/-- The header written, if it is within the limit. -/
def toBytes (h : Header) : Except ChainError Bytes := Wire.Item.header.bounded h.encode

/-- The header in all of a byte string. -/
def ofBytes (bs : Bytes) : Except ChainError Header := Wire.Item.header.readAll read bs

end Header

end TestChain
