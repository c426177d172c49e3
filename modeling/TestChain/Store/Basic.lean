import TestChain.Block.Basic

/-! Chain records and chain stores.

A record is a header with its place in the chain: the total work of the chain up to its header, and
its height. `ChainRecord.build` makes the record of a block from that of the block before it;
heights do not wrap, and work stops at the largest value.

A store keeps the records it is given under their hashes, and a pointer to the head of the chain. It
does not ask whether the head is stored, or whether records belong together. A write that fails
leaves the store as it was. -/
namespace TestChain

structure ChainRecord where
  header : Header
  /-- The work of all headers from the first to this one. -/
  chainWork : Work
  /-- The number of headers before this one. -/
  height : UInt32
  deriving DecidableEq

namespace ChainRecord

def hash (r : ChainRecord) : Digest := r.header.hash

/-- The record of a first block. -/
def genesis (b : Block) : ChainRecord := ⟨b.header, b.work, 0⟩

/-- The record of the block after this one. -/
def build (r : ChainRecord) (b : Block) : Except ChainError ChainRecord :=
  if b.header.previous ≠ r.hash then
    .error (.linkage b.hash b.header.previous r.hash)
  else if r.height.toNat + 1 < UInt32.size then
    .ok ⟨b.header, r.chainWork.add b.work, r.height + 1⟩
  else .error (.block (.heightOverflow r.height))

/-- More work was done for the chain of this record than for that of the other. -/
def moreWorkThan (r other : ChainRecord) : Bool := other.chainWork.toNat < r.chainWork.toNat

end ChainRecord

/-! ### Stores -/

class BlockStore (σ : Type) where
  params : σ → NetworkParams
  /-- The record of a hash. -/
  get : σ → Digest → Except ChainError (Option ChainRecord)
  /-- The record that the head pointer names. -/
  head : σ → Except ChainError ChainRecord
  /-- The store with the record under its hash. -/
  put : σ → ChainRecord → Except ChainError σ
  /-- The store with the head pointer at the record. -/
  setHead : σ → ChainRecord → Except ChainError σ

/-- The record of the block before, where the store has it. -/
def ChainRecord.previous? {σ : Type} [BlockStore σ] (r : ChainRecord) (store : σ) :
    Except ChainError (Option ChainRecord) :=
  BlockStore.get store r.header.previous

end TestChain
