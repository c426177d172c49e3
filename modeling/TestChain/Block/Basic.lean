import TestChain.Block.Header
import TestChain.Tx.Basic

/-! Blocks: a header and the transactions it commits to.

A list of digests has a Merkle root: digests are joined two by two, level after level, until one is
left. A level of odd length pairs its last digest with itself, so a list and the same list with its
last digest repeated have one root.

`Block.new` and `Block.addTransaction` keep the header's root at that of the transactions'
identities. Changing anything in the header undoes an earlier search for its nonce. On the wire
there are the header and then the list of transactions. -/
namespace TestChain

/-! ### Merkle roots -/

namespace Merkle

/-- The digest of two digests, one after the other. -/
def join (left right : Digest) : Digest := sha256d (left.toList ++ right.toList)

/-- The level above: neighbours joined, and a last digest without a neighbour joined with itself. -/
def levelAbove : List Digest → List Digest
  | [] => []
  | [last] => [join last last]
  | left :: right :: rest => join left right :: levelAbove rest

theorem length_levelAbove (level : List Digest) :
    (levelAbove level).length = (level.length + 1) / 2 := by
  fun_induction levelAbove level with
  | case1 => rfl
  | case2 => simp
  | case3 left right rest ih => simp only [List.length_cons, ih]; omega

/-- The digest that is left of a level; zeros for an empty one. -/
def root : List Digest → Digest
  | [] => Digest.zero
  | [only] => only
  | left :: right :: rest => root (levelAbove (left :: right :: rest))
  termination_by level => level.length
  decreasing_by simp only [length_levelAbove, List.length_cons]; omega

end Merkle

/-! ### Blocks -/

structure Block where
  header : Header
  transactions : List Tx

/-- The Merkle root of transactions, over their identities. -/
def merkleRoot (txs : List Tx) : Digest := Merkle.root (txs.map Tx.txid)

namespace Block

/-- A block that no nonce has been looked for. -/
def new (version : UInt32) (previous : Digest) (difficulty : UInt32) (timestamp : UInt64)
    (txs : List Tx) : Block :=
  ⟨⟨version, previous, merkleRoot txs, timestamp, difficulty, 0⟩, txs⟩

/-- Blocks are compared by header and by the identities of their transactions. -/
instance : BEq Block := ⟨fun a b => a.header = b.header && a.transactions == b.transactions⟩

def hash (b : Block) : Digest := b.header.hash

def work (b : Block) : Work := b.header.work

/-- What the block says, without what the holder of its transactions knows. -/
def strip (b : Block) : Block := { b with transactions := b.transactions.map Tx.strip }

/-- The first transaction, if it is a coinbase. -/
def coinbase? (b : Block) : Option Tx := b.transactions.head?.filter Tx.isCoinbase

/-- The block with its root computed again. -/
def refreshRoot (b : Block) : Block :=
  { b with header := { b.header with merkleRoot := merkleRoot b.transactions } }

/-- The block with one more transaction at the end. -/
def addTransaction (b : Block) (tx : Tx) : Block :=
  refreshRoot { b with transactions := b.transactions ++ [tx] }

end Block

/-! ### On the wire -/

namespace Block

open Wire (Reader)

/-- The block written, whatever its size. -/
def encode (b : Block) : Bytes := b.header.encode ++ Wire.list Tx.encode b.transactions

def read : Reader Block := do
  let header ← Header.read
  let transactions ← Reader.list Tx.read
  return ⟨header, transactions⟩

/-- The block written, if it is within the limit. -/
def toBytes (b : Block) : Except ChainError Bytes := Wire.Item.block.bounded b.encode

/-- The block in all of a byte string. -/
def ofBytes (bs : Bytes) : Except ChainError Block := Wire.Item.block.readAll read bs

end Block

/-! ### Successors -/

/-- The number of coinbases made so far, which keeps those that follow apart. It wraps after 2^32 of
them. -/
structure CoinbaseCounter where
  next : UInt32

/-- Computations that may make coinbases. -/
abbrev Numbered := StateM CoinbaseCounter

/-- The next number, which is not given again before the counter wraps. -/
def CoinbaseCounter.take : Numbered UInt32 := modifyGet fun c => (c.next, ⟨c.next + 1⟩)

/-- A coinbase under a number, paying the reward of a block. -/
def Tx.reward (number : UInt32) (payee : Address) (height : Option UInt32) : Tx :=
  (coinbase height (Wire.u32 number)).addOutput (.toAddress Money.fiftyCoins payee)

namespace Header

/-- The block after this header that holds nothing but the coinbase of a number. It takes over the
difficulty. -/
def successor (h : Header) (number : UInt32) (payee : Address) (version : UInt32)
    (timestamp : UInt64) (height : Option UInt32) : Block :=
  .new version h.hash h.difficulty timestamp [.reward number payee height]

/-- The block after this header, under the next number. -/
def nextBlock (h : Header) (payee : Address) (version : UInt32) (timestamp : UInt64)
    (height : Option UInt32) : Numbered Block := do
  let number ← CoinbaseCounter.take
  return h.successor number payee version timestamp height

end Header

end TestChain
