import TestChain.Block.Solve
import TestChain.Block.Verify
import TestChain.Fixture.Basic
import TestChain.Store.Basic

/-! Blocks to test with, and chains of them.

`Chain.extend` makes a block on a stored parent, solves it, checks it, and only then writes its
record and moves the head there. It works on a `Workbench`: a store, and the count of coinbases
made. The writes that were done before one that fails stay done. -/
namespace TestChain

/-- A store to build on, and the count of the coinbases made so far. -/
structure Workbench (σ : Type) where
  store : σ
  coinbases : CoinbaseCounter

/-- Work at a bench. What was done before a failure stays done. -/
abbrev Bench (σ : Type) := ExceptT Failure (StateM (Workbench σ))

namespace Bench
variable {σ : Type}

/-- A step that makes coinbases. -/
def numbered (step : Numbered α) : Bench σ α := do
  let bench ← getThe (Workbench σ)
  let (a, coinbases) := step.run bench.coinbases
  set { bench with coinbases }
  return a

/-- A step that reads the store. -/
def read (step : σ → Except ChainError α) : Bench σ α := do
  let bench ← getThe (Workbench σ)
  orFail (step bench.store)

/-- A step that writes to the store. -/
def write (step : σ → Except ChainError σ) : Bench σ Unit := do
  let bench ← getThe (Workbench σ)
  let store ← orFail (step bench.store)
  set { bench with store }

/-- A step at which an error is the end of the fixture. -/
def must (step : FixtureStep) (work : Bench σ α) : Bench σ α :=
  ExceptT.adapt (Failure.during step) work

end Bench

/-- A block, and the record made of it. -/
structure BlockPair where
  block : Block
  record : ChainRecord

/-- The block with transactions added at the end. -/
def Block.addTransactions (b : Block) (txs : List Tx) : Block :=
  Block.refreshRoot { b with transactions := b.transactions ++ txs }

/-- The transaction as heard of from the network. -/
def Tx.fromNetwork (tx : Tx) : Tx := { tx with provenance := .network }

/-- Seconds since 1970, with times before then counted as its start. -/
def epochSeconds (time : Int) : UInt64 := UInt64.ofNat time.toNat

namespace Chain
variable {σ : Type} [BlockStore σ]

/-- A solved block on a parent, paying the reward to a key and holding transactions, stored as the
new head. The height is written in the coinbase; that of the record is counted from the parent. -/
def extend (key : Key) (parent : ChainRecord) (version : UInt32) (seconds : UInt64)
    (height : UInt32) (txs : List Tx) : Bench σ BlockPair := do
  let bench ← getThe (Workbench σ)
  let payee := key.address (BlockStore.params bench.store).network
  let started ← Bench.numbered (parent.header.nextBlock payee version seconds (some height))
  let block ← (started.addTransactions (txs.map Tx.fromNetwork)).solve
  orFail block.verifyHeader
  let record ← orFail (parent.build block)
  Bench.write (BlockStore.put · record)
  Bench.write (BlockStore.setHead · record)
  return ⟨block, record⟩

/-- Extends the chain at its head. -/
def extendHead (key : Key) (version : UInt32) (seconds : UInt64) (height : UInt32)
    (txs : List Tx) : Bench σ BlockPair := do
  let parent ← Bench.must .readHead (Bench.read BlockStore.head)
  Bench.must .extendChain (extend key parent version seconds height txs)

/-- Extends the chain at its head, at a time that may lie before 1970. -/
def extendHeadAt (key : Key) (version : UInt32) (time : Int) (height : UInt32) (txs : List Tx) :
    Bench σ BlockPair :=
  extendHead key version (epochSeconds time) height txs

/-- Extends the chain at its head with a plain block of the present time. -/
def extendHeadNow (key : Key) (now : Int) (height : UInt32) (txs : List Tx) : Bench σ BlockPair :=
  extendHeadAt key Block.versionGenesis now height txs

/-- The height written in a coinbase when none is given. -/
def defaultHeight : UInt32 := 0

/-- Extends the chain on a parent that need not be the head. -/
def tryExtendOn (key : Key) (parent : ChainRecord) (version : UInt32) (time : Int)
    (height : UInt32) (txs : List Tx) : Bench σ BlockPair :=
  extend key parent version (epochSeconds time) height txs

/-- Extends the chain on a parent that need not be the head, where failing is the end. -/
def extendOn (key : Key) (parent : ChainRecord) (version : UInt32) (time : Int) (height : UInt32)
    (txs : List Tx) : Bench σ BlockPair :=
  Bench.must .extendChain (tryExtendOn key parent version time height txs)

/-- Extends the chain on a parent with a block of the third version and the present time. -/
def extendOnNow (key : Key) (parent : ChainRecord) (now : Int) (height : UInt32) (txs : List Tx) :
    Bench σ BlockPair :=
  extendOn key parent Block.versionBip66 now height txs

/-! ### Blocks that are not stored -/

/-- Seconds between a block and the one made after it here. -/
def spacing : UInt64 := 5

/-- A solved block after a header, holding transactions as they are. -/
def solvedAfter (h : Header) (payee : Address) (txs : List Tx) :
    ExceptT Failure Numbered Block := do
  let seconds ← (addChecked h.timestamp spacing).mapError Failure.overflow
  let started ← h.nextBlock payee Block.versionGenesis seconds none
  (started.addTransactions txs).solve

/-- A solved block after the head of a store, which is left as it is. -/
def solvedOnHead (store : σ) (payee : Address) : ExceptT Failure Numbered Block := do
  let head ← orFail (BlockStore.head store)
  solvedAfter head.header payee []

/-- A solved block after another, paying the reward to a key on the network of the parameters. -/
def solvedForKey (params : NetworkParams) (key : Key) (previous : Block) (txs : List Tx) :
    ExceptT Failure Numbered Block :=
  solvedAfter previous.header (key.address params.network) txs

end Chain

end TestChain
