import TestChain.Store.Database

/-! The store in memory, and a store of either kind, for a caller that chooses the kind while it
runs.

A store in memory starts from the first block of its parameters, and its reads and writes do not
fail, save for a head that is not stored. -/
namespace TestChain

/-! ### In memory -/

structure MemoryStore where
  params : NetworkParams
  blocks : Table Digest ChainRecord
  head : Digest

namespace MemoryStore

/-- The store of a chain that holds its first block and nothing else. -/
def seeded (params : NetworkParams) (genesis : ChainRecord) : MemoryStore :=
  ⟨params, Table.empty.insert genesis.hash genesis, genesis.hash⟩

/-- A new store, which the first block has to be found for. -/
def new (params : NetworkParams) : Except Failure MemoryStore := do
  let genesis ← Block.genesis params
  return seeded params (.genesis genesis)

/-- The number of records. -/
def size (s : MemoryStore) : Nat := s.blocks.size

/-- The record that the head pointer names. -/
def headRecord (s : MemoryStore) : Except ChainError ChainRecord :=
  match s.blocks.get? s.head with
  | some record => .ok record
  | none => .error (.notFound s.head.hex)

instance : BlockStore MemoryStore where
  params := MemoryStore.params
  get s hash := .ok (s.blocks.get? hash)
  head := headRecord
  put s record := .ok { s with blocks := s.blocks.insert record.hash record }
  setHead s record := .ok { s with head := record.hash }

end MemoryStore

/-! ### Either kind -/

inductive AnyStore
  | memory (store : MemoryStore)
  | database (store : DatabaseStore)

namespace AnyStore

instance : BlockStore AnyStore where
  params
    | memory s => s.params
    | database s => s.params
  get
    | memory s, hash => BlockStore.get s hash
    | database s, hash => BlockStore.get s hash
  head
    | memory s => BlockStore.head s
    | database s => BlockStore.head s
  put
    | memory s, record => memory <$> BlockStore.put s record
    | database s, record => database <$> BlockStore.put s record
  setHead
    | memory s, record => memory <$> BlockStore.setHead s record
    | database s, record => database <$> BlockStore.setHead s record

end AnyStore

end TestChain
