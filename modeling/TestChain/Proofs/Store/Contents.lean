import TestChain.Proofs.Bytes.Hex
import TestChain.Proofs.Store.Opening
import TestChain.Store.Any

/-! What stores hold.

`Contents` is a store with everything left out that no caller can see: a record under some hashes,
and the hash that the head pointer names. `Keeps` says of a relation between stores and contents
that reads give what is held and writes change what is held, without failing. Memory and databases
with both tables keep contents (`MemoryStore.keeps`, `DatabaseStore.keeps`), so what is proved about
contents holds of either kind (`AnyStore.keeps`). -/
namespace TestChain

/-- The records of a store by hash, and the hash that its head pointer names. -/
structure Contents where
  record? : Digest → Option ChainRecord
  head : Digest

namespace Contents

/-- The contents of a new chain: its first record, which is the head. -/
def seeded (genesis : ChainRecord) : Contents :=
  ⟨fun hash => if hash = genesis.hash then some genesis else none, genesis.hash⟩

/-- The contents with a record under its hash. -/
def put (c : Contents) (r : ChainRecord) : Contents :=
  { c with record? := fun hash => if hash = r.hash then some r else c.record? hash }

/-- The contents with the head pointer at a record. -/
def setHead (c : Contents) (r : ChainRecord) : Contents := { c with head := r.hash }

/-- The record that the head pointer names. -/
def headRecord (c : Contents) : Except ChainError ChainRecord :=
  match c.record? c.head with
  | some record => .ok record
  | none => .error (.notFound c.head.hex)

/-- The contents with a record under its hash and as the head. -/
def commit (c : Contents) (r : ChainRecord) : Contents := (c.put r).setHead r

theorem seeded_record? (genesis : ChainRecord) (hash : Digest) :
    (seeded genesis).record? hash = if hash = genesis.hash then some genesis else none := rfl

theorem seeded_headRecord (genesis : ChainRecord) : (seeded genesis).headRecord = .ok genesis := by
  have hfound : (seeded genesis).record? (seeded genesis).head = some genesis := if_pos rfl
  rw [headRecord, hfound]

theorem commit_record? (c : Contents) (r : ChainRecord) (hash : Digest) :
    (c.commit r).record? hash = if hash = r.hash then some r else c.record? hash := rfl

end Contents

/-- The stores that hold contents read as these, and writing changes the contents and nothing else.
-/
structure Keeps {σ : Type} [BlockStore σ] (holds : σ → Contents → Prop) : Prop where
  get : ∀ {s c}, holds s c → ∀ hash, BlockStore.get s hash = .ok (c.record? hash)
  head : ∀ {s c}, holds s c → BlockStore.head s = c.headRecord
  put : ∀ {s c}, holds s c → ∀ r, ∃ s', BlockStore.put s r = .ok s' ∧ holds s' (c.put r) ∧
    BlockStore.params s' = BlockStore.params s
  setHead : ∀ {s c}, holds s c → ∀ r, ∃ s', BlockStore.setHead s r = .ok s' ∧
    holds s' (c.setHead r) ∧ BlockStore.params s' = BlockStore.params s

/-! ### In memory -/

namespace MemoryStore

def Holds (s : MemoryStore) (c : Contents) : Prop :=
  (∀ hash, s.blocks.get? hash = c.record? hash) ∧ s.head = c.head

theorem holds_seeded (params : NetworkParams) (genesis : ChainRecord) :
    (seeded params genesis).Holds (.seeded genesis) := by
  refine ⟨fun hash => ?_, rfl⟩
  rw [seeded, Table.get?_insert, Table.get?_empty]
  rfl

theorem keeps : Keeps Holds where
  get h hash := congrArg Except.ok (h.1 hash)
  head {s c} h := by
    show s.headRecord = c.headRecord
    cases hfound : c.record? c.head <;>
      simp only [headRecord, Contents.headRecord, h.2, h.1 c.head, hfound]
  put {s c} h r := by
    refine ⟨{ s with blocks := s.blocks.insert r.hash r }, rfl, ⟨fun hash => ?_, h.2⟩, rfl⟩
    rw [Table.get?_insert, h.1 hash]
    rfl
  setHead {s c} h r := ⟨{ s with head := r.hash }, rfl, ⟨h.1, rfl⟩, rfl⟩

end MemoryStore

/-! ### In a database -/

@[simp] theorem FixedBytes.toList_inj {n : Nat} {a b : FixedBytes n} :
    a.toList = b.toList ↔ a = b :=
  ⟨FixedBytes.ext, congrArg FixedBytes.toList⟩

/-- Both tables are there, the rows are those of the records, and the text of the head's hash is
recorded. -/
structure Database.Holds (db : Database) (c : Contents) : Prop where
  blocks : ∃ rows, db.blocks = .table rows ∧
    ∀ hash : Digest, rows.get? hash.toList = (c.record? hash).map ChainRecord.row
  metadata : ∃ rows, db.metadata = .table rows ∧ rows.get? .chainHead = some c.head.hex

namespace Database
variable {db : Database} {c : Contents}

theorem Holds.get (h : db.Holds c) (hash : Digest) : db.get hash = .ok (c.record? hash) := by
  obtain ⟨rows, hblocks, hrows⟩ := h.blocks
  have hread : db.readBlock hash = .ok ((c.record? hash).map ChainRecord.row) := by
    rw [readBlock, hblocks, ← hrows hash]
  rw [Database.get, hread]
  cases c.record? hash with
  | none => rfl
  | some r =>
    show (r.row.toRecord >>= fun record => pure (some record)) = _
    rw [BlockRow.toRecord_row]
    rfl

theorem Holds.head (h : db.Holds c) : db.head = c.headRecord := by
  obtain ⟨rows, hmeta, hhead⟩ := h.metadata
  have hread : db.readMeta .chainHead = .ok (some c.head.hex) := by rw [readMeta, hmeta, ← hhead]
  have hget : db.get c.head = .ok (c.record? c.head) := h.get c.head
  simp only [Database.head, hread, Digest.ofHex?_hex, hget, bind, Except.bind, Contents.headRecord]
  cases c.record? c.head <;> rfl

/-- The row of a record stands under its own hash only. -/
theorem Holds.put (h : db.Holds c) (r : ChainRecord) :
    ∃ db', db.put r = .ok db' ∧ db'.Holds (c.put r) := by
  obtain ⟨rows, hblocks, hrows⟩ := h.blocks
  refine ⟨_, put_eq hblocks r, ⟨_, rfl, fun hash => ?_⟩, h.metadata⟩
  simp only [Table.get?_insert, FixedBytes.toList_inj, hrows hash, Contents.put]
  split <;> rfl

theorem Holds.setHead (h : db.Holds c) (r : ChainRecord) :
    ∃ db', db.setHead r = .ok db' ∧ db'.Holds (c.setHead r) := by
  obtain ⟨rows, hmeta, -⟩ := h.metadata
  refine ⟨_, setHead_eq hmeta r, h.blocks, _, rfl, ?_⟩
  rw [Table.get?_insert, if_pos rfl]
  rfl

end Database

namespace DatabaseStore

def Holds (s : DatabaseStore) (c : Contents) : Prop := s.database.Holds c

theorem keeps : Keeps Holds where
  get h := h.get
  head h := h.head
  put {s _} h r := by
    obtain ⟨db, hput, hdb⟩ := h.put r
    refine ⟨{ s with database := db }, ?_, hdb, rfl⟩
    show (s.database.put r >>= fun db => pure { s with database := db }) = _
    rw [hput]
    rfl
  setHead {s _} h r := by
    obtain ⟨db, hset, hdb⟩ := h.setHead r
    refine ⟨{ s with database := db }, ?_, hdb, rfl⟩
    show (s.database.setHead r >>= fun db => pure { s with database := db }) = _
    rw [hset]
    rfl

end DatabaseStore

/-! ### Either kind -/

namespace AnyStore

def Holds : AnyStore → Contents → Prop
  | memory s => s.Holds
  | database s => s.Holds

theorem keeps : Keeps Holds where
  get {s _} h := by
    cases s with
    | memory s => exact MemoryStore.keeps.get h
    | database s => exact DatabaseStore.keeps.get h
  head {s _} h := by
    cases s with
    | memory s => exact MemoryStore.keeps.head h
    | database s => exact DatabaseStore.keeps.head h
  put {s _} h r := by
    cases s with
    | memory s =>
      obtain ⟨s', hput, hs', hparams⟩ := MemoryStore.keeps.put h r
      exact ⟨memory s', congrArg (memory <$> ·) hput, hs', hparams⟩
    | database s =>
      obtain ⟨s', hput, hs', hparams⟩ := DatabaseStore.keeps.put h r
      exact ⟨database s', congrArg (database <$> ·) hput, hs', hparams⟩
  setHead {s _} h r := by
    cases s with
    | memory s =>
      obtain ⟨s', hset, hs', hparams⟩ := MemoryStore.keeps.setHead h r
      exact ⟨memory s', congrArg (memory <$> ·) hset, hs', hparams⟩
    | database s =>
      obtain ⟨s', hset, hs', hparams⟩ := DatabaseStore.keeps.setHead h r
      exact ⟨database s', congrArg (database <$> ·) hset, hs', hparams⟩

end AnyStore

/-! ### New stores -/

theorem MemoryStore.new_eq (params : NetworkParams) :
    new params = (Block.genesis params).map fun b => seeded params (.genesis b) := by
  unfold new
  cases Block.genesis params <;> rfl

namespace Database

/-- The database with both tables and nothing in them. -/
def blank : Database := ⟨.table .empty, .table .empty⟩

/-- The database of a new chain. -/
def seeded (network : Network) (genesis : ChainRecord) : Database :=
  ⟨.table (Table.empty.insert genesis.hash.toList genesis.row),
    .table ((Table.empty.insert .chainHead genesis.hash.hex).insert .network network.name)⟩

theorem holds_seeded (network : Network) (genesis : ChainRecord) :
    (seeded network genesis).Holds (.seeded genesis) := by
  refine ⟨⟨_, rfl, fun hash => ?_⟩, _, rfl, ?_⟩
  · simp only [Table.get?_insert, Table.get?_empty, FixedBytes.toList_inj, Contents.seeded]
    split <;> rfl
  · rw [Table.get?_insert, if_neg (by decide), Table.get?_insert, if_pos rfl]
    rfl

end Database

/-- A store in a new database holds what a new store in memory does. -/
theorem DatabaseStore.openIn_empty (params : NetworkParams) :
    openIn params .empty =
      match Block.genesis params with
      | .ok b => (.ok ⟨params, .seeded params.network (.genesis b)⟩,
          .seeded params.network (.genesis b))
      | .error failure => (.error failure, .blank) := by
  rw [Database.openIn_new rfl (Table.get?_empty _)]
  cases Block.genesis params <;> rfl

end TestChain
