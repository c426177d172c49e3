import TestChain.Block.Solve
import TestChain.Store.Basic
import TestChain.Store.Table

/-! The store in a database of two tables.

One table holds the rows of blocks under their hashes, the other the network and the head, as texts
under a `MetaKey`. A row spells a record in columns (`BlockRow`), and since a database can be
changed from outside, reading a row checks every column. A table may be missing, or its name may be
taken by something else (`Slot`).

A database changes by single writes only (`Database.Write`), each of which is done or not done.
`Database.setUp` makes the tables if they are missing and, if no network is recorded, writes the
first block, the head and, last of all, the network; so a set-up that is cut short is taken up again
by the next. It runs on whatever takes writes (`Database.Writable`), be it a database that refuses
some of them. -/
namespace TestChain

/-- A record in columns. -/
structure BlockRow where
  height : Int64
  /-- Sixteen bytes, least significant first. -/
  chainWork : Bytes
  header : Bytes
  deriving DecidableEq

/-- The columns of a record. -/
def ChainRecord.toRow (r : ChainRecord) : Except ChainError BlockRow := do
  let header ← r.header.toBytes
  return ⟨Int64.ofNat r.height.toNat, LittleEndian.encode 16 r.chainWork.toNat, header⟩

namespace BlockRow

/-- The work that sixteen bytes spell. -/
def workOf (bs : FixedBytes 16) : Work :=
  ⟨LittleEndian.decode bs.toList, by
    have h := LittleEndian.decode_lt bs.toList
    rw [bs.length_toList] at h
    exact h⟩

/-- The record that the columns spell. The first column at fault is reported, of work, height and
header in this order. -/
def toRecord (row : BlockRow) : Except ChainError ChainRecord :=
  match FixedBytes.ofList? 16 row.chainWork with
  | none => .error (.database (.workSize row.chainWork.length))
  | some work =>
    let height := row.height.toInt
    if 0 ≤ height ∧ height < UInt32.size then do
      let header ← Header.ofBytes row.header
      return ⟨header, workOf work, UInt32.ofNat height.toNat⟩
    else .error (.database (.height height))

end BlockRow

/-- The place of a table. -/
inductive Slot (α : Type)
  | missing
  /-- Something else has the name, so that no table can be made. -/
  | taken
  | table (rows : α)

structure Database where
  /-- Rows under the hashes they were stored under. -/
  blocks : Slot (Table Bytes BlockRow)
  metadata : Slot (Table MetaKey String)

namespace Database

/-- A file without tables. -/
def empty : Database := ⟨.missing, .missing⟩

/-- A file that is no database: it has no tables, and none can be made. -/
def unreadable : Database := ⟨.taken, .taken⟩

/-! ### Reading -/

/-- The row of a hash. -/
def readBlock (db : Database) (hash : Digest) : Except ChainError (Option BlockRow) :=
  match db.blocks with
  | .table rows => .ok (rows.get? hash.toList)
  | _ => .error (.database .loadBlock)

/-- The text under a key. -/
def readMeta (db : Database) (key : MetaKey) : Except ChainError (Option String) :=
  match db.metadata with
  | .table rows => .ok (rows.get? key)
  | _ => .error (.database (.readMeta key))

/-- The record of a hash. -/
def get (db : Database) (hash : Digest) : Except ChainError (Option ChainRecord) := do
  match ← db.readBlock hash with
  | none => return none
  | some row => return some (← row.toRecord)

/-- The record of the hash that is written as the head. -/
def head (db : Database) : Except ChainError ChainRecord := do
  match ← db.readMeta .chainHead with
  | none => throw (.database .headNotSet)
  | some text =>
    match Digest.ofHex? text with
    | none => throw (.database (.corruptHead text))
    | some hash =>
      match ← db.get hash with
      | none => throw (.notFound text)
      | some record => return record

/-! ### Writing -/

/-- One write, which is done or not done. -/
inductive Write
  | createBlocks
  | createMetadata
  | saveBlock (hash : Digest) (row : BlockRow)
  | saveMeta (key : MetaKey) (value : String)

/-- The database after a write. -/
def apply (db : Database) : Write → Except ChainError Database
  | .createBlocks =>
    match db.blocks with
    | .missing => .ok { db with blocks := .table .empty }
    | .table _ => .ok db
    | .taken => .error (.database .createBlocks)
  | .createMetadata =>
    match db.metadata with
    | .missing => .ok { db with metadata := .table .empty }
    | .table _ => .ok db
    | .taken => .error (.database .createMetadata)
  | .saveBlock hash row =>
    match db.blocks with
    | .table rows => .ok { db with blocks := .table (rows.insert hash.toList row) }
    | _ => .error (.database .saveBlock)
  | .saveMeta key value =>
    match db.metadata with
    | .table rows => .ok { db with metadata := .table (rows.insert key value) }
    | _ => .error (.database (.saveMeta key))

/-- The write of a record under its hash. -/
def Write.record (r : ChainRecord) : Except ChainError Write := do
  let row ← r.toRow
  return .saveBlock r.hash row

/-- The write of a record as the head. -/
def Write.head (r : ChainRecord) : Write := .saveMeta .chainHead r.hash.hex

/-- The database with a record under its hash. -/
def put (db : Database) (r : ChainRecord) : Except ChainError Database := do
  db.apply (← Write.record r)

/-- The database with a record as its head. -/
def setHead (db : Database) (r : ChainRecord) : Except ChainError Database :=
  db.apply (.head r)

/-! ### Setting up -/

/-- What a set-up works on: a database, however its writes come to be done or refused. -/
class Writable (σ : Type) where
  database : σ → Database
  apply : σ → Write → Except ChainError σ

instance : Writable Database := ⟨id, apply⟩

/-- A run of writes, which keeps those done before one that fails. -/
abbrev Run (σ : Type) := ExceptT Failure (StateM σ)

section
variable {σ : Type} [Writable σ]

/-- Does a write, or fails and leaves what there is. -/
def write (w : Write) : Run σ Unit := do
  match Writable.apply (← getThe σ) w with
  | .ok s => set s
  | .error cause => throw (.error cause)

/-- Writes the first block of a chain, its head and its network, in this order. -/
def seed (network : Network) (genesis : ChainRecord) : Run σ Unit := do
  write (← orFail (Write.record genesis))
  write (.head genesis)
  write (.saveMeta .network network.name)

/-- Makes the database ready for a chain: makes the tables, and writes the first block unless a
network is recorded, which then has to be the chain's. -/
def setUp (params : NetworkParams) : Run σ Unit := do
  write .createBlocks
  write .createMetadata
  match ← orFail ((Writable.database (← getThe σ)).readMeta .network) with
  | some name =>
    let network ← orFail (Network.parse name)
    if network ≠ params.network then
      throw (.error (.configuration (.otherNetwork network params.network)))
  | none =>
    let genesis ← Block.genesis params
    seed params.network (.genesis genesis)

end

end Database

/-- A store in a database that is set up. -/
structure DatabaseStore where
  params : NetworkParams
  database : Database

namespace DatabaseStore

/-- The store of a chain in a database, and the database as it is left, also by a failure. -/
def openIn (params : NetworkParams) (db : Database) : Except Failure DatabaseStore × Database :=
  match (Database.setUp params).run.run db with
  | (.ok (), db) => (.ok ⟨params, db⟩, db)
  | (.error failure, db) => (.error failure, db)

instance : BlockStore DatabaseStore where
  params := DatabaseStore.params
  get s := s.database.get
  head s := s.database.head
  put s record := return { s with database := ← s.database.put record }
  setHead s record := return { s with database := ← s.database.setHead record }

end DatabaseStore

end TestChain
