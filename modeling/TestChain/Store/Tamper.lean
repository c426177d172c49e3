import TestChain.Store.Database

/-! Changes to a database that no store makes.

A file can be edited by other hands: rows get values that no record has, vanish, or move under
another key, and so do whole tables. `Tampering.apply` makes one such change and counts the rows
that it hit. -/
namespace TestChain

/-- A change from outside. Rows of blocks are named by the key that they are stored under. -/
inductive Tampering
  | height (key : Bytes) (value : Int64)
  | chainWork (key value : Bytes)
  | header (key value : Bytes)
  /-- The row moves under another key. -/
  | rename (key other : Bytes)
  | deleteBlock (key : Bytes)
  | writeMeta (key : MetaKey) (value : String)
  | deleteMeta (key : MetaKey)
  | dropBlocks
  | dropMetadata
  /-- The table's name is given to something else. -/
  | takeMetadata
  /-- The file becomes something that is no database. -/
  | ruin

namespace Tampering

/-- A table after a change of the row of a key, and how many rows there were to change. -/
def rework [DecidableEq κ] (slot : Slot (Table κ α)) (key : κ)
    (change : α → Table κ α → Table κ α) : Slot (Table κ α) × Nat :=
  match slot with
  | .table rows =>
    match rows.get? key with
    | some row => (.table (change row rows), 1)
    | none => (.table rows, 0)
  | other => (other, 0)

/-- A database with the row of a key changed. -/
def editRow (db : Database) (key : Bytes) (edit : BlockRow → BlockRow) : Database × Nat :=
  let (blocks, hit) := rework db.blocks key fun row rows => rows.insert key (edit row)
  ({ db with blocks }, hit)

/-- The database after the change, and the number of rows hit. Dropping a table counts as one. -/
def apply (db : Database) : Tampering → Database × Nat
  | height key value => editRow db key fun row => { row with height := value }
  | chainWork key value => editRow db key fun row => { row with chainWork := value }
  | header key value => editRow db key fun row => { row with header := value }
  | rename key other =>
    let (blocks, hit) := rework db.blocks key fun row rows => (rows.erase key).insert other row
    ({ db with blocks }, hit)
  | deleteBlock key =>
    let (blocks, hit) := rework db.blocks key fun _ rows => rows.erase key
    ({ db with blocks }, hit)
  | writeMeta key value =>
    match db.metadata with
    | .table rows => ({ db with metadata := .table (rows.insert key value) }, 1)
    | _ => (db, 0)
  | deleteMeta key =>
    let (metadata, hit) := rework db.metadata key fun _ rows => rows.erase key
    ({ db with metadata }, hit)
  | dropBlocks => ({ db with blocks := .missing }, 1)
  | dropMetadata => ({ db with metadata := .missing }, 1)
  | takeMetadata => ({ db with metadata := .taken }, 1)
  | ruin => (.unreadable, 1)

end Tampering

end TestChain
