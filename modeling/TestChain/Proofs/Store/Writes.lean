import TestChain.Proofs.Store.Contents

/-! What a write changes.

Contents speak of stores whose reads succeed. Here any store will do, also a database without one of
its tables or with rows that were changed from outside: a record that was written is read back, and
every other read gives what it gave before, be it a failure.

`WritesThrough` speaks of stores that keep what they hold in a store of either kind, and may refuse
a write to a database for reasons of their own. What is proved of them holds of a store in memory
and in a database (`AnyStore.writesThrough`, `MemoryStore.writesThrough`,
`DatabaseStore.writesThrough`), and of a database that is full or locked
(`RefusingStore.writesThrough`). -/
namespace TestChain

/-! ### In a database -/

namespace Database
variable {db db' : Database} {r : ChainRecord}

/-- A record is written just when there is a table of blocks, and then as a row of that table. -/
theorem put_eq_ok_iff : db.put r = .ok db' ↔ ∃ rows, db.blocks = .table rows ∧
    db' = { db with blocks := .table (rows.insert r.hash.toList r.row) } := by
  constructor
  · intro h
    cases hblocks : db.blocks with
    | table rows =>
      rw [put_eq hblocks r] at h
      cases h
      exact ⟨rows, rfl, rfl⟩
    | missing | taken =>
      rw [put_eq_apply, apply, hblocks] at h
      cases h
  · rintro ⟨rows, hblocks, rfl⟩
    exact put_eq hblocks r

/-- The head is written just when there is a table of metadata, and then as a text in that table. -/
theorem setHead_eq_ok_iff : db.setHead r = .ok db' ↔ ∃ rows, db.metadata = .table rows ∧
    db' = { db with metadata := .table (rows.insert .chainHead r.hash.hex) } := by
  constructor
  · intro h
    cases hmeta : db.metadata with
    | table rows =>
      rw [setHead_eq hmeta r] at h
      cases h
      exact ⟨rows, rfl, rfl⟩
    | missing | taken =>
      rw [setHead, Write.head, apply, hmeta] at h
      cases h
  · rintro ⟨rows, hmeta, rfl⟩
    exact setHead_eq hmeta r

/-- The hash that is written as the head. -/
def headHash? (db : Database) : Option Digest :=
  match db.metadata with
  | .table rows => (rows.get? .chainHead).bind Digest.ofHex?
  | _ => none

theorem get_put (h : db.put r = .ok db') (hash : Digest) :
    db'.get hash = if hash = r.hash then .ok (some r) else db.get hash := by
  obtain ⟨rows, hblocks, rfl⟩ := put_eq_ok_iff.1 h
  simp only [Database.get, readBlock, hblocks, Table.get?_insert, FixedBytes.toList_inj]
  by_cases hhash : hash = r.hash
  · rw [if_pos hhash, if_pos hhash]
    show (r.row.toRecord >>= fun record => pure (some record)) = _
    rw [BlockRow.toRecord_row]
    rfl
  · rw [if_neg hhash, if_neg hhash]

theorem get_setHead (h : db.setHead r = .ok db') (hash : Digest) : db'.get hash = db.get hash := by
  obtain ⟨rows, -, rfl⟩ := setHead_eq_ok_iff.1 h
  rfl

/-- The head is read off the metadata and the row of the hash that is written there. -/
theorem head_congr (hmeta : db'.metadata = db.metadata)
    (hget : ∀ hash, db.headHash? = some hash → db'.get hash = db.get hash) :
    db'.head = db.head := by
  unfold head readMeta
  unfold headHash? at hget
  rw [hmeta]
  cases hrows : db.metadata with
  | missing | taken => rfl
  | table rows =>
    cases htext : rows.get? .chainHead with
    | none => simp only [htext]; rfl
    | some text =>
      cases hhash : Digest.ofHex? text with
      | none => simp only [htext, hhash, bind, Except.bind]
      | some hash =>
        have hsame := hget hash (by rw [hrows]; simp only [htext, Option.bind_some, hhash])
        simp only [htext, hhash, hsame, bind, Except.bind]

theorem head_put (h : db.put r = .ok db') (hne : db.headHash? ≠ some r.hash) :
    db'.head = db.head := by
  have hget := get_put h
  obtain ⟨rows, -, rfl⟩ := put_eq_ok_iff.1 h
  refine head_congr rfl fun hash hhash => ?_
  rw [hget hash, if_neg]
  rintro rfl
  exact hne hhash

theorem head_of_readMeta {hash : Digest} {found : ChainRecord}
    (hread : db.readMeta .chainHead = .ok (some hash.hex)) (hget : db.get hash = .ok (some found)) :
    db.head = .ok found := by
  simp only [head, hread, Digest.ofHex?_hex, hget, bind, Except.bind]
  rfl

theorem head_setHead (h : db.setHead r = .ok db') {found : ChainRecord}
    (hget : db.get r.hash = .ok (some found)) : db'.head = .ok found := by
  rw [← get_setHead h] at hget
  refine head_of_readMeta ?_ hget
  obtain ⟨rows, -, rfl⟩ := setHead_eq_ok_iff.1 h
  show Except.ok ((rows.insert .chainHead r.hash.hex).get? .chainHead) = _
  rw [Table.get?_insert, if_pos rfl]

end Database

/-! ### In a store of either kind -/

namespace AnyStore
variable {s s' : AnyStore} {r : ChainRecord}

/-- The hash that the head pointer names, if it names one. -/
def headHash? : AnyStore → Option Digest
  | memory s => some s.head
  | database s => s.database.headHash?

theorem database_eq_ok_iff {d : DatabaseStore} {written : Except ChainError Database} :
    database <$> (return { d with database := ← written }) = .ok s' ↔
      ∃ db, written = .ok db ∧ s' = database { d with database := db } := by
  cases written with
  | error cause => exact ⟨nofun, nofun⟩
  | ok db =>
    constructor
    · intro h
      cases h
      exact ⟨db, rfl, rfl⟩
    · rintro ⟨_, h, rfl⟩
      cases h
      rfl

theorem put_database_eq_ok_iff {d : DatabaseStore} : BlockStore.put (database d) r = .ok s' ↔
    ∃ db, d.database.put r = .ok db ∧ s' = database { d with database := db } :=
  database_eq_ok_iff

theorem setHead_database_eq_ok_iff {d : DatabaseStore} :
    BlockStore.setHead (database d) r = .ok s' ↔
      ∃ db, d.database.setHead r = .ok db ∧ s' = database { d with database := db } :=
  database_eq_ok_iff

theorem get_put (h : BlockStore.put s r = .ok s') (hash : Digest) :
    BlockStore.get s' hash = if hash = r.hash then .ok (some r) else BlockStore.get s hash := by
  cases s with
  | memory s =>
    cases h
    show Except.ok ((s.blocks.insert r.hash r).get? hash) = _
    rw [Table.get?_insert]
    split <;> rfl
  | database s =>
    obtain ⟨db, hput, rfl⟩ := put_database_eq_ok_iff.1 h
    exact Database.get_put hput hash

theorem get_setHead (h : BlockStore.setHead s r = .ok s') (hash : Digest) :
    BlockStore.get s' hash = BlockStore.get s hash := by
  cases s with
  | memory s =>
    cases h
    rfl
  | database s =>
    obtain ⟨db, hset, rfl⟩ := setHead_database_eq_ok_iff.1 h
    exact Database.get_setHead hset hash

theorem head_put (h : BlockStore.put s r = .ok s') (hne : s.headHash? ≠ some r.hash) :
    BlockStore.head s' = BlockStore.head s := by
  cases s with
  | memory s =>
    cases h
    have hhead : s.head ≠ r.hash := fun e => hne (congrArg some e)
    show MemoryStore.headRecord _ = s.headRecord
    simp only [MemoryStore.headRecord, Table.get?_insert, if_neg hhead]
  | database s =>
    obtain ⟨db, hput, rfl⟩ := put_database_eq_ok_iff.1 h
    exact Database.head_put hput hne

theorem head_setHead (h : BlockStore.setHead s r = .ok s') {found : ChainRecord}
    (hget : BlockStore.get s r.hash = .ok (some found)) : BlockStore.head s' = .ok found := by
  cases s with
  | memory s =>
    cases h
    have hfound : s.blocks.get? r.hash = some found := Except.ok.inj hget
    show MemoryStore.headRecord _ = _
    simp only [MemoryStore.headRecord, hfound]
  | database s =>
    obtain ⟨db, hset, rfl⟩ := setHead_database_eq_ok_iff.1 h
    exact Database.head_setHead hset hget

/-- The store is a database, and the other is that database with the row of a record, and else the
same. -/
def AddsRow (s : AnyStore) (r : ChainRecord) (s' : AnyStore) : Prop :=
  ∃ d rows, s = database d ∧ d.database.blocks = .table rows ∧ s' = database { d with
    database := { d.database with blocks := .table (rows.insert r.hash.toList r.row) } }

theorem addsRow_of_put {d : DatabaseStore} (h : BlockStore.put (database d) r = .ok s') :
    (database d).AddsRow r s' := by
  obtain ⟨db, hput, rfl⟩ := put_database_eq_ok_iff.1 h
  obtain ⟨rows, hblocks, rfl⟩ := Database.put_eq_ok_iff.1 hput
  exact ⟨d, rows, rfl, hblocks, rfl⟩

end AnyStore

/-! ### Writing through -/

/-- The stores keep what they hold in a store of either kind. They read as that store does. A write
is done there, or it is refused and there is no store after it; in memory no write is refused. -/
structure WritesThrough {σ : Type} [BlockStore σ] (view : σ → AnyStore) : Prop where
  params : ∀ s, BlockStore.params s = BlockStore.params (view s)
  get : ∀ s hash, BlockStore.get s hash = BlockStore.get (view s) hash
  head : ∀ s, BlockStore.head s = BlockStore.head (view s)
  put : ∀ {s s' r}, BlockStore.put s r = .ok s' → BlockStore.put (view s) r = .ok (view s')
  setHead : ∀ {s s' r}, BlockStore.setHead s r = .ok s' →
    BlockStore.setHead (view s) r = .ok (view s')
  memory : ∀ {s m}, view s = .memory m → ∀ r,
    (∃ s', BlockStore.put s r = .ok s') ∧ ∃ s', BlockStore.setHead s r = .ok s'

namespace WritesThrough
variable {σ : Type} [BlockStore σ] {view : σ → AnyStore} (hw : WritesThrough view) {s s' : σ}
  {r : ChainRecord}
include hw

theorem get_put (h : BlockStore.put s r = .ok s') (hash : Digest) :
    BlockStore.get s' hash = if hash = r.hash then .ok (some r) else BlockStore.get s hash := by
  rw [hw.get, hw.get, AnyStore.get_put (hw.put h)]

theorem get_setHead (h : BlockStore.setHead s r = .ok s') (hash : Digest) :
    BlockStore.get s' hash = BlockStore.get s hash := by
  rw [hw.get, hw.get, AnyStore.get_setHead (hw.setHead h)]

theorem head_put (h : BlockStore.put s r = .ok s') (hne : (view s).headHash? ≠ some r.hash) :
    BlockStore.head s' = BlockStore.head s := by
  rw [hw.head, hw.head, AnyStore.head_put (hw.put h) hne]

theorem head_setHead (h : BlockStore.setHead s r = .ok s') {found : ChainRecord}
    (hget : BlockStore.get s r.hash = .ok (some found)) : BlockStore.head s' = .ok found := by
  rw [hw.get] at hget
  rw [hw.head, AnyStore.head_setHead (hw.setHead h) hget]

/-- A record after which the head is refused is a row in a database. -/
theorem addsRow (hput : BlockStore.put s r = .ok s') {cause : ChainError}
    (hset : BlockStore.setHead s' r = .error cause) : (view s).AddsRow r (view s') := by
  have hput' := hw.put hput
  cases hview : view s with
  | database d =>
    rw [hview] at hput'
    exact AnyStore.addsRow_of_put hput'
  | memory m =>
    rw [hview] at hput'
    obtain ⟨-, s'', hset'⟩ := hw.memory (Except.ok.inj hput').symm r
    rw [hset'] at hset
    cases hset

end WritesThrough

theorem AnyStore.writesThrough : WritesThrough (id : AnyStore → AnyStore) where
  params _ := rfl
  get _ _ := rfl
  head _ := rfl
  put h := h
  setHead h := h
  memory h r := by
    cases h
    exact ⟨⟨_, rfl⟩, _, rfl⟩

theorem MemoryStore.writesThrough : WritesThrough AnyStore.memory where
  params _ := rfl
  get _ _ := rfl
  head _ := rfl
  put h := congrArg (AnyStore.memory <$> ·) h
  setHead h := congrArg (AnyStore.memory <$> ·) h
  memory _ _ := ⟨⟨_, rfl⟩, _, rfl⟩

theorem DatabaseStore.writesThrough : WritesThrough AnyStore.database where
  params _ := rfl
  get _ _ := rfl
  head _ := rfl
  put h := congrArg (AnyStore.database <$> ·) h
  setHead h := congrArg (AnyStore.database <$> ·) h
  memory := nofun

/-- A store whose database may refuse writes that it could do, being full or locked, say. -/
structure RefusingStore where
  store : AnyStore
  refuses : Database.Write → Bool

namespace RefusingStore

def keep (s : RefusingStore) (store : AnyStore) : RefusingStore := { s with store }

/-- The store after a step, which is a write of the database if there is one. -/
def attempt (s : RefusingStore) (write : Database.Write) (refusal : ChainError)
    (step : Except ChainError AnyStore) : Except ChainError RefusingStore :=
  match s.store with
  | .memory _ => step.map s.keep
  | .database _ => if s.refuses write then .error refusal else step.map s.keep

instance : BlockStore RefusingStore where
  params s := BlockStore.params s.store
  get s := BlockStore.get s.store
  head s := BlockStore.head s.store
  put s r := s.attempt (.saveBlock r.hash r.row) (.database .saveBlock) (BlockStore.put s.store r)
  setHead s r := s.attempt (.saveMeta .chainHead r.hash.hex) (.database (.saveMeta .chainHead))
    (BlockStore.setHead s.store r)

section
variable {s s' : RefusingStore} {write : Database.Write} {refusal : ChainError}
  {step : Except ChainError AnyStore}

/-- What is done is the step. -/
theorem attempt_eq_ok (h : s.attempt write refusal step = .ok s') : step = .ok s'.store := by
  have hstep : step.map s.keep = .ok s' → step = .ok s'.store := by
    intro h
    cases step with
    | error cause => cases h
    | ok store =>
      cases h
      rfl
  unfold attempt at h
  split at h
  · exact hstep h
  · split at h
    · cases h
    · exact hstep h

theorem attempt_memory {m : MemoryStore} (h : s.store = .memory m) :
    s.attempt write refusal step = step.map s.keep := by
  rw [attempt, h]

theorem attempt_of_not_refuses (h : s.refuses write = false) :
    s.attempt write refusal step = step.map s.keep := by
  unfold attempt
  rw [h]
  split <;> rfl

end

theorem writesThrough : WritesThrough RefusingStore.store where
  params _ := rfl
  get _ _ := rfl
  head _ := rfl
  put h := attempt_eq_ok h
  setHead h := attempt_eq_ok h
  memory {s m} h r := by
    obtain ⟨⟨mid, hput⟩, last, hset⟩ := AnyStore.writesThrough.memory h r
    refine ⟨⟨s.keep mid, ?_⟩, s.keep last, ?_⟩
    · exact (attempt_memory h).trans (congrArg (Except.map s.keep) hput)
    · exact (attempt_memory h).trans (congrArg (Except.map s.keep) hset)

end RefusingStore

end TestChain
