import TestChain.Proofs.Key.Address
import TestChain.Proofs.Outcome
import TestChain.Proofs.Store.Row
import TestChain.Store.Database

/-! What opening a database does.

`Database.outcome_setUp` says what a set-up does to a database whose tables are there or can be
made: a recorded network is compared, and otherwise the first block, the head and the network are
written, whatever is there already. Opening a store is setting up its database
(`DatabaseStore.openIn_eq`). -/
namespace TestChain

/-- The place with an empty table where there was none. -/
def Slot.made {κ α : Type} [DecidableEq κ] : Slot (Table κ α) → Slot (Table κ α)
  | .missing => .table .empty
  | other => other

namespace Database
variable {db : Database} {params : NetworkParams} {blocks : Table Bytes BlockRow}
  {texts : Table MetaKey String}

/-- The database with both tables, where they can be made. -/
def withTables (db : Database) : Database := ⟨db.blocks.made, db.metadata.made⟩

/-- The rows with those of a first block and its network. -/
def seededOver (blocks : Table Bytes BlockRow) (texts : Table MetaKey String) (network : Network)
    (genesis : ChainRecord) : Database :=
  ⟨.table (blocks.insert genesis.hash.toList genesis.row),
    .table ((texts.insert .chainHead genesis.hash.hex).insert .network network.name)⟩

/-! ### Single steps -/

theorem put_eq {rows : Table Bytes BlockRow} (h : db.blocks = .table rows) (r : ChainRecord) :
    db.put r = .ok { db with blocks := .table (rows.insert r.hash.toList r.row) } := by
  rw [put_eq_apply, apply, h]

theorem setHead_eq {rows : Table MetaKey String} (h : db.metadata = .table rows) (r : ChainRecord) :
    db.setHead r = .ok { db with metadata := .table (rows.insert .chainHead r.hash.hex) } := by
  rw [setHead, Write.head, apply, h]

section
variable {σ : Type} [Writable σ] {s s' : σ} {w : Write}

theorem outcome_write_ok (h : Writable.apply s w = .ok s') :
    outcome (write w) s = (.ok (), s') := by
  rw [write, outcome_bind_ok outcome_get, h]
  rfl

theorem outcome_write_error {cause : ChainError} (h : Writable.apply s w = .error cause) :
    outcome (write w) s = (.error (.error cause), s) := by
  rw [write, outcome_bind_ok outcome_get, h]
  rfl

theorem outcome_readMeta {key : MetaKey} {text : Option String}
    (h : (Writable.database s).readMeta key = .ok text) :
    outcome (liftM (orFail ((Writable.database s).readMeta key)) : Run σ (Option String)) s =
      (.ok text, s) := by
  rw [outcome_lift, h]
  rfl

/-- Writing the first block is three writes. -/
theorem seed_eq (network : Network) (genesis : ChainRecord) :
    (seed network genesis : Run σ Unit) = (do
      write (.saveBlock genesis.hash genesis.row)
      write (.head genesis)
      write (.saveMeta .network network.name)) := by
  rw [seed, Write.record_eq]
  rfl

end

/-! ### What a set-up does -/

theorem outcome_createBlocks (h : db.blocks.made = .table blocks) :
    outcome (write .createBlocks) db = (.ok (), { db with blocks := .table blocks }) := by
  refine outcome_write_ok ?_
  obtain ⟨slot, metadata⟩ := db
  cases slot <;> cases h <;> rfl

theorem outcome_createMetadata (h : db.metadata.made = .table texts) :
    outcome (write .createMetadata) db = (.ok (), { db with metadata := .table texts }) := by
  refine outcome_write_ok ?_
  obtain ⟨blocks, slot⟩ := db
  cases slot <;> cases h <;> rfl

theorem outcome_seed_over (network : Network) (genesis : ChainRecord) :
    outcome (seed network genesis) (⟨.table blocks, .table texts⟩ : Database) =
      (.ok (), seededOver blocks texts network genesis) := by
  rw [seed_eq, outcome_bind_ok (outcome_write_ok rfl), outcome_bind_ok (outcome_write_ok rfl)]
  exact outcome_write_ok rfl

/-- The network that is recorded has to be that of the parameters. -/
def checkNetwork (params : NetworkParams) (name : String) : Except Failure Unit := do
  let network ← orFail (Network.parse name)
  if network ≠ params.network then
    throw (.error (.configuration (.otherNetwork network params.network)))

/-- **What a set-up does** where the tables are there or can be made. A network that is recorded is
compared, and nothing is written. Otherwise the rows of the first block are written over what there
is, unless the block is not found. -/
theorem outcome_setUp (h : db.withTables = ⟨.table blocks, .table texts⟩) :
    outcome (setUp params) db =
      match texts.get? .network with
      | some name => (checkNetwork params name, ⟨.table blocks, .table texts⟩)
      | none =>
        match Block.genesis params with
        | .ok b => (.ok (), seededOver blocks texts params.network (.genesis b))
        | .error failure => (.error failure, ⟨.table blocks, .table texts⟩) := by
  obtain ⟨hblocks, hmetadata⟩ := Database.mk.inj h
  have htexts : outcome (write .createMetadata) (⟨.table blocks, db.metadata⟩ : Database) =
      (.ok (), ⟨.table blocks, .table texts⟩) := outcome_createMetadata hmetadata
  rw [setUp, outcome_bind_ok (outcome_createBlocks hblocks), outcome_bind_ok htexts,
    outcome_bind_ok outcome_get]
  rw [outcome_bind_ok (outcome_readMeta rfl)]
  cases texts.get? .network with
  | some name =>
    simp only [checkNetwork]
    cases hparse : orFail (Network.parse name) with
    | error failure => exact outcome_bind_error (outcome_lift _)
    | ok network =>
      refine (outcome_bind_ok (outcome_lift _)).trans ?_
      by_cases hne : network ≠ params.network
      · simp only [if_pos hne, bind, Except.bind]
        rfl
      · simp only [if_neg hne, bind, Except.bind]
        rfl
  | none =>
    cases Block.genesis params with
    | error failure => exact outcome_bind_error (outcome_lift _)
    | ok b => exact (outcome_bind_ok (outcome_lift _)).trans (outcome_seed_over _ _)

theorem checkNetwork_name (network : Network) (params : NetworkParams) :
    checkNetwork params network.name =
      if network = params.network then .ok ()
      else .error (.error (.configuration (.otherNetwork network params.network))) := by
  rw [checkNetwork, network.parse_name]
  by_cases h : network = params.network
  · rw [if_pos h]
    exact if_neg (not_not_intro h)
  · rw [if_neg h]
    exact if_pos h

end Database

/-! ### Opening -/

/-- Opening a store is setting up its database. -/
theorem DatabaseStore.openIn_eq (params : NetworkParams) (db : Database) :
    openIn params db =
      ((outcome (Database.setUp params) db).1.map fun _ =>
          ⟨params, (outcome (Database.setUp params) db).2⟩,
        (outcome (Database.setUp params) db).2) := by
  unfold openIn
  change (match outcome (Database.setUp params) db with
    | (.ok (), db) => ((.ok ⟨params, db⟩, db) : Except Failure DatabaseStore × Database)
    | (.error failure, db) => (.error failure, db)) = _
  cases outcome (Database.setUp params) db with
  | mk result after => cases result <;> rfl

namespace Database
variable {db db' : Database} {params : NetworkParams} {blocks : Table Bytes BlockRow}
  {texts : Table MetaKey String}

/-- Opening a store makes the tables first. -/
theorem openIn_congr (h : db.withTables = ⟨.table blocks, .table texts⟩)
    (h' : db'.withTables = db.withTables) :
    DatabaseStore.openIn params db' = DatabaseStore.openIn params db := by
  rw [DatabaseStore.openIn_eq, DatabaseStore.openIn_eq, outcome_setUp h,
    outcome_setUp (h'.trans h)]

/-- **A first opening**: no network is recorded. -/
theorem openIn_new (h : db.withTables = ⟨.table blocks, .table texts⟩)
    (hnetwork : texts.get? .network = none) :
    DatabaseStore.openIn params db =
      match Block.genesis params with
      | .ok b => (.ok ⟨params, seededOver blocks texts params.network (.genesis b)⟩,
          seededOver blocks texts params.network (.genesis b))
      | .error failure => (.error failure, db.withTables) := by
  rw [DatabaseStore.openIn_eq, outcome_setUp h, hnetwork, h]
  cases Block.genesis params <;> rfl

end Database

end TestChain
