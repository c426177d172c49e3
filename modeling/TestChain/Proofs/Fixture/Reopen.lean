import TestChain.Proofs.Fixture.Growth
import TestChain.Proofs.Store.History
import TestChain.Proofs.Store.SetUp
import TestChain.Proofs.Store.Writes

/-! Closing a database and opening it again.

`Served` is every file that a chain of a network leads to: a first opening that succeeds, then calls
of stores in it, extensions that succeed or fail, and openings with any parameters, also refused
ones. Such a file has both tables and its network recorded (`Database.Recorded`): writing records
and heads leaves the network where it is, and an opening finds it there, compares it, and writes
nothing. So the file opens for its own network as it was left, without a look at the difficulty or
the time of the parameters, and opens for no other (`Served.reopen`).

That an extension keeps what its writes keep is said of any store (`Extension.preserves`). -/
namespace TestChain

/-! ### What writes keep -/

namespace Bench
variable {σ α β : Type} {P : σ → Prop}

/-- The work leads from stores with the property to stores with it, also where it fails. -/
def Preserves (P : σ → Prop) (work : Bench σ α) : Prop :=
  ∀ bench, P bench.store → P (outcome work bench).2.store

theorem preserves_get : Preserves P (getThe (Workbench σ)) := fun _ h => h

theorem preserves_lift (result : Except Failure α) : Preserves P (liftM result : Bench σ α) := by
  intro bench h
  rw [outcome_lift]
  exact h

theorem preserves_numbered (step : Numbered α) : Preserves P (numbered step : Bench σ α) :=
  fun _ h => h

theorem Preserves.bind {work : Bench σ α} {next : α → Bench σ β} (hwork : Preserves P work)
    (hnext : ∀ a, Preserves P (next a)) : Preserves P (work >>= next) := by
  intro bench h
  have hmid := hwork bench h
  rw [outcome_bind]
  cases hbench : outcome work bench with
  | mk result mid =>
    rw [hbench] at hmid
    cases result with
    | error failure => exact hmid
    | ok a => exact hnext a mid hmid

theorem preserves_read (step : σ → Except ChainError α) : Preserves P (read step) :=
  preserves_get.bind fun _ => preserves_lift _

theorem preserves_write {step : σ → Except ChainError σ}
    (hstep : ∀ {s s'}, P s → step s = .ok s' → P s') : Preserves P (write step) := by
  intro bench h
  cases hs : step bench.store with
  | error cause =>
    rw [Chain.outcome_write_error hs]
    exact h
  | ok store =>
    rw [Chain.outcome_write_ok hs]
    exact hstep h hs

/-- Putting a failure otherwise changes nothing else. -/
theorem Preserves.must {work : Bench σ α} (hwork : Preserves P work) (step : FixtureStep) :
    Preserves P (must step work) := hwork

end Bench

section
variable {σ : Type} [BlockStore σ] {P : σ → Prop}
  (hput : ∀ {s s' r}, P s → BlockStore.put s r = .ok s' → P s')
  (hset : ∀ {s s' r}, P s → BlockStore.setHead s r = .ok s' → P s')
include hput hset

/-- **A call** keeps what writes keep. -/
theorem StoreCall.preserves (call : StoreCall) {s : σ} (h : P s) : P (call.perform s).2 := by
  cases call with
  | put r =>
    show P (written s (BlockStore.put s r)).2
    cases hs : BlockStore.put s r with
    | error cause => exact h
    | ok s' => exact hput h hs
  | setHead r =>
    show P (written s (BlockStore.setHead s r)).2
    cases hs : BlockStore.setHead s r with
    | error cause => exact h
    | ok s' => exact hset h hs
  | get | head | previous => exact h

theorem Chain.extend_preserves (key : Key) (parent : ChainRecord) (version : UInt32)
    (seconds : UInt64) (height : UInt32) (txs : List Tx) :
    Bench.Preserves P (extend key parent version seconds height txs) := by
  unfold extend
  refine Bench.preserves_get.bind fun bench => (Bench.preserves_numbered _).bind fun started => ?_
  refine (Bench.preserves_lift _).bind fun block => (Bench.preserves_lift _).bind fun _ => ?_
  refine (Bench.preserves_lift _).bind fun record => ?_
  refine (Bench.preserves_write hput).bind fun _ => (Bench.preserves_write hset).bind fun _ => ?_
  exact Bench.preserves_lift (.ok _)

/-- **An extension** keeps what writes keep, also where it fails. -/
theorem Extension.preserves (call : Extension) : Bench.Preserves P call.perform := by
  have hextend (key parent version seconds height txs) :
      Bench.Preserves P (Chain.extend key parent version seconds height txs) :=
    Chain.extend_preserves hput hset key parent version seconds height txs
  have hhead (key version seconds height txs) :
      Bench.Preserves P (Chain.extendHead key version seconds height txs) :=
    ((Bench.preserves_read _).must _).bind fun _ => (hextend _ _ _ _ _ _).must _
  cases call with
  | head | headAt | headNow => exact hhead _ _ _ _ _
  | on | tryOnAt => exact hextend _ _ _ _ _ _
  | onAt | onNow => exact (hextend _ _ _ _ _ _).must _

end

/-! ### Recorded networks -/

namespace Database
variable {network : Network} {db db' : Database} {params : NetworkParams} {r : ChainRecord}

/-- Both tables are there, and the network is recorded. -/
def Recorded (network : Network) (db : Database) : Prop :=
  ∃ blocks texts, db = ⟨.table blocks, .table texts⟩ ∧ texts.get? .network = some network.name

theorem Recorded.put (h : db.Recorded network) (hput : db.put r = .ok db') :
    db'.Recorded network := by
  obtain ⟨blocks, texts, rfl, hnetwork⟩ := h
  obtain ⟨rows, -, rfl⟩ := put_eq_ok_iff.1 hput
  exact ⟨_, texts, rfl, hnetwork⟩

theorem Recorded.setHead (h : db.Recorded network) (hset : db.setHead r = .ok db') :
    db'.Recorded network := by
  obtain ⟨blocks, texts, rfl, hnetwork⟩ := h
  obtain ⟨rows, hrows, rfl⟩ := setHead_eq_ok_iff.1 hset
  cases hrows
  refine ⟨blocks, _, rfl, ?_⟩
  rw [Table.get?_insert, if_neg (by decide), hnetwork]

/-- Opening compares the network that is recorded, and writes nothing. -/
theorem Recorded.openIn (h : db.Recorded network) (params : NetworkParams) :
    DatabaseStore.openIn params db =
      if network = params.network then (.ok ⟨params, db⟩, db)
      else (.error (.error (.configuration (.otherNetwork network params.network))), db) := by
  obtain ⟨blocks, texts, rfl, hnetwork⟩ := h
  rw [DatabaseStore.openIn_eq, outcome_setUp rfl, hnetwork]
  simp only [checkNetwork_name]
  split <;> rfl

theorem Recorded.openIn_database (h : db.Recorded network) (params : NetworkParams) :
    (DatabaseStore.openIn params db).2 = db := by
  rw [h.openIn]
  split <;> rfl

/-- A first opening that succeeds records the network. -/
theorem Unrecorded.recorded {store : DatabaseStore} (h : db.Unrecorded)
    (hopen : DatabaseStore.openIn params db = (.ok store, db')) : db'.Recorded params.network := by
  obtain ⟨blocks, texts, htables, hnetwork⟩ := h
  rw [openIn_new htables hnetwork] at hopen
  cases hgenesis : Block.genesis params with
  | error failure =>
    rw [hgenesis] at hopen
    cases hopen
  | ok b =>
    rw [hgenesis] at hopen
    cases hopen
    refine ⟨_, _, rfl, ?_⟩
    rw [Table.get?_insert, if_pos rfl]

/-- After a first opening that fails, the next is a first one again. -/
theorem Unrecorded.of_openIn_error {failure : Failure} (h : db.Unrecorded)
    (hopen : DatabaseStore.openIn params db = (.error failure, db')) : db'.Unrecorded := by
  obtain ⟨blocks, texts, htables, hnetwork⟩ := h
  rw [openIn_new htables hnetwork] at hopen
  cases hgenesis : Block.genesis params with
  | ok b =>
    rw [hgenesis] at hopen
    cases hopen
  | error failure =>
    rw [hgenesis] at hopen
    cases hopen
    rw [htables]
    exact ⟨blocks, texts, rfl, hnetwork⟩

end Database

namespace DatabaseStore
variable {network : Network}

theorem recorded_put {s s' : DatabaseStore} {r : ChainRecord} (h : s.database.Recorded network)
    (hput : BlockStore.put s r = .ok s') : s'.database.Recorded network := by
  obtain ⟨db, hdb, hs'⟩ := AnyStore.put_database_eq_ok_iff.1 (writesThrough.put hput)
  cases hs'
  exact h.put hdb

theorem recorded_setHead {s s' : DatabaseStore} {r : ChainRecord}
    (h : s.database.Recorded network) (hset : BlockStore.setHead s r = .ok s') :
    s'.database.Recorded network := by
  obtain ⟨db, hdb, hs'⟩ := AnyStore.setHead_database_eq_ok_iff.1 (writesThrough.setHead hset)
  cases hs'
  exact h.setHead hdb

/-- A write is done in the database, whatever parameters stand beside it. -/
theorem written_congr (params params' : NetworkParams) (db : Database)
    (written : Except ChainError Database) :
    (StoreCall.written (mk params db) (written.map (mk params))).1 =
        (StoreCall.written (mk params' db) (written.map (mk params'))).1 ∧
      (StoreCall.written (mk params db) (written.map (mk params))).2.database =
        (StoreCall.written (mk params' db) (written.map (mk params'))).2.database := by
  cases written <;> exact ⟨rfl, rfl⟩

/-- What a store in a database answers, and how a call leaves the database, does not depend on the
parameters. -/
theorem perform_congr {s t : DatabaseStore} (h : s.database = t.database) (call : StoreCall) :
    (call.perform s).1 = (call.perform t).1 ∧
      (call.perform s).2.database = (call.perform t).2.database := by
  obtain ⟨params, db⟩ := s
  obtain ⟨params', _⟩ := t
  cases h
  cases call with
  | put r => exact written_congr params params' db (db.put r)
  | setHead r => exact written_congr params params' db (db.setHead r)
  | get | head | previous => exact ⟨rfl, rfl⟩

/-- Stores in one database answer every run of calls alike. -/
theorem answers_congr {s t : DatabaseStore} (h : s.database = t.database)
    (calls : List StoreCall) : StoreCall.answers s calls = StoreCall.answers t calls := by
  induction calls generalizing s t with
  | nil => rfl
  | cons call rest ih =>
    obtain ⟨hanswer, hdatabase⟩ := perform_congr h call
    rw [StoreCall.answers, StoreCall.answers, hanswer, ih hdatabase]

end DatabaseStore

/-! ### Served files -/

open Database DatabaseStore

/-- The files that a chain of a network leads to. The first opening that succeeds is one of a new
file, or of one where no opening has succeeded (`Unrecorded.of_openIn_error`). Then stores of the
network are asked things, chains are extended, and the file is opened again with any parameters,
whether or not that is refused. -/
inductive Served (network : Network) : Database → Prop
  | first {db db' : Database} {params : NetworkParams} {store : DatabaseStore} :
    db.Unrecorded → params.network = network → openIn params db = (.ok store, db') →
    Served network db'
  | call {store : DatabaseStore} (call : StoreCall) : store.params.network = network →
    Served network store.database → Served network (call.perform store).2.database
  | extend {bench : Workbench DatabaseStore} (call : Extension) :
    bench.store.params.network = network → Served network bench.store.database →
    Served network (outcome call.perform bench).2.store.database
  | opening {db : Database} (params : NetworkParams) : Served network db →
    Served network (openIn params db).2

/-- Opening changes nothing, and its store answers every run of calls as any store did before. -/
def OpensAsLeft (params : NetworkParams) (db : Database) : Prop :=
  openIn params db = (.ok ⟨params, db⟩, db) ∧
    ∀ before : DatabaseStore, before.database = db → ∀ calls,
      StoreCall.answers (DatabaseStore.mk params db) calls = StoreCall.answers before calls

theorem Database.Recorded.opensAsLeft {network : Network} {db : Database} {params : NetworkParams}
    (h : db.Recorded network) (hparams : params.network = network) : OpensAsLeft params db := by
  refine ⟨?_, fun before hbefore => answers_congr hbefore.symm⟩
  rw [h.openIn, if_pos hparams.symm]

namespace Served
variable {network : Network} {db : Database}

/-- **Every served file** has both tables, and the network recorded in them. -/
theorem recorded (h : Served network db) : db.Recorded network := by
  induction h with
  | first hdb hnetwork hopen =>
    rw [← hnetwork]
    exact hdb.recorded hopen
  | call call _ _ ih =>
    exact call.preserves (P := fun s : DatabaseStore => s.database.Recorded network)
      recorded_put recorded_setHead ih
  | extend call _ _ ih =>
    exact call.preserves (P := fun s : DatabaseStore => s.database.Recorded network)
      recorded_put recorded_setHead _ ih
  | opening params _ ih =>
    rw [ih.openIn_database]
    exact ih

/-- **A served file opens as it was left** for its own network, with any difficulty and time. It
does not open for another, and is left as it was, so that it still opens for its own. -/
theorem reopen (h : Served network db) (params : NetworkParams) :
    (params.network = network → OpensAsLeft params db) ∧
    (params.network ≠ network →
      openIn params db =
        (.error (.error (.configuration (.otherNetwork network params.network))), db) ∧
      ∀ later : NetworkParams, later.network = network →
        OpensAsLeft later (openIn params db).2) := by
  refine ⟨h.recorded.opensAsLeft, fun hother => ⟨?_, fun later hlater => ?_⟩⟩
  · rw [h.recorded.openIn, if_neg (Ne.symm hother)]
  · rw [h.recorded.openIn_database]
    exact h.recorded.opensAsLeft hlater

end Served

/-! The file of a chain of two blocks. -/

def plainStore : DatabaseStore := ⟨Chain.plain, .seeded .unittest Chain.plainFirst⟩

/-- The second block is made on the first, in a new file. -/
def plainRun : Except Failure BlockPair × Workbench DatabaseStore :=
  outcome Chain.plainCall.perform ⟨plainStore, ⟨0⟩⟩

theorem openIn_plain : openIn Chain.plain .empty = (.ok plainStore, plainStore.database) := by
  rw [openIn_empty, Chain.genesis_plain]
  rfl

theorem served_plain : Served .unittest plainRun.2.store.database :=
  @Served.extend .unittest ⟨plainStore, ⟨0⟩⟩ Chain.plainCall rfl
    (.first unrecorded_empty rfl openIn_plain)

/-- No hash meets the difficulty, which is no matter here. -/
theorem Served.reopen_plain :
    OpensAsLeft ⟨.unittest, 300, 5⟩ plainRun.2.store.database ∧
      openIn ⟨.regtest, 0, 0⟩ plainRun.2.store.database =
        (.error (.error (.configuration (.otherNetwork .unittest .regtest))),
          plainRun.2.store.database) := by
  obtain ⟨hown, -⟩ := served_plain.reopen ⟨.unittest, 300, 5⟩
  obtain ⟨-, hother⟩ := served_plain.reopen ⟨.regtest, 0, 0⟩
  exact ⟨hown rfl, (hother (by decide)).1⟩

end TestChain
