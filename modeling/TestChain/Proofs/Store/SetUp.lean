import TestChain.Proofs.Store.History
import TestChain.Proofs.Store.Writes

/-! Taking up a set-up that was cut short.

A set-up is run on a database that takes only so many writes (`Limited`), and is cut short when
these are used up. `Makes` says which writes a run does, in their order, by what it leaves when it
is cut short at each of them. A set-up of a new file makes five (`Database.setUpWrites`), the
network last, so a set-up that is cut short leaves no network, and the next one begins anew; it
writes again what was written, which changes nothing (`Database.setUp_restart`). -/
namespace TestChain

namespace Table
variable {κ α : Type} [DecidableEq κ]

theorem replace_replace (key : κ) (first second : α) (rows : List (κ × α)) :
    replace key second (replace key first rows) = replace key second rows := by
  induction rows with
  | nil => simp only [replace, if_true]
  | cons row rest ih =>
    by_cases h : row.1 = key
    · simp only [replace, h, if_true]
    · simp only [replace, h, if_false, ih]

/-- Of two writes of one row the second stays. -/
theorem insert_insert (t : Table κ α) (key : κ) (first second : α) :
    (t.insert key first).insert key second = t.insert key second := by
  simp only [insert, replace_replace]

end Table

namespace Database
variable {db db' : Database} {params : NetworkParams} {genesis : ChainRecord}
  {blocks : Table Bytes BlockRow} {texts : Table MetaKey String}

/-- The first block is the head of a database that is set up from it. -/
theorem head_seededOver (network : Network) (genesis : ChainRecord) :
    (seededOver blocks texts network genesis).head = .ok genesis := by
  have hread : (seededOver blocks texts network genesis).readMeta .chainHead =
      .ok (some genesis.hash.hex) := by
    show Except.ok (Table.get? _ _) = _
    rw [Table.get?_insert, if_neg (by decide), Table.get?_insert, if_pos rfl]
  refine head_of_readMeta hread ?_
  simp only [Database.get, readBlock, seededOver, Table.get?_insert, if_true]
  show (genesis.row.toRecord >>= fun record => pure (some record)) = _
  rw [BlockRow.toRecord_row]
  rfl

theorem readMeta_seededOver (network : Network) (genesis : ChainRecord) :
    (seededOver blocks texts network genesis).readMeta .network = .ok (some network.name) := by
  show Except.ok (Table.get? _ _) = _
  rw [Table.get?_insert, if_pos rfl]

/-! ### A limit to the writes -/

/-- What is reported of a write that is not done. -/
def Write.fault : Write → DatabaseFault
  | createBlocks => .createBlocks
  | createMetadata => .createMetadata
  | saveBlock .. => .saveBlock
  | saveMeta key _ => .saveMeta key

/-- A write that fails is the one that is reported. -/
theorem fault_of_apply {w : Write} {cause : ChainError} (h : db.apply w = .error cause) :
    cause = .database w.fault := by
  obtain ⟨blocksSlot, textsSlot⟩ := db
  cases w with
  | createBlocks | saveBlock => cases blocksSlot <;> cases h <;> rfl
  | createMetadata | saveMeta => cases textsSlot <;> cases h <;> rfl

/-- A database that takes so many more writes and then none, as if its disk were full. A program
that is stopped there instead leaves the same database. -/
structure Limited where
  database : Database
  left : Nat

instance : Writable Limited where
  database := Limited.database
  apply s w :=
    match s.left with
    | 0 => .error (.database w.fault)
    | left + 1 => return ⟨← s.database.apply w, left⟩

/-- A write that can be done uses up one, and the run goes on. -/
theorem Limited.outcome_write_bind {w : Write} {next : Unit → Run Limited Unit} {left : Nat}
    (h : db.apply w = .ok db') :
    outcome (write w >>= next) ⟨db, left + 1⟩ = outcome (next ()) ⟨db', left⟩ := by
  refine outcome_bind_ok (outcome_write_ok ?_)
  show (db.apply w >>= fun after => pure (⟨after, left⟩ : Limited)) = _
  rw [h]
  rfl

/-- The database after writes, one after the other. -/
def applyAll (db : Database) (writes : List Write) : Except ChainError Database :=
  writes.foldlM apply db

theorem applyAll_cons (w : Write) (rest : List Write) :
    db.applyAll (w :: rest) = db.apply w >>= (applyAll · rest) :=
  List.foldlM_cons

/-- What single writes preserve, any number of them preserves. -/
theorem applyAll_induction {P : Database → Prop} {writes : List Write}
    (hstep : ∀ write ∈ writes, ∀ {db db' : Database}, P db → db.apply write = .ok db' → P db')
    (hdb : P db) (h : db.applyAll writes = .ok db') : P db' := by
  induction writes generalizing db with
  | nil =>
    cases h
    exact hdb
  | cons write rest ih =>
    rw [applyAll_cons] at h
    obtain ⟨mid, hwrite, hrest⟩ := except_bind_eq_ok.1 h
    exact ih (fun w hw => hstep w (List.mem_cons_of_mem _ hw))
      (hstep write List.mem_cons_self hdb hwrite) hrest

/-- The writes of a run in their order. Where they can all be done the run ends with the result and
leaves the last database. Where it is cut short it stops at the first write that cannot be done,
and leaves what the writes before it made. -/
structure Makes (work : Run Limited Unit) (db : Database) (writes : List Write)
    (result : Except Failure Unit) (last : Database) : Prop where
  whole : ∀ left, outcome work ⟨db, writes.length + left⟩ = (result, ⟨last, left⟩)
  cut : ∀ {n : Nat} {w : Write}, writes[n]? = some w → ∃ mid,
    db.applyAll (writes.take n) = .ok mid ∧
      outcome work ⟨db, n⟩ = (.error (.error (.database w.fault)), ⟨mid, 0⟩)

section
variable {work work' : Run Limited Unit} {next : Unit → Run Limited Unit} {writes : List Write}
  {w : Write} {result : Except Failure Unit} {last : Database}

/-- A run that makes no writes. -/
theorem makes_nil (h : ∀ left, outcome work ⟨db, left⟩ = (result, ⟨db, left⟩)) :
    Makes work db [] result db where
  whole left := by
    rw [List.length_nil, Nat.zero_add]
    exact h left
  cut := nofun

/-- A write, and the run after it. -/
theorem Makes.cons (hwrite : db.apply w = .ok db') (h : Makes (next ()) db' writes result last) :
    Makes (write w >>= next) db (w :: writes) result last where
  whole left := by
    rw [List.length_cons, Nat.add_right_comm, Limited.outcome_write_bind hwrite]
    exact h.whole left
  cut {n v} hv := by
    cases n with
    | zero =>
      cases hv
      exact ⟨db, rfl, outcome_bind_error (outcome_write_error rfl)⟩
    | succ n =>
      obtain ⟨mid, hmid, hcut⟩ := h.cut hv
      refine ⟨mid, ?_, (Limited.outcome_write_bind hwrite).trans hcut⟩
      rw [List.take_succ_cons, applyAll_cons, hwrite]
      exact hmid

/-- A write, and nothing after it. -/
theorem makes_write (hwrite : db.apply w = .ok db') : Makes (write w) db [w] (.ok ()) db' := by
  rw [← bind_pure (write w)]
  exact .cons hwrite (makes_nil fun _ => rfl)

/-- The same writes are made by a run that does the same on the database. -/
theorem Makes.congr (h : Makes work db writes result last)
    (hsame : ∀ left, outcome work' ⟨db, left⟩ = outcome work ⟨db, left⟩) :
    Makes work' db writes result last where
  whole left := (hsame _).trans (h.whole left)
  cut hw := by
    obtain ⟨mid, hmid, hcut⟩ := h.cut hw
    exact ⟨mid, hmid, (hsame _).trans hcut⟩

end

/-! ### The writes of a set-up -/

/-- The writes that make the tables. -/
def tableWrites : List Write := [.createBlocks, .createMetadata]

/-- The writes of a first block: its row, and its hash as the head. -/
def firstWrites (genesis : ChainRecord) : List Write :=
  [.saveBlock genesis.hash genesis.row, .saveMeta .chainHead genesis.hash.hex]

/-- The writes of a set-up of a new file. The network is the last. -/
def setUpWrites (params : NetworkParams) : List Write :=
  tableWrites ++
    match Block.genesis params with
    | .ok b => firstWrites (.genesis b) ++ [.saveMeta .network params.network.name]
    | .error _ => []

theorem makes_seed (network : Network) (genesis : ChainRecord) :
    Makes (seed network genesis) blank (firstWrites genesis ++ [.saveMeta .network network.name])
      (.ok ()) (seeded network genesis) := by
  rw [seed_eq]
  refine .cons rfl ?_
  refine .cons rfl ?_
  exact makes_write rfl

/-- **A set-up of a new file makes these writes**, and ends as it does without a limit. -/
theorem makes_setUp (params : NetworkParams) : Makes (setUp params) empty (setUpWrites params)
    (outcome (setUp params) empty).1 (outcome (setUp params) empty).2 := by
  have hempty : outcome (setUp params) empty =
      match Block.genesis params with
      | .ok b => (.ok (), seeded params.network (.genesis b))
      | .error failure => (.error failure, blank) := by
    rw [outcome_setUp (rfl : empty.withTables = ⟨.table .empty, .table .empty⟩)]
    rfl
  -- In the tables just made no network is recorded.
  have hnew (left : Nat) : outcome (liftM (orFail ((Writable.database
      (Limited.mk blank left)).readMeta .network)) : Run Limited (Option String))
      ⟨blank, left⟩ = (.ok none, ⟨blank, left⟩) := outcome_readMeta rfl
  rw [hempty, setUpWrites]
  refine .cons rfl ?_
  refine .cons rfl ?_
  refine .congr ?_ fun left => (outcome_bind_ok outcome_get).trans (outcome_bind_ok (hnew left))
  cases Block.genesis params with
  | error failure => exact makes_nil fun _ => outcome_bind_error (outcome_lift _)
  | ok b => exact (makes_seed _ _).congr fun _ => outcome_bind_ok (outcome_lift _)

/-! ### Cut short -/

/-- The tables are there or can be made, and no network is recorded. -/
def Unrecorded (db : Database) : Prop :=
  ∃ blocks texts, db.withTables = ⟨.table blocks, .table texts⟩ ∧ texts.get? .network = none

/-- Moreover nothing is there that writing a first block would not write. -/
def Partway (genesis : ChainRecord) (db : Database) : Prop :=
  ∃ blocks texts, db.withTables = ⟨.table blocks, .table texts⟩ ∧ texts.get? .network = none ∧
    blocks.insert genesis.hash.toList genesis.row =
      Table.empty.insert genesis.hash.toList genesis.row ∧
    texts.insert .chainHead genesis.hash.hex = Table.empty.insert .chainHead genesis.hash.hex

theorem unrecorded_empty : empty.Unrecorded := ⟨.empty, .empty, rfl, rfl⟩

theorem Partway.unrecorded (h : db.Partway genesis) : db.Unrecorded := by
  obtain ⟨blocks, texts, htables, hnetwork, -⟩ := h
  exact ⟨blocks, texts, htables, hnetwork⟩

theorem partway_empty (genesis : ChainRecord) : empty.Partway genesis :=
  ⟨.empty, .empty, rfl, rfl, rfl, rfl⟩

/-- Making tables leaves what can be made. -/
theorem withTables_apply {write : Write} (hwrite : write ∈ tableWrites)
    (h : db.apply write = .ok db') : db'.withTables = db.withTables := by
  obtain ⟨blocks, metadata⟩ := db
  rw [tableWrites, List.mem_cons, List.mem_singleton] at hwrite
  rcases hwrite with rfl | rfl
  · cases blocks <;> cases h <;> rfl
  · cases metadata <;> cases h <;> rfl

/-- **One write** of a set-up, other than its last, keeps a database on its way. -/
theorem Partway.apply {write : Write} (hdb : db.Partway genesis)
    (hwrite : write ∈ tableWrites ++ firstWrites genesis) (h : db.apply write = .ok db') :
    db'.Partway genesis := by
  obtain ⟨blocks, texts, htables, hnetwork, hblock, hhead⟩ := hdb
  rcases List.mem_append.1 hwrite with hwrite | hwrite
  · rw [← withTables_apply hwrite h] at htables
    exact ⟨blocks, texts, htables, hnetwork, hblock, hhead⟩
  · obtain ⟨blocksSlot, textsSlot⟩ := db
    obtain ⟨hblocks, htexts⟩ := Database.mk.inj htables
    rw [firstWrites, List.mem_cons, List.mem_singleton] at hwrite
    rcases hwrite with rfl | rfl
    · cases blocksSlot with
      | missing | taken => cases h
      | table rows =>
        cases h
        cases hblocks
        refine ⟨_, texts, congrArg (Database.mk _) htexts, hnetwork, ?_, hhead⟩
        rw [Table.insert_insert, hblock]
    · cases textsSlot with
      | missing | taken => cases h
      | table rows =>
        cases h
        cases htexts
        refine ⟨blocks, _, congrArg (Database.mk · _) hblocks, ?_, hblock, ?_⟩
        · rw [Table.get?_insert, if_neg (by decide), hnetwork]
        · rw [Table.insert_insert, hhead]

/-- A set-up that goes on from part of the way ends where one of a new file does. -/
theorem Partway.outcome_setUp {b : Block} (hb : Block.genesis params = .ok b)
    (h : db.Partway (.genesis b)) :
    outcome (setUp params) db = (.ok (), seeded params.network (.genesis b)) := by
  obtain ⟨blocks, texts, htables, hnetwork, hblock, hhead⟩ := h
  rw [Database.outcome_setUp htables, hnetwork, hb]
  show (Except.ok (), seededOver ..) = _
  rw [seededOver, hblock, hhead]
  rfl

/-- Opening makes a new chain: its first block is the head and its network is recorded, or there is
no first block and nothing is recorded. -/
def OpensNew (params : NetworkParams) (db : Database) : Prop :=
  match Block.genesis params with
  | .ok b => ∃ store, DatabaseStore.openIn params db = (.ok store, store.database) ∧
      BlockStore.params store = params ∧ BlockStore.head store = .ok (.genesis b) ∧
      store.database.readMeta .network = .ok (some params.network.name)
  | .error failure => DatabaseStore.openIn params db = (.error failure, db.withTables)

theorem Unrecorded.opensNew (h : db.Unrecorded) (params : NetworkParams) : OpensNew params db := by
  obtain ⟨blocks, texts, htables, hnetwork⟩ := h
  unfold OpensNew
  rw [openIn_new htables hnetwork]
  cases Block.genesis params with
  | error failure => rfl
  | ok b => exact ⟨_, rfl, rfl, head_seededOver _ _, readMeta_seededOver _ _⟩

/-- Of a set-up that is cut short, the last write is not done. -/
theorem take_setUpWrites_subset {b : Block} (hb : Block.genesis params = .ok b) {cut : Nat}
    (hcut : cut < (setUpWrites params).length) :
    (setUpWrites params).take cut ⊆ tableWrites ++ firstWrites (.genesis b) := by
  have hwrites : setUpWrites params = tableWrites ++ firstWrites (.genesis b) ++
      [.saveMeta .network params.network.name] := by
    rw [setUpWrites, hb, List.append_assoc]
  rw [hwrites, List.length_append, List.length_singleton] at hcut
  rw [hwrites, List.take_append_of_le_length (Nat.le_of_lt_succ hcut)]
  exact List.take_subset _ _

/-- What the writes of a set-up have made before the last of them is opened as a new file is. -/
theorem openIn_applyAll {cut : Nat} (hcut : cut < (setUpWrites params).length)
    (h : empty.applyAll ((setUpWrites params).take cut) = .ok db) (other : NetworkParams) :
    DatabaseStore.openIn params db = DatabaseStore.openIn params empty ∧ OpensNew other db := by
  cases hgenesis : Block.genesis params with
  | ok b =>
    have hwrites := take_setUpWrites_subset hgenesis hcut
    have hpartway : db.Partway (.genesis b) :=
      applyAll_induction (fun write hwrite _ _ hdb => hdb.apply (hwrites hwrite))
        (partway_empty _) h
    refine ⟨?_, hpartway.unrecorded.opensNew other⟩
    rw [DatabaseStore.openIn_eq, DatabaseStore.openIn_eq, hpartway.outcome_setUp hgenesis,
      (partway_empty _).outcome_setUp hgenesis]
  | error failure =>
    -- No first block is found, so nothing but the tables is written.
    have hwrites : setUpWrites params = tableWrites := by
      rw [setUpWrites, hgenesis, List.append_nil]
    rw [hwrites] at h
    have htables : db.withTables = blank :=
      applyAll_induction (P := (·.withTables = blank)) (fun write hwrite _ _ hbefore h =>
        (withTables_apply (List.mem_of_mem_take hwrite) h).trans hbefore) rfl h
    exact ⟨openIn_congr rfl htables, Unrecorded.opensNew ⟨_, _, htables, rfl⟩ other⟩

/-- **A set-up can be taken up again.** A set-up of a new file makes the writes of its tables, of
its first block and, last of all, of its network, and where these can all be done it ends as without
a limit. At whichever of them it is cut short, it reports that write and leaves what the writes
before it made; the same set-up then ends as it would have without, and one with other parameters
makes a new chain of its own. A set-up that is refused for its difficulty leaves both tables without
rows, and what is opened then is opened as in a new file. -/
theorem setUp_restart (params other : NetworkParams) :
    OpensNew params empty ∧
    (∀ left, outcome (setUp params) (Limited.mk empty ((setUpWrites params).length + left)) =
      ((outcome (setUp params) empty).1, ⟨(outcome (setUp params) empty).2, left⟩)) ∧
    (∀ cut w, (setUpWrites params)[cut]? = some w → ∃ db,
      outcome (setUp params) (Limited.mk empty cut) =
        (.error (.error (.database w.fault)), ⟨db, 0⟩) ∧
      empty.applyAll ((setUpWrites params).take cut) = .ok db ∧
      DatabaseStore.openIn params db = DatabaseStore.openIn params empty ∧ OpensNew other db) ∧
    (¬ params.Reachable → DatabaseStore.openIn params empty =
      (.error (.error (.configuration (.difficulty params.genesisDifficulty))), blank)) ∧
    DatabaseStore.openIn other blank = DatabaseStore.openIn other empty := by
  refine ⟨unrecorded_empty.opensNew params, (makes_setUp params).whole, fun cut w hw => ?_,
    fun hparams => ?_, openIn_congr rfl rfl⟩
  · obtain ⟨db, hdb, hstop⟩ := (makes_setUp params).cut hw
    obtain ⟨hcut, -⟩ := List.getElem?_eq_some_iff.1 hw
    exact ⟨db, hstop, hdb, openIn_applyAll hcut hdb other⟩
  · rw [DatabaseStore.openIn_empty, Block.genesis_eq, if_neg hparams]

/-- A set-up that is cut short just before the network is written, and one whose difficulty no hash
meets. -/
theorem setUp_restart_before_network :
    (∃ db, outcome (setUp ⟨.unittest, 0, 0⟩) (Limited.mk empty 4) =
        (.error (.error (.database (.saveMeta .network))), ⟨db, 0⟩) ∧
      DatabaseStore.openIn ⟨.unittest, 0, 0⟩ db = DatabaseStore.openIn ⟨.unittest, 0, 0⟩ empty ∧
      OpensNew ⟨.regtest, 0, 7⟩ db) ∧
    DatabaseStore.openIn ⟨.unittest, 256, 0⟩ empty =
      (.error (.error (.configuration (.difficulty 256))), blank) := by
  have hnetwork : (setUpWrites ⟨.unittest, 0, 0⟩)[4]? = some (.saveMeta .network "unittest") := by
    rw [setUpWrites, Block.genesis_of_difficulty rfl]
    rfl
  obtain ⟨-, -, hrestart, -⟩ := setUp_restart ⟨.unittest, 0, 0⟩ ⟨.regtest, 0, 7⟩
  obtain ⟨-, -, -, hrefused, -⟩ := setUp_restart ⟨.unittest, 256, 0⟩ ⟨.regtest, 0, 7⟩
  obtain ⟨db, hstop, -, hopen⟩ := hrestart 4 _ hnetwork
  exact ⟨⟨db, hstop, hopen⟩, hrefused (by decide)⟩

end Database

end TestChain
