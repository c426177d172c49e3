import TestChain.Fixture.Chain
import TestChain.Proofs.Block.Solve
import TestChain.Proofs.Store.Contents
import TestChain.Proofs.Store.Record

/-! What extending a chain does.

Everything up to the first write depends on the parent, the arguments and the next number of a
coinbase only, and is `Chain.prepare`. An extension is a preparation and, when that succeeds, two
writes (`Chain.outcome_extend`). The record prepared follows its parent (`ChainRecord.Follows`), and
on a store that keeps contents an extension either fails and changes nothing, or commits such a
record (`Extension.perform_extends`), through whichever call it is made. -/
namespace TestChain

/-- A solved block whose root was up to date passes, unless a second transaction is a coinbase: the
search leaves the transactions and the root. -/
theorem Block.verifyHeader_of_solve {b solved : Block} (hsolve : b.solve = .ok solved)
    (hroot : merkleRoot b.transactions = b.header.merkleRoot) {first : Tx} {others : List Tx}
    (htxs : b.transactions = first :: others) (hfirst : first.isCoinbase = true) :
    solved.verifyHeader =
      if others.any Tx.isCoinbase then .error (.block .secondCoinbase) else .ok () := by
  obtain ⟨-, hsame, htask, hmeets⟩ := Block.solve_eq_ok hsolve
  have hroot' : merkleRoot solved.transactions = solved.header.merkleRoot := by
    rw [hsame, hroot, htask]
  rw [htxs] at hsame
  by_cases hothers : others.any Tx.isCoinbase = true
  · simp only [Block.verifyHeader, hsame, hfirst, hothers, Bool.not_true, Bool.false_eq_true,
      if_false, if_true]
  · rw [if_neg hothers]
    exact Block.verifyHeader_eq_ok_iff.2
      ⟨first, others, hsame, hfirst, Bool.eq_false_iff.2 hothers, hroot', hmeets⟩

namespace Chain

/-! ### Preparation -/

/-- The block that an extension looks for a nonce of. -/
def template (payee : Address) (number : UInt32) (parent : ChainRecord) (version : UInt32)
    (seconds : UInt64) (height : UInt32) (txs : List Tx) : Block :=
  (parent.header.successor number payee version seconds (some height)).addTransactions
    (txs.map Tx.fromNetwork)

/-- The block and the record of an extension, of which nothing is stored yet. -/
def prepare (payee : Address) (number : UInt32) (parent : ChainRecord) (version : UInt32)
    (seconds : UInt64) (height : UInt32) (txs : List Tx) : Except Failure BlockPair := do
  let block ← (template payee number parent version seconds height txs).solve
  orFail block.verifyHeader
  let record ← orFail (parent.build block)
  return ⟨block, record⟩

/-- The solved block of a template, which passes, and its record on a parent. -/
structure Prepares (start : Block) (parent : ChainRecord) (pair : BlockPair) : Prop where
  solve : start.solve = .ok pair.block
  passes : pair.block.verifyHeader = .ok ()
  build : parent.build pair.block = .ok pair.record

theorem Prepares.hash {start : Block} {parent : ChainRecord} {pair : BlockPair}
    (h : Prepares start parent pair) : pair.record.hash = pair.block.hash :=
  congrArg Header.hash (ChainRecord.build_eq_ok h.build).2.1

variable {payee : Address} {number : UInt32} {parent : ChainRecord} {version : UInt32}
  {seconds : UInt64} {height : UInt32} {txs : List Tx}

/-- What is prepared is the solved template and its record on the parent. -/
theorem prepare_eq_ok_iff {pair : BlockPair} :
    prepare payee number parent version seconds height txs = .ok pair ↔
      Prepares (template payee number parent version seconds height txs) parent pair := by
  constructor
  · intro e
    obtain ⟨block, hsolve, e⟩ := except_bind_eq_ok.1 e
    obtain ⟨_, hverify, e⟩ := except_bind_eq_ok.1 e
    obtain ⟨record, hbuild, e⟩ := except_bind_eq_ok.1 e
    cases e
    exact ⟨hsolve, orFail_eq_ok.1 hverify, orFail_eq_ok.1 hbuild⟩
  · intro h
    obtain ⟨hsolve, hverify, hbuild⟩ := h
    exact except_bind_eq_ok.2 ⟨_, hsolve, except_bind_eq_ok.2 ⟨_, orFail_eq_ok.2 hverify,
      except_bind_eq_ok.2 ⟨_, orFail_eq_ok.2 hbuild, rfl⟩⟩⟩

theorem prepare_follows {pair : BlockPair}
    (e : prepare payee number parent version seconds height txs = .ok pair) :
    pair.record.Follows parent ∧ pair.record.header = pair.block.header := by
  obtain ⟨hsolve, -, hbuild⟩ := prepare_eq_ok_iff.1 e
  obtain ⟨-, -, hsame, hmeets⟩ := Block.solve_eq_ok hsolve
  obtain ⟨hprevious, hheader, hheight, hwork⟩ := ChainRecord.build_eq_ok hbuild
  refine ⟨⟨?_, ?_, ?_, hheight, ?_⟩, hheader⟩
  · rw [hheader, hprevious]
  · rw [hheader, hsame]
    rfl
  · rw [hheader, hmeets]
  · rw [hwork, hheader]
    rfl

/-- Adding transactions brings the root up to date. -/
theorem merkleRoot_addTransactions (b : Block) (txs : List Tx) :
    merkleRoot (b.addTransactions txs).transactions = (b.addTransactions txs).header.merkleRoot :=
  rfl

theorem template_transactions :
    (template payee number parent version seconds height txs).transactions =
      .reward number payee (some height) :: txs.map Tx.fromNetwork := rfl

theorem isCoinbase_reward (number : UInt32) (payee : Address) (height : Option UInt32) :
    (Tx.reward number payee height).isCoinbase = true := rfl

theorem any_isCoinbase_fromNetwork (txs : List Tx) :
    (txs.map Tx.fromNetwork).any Tx.isCoinbase = txs.any Tx.isCoinbase := List.any_map

/-- What is prepared of a solved template. -/
theorem prepare_of_solve {solved : Block}
    (hsolve : (template payee number parent version seconds height txs).solve = .ok solved) :
    prepare payee number parent version seconds height txs =
      if txs.any Tx.isCoinbase then .error (.error (.block .secondCoinbase))
      else if parent.height.toNat + 1 < UInt32.size then
        .ok ⟨solved, ⟨solved.header, parent.chainWork.add solved.work, parent.height + 1⟩⟩
      else .error (.error (.block (.heightOverflow parent.height))) := by
  have hverify := Block.verifyHeader_of_solve hsolve (merkleRoot_addTransactions _ _)
    template_transactions (isCoinbase_reward ..)
  rw [any_isCoinbase_fromNetwork] at hverify
  obtain ⟨-, -, htask, -⟩ := Block.solve_eq_ok hsolve
  have hprevious : solved.header.previous = parent.hash := by
    rw [htask]
    rfl
  rw [prepare, hsolve]
  show orFail solved.verifyHeader >>= _ = _
  rw [hverify]
  by_cases htxs : txs.any Tx.isCoinbase = true
  · rw [if_pos htxs, if_pos htxs]
    rfl
  · rw [if_neg htxs, if_neg htxs]
    show orFail (parent.build solved) >>= _ = _
    rw [ChainRecord.build, if_neg (not_not_intro hprevious)]
    split <;> rfl

/-- At difficulty zero the template is solved as it stands, and unless a given transaction is a
coinbase, or the heights are used up, it passes. -/
theorem prepare_of_difficulty (hd : parent.header.difficulty = 0)
    (hheight : parent.height.toNat + 1 < UInt32.size) (htxs : ∀ tx ∈ txs, tx.isCoinbase = false) :
    let b := template payee number parent version seconds height txs
    prepare payee number parent version seconds height txs =
      .ok ⟨b, ⟨b.header, parent.chainWork.add b.work, parent.height + 1⟩⟩ := by
  intro b
  have hsolve : b.solve = .ok b := Block.solve_of_difficulty hd
  have hothers : txs.any Tx.isCoinbase = false :=
    List.any_eq_false.2 fun tx htx => Bool.eq_false_iff.1 (htxs tx htx)
  rw [prepare_of_solve hsolve, hothers, if_neg Bool.false_ne_true, if_pos hheight]

/-! ### One extension -/

variable {σ : Type} [BlockStore σ]

/-- The bench with the next coinbase counted as made. -/
def counted (bench : Workbench σ) : Workbench σ :=
  { bench with coinbases := ⟨bench.coinbases.next + 1⟩ }

/-- The writes of a record: under its hash, and as the head. -/
def commit (pair : BlockPair) : Bench σ BlockPair := do
  Bench.write (BlockStore.put · pair.record)
  Bench.write (BlockStore.setHead · pair.record)
  return pair

/-- An extension is a preparation, under the next number, and the writes of what is prepared. -/
theorem outcome_extend (key : Key) (bench : Workbench σ) :
    outcome (extend key parent version seconds height txs) bench =
      match prepare (key.address (BlockStore.params bench.store).network) bench.coinbases.next
        parent version seconds height txs with
      | .ok pair => outcome (commit pair) (counted bench)
      | .error failure => (.error failure, counted bench) := by
  have hstart : outcome (Bench.numbered (parent.header.nextBlock
      (key.address (BlockStore.params bench.store).network) version seconds (some height))) bench =
      (.ok (parent.header.successor bench.coinbases.next
        (key.address (BlockStore.params bench.store).network) version seconds (some height)),
        counted bench) := rfl
  rw [extend, outcome_bind_ok outcome_get, outcome_bind_ok hstart, prepare]
  generalize key.address (BlockStore.params bench.store).network = payee
  show outcome (liftM (template payee bench.coinbases.next parent version seconds height txs).solve
    >>= _) (counted bench) = _
  -- The same three steps on both sides; the first that fails ends both.
  cases hsolve : (template payee bench.coinbases.next parent version seconds height txs).solve with
  | error failure => exact outcome_bind_error (outcome_lift _)
  | ok block =>
    rw [outcome_bind_ok (outcome_lift _)]
    cases hverify : orFail block.verifyHeader with
    | error failure =>
      simp only [bind, Except.bind, hverify]
      exact outcome_bind_error (outcome_lift _)
    | ok _ =>
      rw [outcome_bind_ok (outcome_lift _)]
      cases hbuild : orFail (parent.build block) with
      | error failure =>
        simp only [bind, Except.bind, hverify, hbuild]
        exact outcome_bind_error (outcome_lift _)
      | ok record =>
        rw [outcome_bind_ok (outcome_lift _)]
        simp only [bind, Except.bind, hverify, hbuild]
        rfl

omit [BlockStore σ] in
theorem outcome_write_ok {step : σ → Except ChainError σ} {bench : Workbench σ} {store : σ}
    (h : step bench.store = .ok store) :
    outcome (Bench.write step) bench = (.ok (), { bench with store }) := by
  rw [Bench.write, outcome_bind_ok outcome_get, h]
  rfl

omit [BlockStore σ] in
theorem outcome_write_error {step : σ → Except ChainError σ} {bench : Workbench σ}
    {cause : ChainError} (h : step bench.store = .error cause) :
    outcome (Bench.write step) bench = (.error (.error cause), bench) := by
  rw [Bench.write, outcome_bind_ok outcome_get, h]
  rfl

/-- On a store that keeps contents, the writes of a record commit it. -/
theorem outcome_commit {holds : σ → Contents → Prop} (hk : Keeps holds) {bench : Workbench σ}
    {c : Contents} (h : holds bench.store c) (pair : BlockPair) :
    ∃ store, outcome (commit pair) bench = (.ok pair, { bench with store }) ∧
      holds store (c.commit pair.record) ∧
      BlockStore.params store = BlockStore.params bench.store := by
  obtain ⟨mid, hput, hmid, hparams⟩ := hk.put h pair.record
  obtain ⟨store, hset, hstore, hparams'⟩ := hk.setHead hmid pair.record
  refine ⟨store, ?_, hstore, hparams'.trans hparams⟩
  rw [commit, outcome_bind_ok (outcome_write_ok hput), outcome_bind_ok (outcome_write_ok hset)]
  rfl

/-- On a store that keeps contents, what is prepared is committed. -/
theorem outcome_extend_ok {holds : σ → Contents → Prop} (hk : Keeps holds) {bench : Workbench σ}
    {c : Contents} (h : holds bench.store c) {key : Key} {pair : BlockPair}
    (hprepare : prepare (key.address (BlockStore.params bench.store).network) bench.coinbases.next
      parent version seconds height txs = .ok pair) :
    ∃ store, outcome (extend key parent version seconds height txs) bench =
        (.ok pair, { counted bench with store }) ∧
      holds store (c.commit pair.record) ∧
      BlockStore.params store = BlockStore.params bench.store := by
  have hcounted : holds (counted bench).store c := h
  obtain ⟨store, hcommit, hstore⟩ := outcome_commit hk hcounted pair
  refine ⟨store, ?_, hstore⟩
  rw [outcome_extend, hprepare]
  exact hcommit

/-- The work ends in a failure that leaves what the store holds, or it commits a record that follows
the parent. -/
def Extends (holds : σ → Contents → Prop) (work : Bench σ BlockPair) (bench : Workbench σ)
    (c : Contents) (parent : ChainRecord) : Prop :=
  match outcome work bench with
  | (.error _, after) => holds after.store c
  | (.ok pair, after) => holds after.store (c.commit pair.record) ∧ pair.record.Follows parent

section Extends
variable {holds : σ → Contents → Prop} {bench : Workbench σ} {c : Contents}

theorem extend_extends (hk : Keeps holds) (h : holds bench.store c) (key : Key) :
    Extends holds (extend key parent version seconds height txs) bench c parent := by
  unfold Extends
  cases hprepare : prepare (key.address (BlockStore.params bench.store).network)
      bench.coinbases.next parent version seconds height txs with
  | error failure =>
    rw [outcome_extend, hprepare]
    exact h
  | ok pair =>
    obtain ⟨store, hextend, hstore, -⟩ := outcome_extend_ok hk h hprepare
    rw [hextend]
    exact ⟨hstore, (prepare_follows hprepare).1⟩

omit [BlockStore σ] in
/-- Putting a failure otherwise changes nothing else. -/
theorem Extends.must {work : Bench σ BlockPair} (h : Extends holds work bench c parent)
    (step : FixtureStep) : Extends holds (Bench.must step work) bench c parent := by
  unfold Extends at *
  rw [Bench.must, outcome_adapt]
  cases hwork : outcome work bench with
  | mk result after =>
    rw [hwork] at h
    cases result <;> exact h

theorem extendHead_extends (hk : Keeps holds) (h : holds bench.store c)
    (hhead : c.headRecord = .ok parent) (key : Key) :
    Extends holds (extendHead key version seconds height txs) bench c parent := by
  have hread : outcome (Bench.must .readHead (Bench.read BlockStore.head)) bench =
      (.ok parent, bench) := by
    rw [Bench.must, outcome_adapt, Bench.read, outcome_bind_ok outcome_get, hk.head h, hhead]
    rfl
  unfold Extends
  rw [extendHead, outcome_bind_ok hread]
  exact (extend_extends hk h key).must .extendChain

end Extends

end Chain

/-! ### Any call -/

/-- A call that extends a chain. The first constructors extend it at the head, the others on a given
parent. -/
inductive Extension
  | head (key : Key) (version : UInt32) (seconds : UInt64) (height : UInt32) (txs : List Tx)
  | headAt (key : Key) (version : UInt32) (time : Int) (height : UInt32) (txs : List Tx)
  | headNow (key : Key) (now : Int) (height : UInt32) (txs : List Tx)
  | on (key : Key) (parent : ChainRecord) (version : UInt32) (seconds : UInt64) (height : UInt32)
    (txs : List Tx)
  | tryOnAt (key : Key) (parent : ChainRecord) (version : UInt32) (time : Int) (height : UInt32)
    (txs : List Tx)
  | onAt (key : Key) (parent : ChainRecord) (version : UInt32) (time : Int) (height : UInt32)
    (txs : List Tx)
  | onNow (key : Key) (parent : ChainRecord) (now : Int) (height : UInt32) (txs : List Tx)

namespace Extension
variable {σ : Type} [BlockStore σ]

def perform : Extension → Bench σ BlockPair
  | head key version seconds height txs => Chain.extendHead key version seconds height txs
  | headAt key version time height txs => Chain.extendHeadAt key version time height txs
  | headNow key now height txs => Chain.extendHeadNow key now height txs
  | on key parent version seconds height txs => Chain.extend key parent version seconds height txs
  | tryOnAt key parent version time height txs =>
    Chain.tryExtendOn key parent version time height txs
  | onAt key parent version time height txs => Chain.extendOn key parent version time height txs
  | onNow key parent now height txs => Chain.extendOnNow key parent now height txs

/-- The parent that a call is given, if it does not extend the head. -/
def parent? : Extension → Option ChainRecord
  | head .. | headAt .. | headNow .. => none
  | on _ parent .. | tryOnAt _ parent .. | onAt _ parent .. | onNow _ parent .. => some parent

/-- The parent is given as it is stored. -/
def Admissible (call : Extension) (store : σ) : Prop :=
  ∀ parent, call.parent? = some parent → BlockStore.get store parent.hash = .ok (some parent)

/-- **What a call does** to a store that keeps contents and has a head: it fails and leaves the
contents, or it commits a record that follows its parent. -/
theorem perform_extends {holds : σ → Contents → Prop} (hk : Keeps holds) {bench : Workbench σ}
    {c : Contents} (h : holds bench.store c) {headParent : ChainRecord}
    (hhead : c.headRecord = .ok headParent) (call : Extension) :
    Chain.Extends holds call.perform bench c (call.parent?.getD headParent) := by
  cases call with
  | head key => exact Chain.extendHead_extends hk h hhead key
  | headAt key => exact Chain.extendHead_extends hk h hhead key
  | headNow key => exact Chain.extendHead_extends hk h hhead key
  | on key => exact Chain.extend_extends hk h key
  | tryOnAt key => exact Chain.extend_extends hk h key
  | onAt key => exact (Chain.extend_extends hk h key).must .extendChain
  | onNow key => exact (Chain.extend_extends hk h key).must .extendChain

end Extension

end TestChain
