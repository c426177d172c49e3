import TestChain.Proofs.Fixture.Growth
import TestChain.Proofs.Store.Writes

/-! What a failed extension leaves.

An extension writes last, and it writes twice: the record, then the head. So where it fails before
the second write, nothing has changed, and where it fails at the second write, the record is stored
and the head has not moved (`Chain.StopsAt`). In a database the row of the record is then all that
is left behind, and in memory nothing is left behind (`Chain.extend_failure`). -/
namespace TestChain.Chain

variable {σ : Type} [BlockStore σ]

/-- Where an extension ends in a failure, and the store that it leaves. -/
inductive StopsAt (start : Block) (parent : ChainRecord) (store : σ) : Failure → σ → Prop
  /-- No nonce is found. -/
  | solving {failure : Failure} : start.solve = .error failure →
    StopsAt start parent store failure store
  /-- The solved block does not pass. -/
  | checking {block : Block} {cause : ChainError} : start.solve = .ok block →
    block.verifyHeader = .error cause → StopsAt start parent store (.error cause) store
  /-- The block has no record on the parent. -/
  | building {block : Block} {cause : ChainError} : start.solve = .ok block →
    block.verifyHeader = .ok () → parent.build block = .error cause →
    StopsAt start parent store (.error cause) store
  /-- The record is not written. -/
  | putting {pair : BlockPair} {cause : ChainError} : Prepares start parent pair →
    BlockStore.put store pair.record = .error cause →
    StopsAt start parent store (.error cause) store
  /-- The record is written, and the head is not. -/
  | moving {pair : BlockPair} {cause : ChainError} {after : σ} : Prepares start parent pair →
    BlockStore.put store pair.record = .ok after →
    BlockStore.setHead after pair.record = .error cause →
    StopsAt start parent store (.error cause) after

section
variable {parent : ChainRecord} {version : UInt32} {seconds : UInt64} {height : UInt32}
  {txs : List Tx} {bench after : Workbench σ} {key : Key} {failure : Failure}

/-- A failed preparation has not written anything. -/
theorem stopsAt_of_prepare {payee : Address} {number : UInt32} (store : σ)
    (h : prepare payee number parent version seconds height txs = .error failure) :
    StopsAt (template payee number parent version seconds height txs) parent store failure
      store := by
  rcases except_bind_eq_error.1 h with hsolve | ⟨block, hsolve, h⟩
  · exact .solving hsolve
  rcases except_bind_eq_error.1 h with hverify | ⟨_, hverify, h⟩
  · obtain ⟨cause, hcause, rfl⟩ := orFail_eq_error.1 hverify
    exact .checking hsolve hcause
  rcases except_bind_eq_error.1 h with hbuild | ⟨record, hbuild, h⟩
  · obtain ⟨cause, hcause, rfl⟩ := orFail_eq_error.1 hbuild
    exact .building hsolve (orFail_eq_ok.1 hverify) hcause
  · cases h

theorem stopsAt_of_extend
    (h : outcome (extend key parent version seconds height txs) bench = (.error failure, after)) :
    StopsAt (template (key.address (BlockStore.params bench.store).network) bench.coinbases.next
      parent version seconds height txs) parent bench.store failure after.store := by
  rw [outcome_extend] at h
  cases hprepare : prepare (key.address (BlockStore.params bench.store).network)
      bench.coinbases.next parent version seconds height txs with
  | error failure' =>
    simp only [hprepare] at h
    cases h
    exact stopsAt_of_prepare bench.store hprepare
  | ok pair =>
    simp only [hprepare] at h
    have hpair := prepare_eq_ok_iff.1 hprepare
    rw [commit] at h
    cases hput : BlockStore.put bench.store pair.record with
    | error cause =>
      rw [outcome_bind_error (outcome_write_error hput)] at h
      cases h
      exact .putting hpair hput
    | ok mid =>
      rw [outcome_bind_ok (outcome_write_ok hput)] at h
      cases hset : BlockStore.setHead mid pair.record with
      | error cause =>
        rw [outcome_bind_error (outcome_write_error hset)] at h
        cases h
        exact .moving hpair hput hset
      | ok store =>
        rw [outcome_bind_ok (outcome_write_ok hset)] at h
        cases h

/-- The bench of a new chain in a database that takes records, and does not take a head. -/
def refusingBench : Workbench RefusingStore where
  store := {
    store := .database ⟨plain, .seeded .unittest plainFirst⟩
    refuses := fun
      | .saveMeta .. => true
      | _ => false }
  coinbases := ⟨0⟩

theorem prepare_refusing :
    prepare (plainKey.address (BlockStore.params refusingBench.store).network)
      refusingBench.coinbases.next plainFirst 1 0 0 [] = .ok ⟨plainBlock, plainSecond⟩ :=
  prepare_of_difficulty rfl (by decide) nofun

theorem outcome_refusing :
    ∃ store, BlockStore.put refusingBench.store plainSecond = .ok store ∧
      outcome (extend plainKey plainFirst 1 0 0 []) refusingBench =
        (.error (.error (.database (.saveMeta .chainHead))),
          { counted refusingBench with store }) := by
  obtain ⟨d, hput⟩ : ∃ d, BlockStore.put refusingBench.store plainSecond =
      .ok (refusingBench.store.keep (.database d)) := by
    have hrow : BlockStore.put refusingBench.store.store plainSecond = .ok (.database _) :=
      AnyStore.put_database_eq_ok_iff.2 ⟨_, Database.put_eq rfl plainSecond, rfl⟩
    exact ⟨_, (RefusingStore.attempt_of_not_refuses rfl).trans (congrArg (Except.map _) hrow)⟩
  have hset : BlockStore.setHead (refusingBench.store.keep (.database d)) plainSecond =
      .error (.database (.saveMeta .chainHead)) := rfl
  refine ⟨_, hput, ?_⟩
  rw [outcome_extend]
  simp only [prepare_refusing]
  rw [commit, outcome_bind_ok (outcome_write_ok hput),
    outcome_bind_error (outcome_write_error hset)]

/-- **What a failed extension leaves**, in any store and for any parent and arguments. Unless it
stops where the head is moved, the store is as before; and there, the row of the new block is all
that was added. So the head reads as before, if it was not the new block, and every other hash reads
as before. In memory everything is as before. -/
theorem extend_failure {view : σ → AnyStore} (hw : WritesThrough view)
    (h : outcome (extend key parent version seconds height txs) bench = (.error failure, after)) :
    let start := template (key.address (BlockStore.params bench.store).network)
      bench.coinbases.next parent version seconds height txs
    StopsAt start parent bench.store failure after.store ∧
      (after.store = bench.store ∨ ∃ pair cause, Prepares start parent pair ∧
        failure = .error cause ∧ BlockStore.setHead after.store pair.record = .error cause ∧
        (view bench.store).AddsRow pair.record (view after.store)) ∧
      (∀ hash, (∀ pair, Prepares start parent pair → hash ≠ pair.block.hash) →
        BlockStore.get after.store hash = BlockStore.get bench.store hash) ∧
      ((∀ pair, Prepares start parent pair →
          (view bench.store).headHash? ≠ some pair.block.hash) →
        BlockStore.head after.store = BlockStore.head bench.store) ∧
      ∀ m, view bench.store = .memory m → after.store = bench.store := by
  intro start
  have hstops : StopsAt start parent bench.store failure after.store := stopsAt_of_extend h
  refine ⟨hstops, ?_⟩
  generalize bench.store = store at hstops ⊢
  generalize after.store = store' at hstops ⊢
  cases hstops with
  | solving | checking | building | putting =>
    exact ⟨.inl rfl, fun _ _ => rfl, fun _ => rfl, fun _ _ => rfl⟩
  | @moving pair cause _ hpair hput hset =>
    have hrow := hw.addsRow hput hset
    refine ⟨.inr ⟨pair, cause, hpair, rfl, hset, hrow⟩, fun hash hne => ?_, fun hne => ?_, ?_⟩
    · rw [hw.get_put hput, if_neg (hpair.hash ▸ hne pair hpair)]
    · exact hw.head_put hput (hpair.hash ▸ hne pair hpair)
    · intro m hm
      obtain ⟨d, _, hd, -⟩ := hrow
      rw [hm] at hd
      cases hd

end

/-- The second block of the chain is stored, and that is all. -/
theorem extend_failure_refusing :
    let done := outcome (extend plainKey plainFirst 1 0 0 []) refusingBench
    done.1 = .error (.error (.database (.saveMeta .chainHead))) ∧
      BlockStore.get done.2.store plainBlock.hash = .ok (some plainSecond) ∧
      ∀ hash, hash ≠ plainBlock.hash →
        BlockStore.get done.2.store hash = BlockStore.get refusingBench.store hash := by
  intro done
  obtain ⟨store, hput, hdone⟩ := outcome_refusing
  change done = _ at hdone
  have hleft := extend_failure RefusingStore.writesThrough hdone
  rw [hdone]
  refine ⟨rfl, ?_, fun hash hne => ?_⟩
  · exact (RefusingStore.writesThrough.get_put hput _).trans (if_pos rfl)
  · refine hleft.2.2.1 hash fun pair hpair => ?_
    have hsame := prepare_eq_ok_iff.2 hpair
    rw [prepare_refusing] at hsame
    cases hsame
    exact hne

end TestChain.Chain
