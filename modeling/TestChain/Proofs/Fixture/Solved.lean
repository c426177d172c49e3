import TestChain.Proofs.Block.Genesis

/-! Solved blocks that are not stored.

The block made after a header is a draft of it, solved (`Chain.draft`). The time of the draft is
counted on from the header, which ends in an overflow for the last five seconds there are; otherwise
the coinbase passes its checks, the root is up to date and the search touches neither, so what the
checks say of the block is what they say of the given transactions (`Chain.IsSolved`).

Such a block after the head of a store is made by reading the head, and at a bench this leaves the
store as it is (`Chain.solveOnHead`). -/
namespace TestChain

/-- On a block whose root is up to date, to add transactions one by one, with the root computed
again each time, is to add them all at once. -/
theorem Block.foldl_addTransaction {b : Block}
    (hroot : merkleRoot b.transactions = b.header.merkleRoot) (txs : List Tx) :
    txs.foldl Block.addTransaction b = b.addTransactions txs := by
  induction txs generalizing b with
  | nil =>
    obtain ⟨header, transactions⟩ := b
    rw [List.foldl_nil, addTransactions, List.append_nil, refreshRoot, hroot]
  | cons tx txs ih =>
    rw [List.foldl_cons, ih rfl]
    simp only [addTransactions, addTransaction, refreshRoot, List.append_assoc,
      List.singleton_append]

namespace Chain
variable {h : Header} {payee : Address} {number : UInt32} {txs : List Tx} {b : Block}
  {made : CoinbaseCounter}

/-! ### The draft, and the block solved -/

/-- The block after a header that a nonce is looked for of. -/
def draft (h : Header) (payee : Address) (number : UInt32) (txs : List Tx) : Block :=
  (h.successor number payee Block.versionGenesis (h.timestamp + spacing) none).addTransactions txs

theorem draft_transactions :
    (draft h payee number txs).transactions = .reward number payee none :: txs := rfl

theorem checkStructure_reward (number : UInt32) (payee : Address) (height : Option UInt32) :
    (Tx.reward number payee height).checkStructure = .ok () := by
  refine Tx.checkStructure_coinbase ?_ (by decide)
  rw [Wire.length_u32]
  decide

/-- What the solved block after a header is like. The given transactions are in it as they are. -/
structure IsSolved (h : Header) (payee : Address) (number : UInt32) (txs : List Tx) (b : Block) :
    Prop where
  previous : b.header.previous = h.hash
  difficulty : b.header.difficulty = h.difficulty
  transactions : b.transactions = .reward number payee none :: txs
  passesHeader : b.verifyHeader = .ok () ↔ ∀ tx ∈ txs, tx.isCoinbase = false
  passes : b.verify = .ok () ↔ (∀ tx ∈ txs, tx.isCoinbase = false) ∧
    (∀ tx ∈ txs, tx.checkStructure = .ok ()) ∧
    ∀ s ∈ txs, ∀ t ∈ txs, s.txid ≠ t.txid → s.spent.Disjoint t.spent

theorem isSolved_of_solve (hsolve : (draft h payee number txs).solve = .ok b) :
    IsSolved h payee number txs b := by
  obtain ⟨-, htxs, htask, -⟩ := Block.solve_eq_ok hsolve
  obtain ⟨hheader, hverify⟩ := Block.verify_of_solve hsolve (merkleRoot_addTransactions _ _)
    draft_transactions (isCoinbase_reward ..) (checkStructure_reward ..)
  refine ⟨?_, ?_, htxs, hheader, hverify⟩
  · rw [htask]
    rfl
  · rw [htask]
    rfl

/-- After the header of a late block there is no time left for another. -/
theorem outcome_solvedAfter_late (hlate : 2 ^ 64 - 6 < h.timestamp.toNat) :
    outcome (solvedAfter h payee txs) made = (.error (.overflow .add), made) := by
  have htime : addChecked h.timestamp spacing = .error .add := by
    rw [addChecked, if_neg]
    show ¬ h.timestamp.toNat + 5 < 2 ^ 64
    omega
  rw [solvedAfter, htime]
  exact outcome_bind_error (outcome_lift _)

/-- After any other header the draft under the next number is solved. -/
theorem outcome_solvedAfter (htime : ¬ 2 ^ 64 - 6 < h.timestamp.toNat) :
    outcome (solvedAfter h payee txs) made =
      ((draft h payee made.next txs).solve, ⟨made.next + 1⟩) := by
  have htime : addChecked h.timestamp spacing = .ok (h.timestamp + spacing) := by
    rw [addChecked, if_pos]
    show h.timestamp.toNat + 5 < 2 ^ 64
    omega
  have hnext : outcome
      (liftM (h.nextBlock payee Block.versionGenesis (h.timestamp + spacing) none) :
        ExceptT Failure Numbered Block) made =
      (.ok (h.successor made.next payee Block.versionGenesis (h.timestamp + spacing) none),
        ⟨made.next + 1⟩) := rfl
  rw [solvedAfter, htime]
  refine (outcome_bind_ok (outcome_lift _)).trans ((outcome_bind_ok hnext).trans ?_)
  exact outcome_lift _

theorem isSolved_of_outcome {after : CoinbaseCounter}
    (e : outcome (solvedAfter h payee txs) made = (.ok b, after)) :
    IsSolved h payee made.next txs b := by
  by_cases htime : 2 ^ 64 - 6 < h.timestamp.toNat
  · rw [outcome_solvedAfter_late htime] at e
    cases e
  · rw [outcome_solvedAfter htime] at e
    exact isSolved_of_solve (Prod.mk.inj e).1

/-! ### After the head of a store -/

variable {σ : Type} [BlockStore σ] {bench : Workbench σ}

/-- A solved block after the head of the store at a bench. -/
def solveOnHead (payee : Address) : Bench σ Block := do
  let bench ← getThe (Workbench σ)
  let result ← Bench.numbered (solvedOnHead bench.store payee).run
  liftM result

theorem outcome_solveOnHead :
    outcome (solveOnHead payee) bench =
      ((outcome (solvedOnHead bench.store payee) bench.coinbases).1,
        ⟨bench.store, (outcome (solvedOnHead bench.store payee) bench.coinbases).2⟩) := by
  rw [solveOnHead, outcome_bind_ok outcome_get]
  exact (outcome_bind_ok rfl).trans (outcome_lift _)

theorem outcome_solveOnHead_ok {head : ChainRecord}
    (hread : BlockStore.head bench.store = .ok head) :
    outcome (solveOnHead payee) bench =
      ((outcome (solvedAfter head.header payee []) bench.coinbases).1,
        ⟨bench.store, (outcome (solvedAfter head.header payee []) bench.coinbases).2⟩) := by
  have hsolved : outcome (solvedOnHead bench.store payee) bench.coinbases =
      outcome (solvedAfter head.header payee []) bench.coinbases := by
    rw [solvedOnHead, hread]
    exact outcome_bind_ok (outcome_lift _)
  rw [outcome_solveOnHead, hsolved]

theorem outcome_solveOnHead_error {cause : ChainError}
    (hread : BlockStore.head bench.store = .error cause) :
    outcome (solveOnHead payee) bench = (.error (.error cause), bench) := by
  have hfail : outcome (solvedOnHead bench.store payee) bench.coinbases =
      (.error (.error cause), bench.coinbases) := by
    rw [solvedOnHead, hread]
    exact outcome_bind_error (outcome_lift _)
  rw [outcome_solveOnHead, hfail]

/-- With nothing given that could be refused, a block after the head passes. -/
theorem verify_of_solveOnHead {after : Workbench σ}
    (e : outcome (solveOnHead payee) bench = (.ok b, after)) : b.verify = .ok () := by
  cases hread : BlockStore.head bench.store with
  | error cause =>
    rw [outcome_solveOnHead_error hread] at e
    cases e
  | ok head =>
    rw [outcome_solveOnHead_ok hread] at e
    have hsolved : IsSolved head.header payee bench.coinbases.next [] b :=
      isSolved_of_outcome (Prod.ext (Prod.mk.inj e).1 rfl)
    exact hsolved.passes.2 ⟨nofun, nofun, nofun⟩

/-- **Solved blocks pass just when they should.** After a late header a block ends in an overflow,
with nothing counted. After any other there is a block where the difficulty is within reach and the
search for a nonce comes to an end, and any block that there is passes the checks just when the
given transactions let it. After the head of a store the block is made in the same way with no
transactions, so it passes, and the store stays as it is. -/
theorem solved_exact (payee : Address) :
    (∀ (h : Header) (txs : List Tx) (made : CoinbaseCounter),
      if 2 ^ 64 - 6 < h.timestamp.toNat then
        outcome (solvedAfter h payee txs) made = (.error (.overflow .add), made)
      else
        (h.difficulty ≤ NetworkParams.maxDifficulty →
          (∀ last, (draft h payee made.next txs).search ≠ .exhausted last) →
          ∃ b, outcome (solvedAfter h payee txs) made = (.ok b, ⟨made.next + 1⟩)) ∧
        ∀ b after, outcome (solvedAfter h payee txs) made = (.ok b, after) →
          IsSolved h payee made.next txs b) ∧
    (∀ bench : Workbench σ,
      (outcome (solveOnHead payee) bench).2.store = bench.store ∧
      (∀ b after, outcome (solveOnHead payee) bench = (.ok b, after) → b.verify = .ok ()) ∧
      (∀ cause, BlockStore.head bench.store = .error cause →
        outcome (solveOnHead payee) bench = (.error (.error cause), bench)) ∧
      ∀ head, BlockStore.head bench.store = .ok head →
        outcome (solveOnHead payee) bench =
          ((outcome (solvedAfter head.header payee []) bench.coinbases).1,
            ⟨bench.store, (outcome (solvedAfter head.header payee []) bench.coinbases).2⟩) ∧
        (2 ^ 64 - 6 < head.header.timestamp.toNat →
          outcome (solveOnHead payee) bench = (.error (.overflow .add), bench))) ∧
    (Failure.overflow .add).message = "attempt to add with overflow" := by
  refine ⟨fun h txs made => ?_, fun bench => ⟨?_, fun b after => verify_of_solveOnHead,
    fun cause => outcome_solveOnHead_error,
    fun head hread => ⟨outcome_solveOnHead_ok hread, fun hlate => ?_⟩⟩, rfl⟩
  · split
    next hlate => exact outcome_solvedAfter_late hlate
    next htime =>
      refine ⟨fun hmax hsearch => ?_, fun b after e => isSolved_of_outcome e⟩
      obtain ⟨b, hsolve⟩ :=
        Block.exists_solve (b := draft h payee made.next txs) (UInt32.not_lt.2 hmax) hsearch
      exact ⟨b, by rw [outcome_solvedAfter htime, hsolve]⟩
  · rw [outcome_solveOnHead]
  · rw [outcome_solveOnHead_ok hread, outcome_solvedAfter_late hlate]

/-- After the first block of the test network: with a payment, with a second coinbase, at the last
time there is, and at a bench. -/
theorem solved_exact_plain :
    let payee : Address := ⟨.unittest, .zero 20⟩
    let first := plainFirst.header
    let last := { first with timestamp := 0xffffffffffffffff }
    (∃ b, outcome (solvedAfter first payee [Block.leastPayment ⟨.zero, 0⟩]) ⟨0⟩ = (.ok b, ⟨1⟩) ∧
      b.verify = .ok ()) ∧
    (∃ b, outcome (solvedAfter first payee [Block.leastCoinbase]) ⟨0⟩ = (.ok b, ⟨1⟩) ∧
      b.verifyHeader ≠ .ok ()) ∧
    outcome (solvedAfter last payee []) ⟨0⟩ = (.error (.overflow .add), ⟨0⟩) ∧
    ∃ b, outcome (solveOnHead payee) plainBench = (.ok b, ⟨plainBench.store, ⟨1⟩⟩) ∧
      b.verify = .ok () := by
  intro payee first last
  have hfirst (txs : List Tx) :
      (∃ b, outcome (solvedAfter first payee txs) ⟨0⟩ = (.ok b, ⟨1⟩)) ∧
        ∀ b after, outcome (solvedAfter first payee txs) ⟨0⟩ = (.ok b, after) →
          IsSolved first payee 0 txs b := by
    have h := (solved_exact (σ := AnyStore) payee).1 first txs ⟨0⟩
    rw [if_neg (by decide)] at h
    exact ⟨h.1 (by decide) (Block.search_ne_exhausted rfl), h.2⟩
  have hlast := (solved_exact (σ := AnyStore) payee).1 last [] ⟨0⟩
  rw [if_pos (by decide)] at hlast
  obtain ⟨-, hpass, -, hequal⟩ := (solved_exact (σ := AnyStore) payee).2.1 plainBench
  have hread : BlockStore.head plainBench.store = .ok plainFirst :=
    (AnyStore.keeps.head plain_holds).trans (Contents.seeded_headRecord _)
  obtain ⟨b, hb⟩ := (hfirst [Block.leastPayment ⟨.zero, 0⟩]).1
  obtain ⟨c, hc⟩ := (hfirst [Block.leastCoinbase]).1
  obtain ⟨d, hd⟩ := (hfirst []).1
  have hbench := (hequal plainFirst hread).1
  have hd : outcome (solveOnHead payee) plainBench = (.ok d, ⟨plainBench.store, ⟨1⟩⟩) := by
    have hmade : outcome (solvedAfter first payee []) plainBench.coinbases = (.ok d, ⟨1⟩) := hd
    rw [hbench, hmade]
  refine ⟨⟨b, hb, ?_⟩, ⟨c, hc, fun h => ?_⟩, hlast, d, hd, hpass d _ hd⟩
  · have hnull : (⟨.zero, 0⟩ : OutPoint).isNull = false := by decide
    refine ((hfirst _).2 b _ hb).passes.2 ?_
    simp only [List.forall_mem_singleton, ne_eq, not_true_eq_false, false_implies, and_true]
    exact ⟨Block.isCoinbase_keyPayment hnull, Block.checkStructure_keyPayment hnull (by decide)⟩
  · have hnone := ((hfirst _).2 c _ hc).passesHeader.1 h _ (List.mem_singleton_self _)
    cases hnone

end Chain

end TestChain
