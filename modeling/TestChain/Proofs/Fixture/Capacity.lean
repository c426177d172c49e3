import TestChain.Proofs.Block.Spends
import TestChain.Proofs.Fixture.Growth
import TestChain.Proofs.Fixture.RoundTrip

/-! How much a block holds.

A block goes through the wire just when it takes no more bytes than a block may
(`Block.survives_iff`). An extension puts what it is given behind a coinbase, and nothing on the way
counts bytes: the check of the header asks which transactions are coinbases, and for the root. So
the block takes a fixed overhead and the bytes of the given transactions, and survives as long as
there is room for these (`Extension.survives_iff_room`). Nine transactions that pass their own check
always have room. Ten may have none (`Extension.heavy_refused`). -/
namespace TestChain

/-! ### Blocks on the wire -/

namespace Block

/-- The block can be written within its limit, and comes back equal. -/
structure Survives (b : Block) : Prop where
  written : ∃ bs, b.toBytes = .ok bs ∧ bs.length ≤ Wire.Item.block.limit
  back : ∃ copy, b.mustRoundTrip = .ok copy ∧ (copy == b) = true

/-- Writing the block says that it is too large, and a fixture ends there. -/
structure Refused (b : Block) : Prop where
  written : b.toBytes = .error (.encoding .block)
  back : b.mustRoundTrip = .error (.fixture .roundTripBlock (.encoding .block))

theorem survives_of_size {b : Block} (h : b.size ≤ Wire.Item.block.limit) : b.Survives := by
  have hlength : b.encode.length ≤ Wire.Item.block.limit := by rwa [length_encode]
  refine ⟨⟨b.encode, Wire.Item.bounded_eq_ok.2 ⟨hlength, rfl⟩, hlength⟩, b.strip, ?_, beq_strip b⟩
  have hback : b.roundTrip = .ok b.strip := (passes.bind_eq b).trans (if_pos hlength)
  rw [mustRoundTrip, hback]
  rfl

theorem refused_of_size {b : Block} (h : Wire.Item.block.limit < b.size) : b.Refused := by
  rw [← length_encode] at h
  have hwritten : b.toBytes = .error (.encoding .block) := Wire.Item.bounded_of_limit_lt h
  refine ⟨hwritten, ?_⟩
  rw [mustRoundTrip, roundTrip, hwritten]
  rfl

theorem Refused.not_survives {b : Block} (h : b.Refused) : ¬b.Survives := by
  intro hsurvives
  obtain ⟨bs, hwritten, -⟩ := hsurvives.written
  rw [h.written] at hwritten
  cases hwritten

/-- A block goes through the wire just when its size is within the limit. -/
theorem survives_iff {b : Block} : b.Survives ↔ b.size ≤ Wire.Item.block.limit :=
  ⟨fun h => Nat.not_lt.1 fun hlarge => (refused_of_size hlarge).not_survives h, survives_of_size⟩

end Block

/-! ### Extensions -/

/-- A coinbase that says its height, under a number of four bytes, with its one output. -/
theorem Tx.size_reward (number : UInt32) (payee : Address) (height : UInt32) :
    (reward number payee (some height)).size = 121 := by
  rw [reward, size_coinbase, Wire.length_u32]
  rfl

namespace Chain

/-- The bytes of an extension beside the list of the transactions that it is given: a header, and
its own coinbase. -/
def overhead : Nat := 209

/-- The pair is prepared of the given transactions, on some parent and with some arguments. -/
def Prepared (txs : List Tx) (pair : BlockPair) : Prop :=
  ∃ payee number parent version seconds height,
    prepare payee number parent version seconds height txs = .ok pair

section
variable {txs : List Tx} {pair : BlockPair}

/-- The search for a nonce leaves the transactions, so the size is that of the template. -/
theorem Prepared.size (h : Prepared txs pair) :
    pair.block.size = overhead + Wire.listSize Tx.size txs := by
  obtain ⟨_, _, _, _, _, _, hprepare⟩ := h
  obtain ⟨-, hsame, -, -⟩ := Block.solve_eq_ok (prepare_eq_ok_iff.1 hprepare).solve
  have hsizes : Wire.listSize Tx.size (txs.map Tx.fromNetwork) = Wire.listSize Tx.size txs :=
    Wire.listSize_map Tx.size Tx.fromNetwork txs
  rw [Block.size, hsame, template_transactions, Wire.listSize_cons, Tx.size_reward, hsizes,
    overhead, ← Nat.add_assoc]

variable {σ : Type} [BlockStore σ] {bench after : Workbench σ} {key : Key} {version : UInt32}
  {seconds : UInt64} {height : UInt32}

/-- What an extension gives was prepared, in any store: the writes hand it on. -/
theorem prepared_of_extend {parent : ChainRecord}
    (h : outcome (extend key parent version seconds height txs) bench = (.ok pair, after)) :
    Prepared txs pair := by
  rw [outcome_extend] at h
  cases hprepare : prepare (key.address (BlockStore.params bench.store).network)
      bench.coinbases.next parent version seconds height txs with
  | error failure =>
    simp only [hprepare] at h
    cases h
  | ok prepared =>
    simp only [hprepare, commit, outcome_bind_eq_ok] at h
    obtain ⟨_, _, -, _, _, -, hreturn⟩ := h
    cases hreturn
    exact ⟨_, _, _, _, _, _, hprepare⟩

theorem prepared_of_extendHead
    (h : outcome (extendHead key version seconds height txs) bench = (.ok pair, after)) :
    Prepared txs pair := by
  obtain ⟨parent, mid, -, hextend⟩ := outcome_bind_eq_ok.1 h
  exact prepared_of_extend (outcome_adapt_eq_ok.1 hextend)

end

end Chain

namespace Extension

/-- The transactions that a call is given. -/
def txs : Extension → List Tx
  | head _ _ _ _ txs | headAt _ _ _ _ txs | headNow _ _ _ txs | on _ _ _ _ _ txs
  | tryOnAt _ _ _ _ _ txs | onAt _ _ _ _ _ txs | onNow _ _ _ _ txs => txs

theorem prepared {σ : Type} [BlockStore σ] {bench after : Workbench σ} {pair : BlockPair}
    {call : Extension} (h : outcome call.perform bench = (.ok pair, after)) :
    Chain.Prepared call.txs pair := by
  cases call with
  | head | headAt | headNow => exact Chain.prepared_of_extendHead h
  | on | tryOnAt => exact Chain.prepared_of_extend h
  | onAt | onNow => exact Chain.prepared_of_extend (outcome_adapt_eq_ok.1 h)

end Extension

/-- Transactions that pass their own check are within the limit, each of them. -/
theorem Tx.listSize_le_of_checkStructure {txs : List Tx}
    (h : ∀ tx ∈ txs, tx.checkStructure = .ok ()) :
    Wire.listSize size txs ≤ 8 + txs.length * Wire.Item.transaction.limit :=
  Wire.listSize_le fun tx htx =>
    validateSize_eq_ok_iff.1 (checkStructure_eq_ok_iff.1 (h tx htx)).2.2.1

/-! ### Room -/

namespace Extension

/-- **What a call gives survives just when there is room** for the given transactions in a block,
and is refused otherwise, in every store and on every parent. There is room for nine transactions
that pass their own check. -/
theorem survives_iff_room {σ : Type} [BlockStore σ] {bench after : Workbench σ} {pair : BlockPair}
    {call : Extension} (h : outcome call.perform bench = (.ok pair, after)) :
    let size := Chain.overhead + Wire.listSize Tx.size call.txs
    (pair.block.Survives ↔ size ≤ Wire.Item.block.limit) ∧
      (Wire.Item.block.limit < size → pair.block.Refused) ∧
      ((∀ tx ∈ call.txs, tx.checkStructure = .ok ()) → call.txs.length ≤ 9 →
        pair.block.Survives) := by
  intro size
  have hsize : pair.block.size = size := (prepared h).size
  rw [← hsize]
  refine ⟨Block.survives_iff, Block.refused_of_size, fun hpass hnine => ?_⟩
  have hsizes := Tx.listSize_le_of_checkStructure hpass
  have hnine := Nat.mul_le_mul_right Wire.Item.transaction.limit hnine
  have hroom : Chain.overhead + (8 + 9 * Wire.Item.transaction.limit) ≤ Wire.Item.block.limit := by
    decide
  rw [Block.survives_iff, hsize]
  omega

/-- Any payments can be put on the first block of the test network. -/
theorem perform_plain {txs : List Tx} (h : ∀ tx ∈ txs, tx.isCoinbase = false) :
    ∃ pair after, outcome (perform (.on Chain.plainKey Chain.plainFirst 1 0 0 txs))
      Chain.plainBench = (.ok pair, after) := by
  have hdifficulty : Chain.plainFirst.header.difficulty = 0 := rfl
  have hheight : Chain.plainFirst.height.toNat + 1 < UInt32.size := by decide
  obtain ⟨store, hextend, -⟩ := Chain.outcome_extend_ok AnyStore.keeps Chain.plain_holds
    (Chain.prepare_of_difficulty hdifficulty hheight h)
  exact ⟨_, _, hextend⟩

/-- A block of the least payment. -/
theorem survives_leastPayment :
    ∃ pair after, outcome (perform (.on Chain.plainKey Chain.plainFirst 1 0 0
        [Block.leastPayment ⟨.zero, 0⟩])) Chain.plainBench = (.ok pair, after) ∧
      pair.block.Survives := by
  have hnull : (⟨.zero, 0⟩ : OutPoint).isNull = false := by decide
  obtain ⟨pair, after, hperform⟩ := perform_plain
    (List.forall_mem_singleton.2 (Block.isCoinbase_keyPayment hnull))
  refine ⟨pair, after, hperform, (survives_iff_room hperform).2.2 ?_ (by decide)⟩
  exact List.forall_mem_singleton.2 (Block.checkStructure_keyPayment hnull (by decide))

/-- **A block of ten payments need not survive**, though each of them passes its own check: the
chain is extended by a block that is too large to be written. -/
theorem heavy_refused :
    let payments := (List.range 10).map fun n =>
      Block.keyPayment (List.replicate 99900 0) ⟨.zero, n.toUInt32⟩
    (∀ tx ∈ payments, tx.isCoinbase = false ∧ tx.checkStructure = .ok ()) ∧
      ∃ pair after, outcome (perform (.on Chain.plainKey Chain.plainFirst 1 0 0 payments))
        Chain.plainBench = (.ok pair, after) ∧ pair.block.Refused := by
  intro payments
  have hnull : ∀ n ∈ List.range 10, (⟨.zero, n.toUInt32⟩ : OutPoint).isNull = false := by decide
  have hlight : 88 + (List.replicate 99900 (0 : UInt8)).length ≤ Wire.Item.transaction.limit := by
    rw [List.length_replicate]
    decide
  have hpass : ∀ tx ∈ payments, tx.isCoinbase = false ∧ tx.checkStructure = .ok () :=
    List.forall_mem_map.2 fun n hn =>
      ⟨Block.isCoinbase_keyPayment (hnull n hn), Block.checkStructure_keyPayment (hnull n hn) hlight⟩
  have hsizes : Wire.listSize Tx.size payments = 8 + 10 * 99988 := by
    rw [Wire.listSize_map]
    simp only [Block.size_keyPayment, List.length_replicate]
    rfl
  obtain ⟨pair, after, hperform⟩ := perform_plain fun tx htx => (hpass tx htx).1
  refine ⟨hpass, pair, after, hperform, Block.refused_of_size ?_⟩
  rw [(prepared hperform).size, txs, hsizes]
  decide

end Extension

end TestChain
