import TestChain.Proofs.Fixture.Growth
import TestChain.Proofs.Store.Writes

/-! What extending a chain gives.

Once the search for a nonce has come to an end, a preparation fails in three cases and no others:
the difficulty is out of reach, a coinbase is given, or the heights are used up. `Chain.obstacle?`
looks for them in this order. Otherwise there is a block that links to the parent, holds the given
transactions behind a coinbase of its own, and passes (`Chain.IsExtension`). In a store that takes
the writes, the record of that block is stored and is the head, and no other hash reads otherwise
than before (`Chain.extend_result`). -/
namespace TestChain.Chain

variable {payee : Address} {number : UInt32} {parent : ChainRecord} {version : UInt32}
  {seconds : UInt64} {height : UInt32} {txs : List Tx}

/-- What stands in the way of an extension, whatever the search for a nonce finds. -/
def obstacle? (parent : ChainRecord) (txs : List Tx) : Option BlockFault :=
  if NetworkParams.maxDifficulty < parent.header.difficulty then
    some (.unreachable parent.header.difficulty)
  else if txs.any Tx.isCoinbase then some .secondCoinbase
  else if parent.height.toNat + 1 = UInt32.size then some (.heightOverflow parent.height)
  else none

/-- Where nothing stands in the way, and the search comes to an end, a pair is prepared. -/
theorem prepare_of_search
    (hsearch : ∀ last,
      (template payee number parent version seconds height txs).search ≠ .exhausted last) :
    match obstacle? parent txs with
    | some fault => prepare payee number parent version seconds height txs =
        .error (.error (.block fault))
    | none => ∃ pair, prepare payee number parent version seconds height txs = .ok pair := by
  have hsolve := Block.solve_of_search hsearch
  change if NetworkParams.maxDifficulty < parent.header.difficulty then _ else _ at hsolve
  by_cases hmax : NetworkParams.maxDifficulty < parent.header.difficulty
  · rw [if_pos hmax] at hsolve
    rw [obstacle?, if_pos hmax]
    exact congrArg (· >>= _) hsolve
  · rw [if_neg hmax] at hsolve
    obtain ⟨solved, hsolved⟩ := hsolve
    rw [obstacle?, if_neg hmax, prepare_of_solve hsolved]
    have hlt : parent.height.toNat < UInt32.size := parent.height.toNat_lt
    by_cases htxs : txs.any Tx.isCoinbase = true
    · rw [if_pos htxs, if_pos htxs]
    · rw [if_neg htxs, if_neg htxs]
      by_cases hlast : parent.height.toNat + 1 = UInt32.size
      · rw [if_pos hlast, if_neg (by omega)]
      · rw [if_neg hlast, if_pos (by omega)]
        exact ⟨_, rfl⟩

/-- What an extension gives: a block on the parent that passes, holding a coinbase of its own and
then the given transactions as heard of from the network, and the record of that block. -/
structure IsExtension (payee : Address) (parent : ChainRecord) (version height : UInt32)
    (txs : List Tx) (pair : BlockPair) : Prop where
  previous : pair.block.header.previous = parent.hash
  difficulty : pair.block.header.difficulty = parent.header.difficulty
  version : pair.block.header.version = version
  transactions : ∃ coinbase extra,
    pair.block.transactions = coinbase :: txs.map Tx.fromNetwork ∧
      coinbase.inputs = [.new .null (.coinbase (some height) extra)] ∧
      coinbase.outputs = [.toAddress Money.fiftyCoins payee]
  encodings : pair.block.transactions.tail.map Tx.encode = txs.map Tx.encode
  provenances : ∀ tx ∈ pair.block.transactions.tail, tx.provenance = .network
  passes : pair.block.verifyHeader = .ok ()
  record : pair.record = ⟨pair.block.header, parent.chainWork.add pair.block.work,
    parent.height + 1⟩

theorem isExtension_of_prepare {pair : BlockPair}
    (h : prepare payee number parent version seconds height txs = .ok pair) :
    IsExtension payee parent version height txs pair := by
  obtain ⟨hsolve, hpasses, -⟩ := prepare_eq_ok_iff.1 h
  obtain ⟨-, htxs, htask, -⟩ := Block.solve_eq_ok hsolve
  rw [template_transactions] at htxs
  have hrecord : pair.record = ⟨pair.block.header, parent.chainWork.add pair.block.work,
      parent.height + 1⟩ := by
    rw [prepare_of_solve hsolve] at h
    split at h
    · cases h
    · split at h
      · exact (congrArg BlockPair.record (Except.ok.inj h)).symm
      · cases h
  refine ⟨?_, ?_, ?_, ⟨_, _, htxs, rfl, rfl⟩, ?_, ?_, hpasses, hrecord⟩
  · rw [htask]
    rfl
  · rw [htask]
    rfl
  · rw [htask]
    rfl
  · rw [htxs, List.tail_cons, List.map_map]
    rfl
  · rw [htxs, List.tail_cons, List.forall_mem_map]
    exact fun _ _ => rfl

section Store
variable {σ : Type} [BlockStore σ] {view : σ → AnyStore} {bench after : Workbench σ} {key : Key}
  {result : Except Failure BlockPair}

/-- **What extending a chain gives**, in every store that takes the writes, on every parent and for
all arguments for which the search for a nonce comes to an end. -/
theorem extend_result (hw : WritesThrough view)
    (hwrites : ∀ r, ∃ mid, BlockStore.put bench.store r = .ok mid ∧
      ∃ store, BlockStore.setHead mid r = .ok store)
    (hsearch : ∀ last, (template (key.address (BlockStore.params bench.store).network)
      bench.coinbases.next parent version seconds height txs).search ≠ .exhausted last)
    (hend : outcome (extend key parent version seconds height txs) bench = (result, after)) :
    match obstacle? parent txs with
    | some fault => result = .error (.error (.block fault))
    | none => ∃ pair, result = .ok pair ∧
        IsExtension (key.address (BlockStore.params bench.store).network) parent version height txs
          pair ∧
        BlockStore.head after.store = .ok pair.record ∧
        ∀ hash, BlockStore.get after.store hash =
          if hash = pair.block.hash then .ok (some pair.record)
          else BlockStore.get bench.store hash := by
  have hprepare := prepare_of_search hsearch
  rw [outcome_extend] at hend
  cases hobstacle : obstacle? parent txs with
  | some fault =>
    rw [hobstacle] at hprepare
    simp only [hprepare] at hend
    exact (Prod.mk.inj hend).1.symm
  | none =>
    rw [hobstacle] at hprepare
    obtain ⟨pair, hprepare⟩ := hprepare
    simp only [hprepare] at hend
    have hpair := isExtension_of_prepare hprepare
    obtain ⟨mid, hput, store, hset⟩ := hwrites pair.record
    rw [commit, outcome_bind_ok (outcome_write_ok hput), outcome_bind_ok (outcome_write_ok hset)]
      at hend
    obtain ⟨rfl, rfl⟩ := Prod.mk.inj hend
    have hhash : pair.record.hash = pair.block.hash := by
      rw [hpair.record]
      rfl
    have hmid : BlockStore.get mid pair.record.hash = .ok (some pair.record) := by
      rw [hw.get_put hput, if_pos rfl]
    refine ⟨pair, rfl, hpair, hw.head_setHead hset hmid, fun hash => ?_⟩
    rw [← hhash]
    exact (hw.get_setHead hset hash).trans (hw.get_put hput hash)

end Store

/-- On the first block of the test network, which is at difficulty zero, a transaction that says
nothing is put into a second block. -/
theorem extend_result_plain :
    let done := outcome (extend plainKey plainFirst 1 0 0 [.empty]) plainBench
    ∃ pair, done.1 = .ok pair ∧
      IsExtension (plainKey.address .unittest) plainFirst 1 0 [.empty] pair ∧
      BlockStore.head done.2.store = .ok pair.record ∧
      ∀ hash, BlockStore.get done.2.store hash =
        if hash = pair.block.hash then .ok (some pair.record)
        else BlockStore.get plainBench.store hash := by
  intro done
  have hwrites : ∀ r, ∃ mid, BlockStore.put plainBench.store r = .ok mid ∧
      ∃ store, BlockStore.setHead mid r = .ok store := fun r => ⟨_, rfl, _, rfl⟩
  have hsearch : ∀ last,
      (template (plainKey.address .unittest) 0 plainFirst 1 0 0 [.empty]).search ≠
        .exhausted last := by
    rw [Block.search_of_difficulty rfl]
    nofun
  exact extend_result AnyStore.writesThrough hwrites hsearch (Prod.eta done).symm

end TestChain.Chain
