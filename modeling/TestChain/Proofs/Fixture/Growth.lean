import TestChain.Proofs.Fixture.Extend
import TestChain.Proofs.Store.Tree

/-! Chains as they grow.

`Chain.Reachable` is every bench that calls lead to from a new store, in any order, on any stored
parents, and through failures. What such a store holds is a tree: the records made so far, each
under its own hash and rooted in the first (`Grown`). A call that fails changes nothing. A call that
succeeds commits a record that follows a held one; if the hash was there before, then so was the
header, and a record is settled by its header and its parent, so the same record is written again.

`Chain.Reachable.isTree` says what this means for a caller. It assumes of the hash only that it
tells the headers of the run apart and gives none of them 32 zero bytes. -/
namespace TestChain

/-! ### First records -/

theorem Block.genesis_eq_ok {params : NetworkParams} {b : Block} (e : genesis params = .ok b) :
    b.header.previous = .zero ∧ b.header.difficulty = params.genesisDifficulty ∧
      b.header.meetsTarget = true := by
  obtain ⟨_, -, hsolve⟩ := except_bind_eq_ok.1 e
  obtain ⟨-, -, hsame, hmeets⟩ := solve_eq_ok hsolve
  refine ⟨?_, ?_, hmeets⟩
  · rw [hsame]
    rfl
  · rw [hsame]
    rfl

theorem ChainRecord.first_genesis {params : NetworkParams} {b : Block}
    (e : Block.genesis params = .ok b) : (genesis b).First := by
  obtain ⟨hprevious, -, hmeets⟩ := Block.genesis_eq_ok e
  exact ⟨hprevious, hmeets, rfl, rfl⟩

/-- A store as it is made for a chain: in memory, or in a database that had no tables. -/
inductive AnyStore.Fresh (params : NetworkParams) : AnyStore → Prop
  | memory {store : MemoryStore} : MemoryStore.new params = .ok store →
    Fresh params (.memory store)
  | database {store : DatabaseStore} : (DatabaseStore.openIn params .empty).1 = .ok store →
    Fresh params (.database store)

/-- A new store holds the first record and nothing else. -/
theorem AnyStore.Fresh.holds {params : NetworkParams} {store : AnyStore} {b : Block}
    (h : Fresh params store) (hb : Block.genesis params = .ok b) :
    store.Holds (.seeded (.genesis b)) := by
  cases h with
  | memory h =>
    rw [MemoryStore.new_eq, hb] at h
    cases h
    exact MemoryStore.holds_seeded params _
  | database h =>
    rw [DatabaseStore.openIn_empty, hb] at h
    cases h
    exact Database.holds_seeded params.network _

/-! ### Trees -/

/-- The hash tells the headers of the records apart, and gives none of them 32 zero bytes. -/
structure NamesApart (made : List ChainRecord) : Prop where
  inj : ∀ r ∈ made, ∀ s ∈ made, r.hash = s.hash → r.header = s.header
  ne_zero : ∀ r ∈ made, r.hash ≠ .zero

theorem NamesApart.mono {made made' : List ChainRecord} (h : NamesApart made')
    (hsub : made ⊆ made') : NamesApart made where
  inj r hr s hs := h.inj r (hsub hr) s (hsub hs)
  ne_zero r hr := h.ne_zero r (hsub hr)

/-- Just the records made are held, each under its own hash and rooted in the first, and one of them
is the head. -/
structure Grown (first : ChainRecord) (made : List ChainRecord) (c : Contents) : Prop where
  named : ∀ hash r, c.record? hash = some r → r.hash = hash ∧ r ∈ made
  rooted : ∀ r ∈ made, c.Rooted first r
  head : ∃ r ∈ made, c.head = r.hash

namespace Grown
variable {first parent r : ChainRecord} {made : List ChainRecord} {c : Contents}

theorem seeded (first : ChainRecord) : Grown first [first] (.seeded first) where
  named hash r h := by
    rw [Contents.seeded_record?] at h
    by_cases hhash : hash = first.hash
    · rw [if_pos hhash] at h
      cases h
      exact ⟨hhash.symm, List.mem_singleton_self _⟩
    · rw [if_neg hhash] at h
      cases h
  rooted r h := by
    rw [List.mem_singleton.1 h]
    exact .first (if_pos rfl)
  head := ⟨first, List.mem_singleton_self _, rfl⟩

theorem headRecord (h : Grown first made c) : ∃ r ∈ made, c.headRecord = .ok r := by
  obtain ⟨r, hr, hhead⟩ := h.head
  refine ⟨r, hr, ?_⟩
  rw [Contents.headRecord, hhead, (h.rooted r hr).held]

theorem zero_unheld (h : Grown first made c) (hnames : NamesApart made) :
    c.record? .zero = none := by
  cases hzero : c.record? .zero with
  | none => rfl
  | some r =>
    obtain ⟨hhash, hr⟩ := h.named _ r hzero
    exact absurd hhash (hnames.ne_zero r hr)

/-- A record that follows a held one under a hash that is taken is the record held there. -/
theorem eq_of_hash_eq (h : Grown first made c) (hfirst : first.First)
    (hnames : NamesApart (r :: made)) (hparent : parent ∈ made) (hfollows : r.Follows parent)
    {s : ChainRecord} (hs : s ∈ made) (hhash : s.hash = r.hash) : s = r := by
  have hheader : s.header = r.header :=
    hnames.inj s (List.mem_cons_of_mem _ hs) r List.mem_cons_self hhash
  rcases (h.rooted s hs).eq_first_or_follows with hsfirst | ⟨parent', hparent', hfollows'⟩
  · -- The first record follows none, since no held record hashes to zero.
    have hzero : parent.hash = .zero := by
      rw [← hfollows.previous, ← hheader, hsfirst, hfirst.previous]
    exact absurd hzero (hnames.ne_zero parent (List.mem_cons_of_mem _ hparent))
  · have hparents : parent'.hash = parent.hash := by
      rw [← hfollows'.previous, hheader, hfollows.previous]
    have hsome : some parent' = some parent := by
      rw [← hparent'.held, hparents, (h.rooted parent hparent).held]
    rw [Option.some.inj hsome] at hfollows'
    exact hfollows'.unique hfollows hheader

/-- **One step**: committing a record that follows a held one keeps the tree, and every record in
it. -/
theorem commit (h : Grown first made c) (hfirst : first.First) (hnames : NamesApart (r :: made))
    (hparent : parent ∈ made) (hfollows : r.Follows parent) :
    Grown first (r :: made) (c.commit r) := by
  have hsub : ∀ hash s, c.record? hash = some s → (c.commit r).record? hash = some s := by
    intro hash s hs
    obtain ⟨hhash, hmade⟩ := h.named hash s hs
    rw [Contents.commit_record?]
    by_cases htaken : hash = r.hash
    · rw [if_pos htaken, h.eq_of_hash_eq hfirst hnames hparent hfollows hmade (hhash.trans htaken)]
    · rw [if_neg htaken, hs]
  have hheld : (c.commit r).record? r.hash = some r := if_pos rfl
  refine ⟨fun hash s hs => ?_, fun s hs => ?_, ⟨r, List.mem_cons_self, rfl⟩⟩
  · by_cases htaken : hash = r.hash
    · rw [Contents.commit_record?, if_pos htaken] at hs
      cases hs
      exact ⟨htaken.symm, List.mem_cons_self⟩
    · rw [Contents.commit_record?, if_neg htaken] at hs
      obtain ⟨hhash, hmade⟩ := h.named hash s hs
      exact ⟨hhash, List.mem_cons_of_mem _ hmade⟩
  · rcases List.mem_cons.1 hs with hr | hmade
    · rw [hr]
      exact .child ((h.rooted parent hparent).mono hsub) hfollows hheld
    · exact (h.rooted s hmade).mono hsub

end Grown

/-- What a caller sees of a tree of records in a store. -/
structure IsTree {σ : Type} [BlockStore σ] (first : ChainRecord) (made : List ChainRecord)
    (store : σ) : Prop where
  /-- Just the records made are stored, each under its own hash, and no lookup fails. -/
  get : ∀ hash, ∃ found, BlockStore.get store hash = .ok found ∧
    ∀ r, found = some r ↔ r.hash = hash ∧ r ∈ made
  head : ∃ r ∈ made, BlockStore.head store = .ok r
  root : first ∈ made ∧ first.height = 0 ∧ first.previous? store = .ok none
  solved : ∀ r ∈ made, r.header.meetsTarget = true ∧
    r.header.difficulty = first.header.difficulty
  parent : ∀ r ∈ made, r ≠ first → ∃ p ∈ made, r.previous? store = .ok (some p) ∧
    r.height.toNat = p.height.toNat + 1
  chainWork : ∀ r ∈ made, r.chainWork.toNat =
    min ((r.height.toNat + 1) * 2 ^ min first.header.difficulty.toNat 127) (2 ^ 128 - 1)
  /-- The way back comes to the first record at the step of the height, and then ends. -/
  walk : ∀ r ∈ made, ∀ n, (r.ancestor? store n = .ok (some first) ↔ n = r.height.toNat) ∧
    (r.height.toNat < n → r.ancestor? store n = .ok none)

theorem Grown.isTree_of_holds {σ : Type} [BlockStore σ] {holds : σ → Contents → Prop}
    (hk : Keeps holds) {store : σ} {first : ChainRecord} {made : List ChainRecord} {c : Contents}
    (hholds : holds store c) (h : Grown first made c) (hfirst : first.First)
    (hnames : NamesApart made) (hmade : first ∈ made) : IsTree first made store where
  get hash := by
    refine ⟨c.record? hash, hk.get hholds hash, fun r => ⟨h.named hash r, fun hr => ?_⟩⟩
    rw [← hr.1, (h.rooted r hr.2).held]
  head := by
    obtain ⟨r, hr, hhead⟩ := h.headRecord
    exact ⟨r, hr, by rw [hk.head hholds, hhead]⟩
  root := by
    refine ⟨hmade, hfirst.height, ?_⟩
    rw [ChainRecord.previous?, hk.get hholds, hfirst.previous, h.zero_unheld hnames]
  solved r hr := ⟨(h.rooted r hr).meetsTarget hfirst, (h.rooted r hr).difficulty⟩
  parent r hr hne := by
    rcases (h.rooted r hr).eq_first_or_follows with hr | ⟨p, hp, hfollows⟩
    · exact absurd hr hne
    · refine ⟨p, (h.named _ p hp.held).2, ?_, hfollows.height⟩
      rw [ChainRecord.previous?, hk.get hholds, hfollows.previous, hp.held]
  chainWork r hr := (h.rooted r hr).chainWork hfirst
  walk r hr n := by
    rw [hk.ancestor? hholds, Except.ok.injEq, Except.ok.injEq]
    exact (h.rooted r hr).ancestor? hfirst (h.zero_unheld hnames) n

/-! ### Runs -/

/-- The record that a call has made, if it has made one. -/
def Extension.made : Except Failure BlockPair → List ChainRecord
  | .ok pair => [pair.record]
  | .error _ => []

namespace Chain

/-- The benches that calls lead to from a new store, with the records made so far, the last one
first. A call that fails, and is no more than that, may be followed by others. -/
inductive Reachable (params : NetworkParams) : Workbench AnyStore → List ChainRecord → Prop
  | fresh {store : AnyStore} {b : Block} (coinbases : CoinbaseCounter) :
    store.Fresh params → Block.genesis params = .ok b →
    Reachable params ⟨store, coinbases⟩ [.genesis b]
  | call {bench : Workbench AnyStore} {made : List ChainRecord} (call : Extension) :
    Reachable params bench made → call.Admissible bench.store →
    Reachable params (outcome call.perform bench).2
      (Extension.made (outcome call.perform bench).1 ++ made)

/-- **One call** keeps the tree: it leaves the contents as they are, or commits a record on one that
was made before. -/
theorem grown_perform {first : ChainRecord} {made : List ChainRecord} {bench : Workbench AnyStore}
    {c : Contents} {call : Extension} (hholds : bench.store.Holds c) (h : Grown first made c)
    (hfirst : first.First) (hcall : call.Admissible bench.store)
    (hnames : NamesApart (Extension.made (outcome call.perform bench).1 ++ made)) :
    ∃ c', (outcome call.perform bench).2.store.Holds c' ∧
      Grown first (Extension.made (outcome call.perform bench).1 ++ made) c' := by
  obtain ⟨top, htop, hhead⟩ := h.headRecord
  have hextends := call.perform_extends AnyStore.keeps hholds hhead
  have hparent : call.parent?.getD top ∈ made := by
    cases hgiven : call.parent? with
    | none => exact htop
    | some parent =>
      have hstored := hcall parent hgiven
      rw [AnyStore.keeps.get hholds] at hstored
      exact (h.named _ parent (Except.ok.inj hstored)).2
  unfold Extends at hextends
  cases hperform : outcome call.perform bench with
  | mk result after =>
    rw [hperform] at hextends hnames
    cases result with
    | error failure => exact ⟨c, hextends, h⟩
    | ok pair =>
      exact ⟨_, hextends.1, h.commit hfirst hnames hparent hextends.2⟩

/-- **Every run** grows a tree from the first block of the parameters. -/
theorem Reachable.grown {params : NetworkParams} {bench : Workbench AnyStore}
    {made : List ChainRecord} (h : Reachable params bench made) (hnames : NamesApart made) :
    ∃ b, Block.genesis params = .ok b ∧ .genesis b ∈ made ∧
      ∃ c, bench.store.Holds c ∧ Grown (.genesis b) made c := by
  induction h with
  | fresh coinbases hfresh hb =>
    exact ⟨_, hb, List.mem_singleton_self _, _, hfresh.holds hb, Grown.seeded _⟩
  | @call bench made call _ hcall ih =>
    obtain ⟨b, hb, hmem, c, hholds, hgrown⟩ :=
      ih (hnames.mono (List.subset_append_right _ _))
    obtain ⟨c', hholds', hgrown'⟩ :=
      grown_perform hholds hgrown (ChainRecord.first_genesis hb) hcall hnames
    exact ⟨b, hb, List.mem_append_right _ hmem, c', hholds', hgrown'⟩

/-- **A chain is a tree at every moment of every run**, from either kind of store, on any stored
parents and through any failures, as long as the hash tells the headers made apart and gives none
of them 32 zero bytes. -/
theorem Reachable.isTree {params : NetworkParams} {bench : Workbench AnyStore}
    {made : List ChainRecord} (h : Reachable params bench made) (hnames : NamesApart made) :
    ∃ b, Block.genesis params = .ok b ∧ b.header.difficulty = params.genesisDifficulty ∧
      IsTree (.genesis b) made bench.store := by
  obtain ⟨b, hb, hmem, c, hholds, hgrown⟩ := h.grown hnames
  exact ⟨b, hb, (Block.genesis_eq_ok hb).2.1,
    hgrown.isTree_of_holds AnyStore.keeps hholds (ChainRecord.first_genesis hb) hnames hmem⟩

/-! A run of one call: at difficulty zero on the test network, a second block with nothing but its
coinbase. -/

def plain : NetworkParams := ⟨.unittest, 0, 0⟩

def plainKey : Key := ⟨1, by decide, by decide⟩

def plainFirst : ChainRecord := .genesis (Block.genesisTemplate plain)

def plainBlock : Block := template (plainKey.address .unittest) 0 plainFirst 1 0 0 []

def plainSecond : ChainRecord :=
  ⟨plainBlock.header, plainFirst.chainWork.add plainBlock.work, plainFirst.height + 1⟩

/-- The point of the secret one is the generator. -/
theorem plainKey_publicKey : plainKey.publicKey = Curve.generator.compress := by
  have hscale : Curve.scale 1 Curve.generator = Curve.generator := by
    rw [Curve.scale, if_neg (by decide), Curve.scale, if_pos (by decide)]
    rfl
  exact congrArg Curve.Point.compress hscale

theorem merkleRoot_singleton (tx : Tx) : merkleRoot [tx] = tx.txid := by
  rw [merkleRoot, List.map_singleton, Merkle.root]

theorem plain_namesApart : NamesApart [plainSecond, plainFirst] := by
  let first : Header := ⟨1, .zero, (Block.genesisCoinbase .unittest).txid, 0, 0, 0⟩
  let payee := Address.ofPublicKey Curve.generator.compress .unittest
  let second : Header := ⟨1, first.hash, (Tx.reward 0 payee (some 0)).txid, 0, 0, 0⟩
  have hfirst : plainFirst.header = first := by
    show Header.mk 1 .zero (merkleRoot [Block.genesisCoinbase .unittest]) 0 0 0 = first
    rw [merkleRoot_singleton]
  have hsecond : plainSecond.header = second := by
    show Header.mk 1 plainFirst.header.hash
      (merkleRoot [Tx.reward 0 (plainKey.address .unittest) (some 0)]) 0 0 0 = second
    rw [merkleRoot_singleton, hfirst, Key.address, plainKey_publicKey]
  have hhashes : first.hash ≠ .zero ∧ second.hash ≠ .zero ∧ second.hash ≠ first.hash := by
    decide +kernel
  rw [← hfirst, ← hsecond] at hhashes
  obtain ⟨hfirstZero, hsecondZero, hne⟩ := hhashes
  refine ⟨fun r hr s hs hhash => ?_, fun r hr => ?_⟩
  · rw [List.mem_cons, List.mem_singleton] at hr hs
    rcases hr with hr | hr <;> rcases hs with hs | hs <;> rw [hr, hs] at hhash ⊢
    · exact absurd hhash hne
    · exact absurd hhash.symm hne
  · rw [List.mem_cons, List.mem_singleton] at hr
    rcases hr with hr | hr
    · rw [hr]
      exact hsecondZero
    · rw [hr]
      exact hfirstZero

theorem genesis_plain : Block.genesis plain = .ok (Block.genesisTemplate plain) :=
  Block.genesis_of_difficulty rfl

/-- The call, on the first block. -/
def plainCall : Extension := .tryOnAt plainKey plainFirst 1 0 0 []

/-- The bench before the call. -/
def plainBench : Workbench AnyStore := ⟨.memory (.seeded plain plainFirst), ⟨0⟩⟩

theorem plain_holds : plainBench.store.Holds (.seeded plainFirst) :=
  MemoryStore.holds_seeded plain plainFirst

theorem made_plainCall :
    Extension.made (outcome plainCall.perform plainBench).1 = [plainSecond] := by
  have hprepare : prepare (plainKey.address (BlockStore.params plainBench.store).network)
      plainBench.coinbases.next plainFirst 1 (epochSeconds 0) 0 [] =
      .ok ⟨plainBlock, plainSecond⟩ :=
    prepare_of_difficulty rfl (by decide) nofun
  obtain ⟨store, hextend, -⟩ := outcome_extend_ok AnyStore.keeps plain_holds hprepare
  have hcall : outcome plainCall.perform plainBench =
      (.ok ⟨plainBlock, plainSecond⟩, { counted plainBench with store }) := hextend
  rw [hcall]
  rfl

theorem reachable_plain :
    Reachable plain (outcome plainCall.perform plainBench).2 [plainSecond, plainFirst] := by
  have hfresh : AnyStore.Fresh plain plainBench.store := by
    refine .memory ?_
    rw [MemoryStore.new_eq, genesis_plain]
    rfl
  have hstart : Reachable plain plainBench [plainFirst] := .fresh ⟨0⟩ hfresh genesis_plain
  have hcall : plainCall.Admissible plainBench.store := by
    intro parent hparent
    cases hparent
    rw [AnyStore.keeps.get plain_holds, Contents.seeded_record?, if_pos rfl]
  have h := Reachable.call plainCall hstart hcall
  rw [made_plainCall] at h
  exact h

/-- The store after the call holds a tree of two records. -/
theorem isTree_plain :
    IsTree plainFirst [plainSecond, plainFirst] (outcome plainCall.perform plainBench).2.store := by
  obtain ⟨b, hb, -, htree⟩ := reachable_plain.isTree plain_namesApart
  rw [genesis_plain] at hb
  cases hb
  exact htree

end Chain

end TestChain
