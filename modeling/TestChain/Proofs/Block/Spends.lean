import Mathlib.Data.List.Pairwise
import TestChain.Proofs.Block.Solve
import TestChain.Proofs.Tx.Check
import TestChain.Proofs.Tx.Identity

/-! What the blocks that pass spend.

The check for double spends goes through the inputs of all payments and notes for each output the
identity that spends it; an output that is met again has to be spent under the identity noted. So
the check passes just when every output has one spender, by identity
(`Block.checkDoubleSpends_eq_ok_iff`).

That is less than spending every output once. A payment that stands in a block twice spends its
outputs twice, under one identity, and passes (`Block.verify_repeated`). `Block.verify_spent` says
what is left: payments that share an output are one payment repeated, and where none is repeated
every output is spent once. -/
namespace TestChain

/-- What each input spends, with the identity that spends it. -/
def Tx.spends (tx : Tx) : List (OutPoint × Digest) := tx.inputs.map fun i => (i.previous, tx.txid)

/-- No output is spent under two identities. -/
def OneSpender (spends : List (OutPoint × Digest)) : Prop :=
  spends.Pairwise fun p q => p.1 = q.1 → p.2 = q.2

section
variable {spends : List (OutPoint × Digest)} {spend spend' : OutPoint × Digest}

theorem OneSpender.concat (h : OneSpender spends)
    (hone : ∀ p ∈ spends, p.1 = spend.1 → p.2 = spend.2) : OneSpender (spends ++ [spend]) := by
  refine List.pairwise_append.2 ⟨h, List.pairwise_singleton .., fun p hp q hq => ?_⟩
  rw [List.mem_singleton.1 hq]
  exact hone p hp

theorem OneSpender.eq_of_mem (h : OneSpender spends) (hmem : spend ∈ spends)
    (hmem' : spend' ∈ spends) : spend.1 = spend'.1 → spend.2 = spend'.2 := by
  have : Std.Symm fun p q : OutPoint × Digest => p.1 = q.1 → p.2 = q.2 :=
    ⟨fun _ _ hpq e => (hpq e.symm).symm⟩
  exact h.forall_of_forall (fun _ _ _ => rfl) hmem hmem'

/-- A spend of a list is the first whose output is spent under another identity before it, and
`first` is that identity. -/
structure FirstClash (spends front : List (OutPoint × Digest)) (spend : OutPoint × Digest)
    (first : Digest) : Prop where
  split : ∃ back, spends = front ++ spend :: back
  one : OneSpender front
  met : (spend.1, first) ∈ front
  differ : first ≠ spend.2

theorem FirstClash.not_oneSpender {front : List (OutPoint × Digest)} {first : Digest}
    (h : FirstClash spends front spend first) : ¬OneSpender spends := by
  obtain ⟨back, rfl⟩ := h.split
  intro hone
  exact h.differ (hone.eq_of_mem (List.mem_append_left _ h.met)
    (List.mem_append_right _ List.mem_cons_self) rfl)

end

namespace Block

/-- The transactions that are no coinbases. -/
def payments (b : Block) : List Tx := b.transactions.filter (!·.isCoinbase)

/-- The outputs that the payments spend, transaction by transaction, input by input. -/
def spent (b : Block) : List OutPoint := b.payments.flatMap Tx.spent

/-- The spends of a block in the order in which they are checked. -/
def spends (b : Block) : List (OutPoint × Digest) := b.payments.flatMap Tx.spends

/-! ### Going through the spends -/

namespace Spends
variable {spends : Spends} {done : List (OutPoint × Digest)}

/-- The notes name the spender of every output met so far, and no other output. -/
def Notes (spends : Spends) (done : List (OutPoint × Digest)) : Prop :=
  ∀ o txid, spends[o]? = some txid ↔ (o, txid) ∈ done

/-- Notes a spend. Nothing else of an input matters. -/
def add (spends : Spends) (spend : OutPoint × Digest) : Except ChainError Spends :=
  spends.note spend.2 (.new spend.1 .empty)

theorem notes_empty : Notes ∅ [] := by
  intro o txid
  simp

theorem Notes.insert (h : spends.Notes done) {o : OutPoint} {txid : Digest}
    (hone : ∀ p ∈ done, p.1 = o → p.2 = txid) :
    Notes (spends.insert o txid) (done ++ [(o, txid)]) := by
  intro o' txid'
  rw [Std.HashMap.getElem?_insert, List.mem_append, List.mem_singleton, Prod.mk.injEq]
  by_cases ho : o = o'
  · subst ho
    rw [if_pos (beq_self_eq_true o), Option.some.injEq]
    constructor
    · intro e
      exact .inr ⟨rfl, e.symm⟩
    · rintro (hmem | ⟨-, e⟩)
      · exact (hone _ hmem rfl).symm
      · exact e.symm
  · rw [if_neg (by simpa using ho), h o' txid']
    exact (or_iff_left fun e => ho e.1.symm).symm

/-- **One spend**: it is noted, unless another spender is noted already. -/
theorem add_spec (h : spends.Notes done) (spend : OutPoint × Digest) :
    match spends.add spend with
    | .ok next => next.Notes (done ++ [spend]) ∧ ∀ p ∈ done, p.1 = spend.1 → p.2 = spend.2
    | .error cause => ∃ first, (spend.1, first) ∈ done ∧ first ≠ spend.2 ∧
        cause = .doubleSpend spend.1 first spend.2 := by
  obtain ⟨o, txid⟩ := spend
  have hfound := h o
  simp only [add, note, TxInput.new]
  cases hlook : spends[o]? with
  | none =>
    have hone : ∀ p ∈ done, p.1 = o → p.2 = txid := by
      rintro ⟨o', txid'⟩ hmem rfl
      rw [(hfound txid').2 hmem] at hlook
      cases hlook
    exact ⟨h.insert hone, hone⟩
  | some first =>
    by_cases hfirst : first ≠ txid
    · simp only [if_pos hfirst]
      exact ⟨first, (hfound first).1 hlook, hfirst, rfl⟩
    · simp only [if_neg hfirst]
      have hone : ∀ p ∈ done, p.1 = o → p.2 = txid := by
        rintro ⟨o', txid'⟩ hmem rfl
        have hsame := (hfound txid').2 hmem
        rw [hlook, Option.some.injEq] at hsame
        exact hsame.symm.trans (Decidable.not_not.1 hfirst)
      exact ⟨h.insert hone, hone⟩

/-- **All spends**: they can be noted if no output has two spenders, and else the first that
clashes is reported. -/
theorem foldlM_add_spec (h : spends.Notes done) (hdone : OneSpender done)
    (rest : List (OutPoint × Digest)) :
    match rest.foldlM add spends with
    | .ok _ => OneSpender (done ++ rest)
    | .error cause => ∃ front spend first, FirstClash (done ++ rest) front spend first ∧
        cause = .doubleSpend spend.1 first spend.2 := by
  induction rest generalizing spends done with
  | nil =>
    rw [List.append_nil]
    exact hdone
  | cons spend rest ih =>
    rw [List.foldlM_cons]
    have hspec := add_spec h spend
    cases hadd : spends.add spend with
    | error cause =>
      rw [hadd] at hspec
      obtain ⟨first, hmet, hdiffer, hcause⟩ := hspec
      exact ⟨done, spend, first, ⟨⟨rest, rfl⟩, hdone, hmet, hdiffer⟩, hcause⟩
    | ok next =>
      rw [hadd] at hspec
      have hrest := ih hspec.1 (hdone.concat hspec.2)
      rw [List.append_assoc] at hrest
      exact hrest

/-- Transaction by transaction is spend by spend. -/
theorem foldlM_noteAll (spends : Spends) (txs : List Tx) :
    txs.foldlM noteAll spends = (txs.flatMap Tx.spends).foldlM add spends := by
  induction txs generalizing spends with
  | nil => rfl
  | cons tx txs ih =>
    have hinputs : (tx.spends).foldlM add spends = noteAll spends tx := List.foldlM_map
    rw [List.flatMap_cons, List.foldlM_append, List.foldlM_cons, hinputs]
    exact bind_congr fun next => ih next

end Spends

/-- The check goes through the spends of the payments and forgets the notes. -/
theorem checkDoubleSpends_eq (b : Block) :
    b.checkDoubleSpends = (b.spends.foldlM Spends.add ∅ >>= fun _ => pure ()) := by
  rw [checkDoubleSpends, Spends.foldlM_noteAll]
  rfl

/-- The check passes, or it reports the first spend that clashes. -/
theorem checkDoubleSpends_spec (b : Block) :
    match b.checkDoubleSpends with
    | .ok _ => OneSpender b.spends
    | .error cause => ∃ front spend first, FirstClash b.spends front spend first ∧
        cause = .doubleSpend spend.1 first spend.2 := by
  have hfold := Spends.foldlM_add_spec Spends.notes_empty List.Pairwise.nil b.spends
  rw [List.nil_append] at hfold
  rw [checkDoubleSpends_eq]
  cases h : b.spends.foldlM Spends.add ∅ with
  | error cause =>
    rw [h] at hfold
    exact hfold
  | ok next =>
    rw [h] at hfold
    exact hfold

/-- No double spend is found just when no output is spent under two identities. -/
theorem checkDoubleSpends_eq_ok_iff {b : Block} :
    b.checkDoubleSpends = .ok () ↔ OneSpender b.spends := by
  have hspec := b.checkDoubleSpends_spec
  cases h : b.checkDoubleSpends with
  | ok _ =>
    rw [h] at hspec
    exact iff_of_true rfl hspec
  | error cause =>
    rw [h] at hspec
    obtain ⟨_, _, _, hclash, -⟩ := hspec
    exact iff_of_false nofun hclash.not_oneSpender

theorem forM_eq_ok_iff {check : Tx → Except ChainError Unit} {txs : List Tx} :
    txs.forM check = .ok () ↔ ∀ tx ∈ txs, check tx = .ok () := by
  induction txs with
  | nil => exact ⟨fun _ _ h => absurd h List.not_mem_nil, fun _ => rfl⟩
  | cons tx txs ih =>
    have hcons : (tx :: txs).forM check = check tx >>= fun _ => txs.forM check := rfl
    rw [hcons, except_check_eq_ok, ih, List.forall_mem_cons]

/-- The transactions of a block pass when each does and nothing is spent under two identities. -/
theorem verifyTransactions_eq_ok_iff {b : Block} :
    b.verifyTransactions = .ok () ↔
      (∀ tx ∈ b.transactions, tx.checkStructure = .ok ()) ∧ b.checkDoubleSpends = .ok () := by
  rw [verifyTransactions, except_check_eq_ok, forM_eq_ok_iff]

/-- A block passes when its header does, each transaction does, and no output is spent under two
identities. -/
theorem verify_eq_ok_iff {b : Block} :
    b.verify = .ok () ↔ b.verifyHeader = .ok () ∧
      (∀ tx ∈ b.transactions, tx.checkStructure = .ok ()) ∧ OneSpender b.spends := by
  rw [verify, except_check_eq_ok, verifyTransactions_eq_ok_iff, checkDoubleSpends_eq_ok_iff]

/-! ### What is spent -/

/-- The spends of one payment are under one identity, so only those of two payments count. -/
theorem oneSpender_spends_iff {b : Block} :
    OneSpender b.spends ↔
      b.payments.Pairwise fun s t => s.spent.Disjoint t.spent ∨ s.txid = t.txid := by
  have hone : ∀ tx ∈ b.payments, (tx.spends).Pairwise fun p q => p.1 = q.1 → p.2 = q.2 := by
    intro tx _
    rw [Tx.spends, List.pairwise_map]
    exact List.pairwise_of_forall fun _ _ _ => rfl
  rw [OneSpender, spends, List.pairwise_flatMap, and_iff_right hone]
  refine List.Pairwise.iff_of_mem fun _ _ => ?_
  simp only [Tx.spends, Tx.spent, List.forall_mem_map, List.disjoint_left]
  grind

theorem mem_payments {b : Block} {tx : Tx} (h : tx ∈ b.payments) :
    tx ∈ b.transactions ∧ tx.isCoinbase = false := by
  obtain ⟨hmem, hpays⟩ := List.mem_filter.1 h
  exact ⟨hmem, by simpa using hpays⟩

/-- Behind a coinbase all that are no coinbases are the payments. -/
theorem payments_of_cons {b : Block} {coinbase : Tx} {others : List Tx}
    (htxs : b.transactions = coinbase :: others) (hcoinbase : coinbase.isCoinbase = true)
    (hothers : ∀ tx ∈ others, tx.isCoinbase = false) : b.payments = others := by
  rw [payments, htxs, List.filter_cons_of_neg (by simp [hcoinbase]), List.filter_eq_self]
  exact fun tx htx => by rw [hothers tx htx]; rfl

/-- A block whose header passes is a coinbase and the payments. -/
theorem exists_coinbase_cons_payments {b : Block} (h : b.verifyHeader = .ok ()) :
    ∃ coinbase, b.transactions = coinbase :: b.payments ∧ coinbase.isCoinbase = true := by
  obtain ⟨coinbase, others, htxs, hcoinbase, hothers, -⟩ := verifyHeader_eq_ok_iff.1 h
  have hpayments := payments_of_cons htxs hcoinbase (by simpa using hothers)
  exact ⟨coinbase, by rw [htxs, hpayments], hcoinbase⟩

/-- Where nothing is spent twice, no payment is repeated. -/
theorem nodup_preimages {b : Block} (hpass : ∀ tx ∈ b.transactions, tx.checkStructure = .ok ())
    (hspent : b.spent.Nodup) : (b.payments.map Tx.preimage).Nodup := by
  rw [List.Nodup, List.pairwise_map]
  refine (List.nodup_flatMap.1 hspent).2.imp_of_mem fun {s t} hs ht hdisjoint hsame => ?_
  have hs' := hpass s (mem_payments hs).1
  have hsome : s.spent ≠ [] := fun h =>
    (Tx.checkStructure_eq_ok_iff.1 hs').1 (List.map_eq_nil_iff.1 h)
  obtain ⟨o, ho⟩ := List.exists_mem_of_ne_nil _ hsome
  exact hdisjoint ho (Tx.spent_eq_of_preimage_eq hs' (hpass t (mem_payments ht).1) hsame ▸ ho)

/-! ### Payments to a key -/

/-- The payment that spends an output and pays one unit to a key of any length. -/
def keyPayment (publicKey : Bytes) (o : OutPoint) : Tx :=
  (Tx.empty.addInput (.new o .empty)).addOutput ⟨1, .payToKey publicKey⟩

theorem size_keyPayment (publicKey : Bytes) (o : OutPoint) :
    (keyPayment publicKey o).size = 88 + publicKey.length := by
  rw [keyPayment, Tx.size_addOutput, Tx.size_addInput, Tx.size_empty, TxInput.size, TxInput.new,
    UnlockScript.size, TxOutput.size, LockScript.size]
  omega

theorem isCoinbase_keyPayment {publicKey : Bytes} {o : OutPoint} (h : o.isNull = false) :
    (keyPayment publicKey o).isCoinbase = false := h

theorem checkStructure_keyPayment {publicKey : Bytes} {o : OutPoint} (h : o.isNull = false)
    (hsize : 88 + publicKey.length ≤ Wire.Item.transaction.limit) :
    (keyPayment publicKey o).checkStructure = .ok () := by
  have hnull : (keyPayment publicKey o).checkNull = .ok () := by
    rw [Tx.checkNull, isCoinbase_keyPayment h]
    simp [keyPayment, Tx.addInput, Tx.addOutput, Tx.empty, TxInput.new, h]
  rw [← size_keyPayment publicKey o, ← Tx.validateSize_eq_ok_iff] at hsize
  exact Tx.checkStructure_eq_ok_iff.2
    ⟨List.cons_ne_nil _ _, List.cons_ne_nil _ _, hsize, rfl, List.nodup_singleton _, hnull⟩

/-! ### Blocks of the least payments, at difficulty zero -/

/-- The coinbase that pays one unit to no key. -/
def leastCoinbase : Tx := (Tx.coinbase none []).addOutput ⟨1, .payToKey []⟩

/-- The payment that spends an output and pays one unit to no key. -/
def leastPayment : OutPoint → Tx := keyPayment []

/-- The block of some outputs spent one after the other. -/
def spending (outputs : List OutPoint) : Block :=
  .new versionGenesis .zero 0 0 (leastCoinbase :: outputs.map leastPayment)

theorem checkStructure_leastCoinbase : leastCoinbase.checkStructure = .ok () :=
  Tx.checkStructure_eq_ok_iff.2
    ⟨List.cons_ne_nil _ _, List.cons_ne_nil _ _, rfl, rfl, List.nodup_singleton _, rfl⟩

theorem payments_spending {outputs : List OutPoint} (h : ∀ o ∈ outputs, o.isNull = false) :
    (spending outputs).payments = outputs.map leastPayment := by
  have hcoinbase : leastCoinbase.isCoinbase = true := rfl
  refine payments_of_cons rfl hcoinbase (List.forall_mem_map.2 fun o ho => ?_)
  exact isCoinbase_keyPayment (h o ho)

theorem verify_spending {outputs : List OutPoint} (h : ∀ o ∈ outputs, o.isNull = false) :
    (spending outputs).verify = .ok () := by
  have hothers : (outputs.map leastPayment).any Tx.isCoinbase = false := by
    rw [List.any_map, List.any_eq_false]
    intro o ho
    exact Bool.eq_false_iff.1 (h o ho)
  refine verify_eq_ok_iff.2 ⟨verifyHeader_eq_ok_iff.2 ⟨_, _, rfl, rfl, hothers, rfl,
    Header.meetsTarget_of_difficulty rfl⟩, ?_, ?_⟩
  · refine List.forall_mem_cons.2 ⟨checkStructure_leastCoinbase, ?_⟩
    refine List.forall_mem_map.2 fun o ho => ?_
    exact checkStructure_keyPayment (h o ho) (by decide)
  · rw [oneSpender_spends_iff, payments_spending h, List.pairwise_map]
    refine List.pairwise_of_forall fun o p => ?_
    -- Payments of one output are equal.
    by_cases hop : o = p
    · exact .inr (by rw [hop])
    · left
      show List.Disjoint [o] [p]
      rw [List.disjoint_singleton, List.mem_singleton]
      exact fun e => hop e.symm

/-! ### Blocks that pass -/

/-- **What a block that passes spends.** A payment spends no output twice, and payments that share
an output have one identity. So every output is spent once where the identities differ; and where
every output is spent once, no payment is repeated. -/
theorem verify_spent {b : Block} (h : b.verify = .ok ()) :
    (∀ tx ∈ b.payments, tx.spent.Nodup) ∧
      b.payments.Pairwise (fun s t => s.spent.Disjoint t.spent ∨ s.txid = t.txid) ∧
      ((b.payments.map Tx.txid).Nodup → b.spent.Nodup) ∧
      (b.spent.Nodup → (b.payments.map Tx.preimage).Nodup) := by
  obtain ⟨-, hpass, hone⟩ := verify_eq_ok_iff.1 h
  have hinputs : ∀ tx ∈ b.payments, tx.spent.Nodup := fun tx htx =>
    (Tx.checkStructure_eq_ok_iff.1 (hpass tx (mem_payments htx).1)).2.2.2.2.1
  have hshare := oneSpender_spends_iff.1 hone
  refine ⟨hinputs, hshare, fun htxids => ?_, nodup_preimages hpass⟩
  rw [List.Nodup, List.pairwise_map] at htxids
  refine List.nodup_flatMap.2 ⟨hinputs, ?_⟩
  exact (hshare.and htxids).imp fun hpair => hpair.1.resolve_right hpair.2

/-- Two outputs, spent once each. -/
theorem verify_spent_pair :
    let b := spending [⟨.zero, 0⟩, ⟨.zero, 1⟩]
    b.verify = .ok () ∧ b.spent.Nodup ∧ (b.payments.map Tx.preimage).Nodup := by
  intro b
  have hnull : ∀ o ∈ [(⟨.zero, 0⟩ : OutPoint), ⟨.zero, 1⟩], o.isNull = false := by decide
  have hspent : b.spent.Nodup := by
    rw [spent, payments_spending hnull]
    decide
  exact ⟨verify_spending hnull, hspent, (verify_spent (verify_spending hnull)).2.2.2 hspent⟩

/-- **A payment that is repeated passes**, though it spends its output twice. -/
theorem verify_repeated :
    let b := spending [⟨.zero, 0⟩, ⟨.zero, 0⟩]
    b.verify = .ok () ∧ ¬b.spent.Nodup := by
  have hnull : ∀ o ∈ [(⟨.zero, 0⟩ : OutPoint), ⟨.zero, 0⟩], o.isNull = false := by decide
  refine ⟨verify_spending hnull, ?_⟩
  rw [spent, payments_spending hnull]
  decide

end Block

end TestChain
