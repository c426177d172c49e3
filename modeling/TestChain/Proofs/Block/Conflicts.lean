import TestChain.Proofs.Block.Spends

/-! Which double spend a block is refused for.

The spends of a block are checked transaction by transaction and input by input, so the clash that
ends the check has a place: that of the transaction and that of its input. `Block.Conflict` says of
such a place that an earlier payment spends the same output under another identity, and
`Block.FirstConflict` that no place before it is one. There is at most one first conflict, and the
check reports it if there is one (`Block.checkDoubleSpends_reports`). All payments before it that
spend its output do so under one identity, the one that is reported beside its own. -/
namespace TestChain

/-- The error of a double spend, as it is shown. -/
theorem ChainError.doubleSpend_message (o : OutPoint) (first second : Digest) :
    (doubleSpend o first second).kind = .doubleSpend ∧
      (doubleSpend o first second).message = "Double spend detected: Output " ++ o.text ++
        " is spent by both " ++ first.hex ++ " and " ++ second.hex := by
  refine ⟨rfl, ?_⟩
  have hmessage : (doubleSpend o first second).message =
      "Double spend detected" ++ ": " ++ (doubleSpend o first second).detail := by
    simp only [message, kind, ErrorKind.render, ErrorKind.detailed, ErrorKind.heading, if_true]
    rfl
  have hdetail : (doubleSpend o first second).detail =
      "Output " ++ o.text ++ " is spent by both " ++ first.hex ++ " and " ++ second.hex := by
    simp only [detail]
    rfl
  have hfront : "Double spend detected" ++ ": " ++ "Output " = "Double spend detected: Output " := by
    decide
  rw [hmessage, hdetail, ← hfront]
  simp only [String.append_assoc]

/-! ### Places of a list of lists -/

/-- An item of the lists one after the other stands in one of the lists. -/
theorem exists_place {α β : Type} {f : α → List β} {l : List α} {front back : List β} {x : β}
    (h : l.flatMap f = front ++ x :: back) :
    ∃ before a after init rest, l = before ++ a :: after ∧ f a = init ++ x :: rest ∧
      front = before.flatMap f ++ init := by
  induction l generalizing front with
  | nil => simp at h
  | cons a l ih =>
    rw [List.flatMap_cons] at h
    -- The item stands behind the first list, or in it.
    rcases List.append_eq_append_iff.1 h with ⟨front', rfl, h'⟩ | ⟨init, ha, h'⟩
    · obtain ⟨before, b, after, init, rest, rfl, hb, rfl⟩ := ih h'
      exact ⟨a :: before, b, after, init, rest, rfl, hb, by simp⟩
    · cases init with
      | nil =>
        have hrest : l.flatMap f = [] ++ x :: back := h'.symm
        obtain ⟨before, b, after, init, rest, rfl, hb, hnil⟩ := ih hrest
        refine ⟨a :: before, b, after, init, rest, rfl, hb, ?_⟩
        rw [List.flatMap_cons, List.append_assoc, ← hnil, List.append_nil, ha, List.append_nil]
      | cons y init =>
        obtain ⟨rfl, -⟩ := List.cons.inj h'
        exact ⟨[], a, l, front, init, rfl, ha, by simp⟩

/-! ### Places of a block -/

/-- The spends of a transaction that are checked: none of a coinbase. -/
def Tx.checkedSpends (tx : Tx) : List (OutPoint × Digest) :=
  if tx.isCoinbase then [] else tx.spends

theorem Tx.spends_eq_map (tx : Tx) : tx.spends = tx.spent.map fun o => (o, tx.txid) := by
  rw [spent, List.map_map]
  rfl

namespace Block
variable {b : Block} {place input place' input' : Nat} {o o' : OutPoint}
  {txid first second first' second' : Digest}

theorem spends_eq (b : Block) : b.spends = b.transactions.flatMap Tx.checkedSpends := by
  rw [spends, payments]
  induction b.transactions with
  | nil => rfl
  | cons tx txs ih =>
    rw [List.flatMap_cons, ← ih, Tx.checkedSpends]
    cases h : tx.isCoinbase with
    | false => rw [List.filter_cons_of_pos (by rw [h]; rfl), List.flatMap_cons]; rfl
    | true => rw [List.filter_cons_of_neg (by rw [h]; decide)]; rfl

/-- The transaction at the place is a payment of that identity, and its input at the other place
spends the output. -/
def SpendsAt (b : Block) (place input : Nat) (o : OutPoint) (txid : Digest) : Prop :=
  ∃ tx, b.transactions[place]? = some tx ∧ tx.isCoinbase = false ∧ tx.txid = txid ∧
    tx.spent[input]? = some o

/-- The input spends an output that a payment before it in the block spends too, under another
identity. -/
structure Conflict (b : Block) (place input : Nat) (o : OutPoint) (first second : Digest) :
    Prop where
  spends : b.SpendsAt place input o second
  earlier : ∃ p < place, ∃ i, b.SpendsAt p i o first
  differ : first ≠ second

/-- Of the conflicts of a block the one that is met first: at the first transaction, and there at
the first input. -/
structure FirstConflict (b : Block) (place input : Nat) (o : OutPoint) (first second : Digest) :
    Prop extends Conflict b place input o first second where
  least : ∀ p i o' s t, b.Conflict p i o' s t → place < p ∨ place = p ∧ input ≤ i
  /-- All payments before it that spend the output have one identity. -/
  shared : ∀ p < place, ∀ i txid, b.SpendsAt p i o txid → txid = first

theorem getElem?_checkedSpends {tx : Tx} :
    tx.checkedSpends[input]? = some (o, txid) ↔
      tx.isCoinbase = false ∧ tx.txid = txid ∧ tx.spent[input]? = some o := by
  unfold Tx.checkedSpends
  cases tx.isCoinbase with
  | true => simp
  | false =>
    simp only [Bool.false_eq_true, if_false, Tx.spends, Tx.spent, List.getElem?_map,
      Option.map_eq_some_iff, Prod.mk.injEq, true_and]
    constructor
    · rintro ⟨i, hi, hprevious, htxid⟩
      exact ⟨htxid, i, hi, hprevious⟩
    · rintro ⟨htxid, i, hi, hprevious⟩
      exact ⟨i, hi, hprevious, htxid⟩

theorem txid_of_mem_checkedSpends {tx : Tx} (h : (o, txid) ∈ tx.checkedSpends) : txid = tx.txid := by
  obtain ⟨i, hi⟩ := List.mem_iff_getElem?.1 h
  exact (getElem?_checkedSpends.1 hi).2.1.symm

theorem spendsAt_iff : b.SpendsAt place input o txid ↔
    ∃ tx, b.transactions[place]? = some tx ∧ tx.checkedSpends[input]? = some (o, txid) :=
  exists_congr fun _ => and_congr_right fun _ => getElem?_checkedSpends.symm

/-- An input spends one output, under one identity. -/
theorem SpendsAt.unique (h : b.SpendsAt place input o txid)
    (h' : b.SpendsAt place input o' second) : o = o' ∧ txid = second := by
  obtain ⟨tx, htx, -, rfl, ho⟩ := h
  obtain ⟨tx', htx', -, rfl, ho'⟩ := h'
  obtain rfl := Option.some.inj (htx.symm.trans htx')
  exact ⟨Option.some.inj (ho.symm.trans ho'), rfl⟩

/-- There is one first conflict at most. -/
theorem FirstConflict.unique (h : b.FirstConflict place input o first second)
    (h' : b.FirstConflict place' input' o' first' second') :
    o = o' ∧ first = first' ∧ second = second' := by
  have hle := h.least _ _ _ _ _ h'.toConflict
  have hge := h'.least _ _ _ _ _ h.toConflict
  obtain rfl : place = place' := by omega
  obtain rfl : input = input' := by omega
  obtain ⟨rfl, rfl⟩ := h.spends.unique h'.spends
  obtain ⟨p, hp, i, hfirst⟩ := h.earlier
  exact ⟨rfl, h'.shared p hp i first hfirst, rfl⟩

section Split
variable {before after : List Tx} {tx : Tx} (htxs : b.transactions = before ++ tx :: after)
include htxs

theorem spendsAt_length_iff :
    b.SpendsAt before.length input o txid ↔ tx.checkedSpends[input]? = some (o, txid) := by
  rw [spendsAt_iff, htxs, List.getElem?_append_right (Nat.le_refl _), Nat.sub_self,
    List.getElem?_cons_zero]
  simp

/-- What is checked before a transaction is what the transactions before it spend. -/
theorem mem_checked_iff :
    (o, txid) ∈ before.flatMap Tx.checkedSpends ↔
      ∃ p < before.length, ∃ i, b.SpendsAt p i o txid := by
  have hplace {p : Nat} (hp : p < before.length) : b.transactions[p]? = before[p]? := by
    rw [htxs, List.getElem?_append_left hp]
  rw [List.mem_flatMap]
  constructor
  · rintro ⟨t, ht, hmem⟩
    obtain ⟨p, hp⟩ := List.mem_iff_getElem?.1 ht
    obtain ⟨i, hi⟩ := List.mem_iff_getElem?.1 hmem
    have hlt : p < before.length := (List.getElem?_eq_some_iff.1 hp).1
    exact ⟨p, hlt, i, spendsAt_iff.2 ⟨t, (hplace hlt).trans hp, hi⟩⟩
  · rintro ⟨p, hlt, i, hspends⟩
    obtain ⟨t, ht, hi⟩ := spendsAt_iff.1 hspends
    exact ⟨t, List.mem_of_getElem? ((hplace hlt).symm.trans ht), List.mem_of_getElem? hi⟩

end Split

/-- **The spend that clashes first is the first conflict.** -/
theorem firstConflict_of_firstClash {front : List (OutPoint × Digest)} {spend : OutPoint × Digest}
    (h : FirstClash b.spends front spend first) :
    ∃ place input, b.FirstConflict place input spend.1 first spend.2 := by
  obtain ⟨back, hsplit⟩ := h.split
  rw [spends_eq] at hsplit
  obtain ⟨before, tx, after, init, rest, htxs, htx, rfl⟩ := exists_place hsplit
  -- What is checked before the spend, by place.
  have hbefore {p i : Nat} {o : OutPoint} {txid : Digest} (hp : p < before.length)
      (hspends : b.SpendsAt p i o txid) :
      (o, txid) ∈ before.flatMap Tx.checkedSpends ++ init :=
    List.mem_append_left _ ((mem_checked_iff htxs).2 ⟨p, hp, i, hspends⟩)
  have hinit {i : Nat} {o : OutPoint} {txid : Digest} (hi : i < init.length)
      (hspends : b.SpendsAt before.length i o txid) :
      (o, txid) ∈ before.flatMap Tx.checkedSpends ++ init := by
    rw [spendsAt_length_iff htxs, htx, List.getElem?_append_left hi] at hspends
    exact List.mem_append_right _ (List.mem_of_getElem? hspends)
  have hspends : b.SpendsAt before.length init.length spend.1 spend.2 := by
    rw [spendsAt_length_iff htxs, htx, List.getElem?_append_right (Nat.le_refl _), Nat.sub_self]
    rfl
  refine ⟨before.length, init.length, ⟨hspends, ?_, h.differ⟩, fun p i o' s t hconflict => ?_,
    fun p hp i txid hspends' => h.one.eq_of_mem (hbefore hp hspends') h.met rfl⟩
  · -- The inputs of one transaction do not clash with each other.
    rcases List.mem_append.1 h.met with hmet | hmet
    · exact (mem_checked_iff htxs).1 hmet
    · have hown : (spend.1, first) ∈ tx.checkedSpends := htx ▸ List.mem_append_left _ hmet
      have hown' : spend ∈ tx.checkedSpends :=
        htx ▸ List.mem_append_right _ List.mem_cons_self
      exact absurd ((txid_of_mem_checkedSpends hown).trans (txid_of_mem_checkedSpends hown').symm)
        h.differ
  · obtain ⟨q, hq, k, hearlier⟩ := hconflict.earlier
    have hclash (hmem : (o', s) ∈ before.flatMap Tx.checkedSpends ++ init)
        (hmem' : (o', t) ∈ before.flatMap Tx.checkedSpends ++ init) : False :=
      hconflict.differ (h.one.eq_of_mem hmem hmem' rfl)
    rcases Nat.lt_trichotomy before.length p with hlt | rfl | hgt
    · exact .inl hlt
    · refine .inr ⟨rfl, Nat.le_of_not_lt fun hi => ?_⟩
      exact hclash (hbefore hq hearlier) (hinit hi hconflict.spends)
    · exact (hclash (hbefore (Nat.lt_trans hq hgt) hearlier) (hbefore hgt hconflict.spends)).elim

/-- The check passes when no two payments clash. -/
theorem checkDoubleSpends_eq_ok_iff_disjoint :
    b.checkDoubleSpends = .ok () ↔
      ∀ s ∈ b.payments, ∀ t ∈ b.payments, s.txid ≠ t.txid → s.spent.Disjoint t.spent := by
  rw [checkDoubleSpends_eq_ok_iff, oneSpender_spends_iff]
  constructor
  · intro h s hs t ht hne
    have : Std.Symm fun s t : Tx => s.spent.Disjoint t.spent ∨ s.txid = t.txid :=
      ⟨fun _ _ h => h.imp (fun hdisjoint _ ht hs => hdisjoint hs ht) Eq.symm⟩
    exact (h.forall_of_forall (fun _ _ => .inr rfl) hs ht).resolve_right hne
  · intro h
    refine List.pairwise_of_forall_mem_list fun s hs t ht => ?_
    by_cases hsame : s.txid = t.txid
    · exact .inr hsame
    · exact .inl (h s hs t ht hsame)

/-- Two payments pass when they have one identity or share no output. -/
theorem checkDoubleSpends_pair {s t : Tx} (h : b.payments = [s, t]) :
    b.checkDoubleSpends = .ok () ↔ s.txid = t.txid ∨ s.spent.Disjoint t.spent := by
  rw [checkDoubleSpends_eq_ok_iff, oneSpender_spends_iff, h, List.pairwise_pair, or_comm]

/-- Behind a coinbase that passes, two payments that share no output pass when each does. -/
theorem verifyTransactions_pair {coinbase s t : Tx} (htxs : b.transactions = [coinbase, s, t])
    (hcoinbase : coinbase.isCoinbase = true) (hpass : coinbase.checkStructure = .ok ())
    (hs : s.isCoinbase = false) (ht : t.isCoinbase = false) (hdisjoint : s.spent.Disjoint t.spent) :
    b.verifyTransactions = .ok () ↔ s.checkStructure = .ok () ∧ t.checkStructure = .ok () := by
  have hpayments : b.payments = [s, t] := payments_of_cons htxs hcoinbase
    (List.forall_mem_cons.2 ⟨hs, List.forall_mem_singleton.2 ht⟩)
  rw [verifyTransactions_eq_ok_iff, htxs, List.forall_mem_cons, and_iff_right hpass,
    List.forall_mem_cons, List.forall_mem_singleton]
  exact and_iff_left ((checkDoubleSpends_pair hpayments).2 (.inr hdisjoint))

/-- Two payments of one output under two identities do not pass, and are reported. -/
theorem checkDoubleSpends_clash {s t : Tx} (h : b.payments = [s, t]) (hs : s.spent = [o])
    (ht : t.spent = [o]) (hdiffer : s.txid ≠ t.txid) :
    b.checkDoubleSpends = .error (.doubleSpend o s.txid t.txid) := by
  have hspends : b.spends = [(o, s.txid), (o, t.txid)] := by
    rw [spends, h, List.flatMap_cons, List.flatMap_singleton, Tx.spends_eq_map, Tx.spends_eq_map, hs,
      ht]
    rfl
  have hfirst : Spends.add ∅ (o, s.txid) = .ok ((∅ : Spends).insert o s.txid) := by
    simp [Spends.add, Spends.note, TxInput.new]
  have hsecond : Spends.add ((∅ : Spends).insert o s.txid) (o, t.txid) =
      .error (.doubleSpend o s.txid t.txid) := by
    simp [Spends.add, Spends.note, TxInput.new, hdiffer]
  rw [checkDoubleSpends_eq, hspends]
  refine except_bind_eq_error.2 (.inl ?_)
  rw [List.foldlM_cons]
  refine except_bind_eq_error.2 (.inr ⟨_, hfirst, ?_⟩)
  rw [List.foldlM_cons]
  exact except_bind_eq_error.2 (.inl hsecond)

theorem Conflict.not_ok (h : b.Conflict place input o first second) :
    b.checkDoubleSpends ≠ .ok () := by
  obtain ⟨t, ht, htpays, rfl, hto⟩ := h.spends
  obtain ⟨p, -, i, s, hs, hspays, rfl, hso⟩ := h.earlier
  rw [Ne, checkDoubleSpends_eq_ok_iff_disjoint]
  intro hdisjoint
  refine hdisjoint s ?_ t ?_ h.differ (List.mem_of_getElem? hso) (List.mem_of_getElem? hto)
  · exact List.mem_filter.2 ⟨List.mem_of_getElem? hs, by rw [hspays]; rfl⟩
  · exact List.mem_filter.2 ⟨List.mem_of_getElem? ht, by rw [htpays]; rfl⟩

/-- What the check reports is the first conflict. -/
theorem firstConflict_of_checkDoubleSpends {e : ChainError} (h : b.checkDoubleSpends = .error e) :
    ∃ place input o first second, b.FirstConflict place input o first second ∧
      e = .doubleSpend o first second := by
  have hspec := b.checkDoubleSpends_spec
  rw [h] at hspec
  obtain ⟨front, spend, first, hclash, rfl⟩ := hspec
  obtain ⟨place, input, hconflict⟩ := firstConflict_of_firstClash hclash
  exact ⟨place, input, spend.1, first, spend.2, hconflict, rfl⟩

/-- **The check reports the first conflict.** It passes just when no two payments of different
identities spend one output. Otherwise it names the output of the first conflict, the one identity
of all payments before it that spend this output, and the identity of the payment there. -/
theorem checkDoubleSpends_reports (b : Block) :
    (b.checkDoubleSpends = .ok () ↔
      ∀ s ∈ b.payments, ∀ t ∈ b.payments, s.txid ≠ t.txid → s.spent.Disjoint t.spent) ∧
    (∀ e, b.checkDoubleSpends = .error e ↔ ∃ place input o first second,
      b.FirstConflict place input o first second ∧ e = .doubleSpend o first second) ∧
    ∀ o first second, (ChainError.doubleSpend o first second).message =
      "Double spend detected: Output " ++ o.text ++ " is spent by both " ++ first.hex ++ " and " ++
        second.hex := by
  refine ⟨checkDoubleSpends_eq_ok_iff_disjoint, fun e => ⟨firstConflict_of_checkDoubleSpends, ?_⟩,
    fun o first second => (ChainError.doubleSpend_message o first second).2⟩
  rintro ⟨place, input, o, first, second, hconflict, rfl⟩
  cases h : b.checkDoubleSpends with
  | ok _ => exact absurd h hconflict.not_ok
  | error e =>
    obtain ⟨_, _, _, _, _, hreported, rfl⟩ := firstConflict_of_checkDoubleSpends h
    obtain ⟨rfl, rfl, rfl⟩ := hreported.unique hconflict
    rfl

end Block

end TestChain
