import TestChain.Proofs.Wire.Reads

/-! Readers that do not look ahead.

`Incremental` says what more input does to a reader: nothing, unless the reader ran out of it. Where
a reader comes to a value or to any other fault, it comes to the same with more bytes behind its
input, and leaves those over. Every way of putting readers together keeps this, so it holds of a
reader by its shape, whatever is read.

With `Reads` it settles all cuts of a written form at once: a reader that takes the whole form would
take it again, were it to come to anything but the end of its input before the cut
(`Incremental.run_cut`). -/
namespace TestChain.Wire

/-- The input ended too soon. -/
def Fault.IsCut (fault : Fault) : Prop := fault = .endOfInput ∨ fault = .shortString

theorem Fault.message_of_isCut {fault : Fault} (h : fault.IsCut) :
    ∃ text, fault.message = "io error: " ++ text := by
  rcases h with rfl | rfl
  · exact ⟨"unexpected end of file", rfl⟩
  · exact ⟨"", rfl⟩

/-- The reader runs out of input, or does the same when more follows. -/
def Incremental (reader : Reader α) : Prop :=
  ∀ front more, (∃ fault : Fault, fault.IsCut ∧ reader front = .error fault) ∨
    reader (front ++ more) = (reader front).map fun p => (p.1, p.2 ++ more)

/-! ### Readers put together -/

theorem Reader.bind_apply (x : Reader α) (f : α → Reader β) (bs : Bytes) :
    (x >>= f) bs = (x bs).bind fun p => f p.1 p.2 := rfl

theorem incremental_pure (a : α) : Incremental (pure a) := fun _ _ => .inr rfl

theorem incremental_throw (fault : Fault) : Incremental (throw fault : Reader α) :=
  fun _ _ => .inr rfl

namespace Incremental

theorem bind {x : Reader α} {f : α → Reader β} (hx : Incremental x) (hf : ∀ a, Incremental (f a)) :
    Incremental (x >>= f) := by
  intro front more
  rcases hx front more with ⟨fault, hcut, hfault⟩ | hmore
  · exact .inl ⟨fault, hcut, by rw [Reader.bind_apply, hfault]; rfl⟩
  · cases h : x front with
    | error fault =>
      rw [h] at hmore
      exact .inr (by rw [Reader.bind_apply, Reader.bind_apply, hmore, h]; rfl)
    | ok p =>
      -- The first reader stops at the same place either way, and the second goes on from there.
      have hshort : (x >>= f) front = f p.1 p.2 := by rw [Reader.bind_apply, h]; rfl
      have hlong : (x >>= f) (front ++ more) = f p.1 (p.2 ++ more) := by
        rw [Reader.bind_apply, hmore, h]
        rfl
      rw [hshort, hlong]
      exact hf p.1 p.2 more

theorem map {x : Reader α} (hx : Incremental x) (f : α → β) : Incremental (f <$> x) := by
  rw [← bind_pure_comp]
  exact hx.bind fun a => incremental_pure (f a)

end Incremental

/-! ### Integers and byte strings -/

/-- A reader that takes so many bytes and looks at no more. -/
theorem incremental_of_length {n : Nat} {reader : Reader α} {fault : Fault} (hcut : fault.IsCut)
    (hshort : ∀ bs, bs.length < n → reader bs = .error fault)
    (hlong : ∀ bs, bs.length = n → ∃ a, ∀ more, reader (bs ++ more) = .ok (a, more)) :
    Incremental reader := by
  intro front more
  rcases Nat.lt_or_ge front.length n with h | h
  · exact .inl ⟨fault, hcut, hshort front h⟩
  · obtain ⟨a, ha⟩ := hlong (front.take n) (List.length_take_of_le h)
    have hfront := ha (front.drop n)
    have hall := ha (front.drop n ++ more)
    rw [← List.append_assoc] at hall
    rw [List.take_append_drop] at hfront hall
    exact .inr (by rw [hall, hfront]; rfl)

theorem incremental_fixed (n : Nat) : Incremental (Reader.fixed n) :=
  incremental_of_length (n := n) (.inl rfl) (fun _ h => dif_neg (by rw [List.length_take]; omega))
    fun bs h => ⟨⟨bs, h⟩, fun more => (fixed_reads n _ _ _).2 ⟨trivial, rfl⟩⟩

theorem incremental_stringOf (n : Nat) : Incremental (Reader.stringOf n) :=
  incremental_of_length (n := n) (.inr rfl) (fun _ h => if_neg (by rw [List.length_take]; omega))
    fun bs h => ⟨bs, fun more => (stringOf_reads n _ _ _).2 ⟨⟨h, trivial⟩, rfl⟩⟩

theorem incremental_u32 : Incremental Reader.u32 :=
  (incremental_fixed 4).bind fun _ => incremental_pure _

theorem incremental_u64 : Incremental Reader.u64 :=
  (incremental_fixed 8).bind fun _ => incremental_pure _

theorem incremental_string : Incremental Reader.string :=
  incremental_u64.bind fun n => incremental_stringOf n.toNat

/-! ### Lists, options and alternatives -/

/-- One item more is that item, and then the rest. -/
theorem Reader.many_succ (item : Reader α) (n : Nat) (done : List α) :
    many item (n + 1) done = item >>= fun a => many item n (a :: done) := by
  funext bs
  simp only [bind_apply, many]
  cases item bs <;> rfl

namespace Incremental
variable {item : Reader α} (h : Incremental item)
include h

theorem many (n : Nat) (done : List α) : Incremental (Reader.many item n done) := by
  induction n generalizing done with
  | zero => exact fun _ _ => .inr rfl
  | succ n ih =>
    rw [Reader.many_succ]
    exact h.bind fun a => ih (a :: done)

theorem list : Incremental (Reader.list item) := incremental_u64.bind fun n => h.many n.toNat []

theorem option : Incremental (Reader.option item) := by
  refine (incremental_fixed 1).bind fun flag => ?_
  split
  · exact incremental_pure none
  · exact h.bind fun a => incremental_pure (some a)
  · exact incremental_throw _

end Incremental

theorem incremental_choose {alternatives : List (Reader α)}
    (h : ∀ reader ∈ alternatives, Incremental reader) : Incremental (Reader.choose alternatives) := by
  refine incremental_u32.bind fun index => ?_
  cases hr : alternatives[index.toNat]? with
  | none => exact incremental_throw _
  | some reader => exact h reader (List.mem_of_getElem? hr)

/-! ### All of a byte string -/

/-- What is taken whole cannot be read from a part of it: the input ends too soon. -/
theorem Incremental.run_cut {reader : Reader α} (h : Incremental reader) {front back : Bytes} {a : α}
    (hback : back ≠ []) (e : reader (front ++ back) = .ok (a, [])) :
    ∃ fault : Fault, fault.IsCut ∧ reader.run front = .error fault := by
  rcases h front back with ⟨fault, hcut, hfault⟩ | hmore
  · have hrun : StateT.run reader front = .error fault := hfault
    exact ⟨fault, hcut, by rw [Reader.run, hrun]⟩
  · rw [e] at hmore
    cases hfront : reader front with
    | error fault =>
      rw [hfront] at hmore
      cases hmore
    | ok p =>
      rw [hfront] at hmore
      -- The reader would have come to the value before the cut, with all that is behind it left.
      have hrest : [] = p.2 ++ back := congrArg Prod.snd (Except.ok.inj hmore)
      exact absurd (List.append_eq_nil_iff.1 hrest.symm).2 hback

/-- What is written cannot be read with anything behind it. -/
theorem Reads.run_append {reader : Reader α} {good : α → Prop} {write : α → Bytes}
    (h : Reads reader good write) {a : α} (ha : good a) {more : Bytes} (hmore : more ≠ []) :
    reader.run (write a ++ more) = .error .leftOver := by
  obtain ⟨b, bs, rfl⟩ := List.exists_cons_of_ne_nil hmore
  have hread : StateT.run reader (write a ++ b :: bs) = .ok (a, b :: bs) :=
    (h _ _ _).2 ⟨ha, rfl⟩
  rw [Reader.run, hread]

end TestChain.Wire
