import TestChain.Wire.Basic

/-! What readers take.

A reader of a wire format owes two things: it takes back what is written, leaving the rest, and it
takes nothing else. `Reads` says both at once. A reader that is put together of others is opened by
the equation of the way it is put together (`Reads.bind_eq_ok`, `Reader.choose_eq_ok`), and the
primitives and the ways to repeat a reader are settled here once.

Only lengths that eight bytes can hold (`FitsCount`) are written faithfully. -/
namespace TestChain.Wire

/-- The length fits a count. -/
def FitsCount (xs : List α) : Prop := xs.length < UInt64.size

instance (xs : List α) : Decidable (FitsCount xs) := inferInstanceAs (Decidable (_ < _))

/-- The reader takes just the written forms of good values off the front. -/
def Reads (reader : Reader α) (good : α → Prop) (write : α → Bytes) : Prop :=
  ∀ bs a rest, reader bs = .ok (a, rest) ↔ good a ∧ bs = write a ++ rest

/-! ### Readers put together -/

namespace Reader
variable {bs rest : Bytes}

theorem pure_eq_ok {a b : α} : (pure a : Reader α) bs = .ok (b, rest) ↔ a = b ∧ bs = rest := by
  show Except.ok (a, bs) = Except.ok (b, rest) ↔ _
  simp only [Except.ok.injEq, Prod.mk.injEq]

theorem throw_ne_ok {fault : Fault} {a : α} : (throw fault : Reader α) bs ≠ .ok (a, rest) := by
  intro h
  cases h

theorem bind_eq_ok {x : Reader α} {f : α → Reader β} {b : β} :
    (x >>= f) bs = .ok (b, rest) ↔ ∃ a mid, x bs = .ok (a, mid) ∧ f a mid = .ok (b, rest) := by
  show Except.bind (x bs) (fun p => f p.1 p.2) = _ ↔ _
  cases hx : x bs with
  | error fault =>
    constructor
    · intro h
      cases h
    · intro hparts
      obtain ⟨a, mid, h, -⟩ := hparts
      cases h
  | ok p =>
    constructor
    · intro h
      exact ⟨p.1, p.2, rfl, h⟩
    · intro hparts
      obtain ⟨a, mid, h, hf⟩ := hparts
      cases h
      exact hf

theorem map_eq_ok {x : Reader α} {f : α → β} {b : β} :
    (f <$> x) bs = .ok (b, rest) ↔ ∃ a, x bs = .ok (a, rest) ∧ f a = b := by
  have h : f <$> x = x >>= fun a => pure (f a) := (bind_pure_comp f x).symm
  rw [h, bind_eq_ok]
  constructor
  · intro hparts
    obtain ⟨a, mid, hx, hf⟩ := hparts
    obtain ⟨rfl, rfl⟩ := pure_eq_ok.1 hf
    exact ⟨a, hx, rfl⟩
  · intro hparts
    obtain ⟨a, hx, rfl⟩ := hparts
    exact ⟨a, rest, hx, pure_eq_ok.2 ⟨rfl, rfl⟩⟩

/-- All of a byte string is what is taken off its front, with nothing left over. -/
theorem run_eq_ok {reader : Reader α} {a : α} :
    reader.run bs = .ok a ↔ reader bs = .ok (a, []) := by
  have hrun : StateT.run reader bs = reader bs := rfl
  rw [run, hrun]
  cases reader bs with
  | error fault => simp
  | ok p =>
    obtain ⟨b, left⟩ := p
    cases left <;> simp

end Reader

namespace Reads
variable {reader : Reader α} {good : α → Prop} {write : α → Bytes}

/-- A step that takes written forms, and then the rest of the reader. -/
theorem bind_eq_ok (h : Reads reader good write) {f : α → Reader β} {bs : Bytes} {b : β}
    {rest : Bytes} : (reader >>= f) bs = .ok (b, rest) ↔
      ∃ a mid, (good a ∧ bs = write a ++ mid) ∧ f a mid = .ok (b, rest) := by
  simp only [Reader.bind_eq_ok, h _ _ _]

theorem map_eq_ok (h : Reads reader good write) {f : α → β} {bs : Bytes} {b : β} {rest : Bytes} :
    (f <$> reader) bs = .ok (b, rest) ↔ ∃ a, (good a ∧ bs = write a ++ rest) ∧ f a = b := by
  simp only [Reader.map_eq_ok, h _ _ _]

theorem run_eq_ok (h : Reads reader good write) {bs : Bytes} {a : α} :
    reader.run bs = .ok a ↔ good a ∧ bs = write a := by
  rw [Reader.run_eq_ok, h, List.append_nil]

end Reads

/-! ### Integers and byte strings -/

theorem fixed_reads (n : Nat) : Reads (Reader.fixed n) (fun _ => True) FixedBytes.toList := by
  intro bs v rest
  unfold Reader.fixed
  constructor
  · intro h
    dsimp only at h
    split at h
    · cases h
      exact ⟨trivial, (List.take_append_drop n bs).symm⟩
    · cases h
  · intro hparts
    obtain ⟨-, rfl⟩ := hparts
    obtain ⟨front, rfl⟩ := v
    simp only [List.take_left, List.drop_left, dite_true]

/-- Numbers of `w` bytes, under whatever type they have. -/
theorem integer_reads {w : Nat} {ofNat : Nat → α} {toNat : α → Nat}
    (toNat_lt : ∀ a, toNat a < LittleEndian.capacity w) (ofNat_toNat : ∀ a, ofNat (toNat a) = a)
    (toNat_ofNat : ∀ n, n < LittleEndian.capacity w → toNat (ofNat n) = n) :
    Reads (do let bs ← Reader.fixed w; return ofNat (LittleEndian.decode bs.toList))
      (fun _ => True) (fun a => LittleEndian.encode w (toNat a)) := by
  intro bs a rest
  simp only [(fixed_reads w).bind_eq_ok, Reader.pure_eq_ok]
  constructor
  · intro hparts
    obtain ⟨v, mid, ⟨-, rfl⟩, rfl, rfl⟩ := hparts
    have hlt := LittleEndian.decode_lt v.toList
    have hv := LittleEndian.encode_decode v.toList
    rw [v.length_toList] at hlt hv
    rw [toNat_ofNat _ hlt, hv]
    exact ⟨trivial, rfl⟩
  · intro hparts
    obtain ⟨-, rfl⟩ := hparts
    refine ⟨⟨LittleEndian.encode w (toNat a), LittleEndian.length_encode ..⟩, rest, ⟨trivial, rfl⟩,
      ?_, rfl⟩
    rw [LittleEndian.decode_encode, Nat.mod_eq_of_lt (toNat_lt a), ofNat_toNat]

theorem u32_reads : Reads Reader.u32 (fun _ => True) u32 :=
  integer_reads UInt32.toNat_lt (fun _ => UInt32.ofNat_toNat) fun _ h => UInt32.toNat_ofNat_of_lt' h

theorem u64_reads : Reads Reader.u64 (fun _ => True) u64 :=
  integer_reads UInt64.toNat_lt (fun _ => UInt64.ofNat_toNat) fun _ h => UInt64.toNat_ofNat_of_lt' h

theorem count_eq_u64 {n : Nat} (h : n < UInt64.size) : count n = u64 (UInt64.ofNat n) := by
  rw [u64, UInt64.toNat_ofNat_of_lt' h, count]

/-- A count, and then a reader of just so many. -/
theorem counted_reads {f : Nat → Reader (List α)} {good : List α → Prop} {write : List α → Bytes}
    (hf : ∀ n, Reads (f n) (fun xs => xs.length = n ∧ good xs) write) :
    Reads (Reader.u64 >>= fun n => f n.toNat) (fun xs => FitsCount xs ∧ good xs)
      (fun xs => count xs.length ++ write xs) := by
  intro bs xs rest
  simp only [u64_reads.bind_eq_ok, hf _ _ _ _]
  constructor
  · intro hparts
    obtain ⟨n, mid, ⟨-, rfl⟩, ⟨hn, hgood⟩, rfl⟩ := hparts
    have hlt : xs.length < UInt64.size := by
      rw [hn]
      exact n.toNat_lt
    refine ⟨⟨hlt, hgood⟩, ?_⟩
    rw [count_eq_u64 hlt, hn, UInt64.ofNat_toNat, List.append_assoc]
  · intro hparts
    obtain ⟨⟨hlt, hgood⟩, rfl⟩ := hparts
    refine ⟨.ofNat xs.length, write xs ++ rest, ⟨trivial, ?_⟩, ⟨?_, hgood⟩, rfl⟩
    · rw [count_eq_u64 hlt, List.append_assoc]
    · exact (UInt64.toNat_ofNat_of_lt' hlt).symm

theorem stringOf_reads (n : Nat) :
    Reads (Reader.stringOf n) (fun s => s.length = n ∧ True) id := by
  intro bs s rest
  unfold Reader.stringOf
  constructor
  · intro h
    dsimp only at h
    split at h
    · next hlen =>
      cases h
      exact ⟨⟨hlen, trivial⟩, (List.take_append_drop n bs).symm⟩
    · cases h
  · intro hparts
    obtain ⟨⟨rfl, -⟩, rfl⟩ := hparts
    simp only [id, List.take_left, List.drop_left, if_true]

theorem string_reads : Reads Reader.string FitsCount string := by
  have h := counted_reads stringOf_reads
  simp only [and_true] at h
  exact h

/-! ### Lists, options and alternatives -/

section Repeat
variable {item : Reader α} {good : α → Prop} {write : α → Bytes}

/-- The items read already, `done`, come out before those that are read. -/
theorem many_eq_ok (h : Reads item good write) {n : Nat} {done : List α} {bs rest : Bytes}
    {xs : List α} : Reader.many item n done bs = .ok (xs, rest) ↔
      ∃ ys, xs = done.reverse ++ ys ∧ ys.length = n ∧ (∀ y ∈ ys, good y) ∧
        bs = ys.flatMap write ++ rest := by
  induction n generalizing done bs with
  | zero =>
    constructor
    · intro e
      cases e
      exact ⟨[], (List.append_nil _).symm, rfl, nofun, rfl⟩
    · intro hparts
      obtain ⟨ys, rfl, hlen, -, rfl⟩ := hparts
      obtain rfl := List.eq_nil_of_length_eq_zero hlen
      simp only [Reader.many, List.append_nil, List.flatMap_nil, List.nil_append]
  | succ n ih =>
    simp only [Reader.many]
    constructor
    · intro e
      cases hi : item bs with
      | error fault =>
        rw [hi] at e
        cases e
      | ok p =>
        obtain ⟨hgood, rfl⟩ := (h _ _ _).1 hi
        rw [hi] at e
        obtain ⟨ys, rfl, rfl, hys, hrest⟩ := ih.1 e
        refine ⟨p.1 :: ys, by simp, rfl, List.forall_mem_cons.2 ⟨hgood, hys⟩, ?_⟩
        rw [hrest, List.flatMap_cons, List.append_assoc]
    · intro hparts
      obtain ⟨ys, rfl, hlen, hys, rfl⟩ := hparts
      obtain ⟨y, ys, rfl⟩ := List.exists_cons_of_length_eq_add_one hlen
      obtain ⟨hy, hys⟩ := List.forall_mem_cons.1 hys
      have hi : item ((y :: ys).flatMap write ++ rest) = .ok (y, ys.flatMap write ++ rest) :=
        (h _ _ _).2 ⟨hy, by rw [List.flatMap_cons, List.append_assoc]⟩
      rw [hi]
      exact ih.2 ⟨ys, by simp, Nat.succ.inj hlen, hys, rfl⟩

theorem list_reads (h : Reads item good write) :
    Reads (Reader.list item) (fun xs => FitsCount xs ∧ ∀ x ∈ xs, good x) (list write) := by
  refine counted_reads (f := fun n => Reader.many item n []) fun n bs xs rest => ?_
  rw [many_eq_ok h, and_assoc]
  simp only [List.reverse_nil, List.nil_append, exists_eq_left']

theorem option_reads (h : Reads item good write) :
    Reads (Reader.option item) (fun x => ∀ a ∈ x, good a) (option write) := by
  intro bs x rest
  unfold Reader.option
  rw [(fixed_reads 1).bind_eq_ok]
  constructor
  · intro hparts
    obtain ⟨flag, mid, ⟨-, rfl⟩, e⟩ := hparts
    by_cases h0 : flag.toList = [0]
    · rw [h0] at e ⊢
      obtain ⟨rfl, rfl⟩ := Reader.pure_eq_ok.1 e
      exact ⟨nofun, rfl⟩
    · by_cases h1 : flag.toList = [1]
      · rw [h1] at e ⊢
        obtain ⟨a, mid', ⟨ha, rfl⟩, e'⟩ := h.bind_eq_ok.1 e
        obtain ⟨rfl, rfl⟩ := Reader.pure_eq_ok.1 e'
        refine ⟨fun b hb => ?_, rfl⟩
        cases hb
        exact ha
      · simp only at e
        exact absurd e Reader.throw_ne_ok
  · intro hparts
    obtain ⟨hgood, rfl⟩ := hparts
    cases x with
    | none => exact ⟨⟨[0], rfl⟩, rest, ⟨trivial, rfl⟩, Reader.pure_eq_ok.2 ⟨rfl, rfl⟩⟩
    | some a =>
      refine ⟨⟨[1], rfl⟩, write a ++ rest, ⟨trivial, rfl⟩, h.bind_eq_ok.2 ?_⟩
      exact ⟨a, rest, ⟨hgood a rfl, rfl⟩, Reader.pure_eq_ok.2 ⟨rfl, rfl⟩⟩

end Repeat

/-- The index of an alternative, and then what it reads. -/
theorem Reader.choose_eq_ok {alternatives : List (Reader α)} {bs rest : Bytes} {a : α}
    (few : alternatives.length < UInt32.size) :
    Reader.choose alternatives bs = .ok (a, rest) ↔
      ∃ p ∈ alternatives.zipIdx, ∃ mid, bs = Wire.u32 (.ofNat p.2) ++ mid ∧
        p.1 mid = .ok (a, rest) := by
  unfold Reader.choose
  rw [u32_reads.bind_eq_ok]
  constructor
  · intro hparts
    obtain ⟨index, mid, ⟨-, rfl⟩, e⟩ := hparts
    cases hr : alternatives[index.toNat]? with
    | none =>
      rw [hr] at e
      exact absurd e Reader.throw_ne_ok
    | some reader =>
      rw [hr] at e
      refine ⟨(reader, index.toNat), List.mk_mem_zipIdx_iff_getElem?.2 hr, mid, ?_, e⟩
      rw [UInt32.ofNat_toNat]
  · intro hparts
    obtain ⟨⟨reader, n⟩, hp, mid, rfl, e⟩ := hparts
    have hr : alternatives[n]? = some reader := List.mk_mem_zipIdx_iff_getElem?.1 hp
    have hn : n < alternatives.length := (List.getElem?_eq_some_iff.1 hr).1
    refine ⟨.ofNat n, mid, ⟨trivial, rfl⟩, ?_⟩
    rw [UInt32.toNat_ofNat_of_lt' (Nat.lt_trans hn few), hr]
    exact e

end TestChain.Wire
