import TestChain.Proofs.Block.Solve

/-! The first solution.

The pairs of time and nonce stand in a row (`Header.position`), and a step of the search goes to the
next place. So a search tries the places from its own on, leaving none out (`Header.Tries`), up to
the first whose hash meets the goal or else up to the last of all, and it comes to an end for every
block. `Block.solve_finds` says what solving then gives and how it leaves the block. -/
namespace TestChain

namespace Header
variable {h c next : Header}

/-! ### Places -/

/-- The place of the pair of time and nonce among all pairs, counted from the first second and its
first nonce. -/
def position (h : Header) : Nat := h.timestamp.toNat * UInt64.size + h.nonce.toNat

/-- The pair of the other comes no earlier: its time is later, or the times are the same and its
nonce is no less. -/
def NotAfter (h other : Header) : Prop :=
  h.timestamp < other.timestamp ∨ h.timestamp = other.timestamp ∧ h.nonce ≤ other.nonce

theorem notAfter_iff : h.NotAfter c ↔ h.position ≤ c.position := by
  have hn := h.nonce.toNat_lt
  have cn := c.nonce.toNat_lt
  simp only [NotAfter, position, UInt64.size, UInt64.lt_iff_toNat_lt, UInt64.le_iff_toNat_le,
    ← UInt64.toNat_inj]
  omega

/-- The other has the same task, and a pair that comes no earlier. -/
structure Ahead (h c : Header) : Prop where
  sameTask : h.SameTask c
  notAfter : h.NotAfter c

/-- The header with the last of all pairs. -/
def last (h : Header) : Header :=
  { h with timestamp := 0xffffffffffffffff, nonce := 0xffffffffffffffff }

theorem position_last (h : Header) : h.last.position + 1 = UInt64.size * UInt64.size := by
  have hmax : (0xffffffffffffffff : UInt64).toNat = UInt64.size - 1 := by decide
  rw [position, last, hmax]
  decide

theorem position_lt (h : Header) : h.position < UInt64.size * UInt64.size := by
  have hn := h.nonce.toNat_lt
  have ht := h.timestamp.toNat_lt
  simp only [position, UInt64.size]
  omega

theorem SameTask.of_common (hnext : h.SameTask next) (hc : h.SameTask c) : next.SameTask c := by
  unfold SameTask at *
  rw [hnext]
  exact hc

theorem sameTask_last (h : Header) : h.SameTask h.last := rfl

theorem notAfter_last (h c : Header) : c.NotAfter h.last := by
  have hlast := h.position_last
  have hlt := c.position_lt
  exact notAfter_iff.2 (by omega)

/-- Headers of one task at one place are the same. -/
theorem eq_of_position_eq (hc : h.SameTask c) (hnext : h.SameTask next)
    (hposition : c.position = next.position) : c = next := by
  have hn := c.nonce.toNat_lt
  have hn' := next.nonce.toNat_lt
  simp only [position, UInt64.size] at hposition
  have htime : c.timestamp = next.timestamp := UInt64.toNat_inj.1 (by omega)
  have hnonce : c.nonce = next.nonce := UInt64.toNat_inj.1 (by omega)
  rw [hc, hnext, htime, hnonce]

/-- **A step** goes to the next place. -/
theorem position_advance? (e : h.advance? = some next) : next.position = h.position + 1 := by
  unfold advance? at e
  split at e
  next hnonce =>
    cases e
    simp only [position, UInt64.toNat_add, UInt64.toNat_one, UInt64.size] at hnonce ⊢
    omega
  next hnonce =>
    have hn := h.nonce.toNat_lt
    split at e
    next htime =>
      cases e
      simp only [position, UInt64.toNat_add, UInt64.toNat_one, UInt64.toNat_zero,
        UInt64.size] at hnonce htime ⊢
      omega
    next => cases e

/-- Only at the last place is there no step. -/
theorem eq_last_of_advance? (e : h.advance? = none) : h = h.last := by
  have hposition : h.position + 1 = UInt64.size * UInt64.size := by
    have hn := h.nonce.toNat_lt
    have ht := h.timestamp.toNat_lt
    unfold advance? at e
    split at e
    next => cases e
    next hnonce =>
      split at e
      next => cases e
      next htime =>
        simp only [position, UInt64.size] at hnonce htime ⊢
        omega
  rw [← h.position_last] at hposition
  exact eq_of_position_eq rfl h.sameTask_last (Nat.succ.inj hposition)

theorem NotAfter.refl (h : Header) : h.NotAfter h := notAfter_iff.2 (Nat.le_refl _)

/-- Nothing but the last place is ahead of it. -/
theorem eq_last_of_ahead (hc : h.last.Ahead c) : c = h.last :=
  eq_of_position_eq hc.sameTask rfl
    (Nat.le_antisymm (notAfter_iff.1 (h.notAfter_last c)) (notAfter_iff.1 hc.notAfter))

theorem mem_singleton_iff : c ∈ [h] ↔ h.Ahead c ∧ c.NotAfter h := by
  rw [List.mem_singleton]
  constructor
  · rintro rfl
    exact ⟨⟨rfl, .refl _⟩, .refl _⟩
  · rintro ⟨⟨htask, hle⟩, hge⟩
    exact eq_of_position_eq htask rfl
      (Nat.le_antisymm (notAfter_iff.1 hge) (notAfter_iff.1 hle))

/-! ### What a search tries -/

/-- Where a search ends. -/
def Search.header : Search → Header
  | solved h => h
  | exhausted h => h

/-- The headers whose hashes a search looks at, one after the other, and how it ends. -/
inductive Tries (goal : Digest) : Header → List Header → Search → Prop
  | solved {h : Header} : h.hash.le goal = true → Tries goal h [h] (.solved h)
  | exhausted {h : Header} : h.hash.le goal = false → h.advance? = none →
    Tries goal h [h] (.exhausted h)
  | next {h next : Header} {rest : List Header} {ending : Search} : h.hash.le goal = false →
    h.advance? = some next → Tries goal next rest ending → Tries goal h (h :: rest) ending

/-- **Every search comes to an end.** -/
theorem search_tries (goal : Digest) (h : Header) : ∃ tried, Tries goal h tried (h.search goal) := by
  fun_induction search goal h with
  | case1 h hle => exact ⟨[h], .solved hle⟩
  | case2 h hle hlast => exact ⟨[h], .exhausted (Bool.eq_false_iff.2 hle) hlast⟩
  | case3 h hle next hnext ih =>
    obtain ⟨rest, hrest⟩ := ih
    exact ⟨h :: rest, .next (Bool.eq_false_iff.2 hle) hnext hrest⟩

namespace Tries
variable {goal : Digest} {tried : List Header} {ending : Search}

theorem sameTask (e : Tries goal h tried ending) : h.SameTask ending.header := by
  induction e with
  | solved | exhausted => rfl
  | next _ hnext _ ih => exact (sameTask_advance? hnext).trans ih

theorem notAfter (e : Tries goal h tried ending) : h.position ≤ ending.header.position := by
  induction e with
  | solved | exhausted => exact Nat.le_refl _
  | next _ hnext _ ih =>
    rw [position_advance? hnext] at ih
    exact Nat.le_of_succ_le ih

/-- **Nothing is left out**: all places are tried from the first to that of the end. -/
theorem mem_iff (e : Tries goal h tried ending) :
    c ∈ tried ↔ h.Ahead c ∧ c.NotAfter ending.header := by
  induction e with
  | solved | exhausted => exact mem_singleton_iff
  | @next h next rest ending _ hnext hrest ih =>
    have htask := sameTask_advance? hnext
    have hposition := position_advance? hnext
    have hend := hrest.notAfter
    rw [List.mem_cons, ih, notAfter_iff]
    constructor
    · rintro (rfl | ⟨⟨hsame, hle⟩, hge⟩)
      · exact ⟨⟨rfl, .refl _⟩, by omega⟩
      · rw [notAfter_iff] at hle
        exact ⟨⟨htask.trans hsame, notAfter_iff.2 (by omega)⟩, hge⟩
    · rintro ⟨⟨hsame, hle⟩, hge⟩
      rw [notAfter_iff] at hle
      rcases Nat.eq_or_lt_of_le hle with heq | hlt
      · exact .inl (eq_of_position_eq hsame rfl heq.symm)
      · exact .inr ⟨⟨htask.of_common hsame, notAfter_iff.2 (by omega)⟩, hge⟩

/-- What meets the goal is not passed over. -/
theorem eq_solved_of_mem (e : Tries goal h tried ending) (hc : c ∈ tried)
    (hgoal : c.hash.le goal = true) : ending = .solved c := by
  induction e with
  | solved => rw [List.mem_singleton.1 hc]
  | exhausted hfail =>
    rw [List.mem_singleton.1 hc, hfail] at hgoal
    cases hgoal
  | next hfail _ _ ih =>
    rcases List.mem_cons.1 hc with rfl | hc
    · rw [hfail] at hgoal
      cases hgoal
    · exact ih hc

theorem eq_last {final : Header} (e : Tries goal h tried (.exhausted final)) :
    final = h.last := by
  have hsame : h.SameTask final := e.sameTask
  have hfinal : final = final.last := by
    clear hsame
    generalize hending : Search.exhausted final = ending at e
    induction e with
    | solved => cases hending
    | exhausted _ hlast =>
      cases hending
      exact eq_last_of_advance? hlast
    | next _ _ _ ih => exact ih hending
  rw [hfinal]
  exact eq_of_position_eq (c := final.last) (hsame.trans final.sameTask_last) h.sameTask_last rfl

end Tries

/-! ### The first solution -/

/-- Of the headers ahead of one that meet their target, the one that comes first. -/
structure FirstSolution (h first : Header) : Prop where
  ahead : h.Ahead first
  meetsTarget : first.meetsTarget = true
  least : ∀ c, h.Ahead c → c.meetsTarget = true → first.NotAfter c

theorem SameTask.target_eq (htask : h.SameTask c) : c.target = h.target := by
  rw [htask]
  rfl

/-- Where a search for the target stops, there is no solution before. -/
theorem firstSolution_of_search {first : Header} (e : h.search h.target = .solved first) :
    h.FirstSolution first := by
  obtain ⟨htask, hgoal⟩ := search_solved e
  obtain ⟨tried, htried⟩ := search_tries h.target h
  rw [e] at htried
  refine ⟨⟨htask, notAfter_iff.2 htried.notAfter⟩, ?_, fun c hc hmeets => notAfter_iff.2 ?_⟩
  · rw [meetsTarget, htask.target_eq, hgoal]
  · rw [meetsTarget, hc.sameTask.target_eq] at hmeets
    rcases Nat.le_total first.position c.position with hle | hge
    · exact hle
    · have hmem := htried.mem_iff.2 ⟨hc, notAfter_iff.2 hge⟩
      cases htried.eq_solved_of_mem hmem hmeets
      exact Nat.le_refl _

/-- A search that is exhausted has tried everything that is ahead, and nothing of it meets the
target. -/
theorem tries_of_search {final : Header} (e : h.search h.target = .exhausted final) :
    final = h.last ∧ (∀ c, h.Ahead c → c.meetsTarget = false) ∧
      ∃ tried, Tries h.target h tried (.exhausted h.last) ∧ ∀ c, c ∈ tried ↔ h.Ahead c := by
  obtain ⟨tried, htried⟩ := search_tries h.target h
  rw [e] at htried
  obtain rfl := htried.eq_last
  have hmem (c : Header) : c ∈ tried ↔ h.Ahead c := by
    rw [htried.mem_iff]
    exact ⟨And.left, fun hc => ⟨hc, h.notAfter_last c⟩⟩
  refine ⟨rfl, fun c hc => Bool.eq_false_iff.2 fun hmeets => ?_, tried, htried, hmem⟩
  rw [meetsTarget, hc.sameTask.target_eq] at hmeets
  cases htried.eq_solved_of_mem ((hmem c).2 hc) hmeets

end Header

namespace Block

/-- The block as solving it leaves it, also by a failure. -/
def afterSolve (b : Block) : Block :=
  match b.search with
  | .solved solved => solved
  | .unreachable => b
  | .exhausted final => final

theorem search_of_le {b : Block} (h : b.header.difficulty ≤ NetworkParams.maxDifficulty) :
    b.search = match b.header.search b.header.target with
      | .solved first => .solved { b with header := first }
      | .exhausted final => .exhausted { b with header := final } :=
  if_neg (UInt32.not_lt.2 h)

/-- A block that meets its target is solved as it stands. -/
theorem solve_of_meetsTarget {b : Block} (h : b.header.difficulty ≤ NetworkParams.maxDifficulty)
    (hmeets : b.header.meetsTarget = true) : b.solve = .ok b := by
  have hsearch : b.header.search b.header.target = .solved b.header := by
    rw [Header.search]
    exact if_pos hmeets
  rw [solve, search_of_le h, hsearch]

open Classical in
/-- **Solving a block finds the first solution**, and ends for every block. A difficulty out of
reach is refused, and the block is left as it is. Otherwise the block gets the first pair of time
and nonce, from its own on, that meets its target; and if there is none, all of them are tried, and
the block is left at the last of all, where the time overflows. A block that is solved stays as it
is. -/
theorem solve_finds (b : Block) :
    (if NetworkParams.maxDifficulty < b.header.difficulty then
      b.solve = .error (.error (.block (.unreachable b.header.difficulty))) ∧ b.afterSolve = b
    else if ∃ c, b.header.Ahead c ∧ c.meetsTarget = true then
      ∃ first, b.header.FirstSolution first ∧ b.solve = .ok { b with header := first } ∧
        b.afterSolve = { b with header := first }
    else
      b.solve = .error (.overflow .add) ∧
        Overflow.add.message = "attempt to add with overflow" ∧
        b.afterSolve = { b with header := b.header.last } ∧
        ∃ tried, Header.Tries b.header.target b.header tried (.exhausted b.header.last) ∧
          ∀ c, c ∈ tried ↔ b.header.Ahead c) ∧
    (b.header.difficulty ≤ NetworkParams.maxDifficulty → b.header.meetsTarget = true →
      b.solve = .ok b) ∧
    ∀ solved, b.solve = .ok solved → solved.solve = .ok solved := by
  refine ⟨?_, solve_of_meetsTarget, fun solved e => ?_⟩
  · by_cases hmax : NetworkParams.maxDifficulty < b.header.difficulty
    · have hsearch : b.search = .unreachable := if_pos hmax
      rw [if_pos hmax, solve, afterSolve, hsearch]
      exact ⟨rfl, rfl⟩
    · rw [if_neg hmax, solve, afterSolve, search_of_le (UInt32.not_lt.1 hmax)]
      cases hend : b.header.search b.header.target with
      | solved first =>
        have hfirst := Header.firstSolution_of_search hend
        rw [if_pos ⟨first, hfirst.ahead, hfirst.meetsTarget⟩]
        exact ⟨first, hfirst, rfl, rfl⟩
      | exhausted final =>
        obtain ⟨rfl, hnone, htried⟩ := Header.tries_of_search hend
        rw [if_neg]
        · exact ⟨rfl, rfl, rfl, htried⟩
        · rintro ⟨c, hc, hmeets⟩
          rw [hnone c hc] at hmeets
          cases hmeets
  · obtain ⟨hmax, -, htask, hmeets⟩ := solve_eq_ok e
    refine solve_of_meetsTarget ?_ hmeets
    rw [htask]
    exact hmax

/-- At the last of all pairs, 255 leading zero bits are not found any more, and none at all are
found at once. -/
theorem solve_finds_last :
    let h : Header := Header.last ⟨1, .zero, .zero, 0, 255, 0⟩
    let b : Block := ⟨h, []⟩
    let free : Block := ⟨{ h with difficulty := 0 }, []⟩
    b.solve = .error (.overflow .add) ∧ b.afterSolve = b ∧ free.solve = .ok free := by
  intro h b free
  have hfails : h.meetsTarget = false := by decide +kernel
  obtain ⟨hb, -⟩ := solve_finds b
  obtain ⟨-, hfree, -⟩ := solve_finds free
  rw [if_neg (by decide), if_neg] at hb
  · obtain ⟨hsolve, -, hafter, -⟩ := hb
    exact ⟨hsolve, hafter, hfree (by decide) (Header.meetsTarget_of_difficulty rfl)⟩
  · rintro ⟨c, hc, hmeets⟩
    rw [Header.eq_last_of_ahead hc] at hmeets
    exact Bool.eq_false_iff.1 hfails hmeets

end Block

end TestChain
