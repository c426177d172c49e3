import Mathlib.Algebra.Group.Nat.Defs
import Mathlib.Data.List.Chain
import TestChain.Proofs.Store.Record

/-! Lines of records.

Blocks that are built one on the other make a line of records (`ChainRecord.Line`). A step counts
the height up by one, so a line ends where heights do, and it adds the work of the block, which
stops at the most that 128 bits hold. Stopping at each step is stopping once: no sum is smaller than
one before it, so a sum that has reached the most stays there.

`ChainRecord.line_counts` says what a whole line counts, and when a step fails. -/
namespace TestChain.ChainRecord

/-! ### One step -/

/-- **A step fails** for a block that names another block before it, and else just where the heights
end. -/
theorem build_eq_error_iff {parent : ChainRecord} {b : Block} {cause : ChainError} :
    parent.build b = .error cause ↔
      (b.header.previous ≠ parent.hash ∧
        cause = .linkage b.hash b.header.previous parent.hash) ∨
      (b.header.previous = parent.hash ∧ parent.height.toNat = 2 ^ 32 - 1 ∧
        cause = .block (.heightOverflow parent.height)) := by
  have hlt := parent.height.toNat_lt
  unfold build
  by_cases hprevious : b.header.previous = parent.hash
  · rw [if_neg (not_not_intro hprevious)]
    by_cases hheight : parent.height.toNat + 1 < UInt32.size
    · rw [if_pos hheight]
      have hne : parent.height.toNat ≠ 2 ^ 32 - 1 := by
        rw [UInt32.size] at hheight
        omega
      exact iff_of_false nofun fun h =>
        h.elim (fun h => h.1 hprevious) fun h => hne h.2.1
    · rw [if_neg hheight]
      have hlast : parent.height.toNat = 2 ^ 32 - 1 := by
        rw [UInt32.size] at hheight
        omega
      constructor
      · intro h
        exact .inr ⟨hprevious, hlast, (Except.error.inj h).symm⟩
      · rintro (⟨h, -⟩ | ⟨-, -, rfl⟩)
        · exact absurd hprevious h
        · rfl
  · rw [if_pos hprevious]
    constructor
    · intro h
      exact .inl ⟨hprevious, (Except.error.inj h).symm⟩
    · rintro (⟨-, rfl⟩ | ⟨h, -⟩)
      · rfl
      · exact absurd h hprevious

section
variable {parent r : ChainRecord} {b : Block}

theorem chainWork_build (e : parent.build b = .ok r) :
    r.chainWork.toNat =
      min (parent.chainWork.toNat + 2 ^ min b.header.difficulty.toNat 127) (2 ^ 128 - 1) := by
  obtain ⟨-, -, -, hwork⟩ := build_eq_ok e
  rw [hwork, Work.toNat_add, Block.work, Header.work, Work.toNat_ofDifficulty]

theorem chainWork_le (r : ChainRecord) : r.chainWork.toNat ≤ 2 ^ 128 - 1 :=
  Nat.le_of_lt_succ r.chainWork.toNat_lt

theorem chainWork_eq_min (r : ChainRecord) :
    r.chainWork.toNat = min (r.chainWork.toNat + 0) (2 ^ 128 - 1) :=
  (Nat.min_eq_left r.chainWork_le).symm

theorem chainWork_le_build (e : parent.build b = .ok r) :
    parent.chainWork.toNat ≤ r.chainWork.toNat := by
  rw [chainWork_build e]
  exact Nat.le_min.2 ⟨Nat.le_add_right _ _, parent.chainWork_le⟩

/-- A step adds work as long as there is room for more. -/
theorem moreWorkThan_build_iff (e : parent.build b = .ok r) :
    r.moreWorkThan parent = true ↔ parent.chainWork.toNat < 2 ^ 128 - 1 := by
  have hpos : 0 < 2 ^ min b.header.difficulty.toNat 127 := Nat.two_pow_pos _
  rw [moreWorkThan, decide_eq_true_iff, chainWork_build e]
  omega

end

/-! ### Lines -/

/-- Blocks built one on the other, from a record on, and the records made of them. -/
inductive Line : ChainRecord → List Block → List ChainRecord → Prop
  | nil {r : ChainRecord} : Line r [] []
  | cons {r next : ChainRecord} {b : Block} {blocks : List Block} {records : List ChainRecord} :
    r.build b = .ok next → Line next blocks records → Line r (b :: blocks) (next :: records)

/-- What blocks are worth together, with no end to the count. -/
def workOfAll : List Block → Nat
  | [] => 0
  | b :: blocks => 2 ^ min b.header.difficulty.toNat 127 + workOfAll blocks

namespace Line
variable {r s : ChainRecord} {blocks : List Block} {records : List ChainRecord}

theorem length (h : Line r blocks records) : records.length = blocks.length := by
  induction h with
  | nil => rfl
  | cons _ _ ih => exact congrArg Nat.succ ih

/-- Neighbours in a line are a record and one built on it. -/
theorem isChain (h : Line r blocks records) :
    (r :: records).IsChain fun p s => ∃ b ∈ blocks, p.build b = .ok s := by
  induction h with
  | nil => exact .singleton _
  | cons hbuild _ ih =>
    refine .cons_cons ⟨_, List.mem_cons_self, hbuild⟩ (ih.imp fun p s => ?_)
    rintro ⟨b, hb, hbuild⟩
    exact ⟨b, List.mem_cons_of_mem _ hb, hbuild⟩

theorem height (h : Line r blocks records) {n : Nat} (hs : (r :: records)[n]? = some s) :
    s.height.toNat = r.height.toNat + n := by
  induction h generalizing n with
  | nil =>
    cases n with
    | zero => cases hs; rfl
    | succ n => cases hs
  | cons hbuild _ ih =>
    cases n with
    | zero => cases hs; rfl
    | succ n =>
      obtain ⟨-, -, hheight, -⟩ := build_eq_ok hbuild
      rw [ih hs, hheight]
      omega

/-- The sums that stop at each step are the sum that stops once. -/
theorem chainWork (h : Line r blocks records) {n : Nat} (hs : (r :: records)[n]? = some s) :
    s.chainWork.toNat =
      min (r.chainWork.toNat + workOfAll (blocks.take n)) (2 ^ 128 - 1) := by
  induction h generalizing n with
  | nil =>
    cases n with
    | zero => cases hs; exact s.chainWork_eq_min
    | succ n => cases hs
  | @cons r next b blocks records hbuild _ ih =>
    cases n with
    | zero =>
      cases hs
      rw [List.take_zero]
      exact s.chainWork_eq_min
    | succ n =>
      rw [ih hs, chainWork_build hbuild, List.take_succ_cons, workOfAll]
      omega

theorem pairwise_chainWork (h : Line r blocks records) :
    (r :: records).Pairwise fun p s => p.chainWork.toNat ≤ s.chainWork.toNat := by
  have : Trans (fun p s : ChainRecord => p.chainWork.toNat ≤ s.chainWork.toNat)
      (fun p s : ChainRecord => p.chainWork.toNat ≤ s.chainWork.toNat)
      (fun p s : ChainRecord => p.chainWork.toNat ≤ s.chainWork.toNat) := ⟨Nat.le_trans⟩
  refine List.isChain_iff_pairwise.1 (h.isChain.imp fun (p s : ChainRecord) => ?_)
  rintro ⟨b, -, hbuild⟩
  exact chainWork_le_build hbuild

end Line

/-- **What a line counts.** There is a record for each block. The record at a place, counted from
the one that the line starts from, is as many steps higher, and its work is that of the start and of
the blocks up to there, stopped once at the most. Work never goes down, and a record has more of it
than the one before just when that one had room for more. A step fails, and only then, where the
block names another block before it, which is looked at first, or where the heights end. -/
theorem line_counts :
    (∀ r blocks records, Line r blocks records →
      records.length = blocks.length ∧
      (∀ n s, (r :: records)[n]? = some s →
        s.height.toNat = r.height.toNat + n ∧
        s.chainWork.toNat =
          min (r.chainWork.toNat + workOfAll (blocks.take n)) (2 ^ 128 - 1)) ∧
      (r :: records).Pairwise (fun p s => p.chainWork.toNat ≤ s.chainWork.toNat) ∧
      (r :: records).IsChain fun p s =>
        s.moreWorkThan p = true ↔ p.chainWork.toNat < 2 ^ 128 - 1) ∧
    ∀ (parent : ChainRecord) (b : Block) (cause : ChainError),
      parent.build b = .error cause ↔
        (b.header.previous ≠ parent.hash ∧
          cause = .linkage b.hash b.header.previous parent.hash) ∨
        (b.header.previous = parent.hash ∧ parent.height.toNat = 2 ^ 32 - 1 ∧
          cause = .block (.heightOverflow parent.height)) := by
  refine ⟨fun r blocks records h => ⟨h.length, fun n s hs => ⟨h.height hs, h.chainWork hs⟩,
    h.pairwise_chainWork, h.isChain.imp fun p s => ?_⟩, fun _ _ _ => build_eq_error_iff⟩
  rintro ⟨b, -, hbuild⟩
  exact moreWorkThan_build_iff hbuild

/-! A line that comes to the most work: one unit below it, two blocks of two units each. -/

/-- A block on a record, with nothing in it. -/
def bareBlock (parent : ChainRecord) : Block := ⟨⟨1, parent.hash, .zero, 0, 1, 0⟩, []⟩

/-- The record of the block. -/
def bareChild (parent : ChainRecord) : ChainRecord :=
  ⟨parent.bareBlock.header, parent.chainWork.add parent.bareBlock.work, parent.height + 1⟩

theorem build_bareBlock {parent : ChainRecord} (h : parent.height.toNat + 1 < UInt32.size) :
    parent.build parent.bareBlock = .ok parent.bareChild := by
  have hprevious : parent.bareBlock.header.previous = parent.hash := rfl
  rw [build, if_neg (not_not_intro hprevious), if_pos h]
  rfl

/-- The first of the two blocks still adds to the work, the second does not. -/
theorem line_counts_most :
    let start : ChainRecord := ⟨⟨1, .zero, .zero, 0, 1, 0⟩, .saturate (2 ^ 128 - 2), 7⟩
    let first := start.bareChild
    let second := first.bareChild
    Line start [start.bareBlock, first.bareBlock] [first, second] ∧
      first.moreWorkThan start = true ∧ ¬second.moreWorkThan first = true ∧
      second.height.toNat = 9 ∧ second.chainWork.toNat = 2 ^ 128 - 1 := by
  intro start first second
  have hline : Line start [start.bareBlock, first.bareBlock] [first, second] :=
    .cons (build_bareBlock (by decide)) (.cons (build_bareBlock (by decide)) .nil)
  obtain ⟨-, hplaces, -, hmore⟩ := line_counts.1 _ _ _ hline
  obtain ⟨hheight, hwork⟩ := hplaces 2 second rfl
  have hfirst := (hplaces 1 first rfl).2
  obtain ⟨hstep, hmore⟩ := List.isChain_cons_cons.1 hmore
  obtain ⟨hstep', -⟩ := List.isChain_cons_cons.1 hmore
  refine ⟨hline, hstep.2 (by decide), ?_, hheight, hwork⟩
  rw [hstep', hfirst]
  decide

end TestChain.ChainRecord
