import TestChain.Proofs.Store.Contents
import TestChain.Proofs.Store.Record

/-! Trees of records.

A record is `Rooted` when it is held and its parents, all of them held, lead to a first record. What
every step of the way preserves then holds of all rooted records, by induction on the way: their
difficulty is that of the first record, their work is settled by height and difficulty, and walking
back from them reaches the first record after as many steps as they are high. -/
namespace TestChain

/-- The record that so many steps back lead to. -/
def ChainRecord.ancestor? {σ : Type} [BlockStore σ] (store : σ) :
    Nat → ChainRecord → Except ChainError (Option ChainRecord)
  | 0, r => .ok (some r)
  | n + 1, r => do
    match ← r.previous? store with
    | none => return none
    | some parent => parent.ancestor? store n

namespace Contents

/-- The record that so many steps back lead to, among the records held. -/
def ancestor? (c : Contents) : Nat → ChainRecord → Option ChainRecord
  | 0, r => some r
  | n + 1, r => (c.record? r.header.previous).bind (c.ancestor? n)

/-- The record is held, and its parents lead to the first record through records that are held. -/
inductive Rooted (c : Contents) (first : ChainRecord) : ChainRecord → Prop
  | first : c.record? first.hash = some first → Rooted c first first
  | child {parent r : ChainRecord} : Rooted c first parent → r.Follows parent →
    c.record? r.hash = some r → Rooted c first r

namespace Rooted
variable {c : Contents} {first r : ChainRecord}

theorem held (h : c.Rooted first r) : c.record? r.hash = some r := by
  cases h with
  | first hheld => exact hheld
  | child _ _ hheld => exact hheld

theorem eq_first_or_follows (h : c.Rooted first r) :
    r = first ∨ ∃ parent, c.Rooted first parent ∧ r.Follows parent := by
  cases h with
  | first => exact .inl rfl
  | child hparent hfollows => exact .inr ⟨_, hparent, hfollows⟩

/-- What is rooted stays so while nothing is lost. -/
theorem mono {c' : Contents} (h : c.Rooted first r)
    (hsub : ∀ hash s, c.record? hash = some s → c'.record? hash = some s) :
    c'.Rooted first r := by
  induction h with
  | first hheld => exact .first (hsub _ _ hheld)
  | child _ hfollows hheld ih => exact .child ih hfollows (hsub _ _ hheld)

theorem meetsTarget (h : c.Rooted first r) (hfirst : first.First) :
    r.header.meetsTarget = true := by
  cases h with
  | first => exact hfirst.meetsTarget
  | child _ hfollows => exact hfollows.meetsTarget

theorem difficulty (h : c.Rooted first r) : r.header.difficulty = first.header.difficulty := by
  induction h with
  | first => rfl
  | child _ hfollows _ ih => exact hfollows.difficulty.trans ih

/-- A stretch of headers of one difficulty is worth a power of two for each, up to the most work. -/
theorem chainWork (h : c.Rooted first r) (hfirst : first.First) :
    r.chainWork.toNat =
      min ((r.height.toNat + 1) * 2 ^ min first.header.difficulty.toNat 127) (2 ^ 128 - 1) := by
  induction h with
  | first =>
    have hbound : 2 ^ min first.header.difficulty.toNat 127 ≤ 2 ^ 127 :=
      Nat.pow_le_pow_right (by decide) (Nat.min_le_right _ _)
    rw [hfirst.chainWork, hfirst.height, Header.work, Work.toNat_ofDifficulty]
    show _ = min (1 * _) _
    omega
  | @child parent r hparent hfollows _ ih =>
    have hwork : r.header.work.toNat = 2 ^ min first.header.difficulty.toNat 127 := by
      rw [Header.work, Work.toNat_ofDifficulty, hfollows.difficulty, hparent.difficulty]
    rw [hfollows.chainWork, Work.toNat_add, ih, hwork, hfollows.height,
      Nat.succ_mul (parent.height.toNat + 1)]
    omega

/-- **The way back**: the first record comes after as many steps as the record is high, and nothing
comes after it. -/
theorem ancestor? (h : c.Rooted first r) (hfirst : first.First) (hzero : c.record? .zero = none)
    (n : Nat) :
    (c.ancestor? n r = some first ↔ n = r.height.toNat) ∧
      (r.height.toNat < n → c.ancestor? n r = none) := by
  induction h generalizing n with
  | first =>
    have hheight : first.height.toNat = 0 := by rw [hfirst.height]; rfl
    cases n with
    | zero => exact ⟨⟨fun _ => hheight.symm, fun _ => rfl⟩, fun h => absurd h (Nat.not_lt_zero _)⟩
    | succ n =>
      have hnone : c.ancestor? (n + 1) first = none := by
        rw [Contents.ancestor?, hfirst.previous, hzero]
        rfl
      rw [hnone, hheight]
      exact ⟨⟨nofun, nofun⟩, fun _ => rfl⟩
  | @child parent r hparent hfollows _ ih =>
    have hheight := hfollows.height
    cases n with
    | zero =>
      refine ⟨⟨fun h => ?_, fun h => by omega⟩, fun h => absurd h (Nat.not_lt_zero _)⟩
      have hr : r = first := Option.some.inj h
      rw [hr, hfirst.height] at hheight
      exact absurd hheight (Nat.succ_ne_zero _).symm
    | succ n =>
      have hstep : c.ancestor? (n + 1) r = c.ancestor? n parent := by
        rw [Contents.ancestor?, hfollows.previous, hparent.held]
        rfl
      rw [hstep, hheight, (ih n).1]
      exact ⟨by omega, fun h => (ih n).2 (by omega)⟩

end Rooted

end Contents

/-- Walking back in a store is walking back among the records that it holds. -/
theorem Keeps.ancestor? {σ : Type} [BlockStore σ] {holds : σ → Contents → Prop} (hk : Keeps holds)
    {store : σ} {c : Contents} (h : holds store c) (n : Nat) (r : ChainRecord) :
    r.ancestor? store n = .ok (c.ancestor? n r) := by
  induction n generalizing r with
  | zero => rfl
  | succ n ih =>
    rw [ChainRecord.ancestor?, ChainRecord.previous?, hk.get h, Contents.ancestor?]
    cases c.record? r.header.previous with
    | none => rfl
    | some parent => exact ih parent

end TestChain
