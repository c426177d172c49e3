/-! Amounts, counted in the smallest unit.

Arithmetic on amounts and times, which have 64 bits, stops at an overflow instead of wrapping. -/
namespace TestChain

/-- The operation whose result did not fit. -/
inductive Overflow
  | add
  | mul
  deriving DecidableEq

namespace Overflow

def message : Overflow → String
  | add => "attempt to add with overflow"
  | mul => "attempt to multiply with overflow"

end Overflow

/-- The sum, if it fits 64 bits. -/
def addChecked (a b : UInt64) : Except Overflow UInt64 :=
  if a.toNat + b.toNat < UInt64.size then .ok (a + b) else .error .add

theorem addChecked_eq_ok_iff {a b sum : UInt64} :
    addChecked a b = .ok sum ↔ sum.toNat = a.toNat + b.toNat := by
  unfold addChecked
  split
  next h =>
    have hsum : (a + b).toNat = a.toNat + b.toNat := by
      rw [UInt64.toNat_add]
      exact Nat.mod_eq_of_lt h
    rw [Except.ok.injEq, ← hsum, UInt64.toNat_inj]
    exact eq_comm
  next h =>
    have hlt : sum.toNat < UInt64.size := sum.toNat_lt
    exact ⟨nofun, fun hsum => absurd (hsum ▸ hlt) h⟩

/-- The product, if it fits 64 bits. -/
def mulChecked (a b : UInt64) : Except Overflow UInt64 :=
  if a.toNat * b.toNat < UInt64.size then .ok (a * b) else .error .mul

namespace Money

/-- Smallest units in a coin. -/
def coin : UInt64 := 100000000

/-- A hundredth of a coin. -/
def cent : UInt64 := 1000000

/-- The reward of a block. -/
def fiftyCoins : UInt64 := 5000000000

/-- No output, and no transaction in all, may be worth more: 21 million coins. -/
def maximum : UInt64 := 2100000000000000

/-- So many coins and so many hundredths. -/
def valueOf (coins cents : UInt64) : Except Overflow UInt64 := do
  let whole ← mulChecked coins coin
  let part ← mulChecked cents cent
  addChecked whole part

end Money

end TestChain
