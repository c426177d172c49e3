/-! Byte strings, and byte strings whose length is part of their type.

A hash has 32 bytes and an address hash has 20, and neither is ever shorter or longer: `FixedBytes
n` carries the length with the bytes. Byte strings are ordered as texts are, by their first
difference (`Bytes.le`), which on equal lengths is the order of the big-endian numbers they spell.
-/
namespace TestChain

/-- A byte string. -/
abbrev Bytes := List UInt8

/-- First byte first: a byte string comes no later than another when it is smaller at the first
difference or ends before one. -/
def Bytes.le : Bytes → Bytes → Bool
  | [], _ => true
  | _ :: _, [] => false
  | a :: as, b :: bs => a < b || (a == b && Bytes.le as bs)

/-- Exactly `n` bytes. -/
structure FixedBytes (n : Nat) where
  toList : Bytes
  length_toList : toList.length = n
  deriving DecidableEq

namespace FixedBytes
variable {n : Nat}

@[ext] theorem ext {a b : FixedBytes n} (h : a.toList = b.toList) : a = b := by
  cases a; cases b; cases h; rfl

instance : Hashable (FixedBytes n) := ⟨fun bs => hash bs.toList⟩

/-- All bytes zero. -/
def zero (n : Nat) : FixedBytes n := ⟨List.replicate n 0, by simp⟩

instance : Inhabited (FixedBytes n) := ⟨zero n⟩

/-- A byte string of the right length. -/
def ofList? (n : Nat) (bs : Bytes) : Option (FixedBytes n) :=
  if h : bs.length = n then some ⟨bs, h⟩ else none

theorem ofList?_eq_some_iff {bs : Bytes} {v : FixedBytes n} :
    ofList? n bs = some v ↔ bs = v.toList := by
  unfold ofList?
  split
  · exact ⟨fun h => by cases h; rfl, fun h => by simp [h]⟩
  · next h => exact ⟨nofun, fun e => absurd (e ▸ v.length_toList) h⟩

/-- The first `m` of `n` bytes. -/
def truncate (bs : FixedBytes n) (m : Nat) (h : m ≤ n) : FixedBytes m :=
  ⟨bs.toList.take m, by simp [bs.length_toList, h]⟩

/-- No later in the order of byte strings. -/
def le (a b : FixedBytes n) : Bool := Bytes.le a.toList b.toList

end FixedBytes

end TestChain
