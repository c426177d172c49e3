import TestChain.Block.Basic

/-! What fixtures are made with.

Most have made a round trip: they were written and read back, which leaves only what they say.

A source of randomness is the list of the bytes that it will give, so that a fixture made from the
same source is the same fixture. A key takes 32 bytes, and again 32 for as long as they spell no
key; a source that ends before that has run dry (`Failure.drained`).

A value is split in two by a random draw. The first part is the size of the draw, halved until it is
no more than the whole. A draw of zero counts as `Split.fallback`. -/
namespace TestChain

/-! ### Round trips -/

/-- The transaction as it comes back from the wire. -/
def Tx.roundTrip (tx : Tx) : Except ChainError Tx := do
  Tx.ofBytes (← tx.toBytes)

/-- The block as it comes back from the wire. -/
def Block.roundTrip (b : Block) : Except ChainError Block := do
  Block.ofBytes (← b.toBytes)

/-- What must not fail at a step of a fixture. -/
def must (step : FixtureStep) (result : Except ChainError α) : Except Failure α :=
  result.mapError (.fixture step)

/-- The transaction as it must come back from the wire. -/
def Tx.mustRoundTrip (tx : Tx) : Except Failure Tx := must .roundTripTransaction tx.roundTrip

/-- The block as it must come back from the wire. -/
def Block.mustRoundTrip (b : Block) : Except Failure Block := must .roundTripBlock b.roundTrip

/-! ### Random draws -/

/-- A computation that takes bytes off a source. -/
abbrev Draw := StateT Bytes (Except Failure)

/-- The first key that a source spells, in steps of 32 bytes, and the bytes after it. -/
def firstKey (source : Bytes) : Except Failure (Key × Bytes) :=
  let front := source.take 32
  if _ : front.length < 32 then .error .drained
  else
    match Key.ofBytes front with
    | .ok key => .ok (key, source.drop 32)
    | .error _ => firstKey (source.drop 32)
  termination_by source.length
  decreasing_by simp_all [front]; omega

namespace Draw

/-- A key. -/
def key : Draw Key := firstKey

/-- An address on the network of the parameters, whose key is thrown away. -/
def address (params : NetworkParams) : Draw Address := do
  let key ← key
  return key.address params.network

/-- A 64-bit integer, least significant byte first. -/
def integer : Draw Int64 := fun source =>
  let front := source.take 8
  if front.length < 8 then .error .drained
  else .ok (Int64.ofNat (LittleEndian.decode front), source.drop 8)

/-- What must not fail at a step. -/
def must (step : FixtureStep) (result : Except ChainError α) : Draw α :=
  fun source =>
    match result with
    | .ok a => .ok (a, source)
    | .error cause => .error (.fixture step cause)

end Draw

/-! ### Splits -/

namespace Split

/-- Stands in for a draw of zero. -/
def fallback : UInt64 := 15

/-- A number halved until it is no more than the bound. -/
def halveTo (bound n : UInt64) : UInt64 :=
  if bound < n then halveTo bound (n / 2) else n
  termination_by n.toNat
  decreasing_by
    next h =>
      rw [UInt64.lt_iff_toNat_lt] at h
      rw [UInt64.toNat_div]
      simp
      omega

/-- The first part of the total. The second is what is left. -/
def first (total : UInt64) (draw : Int64) : UInt64 :=
  let size := UInt64.ofNat draw.toInt.natAbs
  halveTo total (if size = 0 then fallback else size)

/-- Both parts of the total. -/
def parts (total : UInt64) (draw : Int64) : UInt64 × UInt64 :=
  (first total draw, total - first total draw)

end Split

end TestChain
