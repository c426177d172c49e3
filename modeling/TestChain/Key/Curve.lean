import TestChain.Bytes.LittleEndian

/-! The curve of the keys: y² = x³ + 7 over a prime field of 256 bits.

Points are the curve's, with coordinates below `fieldSize`, and the point at infinity. Adding
follows the chord and tangent rule, and `scale` doubles and adds along the binary digits of its
factor. The multiples of `generator` repeat after `groupOrder` of them, which is prime, so the
factors from one to `groupOrder - 1` give that many different points and never the one at infinity.
-/
namespace TestChain.Curve

/-- The number of elements of the field, a prime. -/
def fieldSize : Nat := 0xfffffffffffffffffffffffffffffffffffffffffffffffffffffffefffffc2f

/-- The number of multiples of the generator, a prime. -/
def groupOrder : Nat := 0xfffffffffffffffffffffffffffffffebaaedce6af48a03bbfd25e8cd0364141

/-- A power in the field, by squaring. -/
def power (base exponent : Nat) : Nat :=
  if exponent = 0 then 1
  else
    let half := power (base * base % fieldSize) (exponent / 2)
    if exponent % 2 = 1 then base * half % fieldSize else half
  termination_by exponent

/-- The inverse of a field element other than zero: its power to the size less two. -/
def inverse (a : Nat) : Nat := power a (fieldSize - 2)

/-- The difference of two field elements. -/
def sub (a b : Nat) : Nat := (a + (fieldSize - b)) % fieldSize

/-- A point of the curve. -/
inductive Point
  | infinity
  | affine (x y : Nat)
  deriving DecidableEq

def generator : Point :=
  .affine 0x79be667ef9dcbbac55a06295ce870b07029bfcdb2dce28d959f2815b16f81798
    0x483ada7726a3c4655da4fbfc0e1108a8fd17b448a68554199c47d08ffb10d4b8

/-- The third point of a line of the given slope through points at `x₁` and `x₂`, mirrored. -/
def Point.alongLine (slope x₁ y₁ x₂ : Nat) : Point :=
  let x := sub (sub (slope * slope % fieldSize) x₁) x₂
  .affine x (sub (slope * sub x₁ x % fieldSize) y₁)

/-- A point added to itself, along the tangent. -/
def Point.double : Point → Point
  | .infinity => .infinity
  | .affine x y =>
    if y = 0 then .infinity
    else alongLine (3 * x * x * inverse (2 * y % fieldSize) % fieldSize) x y x

/-- The sum of two points, along the chord through them. -/
def Point.add : Point → Point → Point
  | .infinity, q => q
  | p, .infinity => p
  | .affine x₁ y₁, .affine x₂ y₂ =>
    if x₁ = x₂ then
      if y₁ = y₂ then double (.affine x₁ y₁) else .infinity
    else alongLine (sub y₂ y₁ * inverse (sub x₂ x₁) % fieldSize) x₁ y₁ x₂

/-- A point added up so many times. -/
def scale (n : Nat) (p : Point) : Point :=
  if n = 0 then .infinity
  else
    let rest := scale (n / 2) p.double
    if n % 2 = 1 then p.add rest else rest
  termination_by n

/-- A point in 33 bytes: the parity of y, and x. Infinity has no such form and gives zeros. -/
def Point.compress : Point → FixedBytes 33
  | .infinity => FixedBytes.zero 33
  | .affine x y => ⟨(if y % 2 = 0 then 0x02 else 0x03) :: BigEndian.encode 32 x, by simp⟩

end TestChain.Curve
