import TestChain.Bytes.LittleEndian

/-! The SHA-256 hash function.

A message is padded to whole blocks of 64 bytes (`pad`), and the blocks are folded into a state of
eight words, each through 64 rounds driven by the words that `schedule` stretches out of the block.
All arithmetic is on 32-bit words that wrap, which is the arithmetic of the standard. -/
namespace TestChain.Sha256

/-- The eight words carried from block to block. -/
structure State where
  a : UInt32
  b : UInt32
  c : UInt32
  d : UInt32
  e : UInt32
  f : UInt32
  g : UInt32
  h : UInt32

/-- The state before the first block. -/
def State.initial : State :=
  ⟨0x6a09e667, 0xbb67ae85, 0x3c6ef372, 0xa54ff53a, 0x510e527f, 0x9b05688c, 0x1f83d9ab, 0x5be0cd19⟩

/-- One constant for each round. -/
def roundConstants : List UInt32 := [
  0x428a2f98, 0x71374491, 0xb5c0fbcf, 0xe9b5dba5, 0x3956c25b, 0x59f111f1, 0x923f82a4, 0xab1c5ed5,
  0xd807aa98, 0x12835b01, 0x243185be, 0x550c7dc3, 0x72be5d74, 0x80deb1fe, 0x9bdc06a7, 0xc19bf174,
  0xe49b69c1, 0xefbe4786, 0x0fc19dc6, 0x240ca1cc, 0x2de92c6f, 0x4a7484aa, 0x5cb0a9dc, 0x76f988da,
  0x983e5152, 0xa831c66d, 0xb00327c8, 0xbf597fc7, 0xc6e00bf3, 0xd5a79147, 0x06ca6351, 0x14292967,
  0x27b70a85, 0x2e1b2138, 0x4d2c6dfc, 0x53380d13, 0x650a7354, 0x766a0abb, 0x81c2c92e, 0x92722c85,
  0xa2bfe8a1, 0xa81a664b, 0xc24b8b70, 0xc76c51a3, 0xd192e819, 0xd6990624, 0xf40e3585, 0x106aa070,
  0x19a4c116, 0x1e376c08, 0x2748774c, 0x34b0bcb5, 0x391c0cb3, 0x4ed8aa4a, 0x5b9cca4f, 0x682e6ff3,
  0x748f82ee, 0x78a5636f, 0x84c87814, 0x8cc70208, 0x90befffa, 0xa4506ceb, 0xbef9a3f7, 0xc67178f2]

/-- Rotation to the right by less than a word. -/
@[inline] def rotate (x n : UInt32) : UInt32 := (x >>> n) ||| (x <<< (32 - n))

/-- The word `t` of the schedule from words `t - 2`, `t - 7`, `t - 15` and `t - 16`. -/
@[inline] def mix (w2 w7 w15 w16 : UInt32) : UInt32 :=
  let s0 := rotate w15 7 ^^^ rotate w15 18 ^^^ (w15 >>> 3)
  let s1 := rotate w2 17 ^^^ rotate w2 19 ^^^ (w2 >>> 10)
  w16 + s0 + w7 + s1

/-- The schedule stretched by `n` words. -/
def stretch : Nat → Array UInt32 → Array UInt32
  | 0, ws => ws
  | n + 1, ws =>
    let t := ws.size
    stretch n (ws.push
      (mix (ws.getD (t - 2) 0) (ws.getD (t - 7) 0) (ws.getD (t - 15) 0) (ws.getD (t - 16) 0)))

/-- The 64 words of a block: its sixteen, and 48 mixed from those. -/
def schedule (block : Array UInt32) : Array UInt32 := stretch 48 block

/-- The rounds over constants and words, one of each a round. -/
def rounds : List UInt32 → List UInt32 → (a b c d e f g h : UInt32) → State
  | k :: ks, w :: ws, a, b, c, d, e, f, g, h =>
    let s1 := rotate e 6 ^^^ rotate e 11 ^^^ rotate e 25
    let choice := (e &&& f) ^^^ (~~~ e &&& g)
    let t1 := h + s1 + choice + k + w
    let s0 := rotate a 2 ^^^ rotate a 13 ^^^ rotate a 22
    let majority := (a &&& b) ^^^ (a &&& c) ^^^ (b &&& c)
    rounds ks ws (t1 + s0 + majority) a b c (d + t1) e f g
  | _, _, a, b, c, d, e, f, g, h => ⟨a, b, c, d, e, f, g, h⟩

/-- The state after a block of sixteen words. -/
def compress (s : State) (block : Array UInt32) : State :=
  let r := rounds roundConstants (schedule block).toList s.a s.b s.c s.d s.e s.f s.g s.h
  ⟨s.a + r.a, s.b + r.b, s.c + r.c, s.d + r.d, s.e + r.e, s.f + r.f, s.g + r.g, s.h + r.h⟩

/-- The next `n` words of four bytes, added to those already read, and the bytes after them. -/
def takeWords : Nat → Array UInt32 → Bytes → Array UInt32 × Bytes
  | n + 1, ws, b0 :: b1 :: b2 :: b3 :: rest =>
    let w := (b0.toUInt32 <<< 24) ||| (b1.toUInt32 <<< 16) ||| (b2.toUInt32 <<< 8) ||| b3.toUInt32
    takeWords n (ws.push w) rest
  | _, ws, rest => (ws, rest)

/-- The state after `n` blocks of 64 bytes. -/
def absorb : Nat → State → Bytes → State
  | 0, s, _ => s
  | n + 1, s, bs =>
    let (block, rest) := takeWords 16 #[] bs
    absorb n (compress s block) rest

/-- The message, a one bit, zeros up to the last eight bytes of a block, and the length in bits. -/
def pad (message : Bytes) : Bytes :=
  let length := message.length
  message ++ 0x80 :: List.replicate ((119 - length % 64) % 64) 0 ++ BigEndian.encode 8 (8 * length)

/-- A word, most significant byte first. -/
def wordBytes (w : UInt32) : Bytes :=
  [(w >>> 24).toUInt8, (w >>> 16).toUInt8, (w >>> 8).toUInt8, w.toUInt8]

def State.toBytes (s : State) : FixedBytes 32 :=
  ⟨wordBytes s.a ++ wordBytes s.b ++ wordBytes s.c ++ wordBytes s.d ++
    wordBytes s.e ++ wordBytes s.f ++ wordBytes s.g ++ wordBytes s.h, rfl⟩

/-- The SHA-256 hash of a message. -/
def hash (message : Bytes) : FixedBytes 32 :=
  let padded := pad message
  (absorb (padded.length / 64) State.initial padded).toBytes

end TestChain.Sha256
