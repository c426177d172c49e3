import TestChain.Bytes.LittleEndian

/-! The wire format: integers of fixed width, least significant byte first.

A byte string and a list are written behind their length in eight bytes, an alternative behind its
index in four, and an optional value behind one byte that says whether it is there. Nothing is
padded or abbreviated, so a value has one written form.

A `Reader` takes a value off the front of a byte string or says why there is none; `Reader.run` also
refuses bytes that are left over. -/
namespace TestChain.Wire

/-! ### Items and faults -/

/-- The things that travel as bytes. -/
inductive Item
  | transaction
  | block
  | header
  deriving DecidableEq

/-- The most bytes that an item is written in. Reading sets no limit. -/
def Item.limit : Item → Nat
  | .transaction => 100000
  | .block => 1000000
  | .header => 256

def Item.name : Item → String
  | .transaction => "Transaction"
  | .block => "Block"
  | .header => "Header"

/-- Why bytes cannot be read. -/
inductive Fault
  /-- An integer, an index or a run of fixed length is cut off. -/
  | endOfInput
  /-- A byte string is announced longer than what is left. -/
  | shortString
  /-- An index that names none of `count` alternatives. -/
  | alternative (found : UInt32) (count : Nat)
  /-- The byte before an optional value is neither zero nor one. -/
  | optionFlag (found : UInt8)
  /-- Bytes are left over. -/
  | leftOver
  deriving DecidableEq

def Fault.message : Fault → String
  | .endOfInput => "io error: unexpected end of file"
  | .shortString => "io error: "
  | .alternative found count =>
    s!"invalid value: integer `{found.toNat}`, expected variant index 0 <= i < {count}"
  | .optionFlag found => s!"tag for enum is not valid, found {found.toNat}"
  | .leftOver => "Slice had bytes remaining after deserialization"

/-! ### Writing -/

def u32 (x : UInt32) : Bytes := LittleEndian.encode 4 x.toNat

def u64 (x : UInt64) : Bytes := LittleEndian.encode 8 x.toNat

/-- The length of what follows. -/
def count (n : Nat) : Bytes := LittleEndian.encode 8 n

/-- A byte string behind its length. -/
def string (bs : Bytes) : Bytes := count bs.length ++ bs

/-- A list behind its length. -/
def list (item : α → Bytes) (xs : List α) : Bytes := count xs.length ++ xs.flatMap item

/-- How many bytes a list takes, given how many an item does. -/
def listSize (size : α → Nat) (xs : List α) : Nat := 8 + xs.foldr (fun x n => size x + n) 0

/-- An optional value behind a byte that says whether it is there. -/
def option (item : α → Bytes) : Option α → Bytes
  | none => [0]
  | some a => 1 :: item a

/-! ### Reading -/

/-- Takes a value off the front of a byte string. -/
abbrev Reader (α : Type) := StateT Bytes (Except Fault) α

namespace Reader

/-- The value in all of a byte string. -/
def run (reader : Reader α) (bs : Bytes) : Except Fault α :=
  match StateT.run reader bs with
  | .error fault => .error fault
  | .ok (a, []) => .ok a
  | .ok (_, _ :: _) => .error .leftOver

/-- The next `n` bytes. -/
def fixed (n : Nat) : Reader (FixedBytes n) := fun bs =>
  let front := bs.take n
  if h : front.length = n then .ok (⟨front, h⟩, bs.drop n) else .error .endOfInput

def u32 : Reader UInt32 := do
  let bs ← fixed 4
  return UInt32.ofNat (LittleEndian.decode bs.toList)

def u64 : Reader UInt64 := do
  let bs ← fixed 8
  return UInt64.ofNat (LittleEndian.decode bs.toList)

/-- The next `n` bytes, of a string that is announced that long. -/
def stringOf (n : Nat) : Reader Bytes := fun bs =>
  let front := bs.take n
  if front.length = n then .ok (front, bs.drop n) else .error .shortString

/-- A byte string behind its length. -/
def string : Reader Bytes := do
  let n ← u64
  stringOf n.toNat

/-- So many items, after those already read, which are given last first. -/
def many (item : Reader α) : Nat → List α → Reader (List α)
  | 0, done => fun bs => .ok (done.reverse, bs)
  | n + 1, done => fun bs =>
    match item bs with
    | .error fault => .error fault
    | .ok (a, rest) => many item n (a :: done) rest

/-- A list behind its length. -/
def list (item : Reader α) : Reader (List α) := do
  let n ← u64
  many item n.toNat []

/-- The alternative of the index read first. -/
def choose (alternatives : List (Reader α)) : Reader α := do
  let index ← u32
  match alternatives[index.toNat]? with
  | some reader => reader
  | none => throw (.alternative index alternatives.length)

/-- An optional value behind its flag. -/
def option (item : Reader α) : Reader (Option α) := do
  let flag ← fixed 1
  match flag.toList with
  | [0] => return none
  | [1] => return some (← item)
  | bytes => throw (.optionFlag (bytes.headD 0))

end Reader

end TestChain.Wire
