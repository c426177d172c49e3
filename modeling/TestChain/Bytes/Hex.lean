import TestChain.Bytes.Basic

/-! Hexadecimal text.

`Hex.encode` writes two lower-case digits a byte. `Hex.decode` reads digits of either case from any
text: it first refuses an odd number of bytes (counted as the text is stored, so a letter outside
ASCII counts more than once), and then the first byte that is no digit, naming its position. -/
namespace TestChain.Hex

/-- The digit of a number below sixteen. -/
def digitChar (n : Nat) : Char :=
  Char.ofNat (if n < 10 then '0'.toNat + n else 'a'.toNat + (n - 10))

/-- The value of a digit of either case. -/
def digitValue? (c : Char) : Option Nat :=
  if '0' ≤ c ∧ c ≤ '9' then some (c.toNat - '0'.toNat)
  else if 'a' ≤ c ∧ c ≤ 'f' then some (c.toNat - 'a'.toNat + 10)
  else if 'A' ≤ c ∧ c ≤ 'F' then some (c.toNat - 'A'.toNat + 10)
  else none

/-- The two digits of a byte, high half first. -/
def byteChars (b : UInt8) : List Char := [digitChar (b.toNat / 16), digitChar (b.toNat % 16)]

def encodeChars (bs : Bytes) : List Char := bs.flatMap byteChars

/-- The bytes of a text in digits. -/
def encode (bs : Bytes) : String := String.ofList (encodeChars bs)

/-- Why a text is no hexadecimal byte string. -/
inductive Fault
  | oddLength
  /-- The first byte that is no digit, and the number of bytes before it. -/
  | badByte (byte : UInt8) (position : Nat)
  deriving DecidableEq

/-- How many bytes a text takes when stored. -/
def storedLength (cs : List Char) : Nat := cs.foldr (fun c n => c.utf8Size + n) 0

/-- The first byte under which a character is stored. -/
def leadByte (c : Char) : UInt8 := (String.utf8EncodeChar c).headD 0

/-- The values of the digits of a text that `position` digits precede. Every character before the
first that is no digit takes one byte, so the count of digits is the position in bytes. -/
def digitValues (position : Nat) : List Char → Except Fault (List Nat)
  | [] => .ok []
  | c :: cs =>
    match digitValue? c with
    | none => .error (.badByte (leadByte c) position)
    | some v =>
      match digitValues (position + 1) cs with
      | .error fault => .error fault
      | .ok vs => .ok (v :: vs)

/-- Digit values joined two by two. -/
def joinPairs : List Nat → Bytes
  | high :: low :: rest => UInt8.ofNat (16 * high + low) :: joinPairs rest
  | _ => []

/-- The bytes that a text spells. -/
def decode (cs : List Char) : Except Fault Bytes :=
  if storedLength cs % 2 = 1 then .error .oddLength
  else (digitValues 0 cs).map joinPairs

/-- A byte as the character of its number, quoted: the quote, the backslash and the usual blanks
are escaped, and what does not print (controls, the non-breaking space, the soft hyphen) is given
by its number. -/
def quoteByte (b : UInt8) : String :=
  let body :=
    if b = 0x00 then "\\0"
    else if b = 0x09 then "\\t"
    else if b = 0x0a then "\\n"
    else if b = 0x0d then "\\r"
    else if b = 0x27 then "\\'"
    else if b = 0x5c then "\\\\"
    else if b < 0x20 ∨ (0x7f ≤ b ∧ b ≤ 0xa0) ∨ b = 0xad then
      let digits := if b < 0x10 then [digitChar b.toNat] else byteChars b
      "\\u\x7b" ++ String.ofList digits ++ "\x7d"
    else String.singleton (Char.ofNat b.toNat)
  "'" ++ body ++ "'"

/-- The fault in words. -/
def Fault.message : Fault → String
  | .oddLength => "Odd number of digits"
  | .badByte byte position => s!"Invalid character {quoteByte byte} at position {position}"

end TestChain.Hex
