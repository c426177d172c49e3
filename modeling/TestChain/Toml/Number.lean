import TestChain.Toml.Value
import TestChain.Bytes.Hex

/-! The numbers of TOML, and its dates and times.

Integers must fit 64 bits with a sign. A fraction must be finite, unless it says otherwise itself or
is negative; the bound is where the nearest binary number of 64 bits would be infinite. Dates and
times are checked and not kept. -/
namespace TestChain.Toml

/-- Digits with single underscores between them, after a first that was read. -/
def moreDigits (isDigit : Char → Bool) : List Char → Option (List Char × List Char)
  | '_' :: c :: rest =>
    if isDigit c then (moreDigits isDigit rest).map fun r => (c :: r.1, r.2) else none
  | ['_'] => none
  | c :: rest =>
    if isDigit c then (moreDigits isDigit rest).map fun r => (c :: r.1, r.2)
    else some ([], c :: rest)
  | [] => some ([], [])

/-- Digits with single underscores between them. -/
def digits? (isDigit : Char → Bool) : List Char → Option (List Char × List Char)
  | c :: rest =>
    if isDigit c then (moreDigits isDigit rest).map fun r => (c :: r.1, r.2) else none
  | [] => none

/-- The number that digits spell in a base. -/
def numberOf (base : Nat) (digits : List Char) : Nat :=
  digits.foldl (fun n c => base * n + (Hex.digitValue? c).getD 0) 0

/-- A sign, if there is one, and whether it is negative. -/
def sign : List Char → Bool × List Char
  | '-' :: rest => (true, rest)
  | '+' :: rest => (false, rest)
  | cs => (false, cs)

/-- Digits that begin with zero only when they are zero. -/
def wholeDigits? : List Char → Option (List Char × List Char)
  | '0' :: rest => some (['0'], rest)
  | cs => digits? Char.isDigit cs

/-- An integer, if it fits 64 bits. -/
def fit (n : Int) : Option Value :=
  if Int64.minValue.toInt ≤ n ∧ n ≤ Int64.maxValue.toInt then some (.integer n) else none

/-- An integer in a base, after its mark. -/
def based? (base : Nat) (isDigit : Char → Bool) (cs : List Char) : Option (Value × List Char) := do
  let (digits, rest) ← digits? isDigit cs
  return (← fit (numberOf base digits), rest)

/-- An integer. -/
def integer? : List Char → Option (Value × List Char)
  | '0' :: 'x' :: rest => based? 16 (fun c => (Hex.digitValue? c).isSome) rest
  | '0' :: 'o' :: rest => based? 8 (fun c => '0' ≤ c && c ≤ '7') rest
  | '0' :: 'b' :: rest => based? 2 (fun c => c = '0' || c = '1') rest
  | cs => do
    let (negative, rest) := sign cs
    let (digits, rest) ← wholeDigits? rest
    let n : Int := numberOf 10 digits
    return (← fit (if negative then -n else n), rest)

/-! ### Fractions -/

/-- The least number that is nearer to 2^1024 than to any binary number of 64 bits, or as near. -/
def infinityBound : Nat := Nat.pow 2 1024 - Nat.pow 2 970

/-- Whether a number times a power of ten reaches the bound. Numbers that are far from it are told
by their size. -/
def reachesInfinity (mantissa : Nat) (exponent : Int) : Bool :=
  let size : Int := (Nat.toDigits 10 mantissa).length
  if mantissa = 0 || size + exponent ≤ 308 then false
  else if 310 ≤ size + exponent then true
  else if 0 ≤ exponent then infinityBound ≤ mantissa * Nat.pow 10 exponent.toNat
  else infinityBound * Nat.pow 10 (-exponent).toNat ≤ mantissa

/-- The digits after a point, if there is one. -/
def fractionDigits? : List Char → Option (List Char × List Char)
  | '.' :: rest => digits? Char.isDigit rest
  | cs => some ([], cs)

/-- The exponent, if there is one. -/
def exponent? : List Char → Option (Option Int × List Char)
  | c :: rest =>
    if c = 'e' || c = 'E' then do
      let (negative, rest) := sign rest
      let (digits, rest) ← digits? Char.isDigit rest
      let n : Int := numberOf 10 digits
      return (some (if negative then -n else n), rest)
    else some (none, c :: rest)
  | [] => some (none, [])

/-- The rest after one of the words for what is not finite. -/
def special? : List Char → Option (List Char)
  | 'i' :: 'n' :: 'f' :: rest => some rest
  | 'n' :: 'a' :: 'n' :: rest => some rest
  | _ => none

/-- A number with a point or an exponent, or a word for one that is not finite. -/
def fraction? (cs : List Char) : Option (Value × List Char) := do
  let (negative, start) := sign cs
  match special? start with
  | some rest => return (.fraction, rest)
  | none =>
    let (whole, rest) ← wholeDigits? start
    let (part, rest) ← fractionDigits? rest
    let (exponent, rest) ← exponent? rest
    if part.isEmpty && exponent.isNone then failure
    let scale := exponent.getD 0 - part.length
    if !negative && reachesInfinity (numberOf 10 (whole ++ part)) scale then failure
    return (.fraction, rest)

/-! ### Dates and times -/

/-- A number of exactly so many digits. -/
def fixedNumber? (size : Nat) (cs : List Char) : Option (Nat × List Char) :=
  let front := cs.take size
  if front.length = size && front.all Char.isDigit then some (numberOf 10 front, cs.drop size)
  else none

/-- A number of two digits in a range. -/
def twoDigits? (least most : Nat) (cs : List Char) : Option (List Char × Nat) := do
  let (n, rest) ← fixedNumber? 2 cs
  if least ≤ n && n ≤ most then some (rest, n) else none

/-- The rest after a character. -/
def char? (c : Char) : List Char → Option (List Char)
  | d :: rest => if d = c then some rest else none
  | [] => none

/-- The days of a month. -/
def daysIn (year month : Nat) : Nat :=
  if month = 2 then
    if year % 4 = 0 && (year % 100 ≠ 0 || year % 400 = 0) then 29 else 28
  else if month = 4 || month = 6 || month = 9 || month = 11 then 30
  else 31

/-- The rest after a date. -/
def date? (cs : List Char) : Option (List Char) := do
  let (year, rest) ← fixedNumber? 4 cs
  let (rest, month) ← twoDigits? 1 12 (← char? '-' rest)
  let (rest, _) ← twoDigits? 1 (daysIn year month) (← char? '-' rest)
  return rest

/-- The rest after a time of the day, in which a minute may have a leap second. -/
def time? (cs : List Char) : Option (List Char) := do
  let (rest, _) ← twoDigits? 0 23 cs
  let (rest, _) ← twoDigits? 0 59 (← char? ':' rest)
  let (rest, _) ← twoDigits? 0 60 (← char? ':' rest)
  match rest with
  | '.' :: c :: more => if c.isDigit then return more.dropWhile Char.isDigit else return rest
  | _ => return rest

/-- The rest after the offset of a time zone. -/
def offset? : List Char → Option (List Char)
  | c :: rest =>
    if c = 'Z' || c = 'z' then some rest
    else if c = '+' || c = '-' then do
      let (rest, _) ← twoDigits? 0 23 rest
      let (rest, _) ← twoDigits? 0 59 (← char? ':' rest)
      return rest
    else none
  | [] => none

/-- The rest after a time that follows a date, or the same text where none does. -/
def timeAfterDate (cs : List Char) : List Char :=
  match cs with
  | c :: rest =>
    if c = 'T' || c = 't' || c = ' ' then
      match time? rest with
      | some rest => (offset? rest).getD rest
      | none => cs
    else cs
  | [] => []

/-- A date, a date with a time, or a time. -/
def moment? (cs : List Char) : Option (Value × List Char) :=
  match date? cs with
  | some rest => some (.moment, timeAfterDate rest)
  | none => (time? cs).map fun rest => (.moment, rest)

/-- A number, a date or a time. -/
def number? (cs : List Char) : Option (Value × List Char) :=
  moment? cs <|> fraction? cs <|> integer? cs

end TestChain.Toml
