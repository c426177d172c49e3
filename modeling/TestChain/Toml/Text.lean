import TestChain.Bytes.Hex

/-! The words of TOML: blanks, line ends, comments, and strings with their escapes.

A scanner takes characters off the front of a text and gives what it took with the rest, or nothing
where the text does not fit. -/
namespace TestChain.Toml

def isBlank (c : Char) : Bool := c = ' ' || c = '\t'

/-- Characters that may stand in a comment: all but controls, among which the tabulator is allowed.
-/
def isPlain (c : Char) : Bool := c = '\t' || (' ' ≤ c && c ≤ '~') || '\u0080' ≤ c

def skipBlanks (cs : List Char) : List Char := cs.dropWhile isBlank

/-- The rest after a line end. -/
def newline? : List Char → Option (List Char)
  | '\n' :: rest => some rest
  | '\r' :: '\n' :: rest => some rest
  | _ => none

/-- The rest after blanks, a comment if there is one, and the end of the line or text. -/
def endOfLine? (cs : List Char) : Option (List Char) :=
  let cs :=
    match skipBlanks cs with
    | '#' :: rest => rest.dropWhile isPlain
    | cs => cs
  match cs with
  | [] => some []
  | _ => newline? cs

/-- The rest after blanks, line ends and whole comments, starting outside or inside of a comment. -/
def skipTrivia : Bool → List Char → List Char
  | _, '\n' :: rest => skipTrivia false rest
  | _, '\r' :: '\n' :: rest => skipTrivia false rest
  | true, c :: rest => if isPlain c then skipTrivia true rest else c :: rest
  | false, '#' :: rest => skipTrivia true rest
  | false, c :: rest => if isBlank c then skipTrivia false rest else c :: rest
  | _, [] => []

/-- The rest after blanks and line ends. -/
def skipLines : List Char → List Char
  | '\n' :: rest => skipLines rest
  | '\r' :: '\n' :: rest => skipLines rest
  | c :: rest => if isBlank c then skipLines rest else c :: rest
  | [] => []

theorem length_skipLines (cs : List Char) : (skipLines cs).length ≤ cs.length := by
  fun_induction skipLines cs with
  | case1 rest ih => simp only [List.length_cons]; omega
  | case2 rest ih => simp only [List.length_cons]; omega
  | case3 c rest _ _ h ih => simp only [List.length_cons]; omega
  | case4 => exact Nat.le_refl _
  | case5 => exact Nat.le_refl _

/-! ### Escapes -/

/-- The character that an escape of one letter stands for. -/
def escape? : Char → Option Char
  | 'b' => some '\x08'
  | 't' => some '\t'
  | 'n' => some '\n'
  | 'f' => some '\x0c'
  | 'r' => some '\r'
  | '"' => some '"'
  | '\\' => some '\\'
  | _ => none

/-- The character of the number that hexadecimal digits spell. -/
def scalar? (digits : List Char) : Option Char := do
  let values ← digits.mapM Hex.digitValue?
  let n := values.foldl (fun n v => 16 * n + v) 0
  if n.isValidChar then some (Char.ofNat n) else none

/-! ### Strings in one line -/

/-- A string up to its double quote. -/
def basic : List Char → Option (List Char × List Char)
  | '"' :: rest => some ([], rest)
  | '\\' :: 'u' :: a :: b :: c :: d :: rest => do
    let x ← scalar? [a, b, c, d]
    let (s, rest) ← basic rest
    return (x :: s, rest)
  | '\\' :: 'U' :: a :: b :: c :: d :: e :: f :: g :: h :: rest => do
    let x ← scalar? [a, b, c, d, e, f, g, h]
    let (s, rest) ← basic rest
    return (x :: s, rest)
  | '\\' :: c :: rest => do
    let x ← escape? c
    let (s, rest) ← basic rest
    return (x :: s, rest)
  | c :: rest =>
    if isPlain c && c != '\\' then do
      let (s, rest) ← basic rest
      return (c :: s, rest)
    else none
  | [] => none

/-- A string up to its single quote, in which nothing is escaped. -/
def literal : List Char → Option (List Char × List Char)
  | '\'' :: rest => some ([], rest)
  | c :: rest =>
    if isPlain c then do
      let (s, rest) ← literal rest
      return (c :: s, rest)
    else none
  | [] => none

/-! ### Strings over several lines -/

/-- A string up to three double quotes, of which up to two more before them are part. A backslash at
the end of a line joins it with the next that is not blank. -/
def multiBasic : List Char → Option (List Char × List Char)
  | '"' :: '"' :: '"' :: '"' :: '"' :: rest => some (['"', '"'], rest)
  | '"' :: '"' :: '"' :: '"' :: rest => some (['"'], rest)
  | '"' :: '"' :: '"' :: rest => some ([], rest)
  | '\r' :: '\n' :: rest => do
    let (s, rest) ← multiBasic rest
    return ('\n' :: s, rest)
  | '\\' :: 'u' :: a :: b :: c :: d :: rest => do
    let x ← scalar? [a, b, c, d]
    let (s, rest) ← multiBasic rest
    return (x :: s, rest)
  | '\\' :: 'U' :: a :: b :: c :: d :: e :: f :: g :: h :: rest => do
    let x ← scalar? [a, b, c, d, e, f, g, h]
    let (s, rest) ← multiBasic rest
    return (x :: s, rest)
  | '\\' :: c :: rest =>
    match escape? c with
    | some x => do
      let (s, rest) ← multiBasic rest
      return (x :: s, rest)
    | none =>
      if (newline? (skipBlanks (c :: rest))).isSome then multiBasic (skipLines (c :: rest))
      else none
  | c :: rest =>
    if (isPlain c && c != '\\') || c = '\n' then do
      let (s, rest) ← multiBasic rest
      return (c :: s, rest)
    else none
  | [] => none
  termination_by cs => cs.length
  decreasing_by
    all_goals simp only [List.length_cons]
    all_goals try omega
    have := length_skipLines (c :: rest)
    simp only [List.length_cons] at this
    omega

/-- A string up to three single quotes, of which up to two more before them are part. -/
def multiLiteral : List Char → Option (List Char × List Char)
  | '\'' :: '\'' :: '\'' :: '\'' :: '\'' :: rest => some (['\'', '\''], rest)
  | '\'' :: '\'' :: '\'' :: '\'' :: rest => some (['\''], rest)
  | '\'' :: '\'' :: '\'' :: rest => some ([], rest)
  | '\r' :: '\n' :: rest => do
    let (s, rest) ← multiLiteral rest
    return ('\n' :: s, rest)
  | c :: rest =>
    if isPlain c || c = '\n' then do
      let (s, rest) ← multiLiteral rest
      return (c :: s, rest)
    else none
  | [] => none

/-- A text without the line end that it may start with. -/
def dropNewline (cs : List Char) : List Char := (newline? cs).getD cs

/-- A string of any of the four kinds. -/
def string? : List Char → Option (String × List Char)
  | '"' :: '"' :: '"' :: rest => (multiBasic (dropNewline rest)).map fun r => (.ofList r.1, r.2)
  | '"' :: rest => (basic rest).map fun r => (.ofList r.1, r.2)
  | '\'' :: '\'' :: '\'' :: rest =>
    (multiLiteral (dropNewline rest)).map fun r => (.ofList r.1, r.2)
  | '\'' :: rest => (literal rest).map fun r => (.ofList r.1, r.2)
  | _ => none

/-! ### Keys -/

/-- Characters of a key that stands without quotes. -/
def isBare (c : Char) : Bool := c.isAlphanum || c = '-' || c = '_'

/-- One part of a key. -/
def keyPart? : List Char → Option (String × List Char)
  | '"' :: rest => (basic rest).map fun r => (.ofList r.1, r.2)
  | '\'' :: rest => (literal rest).map fun r => (.ofList r.1, r.2)
  | cs =>
    let name := cs.takeWhile isBare
    if name.isEmpty then none else some (.ofList name, cs.dropWhile isBare)

/-- A key of so many parts at most, with points between them and blanks around each. -/
def key? : Nat → List Char → Option (List String × List Char)
  | 0, _ => none
  | n + 1, cs => do
    let (part, rest) ← keyPart? (skipBlanks cs)
    match skipBlanks rest with
    | '.' :: rest =>
      let (parts, rest) ← key? n rest
      return (part :: parts, rest)
    | rest => return ([part], rest)

end TestChain.Toml
