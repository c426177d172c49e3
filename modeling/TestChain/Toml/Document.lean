import TestChain.Toml.Number
import TestChain.Toml.Text

/-! TOML documents, version 1.0.

A document is read into statements, one a line (`statements?`), which are then carried out one after
the other on a table that starts empty (`Document.run`). Values may nest `maxDepth` deep. -/
namespace TestChain.Toml

/-! ### Values -/

/-- The items of an array up to its bracket. A comma may follow the last. Each round takes at least
one character. -/
def items? (value? : List Char → Option (Value × List Char)) :
    Nat → List Char → Option (List Value × List Char)
  | 0, _ => none
  | n + 1, cs =>
    match skipTrivia false cs with
    | ']' :: rest => some ([], rest)
    | cs => do
      let (value, rest) ← value? cs
      match skipTrivia false rest with
      | ',' :: rest =>
        let (values, rest) ← items? value? n rest
        return (value :: values, rest)
      | ']' :: rest => return ([value], rest)
      | _ => none

/-- A key, an equals sign and a value. -/
def pair? (value? : List Char → Option (Value × List Char)) (cs : List Char) :
    Option ((List String × Value) × List Char) := do
  let (key, rest) ← key? maxDepth cs
  let rest ← char? '=' rest
  let (value, rest) ← value? (skipBlanks rest)
  return ((key, value), rest)

/-- The pairs of a table in braces up to its brace. No comma follows the last. -/
def pairs? (value? : List Char → Option (Value × List Char)) :
    Nat → List Char → Option (List (List String × Value) × List Char)
  | 0, _ => none
  | n + 1, cs => do
    let (pair, rest) ← pair? value? cs
    match skipBlanks rest with
    | ',' :: rest =>
      let (pairs, rest) ← pairs? value? n rest
      return (pair :: pairs, rest)
    | '}' :: rest => return ([pair], rest)
    | _ => none

/-- The entries with a value under a key of several parts. -/
def Entries.addPair (entries : Entries) (pair : List String × Value) : Option Entries := do
  let last ← pair.1.getLast?
  entries.addDotted last pair.2 pair.1.dropLast

/-- A word for a truth value. -/
def boolean? : List Char → Option (Value × List Char)
  | 't' :: 'r' :: 'u' :: 'e' :: rest => some (.boolean true, rest)
  | 'f' :: 'a' :: 'l' :: 's' :: 'e' :: rest => some (.boolean false, rest)
  | _ => none

/-- A value that holds no other. -/
def scalar : List Char → Option (Value × List Char)
  | '"' :: rest => (string? ('"' :: rest)).map fun r => (.text r.1, r.2)
  | '\'' :: rest => (string? ('\'' :: rest)).map fun r => (.text r.1, r.2)
  | cs => boolean? cs <|> number? cs

/-- A value, with so many brackets and braces inside one another at most. -/
def value? : Nat → List Char → Option (Value × List Char)
  | 0, cs => scalar cs
  | n + 1, '[' :: rest =>
    (items? (value? n) (rest.length + 1) rest).map fun r => (.array r.1, r.2)
  | n + 1, '{' :: rest =>
    match skipBlanks rest with
    | '}' :: rest => some (.table .braces [], rest)
    | rest => do
      let (pairs, rest) ← pairs? (value? n) (rest.length + 1) rest
      let entries ← pairs.foldlM Entries.addPair []
      return (.table .braces entries, rest)
  | _ + 1, cs => scalar cs

/-! ### Statements -/

/-- What a line says. -/
inductive Statement
  | pair (key : List String) (value : Value)
  | table (key : List String)
  | element (key : List String)

/-- A header up to its closing brackets. -/
def header? (closing : List Char) (cs : List Char) : Option (List String × List Char) := do
  let (key, rest) ← key? maxDepth cs
  let rest ← closing.foldlM (fun rest c => char? c rest) rest
  return (key, rest)

/-- The statement of a line that is not blank, and what follows it in the line. -/
def statement? : List Char → Option (Statement × List Char)
  | '[' :: '[' :: rest => (header? [']', ']'] rest).map fun r => (.element r.1, r.2)
  | '[' :: rest => (header? [']'] rest).map fun r => (.table r.1, r.2)
  | cs => (pair? (value? maxDepth) cs).map fun r => (.pair r.1.1 r.1.2, r.2)

/-- The statements of a text. Each round takes at least one character. -/
def statements? : Nat → List Char → Option (List Statement)
  | 0, _ => none
  | n + 1, cs =>
    match skipBlanks cs with
    | [] => some []
    | cs =>
      match endOfLine? cs with
      | some rest => statements? n rest
      | none => do
        let (statement, rest) ← statement? cs
        let rest ← endOfLine? rest
        return statement :: (← statements? n rest)

/-! ### Documents -/

/-- A document in the making: its outermost table, and the path of the last header. -/
structure Document where
  root : Entries
  current : List String

namespace Document

def empty : Document := ⟨[], []⟩

/-- The document after a statement. -/
def step (d : Document) : Statement → Option Document
  | .pair key value => do
    let root ← d.root.changeAt (·.addPair (key, value)) d.current
    return { d with root }
  | .table key => do
    let root ← d.root.changeAt (Entries.openTable (← key.getLast?)) key.dropLast
    return ⟨root, key⟩
  | .element key => do
    let root ← d.root.changeAt (Entries.openElement (← key.getLast?)) key.dropLast
    return ⟨root, key⟩

/-- The outermost table of a document made by statements. -/
def run (statements : List Statement) : Option Entries :=
  (statements.foldlM step empty).map Document.root

/-- A text without the mark of byte order that it may start with. -/
def dropMark : List Char → List Char
  | c :: rest => if c = '\ufeff' then rest else c :: rest
  | [] => []

/-- The outermost table of the document in a text. -/
def parse (text : String) : Option Entries := do
  let cs := dropMark text.toList
  run (← statements? (cs.length + 1) cs)

end Document

end TestChain.Toml
