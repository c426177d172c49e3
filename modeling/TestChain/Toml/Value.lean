/-! TOML values, and tables as they grow line by line.

A table knows how it came about (`Origin`), because that decides what may still be added to it: a
table in braces is closed, one that a dotted key made grows by dotted keys only, one that a header
implied may get a header of its own, and one with a header has had it. -/
namespace TestChain.Toml

/-- How a table came about. -/
inductive Origin
  /-- Written in braces. -/
  | braces
  /-- Given a header. -/
  | header
  /-- Named on the way to an inner table by a header. -/
  | implied
  /-- Named on the way to an inner value by a dotted key. -/
  | dotted
  deriving DecidableEq

/-- What stands behind a key. Fractions, dates and times are read and not kept. -/
inductive Value
  | text (s : String)
  | integer (n : Int)
  | fraction
  | boolean (b : Bool)
  | moment
  | array (items : List Value)
  | table (origin : Origin) (entries : List (String × Value))
  /-- Tables under one repeated header, in order. -/
  | tables (elements : List (List (String × Value)))

/-- The entries of a table, under distinct keys. -/
abbrev Entries := List (String × Value)

namespace Entries

/-- The value of a key. -/
def get? (entries : Entries) (key : String) : Option Value :=
  (entries.find? (·.1 = key)).map Prod.snd

/-- The entries with a value under a key that had none. -/
def add (entries : Entries) (key : String) (value : Value) : Option Entries :=
  match entries.get? key with
  | none => some (entries ++ [(key, value)])
  | some _ => none

/-- The entries with another value under a key. -/
def set (entries : Entries) (key : String) (value : Value) : Entries :=
  entries.map fun entry => if entry.1 = key then (key, value) else entry

/-- The tables of a repeated header, with a change to the last. -/
def changeLast (change : Entries → Option Entries) : List Entries → Option (List Entries)
  | [] => none
  | [last] => (change last).map ([·])
  | first :: rest => (changeLast change rest).map (first :: ·)

/-- A change to the table that a header's path leads to. Tables on the way are made if they are
missing; of tables under a repeated header the last is meant. -/
def changeAt (change : Entries → Option Entries) : List String → Entries → Option Entries
  | [], entries => change entries
  | key :: path, entries =>
    match entries.get? key with
    | none => do entries.add key (.table .implied (← changeAt change path []))
    | some (.table .braces _) => none
    | some (.table origin inner) => do
      return entries.set key (.table origin (← changeAt change path inner))
    | some (.tables elements) => do
      return entries.set key (.tables (← changeLast (changeAt change path) elements))
    | some _ => none

/-- A value under a dotted key: its path, and its last part. The table that the path ends in must
have been made by dotted keys. -/
def addDotted (last : String) (value : Value) : List String → Entries → Option Entries
  | [], entries => entries.add last value
  | key :: path, entries =>
    match entries.get? key with
    | none => do entries.add key (.table .dotted (← addDotted last value path []))
    | some (.table .dotted inner) => do
      return entries.set key (.table .dotted (← addDotted last value path inner))
    | some (.table .implied inner) =>
      if path.isEmpty then none
      else do return entries.set key (.table .implied (← addDotted last value path inner))
    | some (.tables elements) =>
      if path.isEmpty then none
      else do return entries.set key (.tables (← changeLast (addDotted last value path) elements))
    | some _ => none

/-- The table of a header, made or taken over from one that was implied. -/
def openTable (key : String) (entries : Entries) : Option Entries :=
  match entries.get? key with
  | none => entries.add key (.table .header [])
  | some (.table .implied inner) => some (entries.set key (.table .header inner))
  | some _ => none

/-- One more table under a repeated header. -/
def openElement (key : String) (entries : Entries) : Option Entries :=
  match entries.get? key with
  | none => entries.add key (.tables [[]])
  | some (.tables elements) => some (entries.set key (.tables (elements ++ [[]])))
  | some _ => none

end Entries

/-- The greatest number of parts of a key, and of brackets and braces inside one another. -/
def maxDepth : Nat := 79

end TestChain.Toml
