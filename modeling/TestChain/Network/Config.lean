import TestChain.Block.Solve
import TestChain.Toml.Document

/-! Network parameters from a TOML document.

The document names a network and may give the difficulty and the time of the first block; what else
it says is passed over. A network is named by a text, or by the key of an empty table or array that
stands alone. -/
namespace TestChain

open Toml (Value Entries)

/-- Holds nothing. -/
def Toml.Value.isVoid : Value → Bool
  | .array items => items.isEmpty
  | .table _ entries => entries.isEmpty
  | .tables elements => elements.isEmpty
  | _ => false

/-- The network that a value names. -/
def Network.ofValue? : Value → Option Network
  | .text name => Network.ofName? name
  | .table _ [(name, value)] => if value.isVoid then Network.ofName? name else none
  | _ => none

/-- An integer below a bound. -/
def Toml.Value.below? (bound : Nat) : Value → Option Nat
  | .integer n => if 0 ≤ n ∧ n < bound then some n.toNat else none
  | _ => none

namespace NetworkParams

/-- A number under a key that may be missing. -/
def fieldOr (entries : Entries) (key : String) (bound default : Nat) : Option Nat :=
  match entries.get? key with
  | none => some default
  | some value => value.below? bound

/-- The parameters that a table spells. -/
def ofEntries? (entries : Entries) : Option NetworkParams := do
  let network ← Network.ofValue? (← entries.get? "network")
  let difficulty ← fieldOr entries "genesis_difficulty" UInt32.size defaultDifficulty.toNat
  let timestamp ← fieldOr entries "genesis_timestamp" UInt64.size defaultTimestamp.toNat
  return ⟨network, .ofNat difficulty, .ofNat timestamp⟩

/-- The parameters that a document spells, if some hash meets their difficulty. -/
def parse (text : String) : Except ChainError NetworkParams := do
  match (Toml.Document.parse text).bind ofEntries? with
  | none => throw (.configuration .document)
  | some params =>
    params.validate
    return params

end NetworkParams

end TestChain
