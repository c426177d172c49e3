import TestChain.Hash.Digest
import TestChain.Money
import TestChain.Network.Basic
import TestChain.Wire.Basic

/-! What can go wrong, by cause.

A `ChainError` names the cause; its `kind` is one of twelve, and its `message` is the kind's heading
followed, except for two kinds that say everything, by the detail. Every text is written here and
nowhere else. A `Failure` is a `ChainError` that a caller may handle, or an end that it may not: an
amount or time that overflows, or a fixture whose making failed. -/
namespace TestChain

/-- The twelve kinds of error. -/
inductive ErrorKind
  | linkage
  | proofOfWork
  | merkleRoot
  | block
  | transaction
  | doubleSpend
  | crypto
  | encoding
  | decoding
  | database
  | notFound
  | configuration
  deriving DecidableEq

namespace ErrorKind

def all : List ErrorKind :=
  [linkage, proofOfWork, merkleRoot, block, transaction, doubleSpend, crypto, encoding, decoding,
    database, notFound, configuration]

theorem mem_all (kind : ErrorKind) : kind ∈ all := by cases kind <;> decide

def heading : ErrorKind → String
  | linkage => "Invalid block linkage"
  | proofOfWork => "Invalid proof of work"
  | merkleRoot => "Invalid Merkle root"
  | block => "Invalid block"
  | transaction => "Invalid transaction"
  | doubleSpend => "Double spend detected"
  | crypto => "Cryptographic error"
  | encoding => "Encoding error"
  | decoding => "Decoding error"
  | database => "Database error"
  | notFound => "Block not found"
  | configuration => "Configuration error"

/-- Whether the heading leaves something to say. -/
def detailed : ErrorKind → Bool
  | proofOfWork | merkleRoot => false
  | _ => true

/-- The heading, and the detail where there is one. -/
def render (kind : ErrorKind) (detail : String) : String :=
  if kind.detailed then s!"{kind.heading}: {detail}" else kind.heading

end ErrorKind

/-- Faults of a block. -/
inductive BlockFault
  | empty
  | firstNotCoinbase
  | secondCoinbase
  | heightOverflow (parent : UInt32)
  | unreachable (difficulty : UInt32)
  deriving DecidableEq

def BlockFault.message : BlockFault → String
  | .empty => "Block has no transactions"
  | .firstNotCoinbase => "First transaction in a block must be a coinbase transaction."
  | .secondCoinbase => "Block contains more than one coinbase transaction."
  | .heightOverflow parent => s!"Height overflow above {parent.toNat}"
  | .unreachable difficulty =>
    s!"Difficulty {difficulty.toNat} cannot be met (max {NetworkParams.maxDifficulty.toNat})"

/-- Faults of a transaction. -/
inductive TxFault
  | noOutput (txid : Digest) (vout : UInt32)
  | noInputs (txid : Digest)
  | noOutputs (txid : Digest)
  | tooLarge (size : Nat)
  | valueTooHigh (value : UInt64)
  | totalOutOfRange
  | repeatedInput (txid : Digest) (spent : OutPoint)
  | noCoinbaseScript
  | nullOutPoint
  deriving DecidableEq

def TxFault.message : TxFault → String
  | .noOutput txid vout => s!"Transaction {txid.hex} has no output {vout.toNat}"
  | .noInputs txid => s!"Transaction {txid.hex} has no inputs"
  | .noOutputs txid => s!"Transaction {txid.hex} has no outputs"
  | .tooLarge size =>
    s!"Transaction too large: {size} bytes (max: {Wire.Item.transaction.limit})"
  | .valueTooHigh value =>
    s!"Output value {value.toNat} exceeds maximum {Money.maximum.toNat}"
  | .totalOutOfRange => "Total output value out of range"
  | .repeatedInput txid spent => s!"Transaction {txid.hex} spends {spent.text} twice"
  | .noCoinbaseScript => "Coinbase input must carry a coinbase script"
  | .nullOutPoint => "Non-coinbase transaction spends the null outpoint"

/-- Faults of a key or of the text of an address. -/
inductive CryptoFault
  | noNetwork (text : String)
  | addressHex (fault : Hex.Fault)
  | addressSize (size : Nat)
  | secretSize (size : Nat)
  | secretRange
  deriving DecidableEq

def CryptoFault.message : CryptoFault → String
  | .noNetwork text => s!"Address is missing a network: {text}"
  | .addressHex fault => s!"Invalid hex address: {fault.message}"
  | .addressSize size => s!"Address must be 20 bytes, got {size}"
  | .secretSize size => s!"Secret key must be 32 bytes, got {size}"
  | .secretRange => "Invalid secret key bytes: malformed or out-of-range secret key"

/-- Faults of a configuration. -/
inductive ConfigFault
  | unknownNetwork (name : String)
  | difficulty (value : UInt32)
  | otherNetwork (found wanted : Network)
  /-- The text of a configuration is no document, or a field is missing or of the wrong kind. -/
  | document
  deriving DecidableEq

def ConfigFault.message : ConfigFault → String
  | .unknownNetwork name => s!"Unknown network: {name}"
  | .difficulty value =>
    s!"genesis_difficulty {value.toNat} exceeds maximum {NetworkParams.maxDifficulty.toNat}"
  | .otherNetwork found wanted => s!"Block store belongs to {found.name}, not {wanted.name}"
  | .document => "malformed document"

/-- The two values kept beside the blocks of a database. -/
inductive MetaKey
  | network
  | chainHead
  deriving DecidableEq

def MetaKey.name : MetaKey → String
  | .network => "network"
  | .chainHead => "chain_head"

/-- Faults of a database, of its tables, and of what is written in them. -/
inductive DatabaseFault
  | openFile
  | createBlocks
  | createMetadata
  | readMeta (key : MetaKey)
  | saveMeta (key : MetaKey)
  | loadBlock
  | saveBlock
  | workSize (size : Nat)
  | height (value : Int)
  | headNotSet
  | corruptHead (text : String)
  | noRows
  deriving DecidableEq

def DatabaseFault.message : DatabaseFault → String
  | .openFile => "Failed to open database"
  | .createBlocks => "Failed to create blocks table"
  | .createMetadata => "Failed to create metadata table"
  | .readMeta key => s!"Failed to read {key.name}"
  | .saveMeta key => s!"Failed to save {key.name}"
  | .loadBlock => "Failed to load block"
  | .saveBlock => "Failed to save block"
  | .workSize size => s!"Chain work must be 16 bytes, got {size}"
  | .height value => s!"Invalid stored height {value}"
  | .headNotSet => "Chain head is not set"
  | .corruptHead text => s!"Corrupt chain head {text}"
  | .noRows => "Query returned no rows"

/-- An error that a caller may handle. -/
inductive ChainError
  /-- The child names `previous` as the block before it, not `parent`. -/
  | linkage (child previous parent : Digest)
  | proofOfWork
  | merkleRoot
  | block (fault : BlockFault)
  | transaction (fault : TxFault)
  /-- An output is spent by two transactions. -/
  | doubleSpend (spent : OutPoint) (first second : Digest)
  | crypto (fault : CryptoFault)
  /-- The item is larger than its limit. -/
  | encoding (item : Wire.Item)
  /-- The count of a transaction's bytes was given up. -/
  | uncounted
  | decoding (item : Wire.Item) (fault : Wire.Fault)
  | database (fault : DatabaseFault)
  /-- No block of this hash, given as it was looked up. -/
  | notFound (hash : String)
  | configuration (fault : ConfigFault)
  deriving DecidableEq

namespace ChainError

def kind : ChainError → ErrorKind
  | linkage .. => .linkage
  | proofOfWork => .proofOfWork
  | merkleRoot => .merkleRoot
  | block _ => .block
  | transaction _ => .transaction
  | doubleSpend .. => .doubleSpend
  | crypto _ => .crypto
  | encoding _ | uncounted => .encoding
  | decoding .. => .decoding
  | database _ => .database
  | notFound _ => .notFound
  | configuration _ => .configuration

def detail : ChainError → String
  | linkage child previous parent =>
    s!"Block {child.hex} builds on {previous.hex}, not on {parent.hex}"
  | proofOfWork | merkleRoot => ""
  | block fault => fault.message
  | transaction fault => fault.message
  | doubleSpend spent first second =>
    s!"Output {spent.text} is spent by both {first.hex} and {second.hex}"
  | crypto fault => fault.message
  | encoding item => s!"{item.name} encoding failed: the size limit has been reached"
  | uncounted => "Serialization failed: the size limit has been reached"
  | decoding item fault => s!"{item.name} decoding failed: {fault.message}"
  | database fault => fault.message
  | notFound hash => hash
  | configuration fault => fault.message

def message (e : ChainError) : String := e.kind.render e.detail

end ChainError

/-- The step of a fixture that must not fail. -/
inductive FixtureStep
  | roundTripTransaction
  | roundTripBlock
  | spendFeeder
  | paymentWithChange
  | splitPayment
  | paymentToKey
  | transactionPair
  | doubleSpends
  | readHead
  | extendChain
  deriving DecidableEq

def FixtureStep.name : FixtureStep → String
  | .roundTripTransaction => "round-tripping a transaction"
  | .roundTripBlock => "round-tripping a block"
  | .spendFeeder => "spending the feeder"
  | .paymentWithChange => "building a payment with change"
  | .splitPayment => "building a split payment"
  | .paymentToKey => "building a payment to a key"
  | .transactionPair => "building a transaction pair"
  | .doubleSpends => "building double spends"
  | .readHead => "reading the chain head"
  | .extendChain => "extending the chain"

/-- An error, or an end that no caller handles. -/
inductive Failure
  | error (cause : ChainError)
  | overflow (operation : Overflow)
  | fixture (step : FixtureStep) (cause : ChainError)
  /-- The source of random bytes has run out. -/
  | drained
  deriving DecidableEq

namespace Failure

def message : Failure → String
  | error cause => cause.message
  | overflow operation => operation.message
  | fixture step cause => s!"Fixture failed while {step.name}: {cause.message}"
  | drained => "the source of random bytes has run out"

/-- The failure of a fixture at a step that must not fail: an error becomes the end of the fixture.
-/
def during (step : FixtureStep) : Failure → Failure
  | error cause => fixture step cause
  | other => other

end Failure

/-- A computation that may meet an error, where more may go wrong. -/
def orFail (result : Except ChainError α) : Except Failure α := result.mapError .error

end TestChain
