/-! The networks, and the parameters shared by every block of a chain.

An address, a key and a chain belong to one of four networks. A chain is fixed by its
`NetworkParams`: the network, the difficulty of its first block and that block's time. A difficulty
counts leading zero bits of a 256-bit hash, so more than `NetworkParams.maxDifficulty` of them leave
nothing to find. -/
namespace TestChain

inductive Network
  | mainnet
  | testnet
  | regtest
  | unittest
  deriving DecidableEq, Inhabited

namespace Network

def all : List Network := [mainnet, testnet, regtest, unittest]

/-- The byte mixed into addresses, so that a key has a different address on every network. -/
def addressByte : Network → UInt8
  | mainnet => 0x00
  | testnet => 0x6f
  | regtest => 0x7a
  | unittest => 0x7b

def name : Network → String
  | mainnet => "mainnet"
  | testnet => "testnet"
  | regtest => "regtest"
  | unittest => "unittest"

/-- The network of a name, letter for letter. -/
def ofName? (text : String) : Option Network := all.find? (·.name = text)

theorem mem_all (n : Network) : n ∈ all := by cases n <;> decide

/-- The index under which a network is written on the wire. -/
def index : Network → UInt32
  | mainnet => 0
  | testnet => 1
  | regtest => 2
  | unittest => 3

end Network

/-- What fixes a chain: its network, and the difficulty and the time (in seconds since 1970) of its
first block. -/
structure NetworkParams where
  network : Network
  genesisDifficulty : UInt32
  genesisTimestamp : UInt64
  deriving DecidableEq

namespace NetworkParams

/-- The highest difficulty that some hash meets. -/
def maxDifficulty : UInt32 := 255

/-- The difficulty of a first block unless one is given. -/
def defaultDifficulty : UInt32 := 8

/-- The start of 2023, in UTC. -/
def defaultTimestamp : UInt64 := 1672531200

def mainnet : NetworkParams := ⟨.mainnet, 20, defaultTimestamp⟩
def testnet : NetworkParams := ⟨.testnet, 16, defaultTimestamp⟩
def regtest : NetworkParams := ⟨.regtest, defaultDifficulty, defaultTimestamp⟩
def unitTests : NetworkParams := ⟨.unittest, 4, defaultTimestamp⟩

/-- The preset of a network. -/
def preset : Network → NetworkParams
  | .mainnet => mainnet
  | .testnet => testnet
  | .regtest => regtest
  | .unittest => unitTests

instance : Inhabited NetworkParams := ⟨unitTests⟩

/-- Some hash meets the difficulty. -/
def Reachable (p : NetworkParams) : Prop := p.genesisDifficulty ≤ maxDifficulty

instance (p : NetworkParams) : Decidable p.Reachable := inferInstanceAs (Decidable (_ ≤ _))

end NetworkParams

end TestChain
