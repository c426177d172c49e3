import TestChain.Block.Basic

/-! The search for a nonce, and the first block of a chain.

`Header.search` tries the nonces from the current one on. After the last nonce the time moves on by
a second and the nonces start again at zero, and after the last second there is nothing left to try.
The pairs of time and nonce are thus gone through in lexicographic order, and `Header.remaining`
counts those that are left.

The block that a chain starts from is fixed by the chain's parameters (`Block.genesis`). -/
namespace TestChain

namespace Header

/-- The next pair of time and nonce, if there is one. -/
def advance? (h : Header) : Option Header :=
  if h.nonce.toNat + 1 < UInt64.size then some { h with nonce := h.nonce + 1 }
  else if h.timestamp.toNat + 1 < UInt64.size then
    some { h with timestamp := h.timestamp + 1, nonce := 0 }
  else none

/-- How many pairs of time and nonce come after this one. -/
def remaining (h : Header) : Nat :=
  (UInt64.size - 1 - h.timestamp.toNat) * UInt64.size + (UInt64.size - 1 - h.nonce.toNat)

theorem remaining_advance? {h next : Header} (e : h.advance? = some next) :
    next.remaining < h.remaining := by
  have hn := h.nonce.toNat_lt
  have ht := h.timestamp.toNat_lt
  simp only [advance?, UInt64.size] at e
  split at e
  · cases e
    have : (h.nonce + 1).toNat = h.nonce.toNat + 1 := by
      rw [UInt64.toNat_add]; simp; omega
    simp only [remaining, this, UInt64.size]
    omega
  · split at e
    · cases e
      have : (h.timestamp + 1).toNat = h.timestamp.toNat + 1 := by
        rw [UInt64.toNat_add]; simp; omega
      simp only [remaining, this, UInt64.toNat_zero, UInt64.size]
      omega
    · cases e

/-- How a search ends. -/
inductive Search
  /-- At the first pair whose hash meets the target. -/
  | solved (h : Header)
  /-- At the last pair, which like all before it fails. -/
  | exhausted (h : Header)

/-- The search for a hash that meets the target, from the current pair on. -/
def search (goal : Digest) (h : Header) : Search :=
  if h.hash.le goal then .solved h
  else
    match _ : h.advance? with
    | none => .exhausted h
    | some next => search goal next
  termination_by h.remaining
  decreasing_by exact remaining_advance? (by assumption)

end Header

namespace Block

/-- How solving a block ends. -/
inductive Solution
  | solved (b : Block)
  /-- No hash meets the difficulty, and none is tried. -/
  | unreachable
  /-- Every pair of time and nonce was tried; the block is left at the last. -/
  | exhausted (b : Block)

/-- The block with the first pair of time and nonce that meets its target. -/
def search (b : Block) : Solution :=
  if NetworkParams.maxDifficulty < b.header.difficulty then .unreachable
  else
    match b.header.search b.header.target with
    | .solved h => .solved { b with header := h }
    | .exhausted h => .exhausted { b with header := h }

/-- The solved block. Trying every pair without success ends where the time overflows. -/
def solve (b : Block) : Except Failure Block :=
  match b.search with
  | .solved solved => .ok solved
  | .unreachable => .error (.error (.block (.unreachable b.header.difficulty)))
  | .exhausted _ => .error (.overflow .add)

end Block

/-! ### First blocks -/

/-- Some hash meets the difficulty of the first block. -/
def NetworkParams.validate (p : NetworkParams) : Except ChainError Unit :=
  if p.Reachable then .ok () else .error (.configuration (.difficulty p.genesisDifficulty))

namespace Block

/-- The version of a first block. -/
def versionGenesis : UInt32 := 1
/-- The versions that later rules brought in. -/
def versionBip34 : UInt32 := 2
def versionBip66 : UInt32 := 3
def versionBip65 : UInt32 := 4

/-- The word "genesis", in ASCII. -/
def genesisText : Bytes := [0x67, 0x65, 0x6e, 0x65, 0x73, 0x69, 0x73]

/-- The coinbase of a first block, which pays the reward to the address of no key. -/
def genesisCoinbase (network : Network) : Tx :=
  (Tx.coinbase (some 0) genesisText).addOutput
    (.toAddress Money.fiftyCoins ⟨network, FixedBytes.zero 20⟩)

/-- The first block before its nonce is found. -/
def genesisTemplate (p : NetworkParams) : Block :=
  .new versionGenesis Digest.zero p.genesisDifficulty p.genesisTimestamp [genesisCoinbase p.network]

/-- The first block of a chain. -/
def genesis (p : NetworkParams) : Except Failure Block := do
  orFail p.validate
  (genesisTemplate p).solve

end Block

end TestChain
