import TestChain.Error
import TestChain.Key.Curve

/-! Keys and addresses.

A key is a secret number and the curve point it stands for. A secret is a number from one to the
order of the curve's group less one, which is what makes it stand for a point that has a compressed
form. `Key.ofBytes` is the only way to one.

An address is the truncated hash of a public key, bound to a network. It is written as its network's
name, a colon, and forty hexadecimal digits. `Address.parse` reads either case of digits and reports
the first thing wrong, from left to right: no colon, an unknown network, then the digits. -/
namespace TestChain

/-! ### Keys -/

/-- A key, given by its secret. -/
structure Key where
  secret : Nat
  secret_pos : 0 < secret
  secret_lt : secret < Curve.groupOrder

namespace Key

/-- The bytes of a secret, most significant first. -/
def secretBytes (k : Key) : FixedBytes 32 := ⟨BigEndian.encode 32 k.secret, by simp⟩

/-- The key of 32 secret bytes. -/
def ofBytes (bs : Bytes) : Except ChainError Key :=
  if bs.length = 32 then
    let n := BigEndian.decode bs
    if h : 0 < n ∧ n < Curve.groupOrder then .ok ⟨n, h.1, h.2⟩
    else .error (.crypto .secretRange)
  else .error (.crypto (.secretSize bs.length))

/-- The point that the key stands for, compressed. -/
def publicKey (k : Key) : FixedBytes 33 := (Curve.scale k.secret Curve.generator).compress

end Key

/-! ### Addresses -/

structure Address where
  network : Network
  hash : FixedBytes 20
  deriving DecidableEq

namespace Address

/-- The address of a public key on a network: the first twenty bytes of the digest of the network's
byte and the key. -/
def ofPublicKey (publicKey : FixedBytes 33) (network : Network) : Address :=
  ⟨network, (sha256d (network.addressByte :: publicKey.toList)).truncate 20 (by decide)⟩

/-- The network's name, a colon, and the hash in lower-case digits. -/
def text (a : Address) : String := s!"{a.network.name}:{Hex.encode a.hash.toList}"

/-- The hash that a text of digits spells. -/
def parseHash (digits : List Char) : Except ChainError (FixedBytes 20) :=
  match Hex.decode digits with
  | .error fault => .error (.crypto (.addressHex fault))
  | .ok bs =>
    match FixedBytes.ofList? 20 bs with
    | some hash => .ok hash
    | none => .error (.crypto (.addressSize bs.length))

end Address

/-- The network of a name, or the error that names it. -/
def Network.parse (name : String) : Except ChainError Network :=
  match Network.ofName? name with
  | some network => .ok network
  | none => .error (.configuration (.unknownNetwork name))

/-- The address that a text spells. The first colon ends the network's name. -/
def Address.parse (text : String) : Except ChainError Address :=
  match text.toList.dropWhile (· != ':') with
  | [] => .error (.crypto (.noNetwork text))
  | _ :: digits => do
    let network ← Network.parse (String.ofList (text.toList.takeWhile (· != ':')))
    let hash ← parseHash digits
    return ⟨network, hash⟩

/-- The address of a key on a network. -/
def Key.address (k : Key) (network : Network) : Address := Address.ofPublicKey k.publicKey network

end TestChain
