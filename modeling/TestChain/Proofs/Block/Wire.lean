import TestChain.Block.Basic
import TestChain.Proofs.Tx.Size

/-! The block format, read exactly.

`Header.reads` and `Block.reads` say what the readers of headers and of blocks take: every header,
in its 88 bytes, and the blocks of bare transactions whose lengths fit. -/
namespace TestChain

open Wire (Reader Reads FitsCount)

namespace Header

theorem reads : Reads Header.read (fun _ => True) encode := by
  intro bs h rest
  simp only [Header.read, Wire.u32_reads.bind_eq_ok, (Wire.fixed_reads 32).bind_eq_ok,
    Wire.u64_reads.bind_eq_ok, Reader.pure_eq_ok]
  constructor
  · intro e
    obtain ⟨version, _, ⟨-, rfl⟩, previous, _, ⟨-, rfl⟩, merkleRoot, _, ⟨-, rfl⟩, timestamp, _,
      ⟨-, rfl⟩, difficulty, _, ⟨-, rfl⟩, nonce, _, ⟨-, rfl⟩, rfl, rfl⟩ := e
    exact ⟨trivial, by simp only [encode, List.append_assoc]⟩
  · intro e
    obtain ⟨-, rfl⟩ := e
    refine ⟨h.version, _, ⟨trivial, ?_⟩, h.previous, _, ⟨trivial, rfl⟩, h.merkleRoot, _,
      ⟨trivial, rfl⟩, h.timestamp, _, ⟨trivial, rfl⟩, h.difficulty, _, ⟨trivial, rfl⟩, h.nonce,
      rest, ⟨trivial, rfl⟩, rfl, rfl⟩
    simp only [encode, List.append_assoc]

theorem length_encode (h : Header) : h.encode.length = 88 := by
  simp only [encode, List.length_append, Wire.length_u32, Wire.length_u64,
    h.previous.length_toList, h.merkleRoot.length_toList]

end Header

namespace Block

/-- The bytes that the block takes on the wire. -/
def size (b : Block) : Nat := 88 + Wire.listSize Tx.size b.transactions

theorem length_encode (b : Block) : b.encode.length = b.size := by
  rw [encode, List.length_append, b.header.length_encode, Wire.length_list Tx.length_encode, size]

/-- Every list and every byte string of the block is short enough to be counted. -/
structure LengthsFit (b : Block) : Prop where
  transactions : FitsCount b.transactions
  each : ∀ tx ∈ b.transactions, tx.LengthsFit

/-- The block carries nothing of what the holder of its transactions knows. -/
def IsBare (b : Block) : Prop := ∀ tx ∈ b.transactions, tx.IsBare

theorem isBare_strip (b : Block) : b.strip.IsBare := by
  intro tx h
  obtain ⟨held, -, rfl⟩ := List.mem_map.1 h
  exact held.isBare_strip

theorem strip_of_isBare {b : Block} (h : b.IsBare) : b.strip = b := by
  have hmap : b.transactions.map Tx.strip = b.transactions := by
    rw [List.map_congr_left (g := id), List.map_id]
    intro tx htx
    exact Tx.strip_of_isBare (h tx htx)
  rw [strip, hmap]

theorem lengthsFit_strip {b : Block} : b.strip.LengthsFit ↔ b.LengthsFit := by
  constructor
  · intro h
    refine ⟨by simpa [FitsCount, strip] using h.transactions, fun tx htx => ?_⟩
    exact Tx.lengthsFit_strip.1 (h.each tx.strip (List.mem_map_of_mem htx))
  · intro h
    refine ⟨by simpa [FitsCount, strip] using h.transactions, fun tx htx => ?_⟩
    obtain ⟨held, hheld, rfl⟩ := List.mem_map.1 htx
    exact Tx.lengthsFit_strip.2 (h.each held hheld)

/-- No length in a block is too large when its size is not. -/
theorem lengthsFit_of_size {b : Block} (h : b.size < UInt64.size) : b.LengthsFit := by
  have hlen := Wire.length_lt_listSize Tx.size_pos b.transactions
  rw [size] at h
  refine ⟨Nat.lt_trans hlen (by omega), fun tx htx => ?_⟩
  have htx : tx.size < Wire.listSize Tx.size b.transactions := Wire.size_lt_listSize htx
  exact Tx.lengthsFit_of_size (by omega)

/-- What the holder knows is not written. -/
@[simp] theorem encode_strip (b : Block) : b.strip.encode = b.encode := by
  have h : b.strip.transactions.flatMap Tx.encode = b.transactions.flatMap Tx.encode := by
    rw [strip, List.flatMap_map]
    simp only [Tx.encode_strip]
  simp only [encode, Wire.list, h]
  simp only [strip, List.length_map]

/-- **The reader of blocks takes the written forms of bare blocks whose lengths fit**, and nothing
else. -/
theorem reads : Reads Block.read (fun b => b.LengthsFit ∧ b.IsBare) encode := by
  intro bs b rest
  simp only [Block.read, Header.reads.bind_eq_ok, (Wire.list_reads Tx.reads).bind_eq_ok,
    Reader.pure_eq_ok]
  constructor
  · intro e
    obtain ⟨header, _, ⟨-, rfl⟩, transactions, _, ⟨⟨hcount, htxs⟩, rfl⟩, rfl, rfl⟩ := e
    refine ⟨⟨⟨hcount, fun tx h => (htxs tx h).1⟩, fun tx h => (htxs tx h).2⟩, ?_⟩
    rw [encode, List.append_assoc]
  · intro e
    obtain ⟨⟨hfit, hbare⟩, rfl⟩ := e
    exact ⟨b.header, _, ⟨trivial, List.append_assoc ..⟩, b.transactions, rest,
      ⟨⟨hfit.transactions, fun tx h => ⟨hfit.each tx h, hbare tx h⟩⟩, rfl⟩, rfl, rfl⟩

end Block

end TestChain
