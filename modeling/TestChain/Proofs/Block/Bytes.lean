import TestChain.Proofs.Block.Wire

/-! Transactions, blocks and headers in all of a byte string.

Reading a whole byte string succeeds just on the written forms of bare values whose lengths fit
(`Tx.ofBytes_eq_ok`, `Block.ofBytes_eq_ok`, `Header.ofBytes_eq_ok`), and writing succeeds just
within the limit of the item. Put together: whatever can be read is written again as the very bytes
that it was read from, so no value has two spellings. Reading sets no limit, so a value may be read
that is too large to be written (`ofBytes_length`). -/
namespace TestChain

open Wire (Reader Reads)

/-! ### Limits -/

namespace Wire.Item

theorem readAll_eq_ok {item : Item} {reader : Reader α} {good : α → Prop} {write : α → Bytes}
    (h : Reads reader good write) {bs : Bytes} {a : α} :
    item.readAll reader bs = .ok a ↔ good a ∧ bs = write a := by
  rw [← h.run_eq_ok, readAll]
  cases reader.run bs with
  | error fault =>
    constructor
    · intro h
      cases h
    · intro h
      cases h
  | ok b =>
    show Except.ok b = Except.ok a ↔ Except.ok b = Except.ok a
    simp only [Except.ok.injEq]

theorem bounded_eq_ok {item : Item} {bs bs' : Bytes} :
    item.bounded bs = .ok bs' ↔ bs.length ≤ item.limit ∧ bs = bs' := by
  unfold bounded
  split
  next h => simp only [Except.ok.injEq, h, true_and]
  next h => simp only [reduceCtorEq, h, false_and]

theorem bounded_of_limit_lt {item : Item} {bs : Bytes} (h : item.limit < bs.length) :
    item.bounded bs = .error (.encoding item) := if_neg (Nat.not_le.2 h)

theorem limit_lt (item : Item) : item.limit < UInt64.size := by cases item <;> decide

end Wire.Item

/-! ### Transactions -/

namespace Tx

theorem ofBytes_eq_ok {bs : Bytes} {tx : Tx} :
    ofBytes bs = .ok tx ↔ (tx.LengthsFit ∧ tx.IsBare) ∧ bs = tx.encode :=
  Wire.Item.readAll_eq_ok reads

/-- A written transaction reads back without what its holder knows, however large it is. -/
theorem ofBytes_encode {tx : Tx} (h : tx.LengthsFit) : ofBytes tx.encode = .ok tx.strip :=
  ofBytes_eq_ok.2 ⟨⟨lengthsFit_strip.2 h, isBare_strip tx⟩, (encode_strip tx).symm⟩

/-- No length in a transaction within the limit is too large. -/
theorem lengthsFit_of_encode {tx : Tx} (h : tx.encode.length ≤ Wire.Item.transaction.limit) :
    tx.LengthsFit := by
  rw [length_encode] at h
  exact lengthsFit_of_size (Nat.lt_of_le_of_lt h (Wire.Item.limit_lt _))

end Tx

/-! ### Blocks -/

namespace Block

theorem ofBytes_eq_ok {bs : Bytes} {b : Block} :
    ofBytes bs = .ok b ↔ (b.LengthsFit ∧ b.IsBare) ∧ bs = b.encode :=
  Wire.Item.readAll_eq_ok reads

/-- A written block reads back without what the holder of its transactions knows, however large it
is. -/
theorem ofBytes_encode {b : Block} (h : b.LengthsFit) : ofBytes b.encode = .ok b.strip :=
  ofBytes_eq_ok.2 ⟨⟨lengthsFit_strip.2 h, isBare_strip b⟩, (encode_strip b).symm⟩

/-- No length in a block within the limit is too large. -/
theorem lengthsFit_of_encode {b : Block} (h : b.encode.length ≤ Wire.Item.block.limit) :
    b.LengthsFit := by
  rw [length_encode] at h
  exact lengthsFit_of_size (Nat.lt_of_le_of_lt h (Wire.Item.limit_lt _))

end Block

/-! ### Headers -/

namespace Header

theorem ofBytes_eq_ok {bs : Bytes} {h : Header} : ofBytes bs = .ok h ↔ bs = h.encode := by
  have e : ofBytes bs = .ok h ↔ True ∧ bs = h.encode := Wire.Item.readAll_eq_ok reads
  rw [e, true_and]

/-- No header is too large to be written. -/
theorem toBytes_eq (h : Header) : h.toBytes = .ok h.encode :=
  Wire.Item.bounded_eq_ok.2 ⟨by rw [length_encode]; decide, rfl⟩

end Header

/-! ### One spelling -/

/-- The error of an item that is too large, as it is shown. -/
theorem ChainError.encoding_message (item : Wire.Item) :
    (encoding item).kind = .encoding ∧ (encoding item).message =
      "Encoding error: " ++ item.name ++ " encoding failed: the size limit has been reached" := by
  cases item <;> exact ⟨rfl, by decide⟩

/-- **Every value has one spelling.** What is read from a byte string carries nothing of what a
holder knows, its written form is that byte string and no other byte string reads as it. Within the
limit it is written as those bytes again, and over the limit it is refused. -/
theorem ofBytes_canonical :
    (∀ (bs : Bytes) (tx : Tx), Tx.ofBytes bs = .ok tx →
      tx.IsBare ∧ tx.encode = bs ∧ (∀ bs', Tx.ofBytes bs' = .ok tx → bs' = bs) ∧
        tx.toBytes = if bs.length ≤ Wire.Item.transaction.limit then .ok bs
          else .error (.encoding .transaction)) ∧
    (∀ (bs : Bytes) (b : Block), Block.ofBytes bs = .ok b →
      b.IsBare ∧ b.encode = bs ∧ (∀ bs', Block.ofBytes bs' = .ok b → bs' = bs) ∧
        b.toBytes = if bs.length ≤ Wire.Item.block.limit then .ok bs
          else .error (.encoding .block)) ∧
    ∀ item : Wire.Item, (ChainError.encoding item).kind = .encoding ∧
      (ChainError.encoding item).message =
        "Encoding error: " ++ item.name ++ " encoding failed: the size limit has been reached" := by
  refine ⟨fun bs tx h => ?_, fun bs b h => ?_, ChainError.encoding_message⟩
  · obtain ⟨⟨-, hbare⟩, rfl⟩ := Tx.ofBytes_eq_ok.1 h
    exact ⟨hbare, rfl, fun bs' h' => (Tx.ofBytes_eq_ok.1 h').2, rfl⟩
  · obtain ⟨⟨-, hbare⟩, rfl⟩ := Block.ofBytes_eq_ok.1 h
    exact ⟨hbare, rfl, fun bs' h' => (Block.ofBytes_eq_ok.1 h').2, rfl⟩

/-- A transaction of nothing but a version and a lock time, and a block of that transaction under a
header of zeros. -/
theorem ofBytes_canonical_bare :
    let tx : Tx := { Tx.empty with lockTime := 5 }
    let b : Block := ⟨⟨0, .zero, .zero, 0, 0, 0⟩, [tx]⟩
    let bytes : Bytes := [1, 0, 0, 0] ++ List.replicate 16 0 ++ [5, 0, 0, 0]
    let bytes' := List.replicate 88 0 ++ [1, 0, 0, 0, 0, 0, 0, 0] ++ bytes
    Tx.ofBytes bytes = .ok tx ∧ tx.toBytes = .ok bytes ∧
      Block.ofBytes bytes' = .ok b ∧ b.toBytes = .ok bytes' := by
  intro tx b bytes bytes'
  have htx : Tx.ofBytes bytes = .ok tx := rfl
  have hfit : b.LengthsFit := Block.lengthsFit_of_size (by decide)
  have hbytes : bytes' = b.encode := by decide
  have hb : Block.ofBytes bytes' = .ok b := by rw [hbytes, Block.ofBytes_encode hfit]; rfl
  exact ⟨htx, (ofBytes_canonical.1 bytes tx htx).2.2.2, hb, (ofBytes_canonical.2.1 _ b hb).2.2.2⟩

/-! ### Reading sets no limit

What is read can be written again only within the limit, and at every length, from that of a short
transaction up to what a length field can say, there is something to be read. -/

/-- What is read from all of a byte string can be written again when the byte string was within the
limit. -/
theorem Wire.Item.exists_bounded_iff {item : Item} {reader : Reader α} {good : α → Prop}
    {write : α → Bytes} (h : Reads reader good write) {bs : Bytes} {a : α}
    (e : item.readAll reader bs = .ok a) :
    (∃ bs', item.bounded (write a) = .ok bs') ↔ bs.length ≤ item.limit := by
  obtain ⟨-, rfl⟩ := (readAll_eq_ok h).1 e
  constructor
  · rintro ⟨_, hwritten⟩
    exact (bounded_eq_ok.1 hwritten).1
  · intro hlimit
    exact ⟨_, bounded_eq_ok.2 ⟨hlimit, rfl⟩⟩

/-- A transaction of so many bytes, 44 at least: it pays nothing to a key that fills them. -/
def Tx.ofSize (n : Nat) : Tx := empty.addOutput ⟨0, .payToKey (List.replicate (n - 44) 0)⟩

/-- A block of so many bytes, 140 at least, with one transaction under a header of zeros. -/
def Block.ofSize (n : Nat) : Block := ⟨⟨0, .zero, .zero, 0, 0, 0⟩, [.ofSize (n - 96)]⟩

theorem Tx.size_ofSize {n : Nat} (h : 44 ≤ n) : (ofSize n).size = n := by
  rw [ofSize, size_addOutput, size_empty, TxOutput.size, LockScript.size, List.length_replicate]
  omega

theorem Block.size_ofSize {n : Nat} (h : 140 ≤ n) : (ofSize n).size = n := by
  rw [ofSize, size, Wire.listSize, List.foldr_cons, List.foldr_nil, Tx.size_ofSize (by omega)]
  omega

theorem Tx.strip_ofSize (n : Nat) : (ofSize n).strip = ofSize n := rfl

theorem Block.strip_ofSize (n : Nat) : (ofSize n).strip = ofSize n := by
  rw [ofSize, strip, List.map_singleton, Tx.strip_ofSize]

theorem Tx.ofBytes_ofSize {n : Nat} (h : 44 ≤ n) (hcount : n < UInt64.size) :
    (ofSize n).encode.length = n ∧ ofBytes (ofSize n).encode = .ok (ofSize n) := by
  have hfit : (ofSize n).size < UInt64.size := by rwa [size_ofSize h]
  have hread := ofBytes_encode (lengthsFit_of_size hfit)
  rw [strip_ofSize] at hread
  exact ⟨by rw [length_encode, size_ofSize h], hread⟩

theorem Block.ofBytes_ofSize {n : Nat} (h : 140 ≤ n) (hcount : n < UInt64.size) :
    (ofSize n).encode.length = n ∧ ofBytes (ofSize n).encode = .ok (ofSize n) := by
  have hfit : (ofSize n).size < UInt64.size := by rwa [size_ofSize h]
  have hread := ofBytes_encode (lengthsFit_of_size hfit)
  rw [strip_ofSize] at hread
  exact ⟨by rw [length_encode, size_ofSize h], hread⟩

/-- **Reading sets no limit.** What is read from so many bytes has that size, and can be written
again just when that is within the limit. From 140 bytes on, a transaction and a block are read at
every length that can be counted. -/
theorem ofBytes_length (n : Nat) :
    (∀ (bs : Bytes) (tx : Tx), bs.length = n → Tx.ofBytes bs = .ok tx →
      tx.size = n ∧ ((∃ bs', tx.toBytes = .ok bs') ↔ n ≤ Wire.Item.transaction.limit)) ∧
    (∀ (bs : Bytes) (b : Block), bs.length = n → Block.ofBytes bs = .ok b →
      b.size = n ∧ ((∃ bs', b.toBytes = .ok bs') ↔ n ≤ Wire.Item.block.limit)) ∧
    (140 ≤ n → n < UInt64.size →
      (∃ bs tx, bs.length = n ∧ Tx.ofBytes bs = .ok tx) ∧
        ∃ bs b, bs.length = n ∧ Block.ofBytes bs = .ok b) := by
  refine ⟨fun bs tx hlength h => ?_, fun bs b hlength h => ?_, fun hleast hcount => ⟨?_, ?_⟩⟩
  · obtain ⟨-, hencode⟩ := Tx.ofBytes_eq_ok.1 h
    rw [← hlength]
    exact ⟨by rw [hencode, Tx.length_encode], Wire.Item.exists_bounded_iff Tx.reads h⟩
  · obtain ⟨-, hencode⟩ := Block.ofBytes_eq_ok.1 h
    rw [← hlength]
    exact ⟨by rw [hencode, Block.length_encode], Wire.Item.exists_bounded_iff Block.reads h⟩
  · exact ⟨_, _, Tx.ofBytes_ofSize (by omega) hcount⟩
  · exact ⟨_, _, Block.ofBytes_ofSize hleast hcount⟩

/-- **One byte over the limit** a transaction and a block are still read, and cannot be written
again. -/
theorem ofBytes_oversized :
    let tx := Tx.ofSize 100001
    let b := Block.ofSize 1000001
    (tx.encode.length = 100001 ∧ Tx.ofBytes tx.encode = .ok tx ∧
      tx.toBytes = .error (.encoding .transaction)) ∧
    b.encode.length = 1000001 ∧ Block.ofBytes b.encode = .ok b ∧
      b.toBytes = .error (.encoding .block) := by
  intro tx b
  have htx : tx.encode.length = 100001 ∧ Tx.ofBytes tx.encode = .ok tx :=
    Tx.ofBytes_ofSize (by omega) (by decide)
  have hb : b.encode.length = 1000001 ∧ Block.ofBytes b.encode = .ok b :=
    Block.ofBytes_ofSize (by omega) (by decide)
  refine ⟨⟨htx.1, htx.2, Wire.Item.bounded_of_limit_lt ?_⟩, hb.1, hb.2,
    Wire.Item.bounded_of_limit_lt ?_⟩
  · rw [htx.1]
    decide
  · rw [hb.1]
    decide

end TestChain
