import TestChain.Proofs.Block.Truncation

/-! The 88 bytes of a header.

What is hashed for the name of a header is its written form (`Header.encode_eq_preimage`), and the
first thing in the written form of its block. The fields fill 88 bytes with nothing between them and
each can be any bytes of its width, so every string of 88 bytes is a header, of one spelling
(`Header.exists_encode_eq`), and a string of any other length is none. -/
namespace TestChain

namespace Wire

/-- The front of a byte string that is long enough, and what is behind it. -/
theorem exists_front {n m : Nat} {bs : Bytes} (h : bs.length = n + m) :
    ∃ front rest, bs = front ++ rest ∧ front.length = n ∧ rest.length = m :=
  ⟨bs.take n, bs.drop n, (List.take_append_drop ..).symm, by simp [h], by simp [h]⟩

/-- Any bytes of the right width are a number, under whatever type it has. -/
theorem exists_integer {w : Nat} {ofNat : Nat → α} {toNat : α → Nat}
    (toNat_ofNat : ∀ n, n < LittleEndian.capacity w → toNat (ofNat n) = n) {bs : Bytes}
    (h : bs.length = w) : ∃ a, LittleEndian.encode w (toNat a) = bs := by
  have hlt := LittleEndian.decode_lt bs
  rw [h] at hlt
  exact ⟨ofNat (LittleEndian.decode bs), by rw [toNat_ofNat _ hlt, ← h, LittleEndian.encode_decode]⟩

theorem exists_u32 {bs : Bytes} (h : bs.length = 4) : ∃ x, u32 x = bs :=
  exists_integer (w := 4) (fun _ h => UInt32.toNat_ofNat_of_lt' h) h

theorem exists_u64 {bs : Bytes} (h : bs.length = 8) : ∃ x, u64 x = bs :=
  exists_integer (w := 8) (fun _ h => UInt64.toNat_ofNat_of_lt' h) h

end Wire

namespace Header

/-- What is hashed is what is written. -/
theorem encode_eq_preimage (h : Header) : h.encode = h.preimage := by
  simp only [encode, preimage, List.append_assoc]

theorem preimage_inj {h k : Header} (e : h.preimage = k.preimage) : h = k := by
  have hread : ofBytes h.encode = .ok h := ofBytes_eq_ok.2 rfl
  rw [encode_eq_preimage, e, ← encode_eq_preimage, ofBytes_eq_ok.2 rfl] at hread
  cases hread
  rfl

/-- Any 88 bytes are a header. -/
theorem exists_encode_eq {bs : Bytes} (h : bs.length = 88) : ∃ header : Header, header.encode = bs := by
  -- The fields one after the other, each any bytes of its width.
  obtain ⟨bs₁, bs, rfl, h₁, h⟩ := Wire.exists_front (n := 4) (m := 84) h
  obtain ⟨bs₂, bs, rfl, h₂, h⟩ := Wire.exists_front (n := 32) (m := 52) h
  obtain ⟨bs₃, bs, rfl, h₃, h⟩ := Wire.exists_front (n := 32) (m := 20) h
  obtain ⟨bs₄, bs, rfl, h₄, h⟩ := Wire.exists_front (n := 8) (m := 12) h
  obtain ⟨bs₅, bs₆, rfl, h₅, h₆⟩ := Wire.exists_front (n := 4) (m := 8) h
  obtain ⟨version, rfl⟩ := Wire.exists_u32 h₁
  obtain ⟨timestamp, rfl⟩ := Wire.exists_u64 h₄
  obtain ⟨difficulty, rfl⟩ := Wire.exists_u32 h₅
  obtain ⟨nonce, rfl⟩ := Wire.exists_u64 h₆
  exact ⟨⟨version, ⟨bs₂, h₂⟩, ⟨bs₃, h₃⟩, timestamp, difficulty, nonce⟩, rfl⟩

theorem ofBytes_of_length_lt {bs : Bytes} (h : bs.length < 88) :
    ∃ fault : Wire.Fault, fault.IsCut ∧ ofBytes bs = .error (.decoding .header fault) := by
  -- Filled up to the right length it is a header, cut where the filling starts.
  let filling : Bytes := List.replicate (88 - bs.length) 0
  have hlen : (bs ++ filling).length = 88 := by simp [filling]; omega
  have hfilling : filling ≠ [] := List.ne_nil_of_length_pos (by simp [filling]; omega)
  obtain ⟨header, hheader⟩ := exists_encode_eq hlen
  exact whole.cut header trivial bs filling hheader hfilling

theorem ofBytes_of_lt_length {bs : Bytes} (h : 88 < bs.length) :
    ofBytes bs = .error (.decoding .header .leftOver) := by
  have hlen : bs.length = 88 + (bs.length - 88) := by omega
  obtain ⟨front, rest, rfl, hfront, hrest⟩ := Wire.exists_front hlen
  obtain ⟨header, rfl⟩ := exists_encode_eq hfront
  exact whole.extended header trivial rest (List.ne_nil_of_length_pos (by omega))

/-- A byte string of any other length is no header. -/
theorem exists_ofBytes_eq_error {bs : Bytes} (h : bs.length ≠ 88) :
    ∃ fault, ofBytes bs = .error (.decoding .header fault) := by
  rcases Nat.lt_or_gt_of_ne h with h | h
  · obtain ⟨fault, -, hfault⟩ := ofBytes_of_length_lt h
    exact ⟨fault, hfault⟩
  · exact ⟨.leftOver, ofBytes_of_lt_length h⟩

end Header

/-- The header comes first in what is written of a block. -/
theorem Block.take_toBytes {b : Block} {bs : Bytes} (h : b.toBytes = .ok bs) :
    bs.take 88 = b.header.preimage := by
  obtain ⟨-, rfl⟩ := Wire.Item.bounded_eq_ok.1 h
  rw [encode, List.take_left' b.header.length_encode, Header.encode_eq_preimage]

/-- **The bytes of a header are what its name is the digest of.** A header is always written, in 88
bytes, which are hashed for its name and read back as the header. Any 88 bytes are read, and written
again as they were; fewer end too soon, and more are left over. What is written of a block starts
with what is hashed for its name, and no two headers have that in common. -/
theorem Header.bytes_agree :
    (∀ h : Header, ∃ bs, h.toBytes = .ok bs ∧ bs.length = 88 ∧ h.hash = sha256d bs ∧
      Header.ofBytes bs = .ok h) ∧
    (∀ bs : Bytes, bs.length = 88 → ∃ h, Header.ofBytes bs = .ok h ∧ h.toBytes = .ok bs) ∧
    (∀ bs : Bytes, bs.length < 88 →
      ∃ fault : Wire.Fault, fault.IsCut ∧ Header.ofBytes bs = .error (.decoding .header fault)) ∧
    (∀ bs : Bytes, 88 < bs.length → Header.ofBytes bs = .error (.decoding .header .leftOver)) ∧
    (∀ (b : Block) (bs : Bytes), b.toBytes = .ok bs →
      bs.take 88 = b.header.preimage ∧ b.hash = sha256d (bs.take 88)) ∧
    ∀ b c : Block, b.header.preimage = c.header.preimage → b.header = c.header := by
  refine ⟨fun h => ?_, fun bs hlen => ?_, fun _ => ofBytes_of_length_lt,
    fun _ => ofBytes_of_lt_length, fun b bs h => ?_, fun _ _ => preimage_inj⟩
  · refine ⟨h.encode, h.toBytes_eq, h.length_encode, ?_, ofBytes_eq_ok.2 rfl⟩
    rw [encode_eq_preimage, hash]
  · obtain ⟨h, rfl⟩ := exists_encode_eq hlen
    exact ⟨h, ofBytes_eq_ok.2 rfl, h.toBytes_eq⟩
  · have htake := Block.take_toBytes h
    exact ⟨htake, by rw [htake, Block.hash, hash]⟩

/-- Zeros in all lengths around that of a header, and an empty block under the header of zeros. -/
theorem Header.bytes_agree_zeros :
    let b : Block := ⟨⟨0, .zero, .zero, 0, 0, 0⟩, []⟩
    (∃ fault : Wire.Fault, fault.IsCut ∧
      Header.ofBytes (List.replicate 87 0) = .error (.decoding .header fault)) ∧
    (∃ h, Header.ofBytes (List.replicate 88 0) = .ok h ∧ h.toBytes = .ok (List.replicate 88 0)) ∧
    Header.ofBytes (List.replicate 89 0) = .error (.decoding .header .leftOver) ∧
    b.toBytes = .ok (List.replicate 96 0) ∧ b.hash = sha256d (List.replicate 88 0) := by
  intro b
  obtain ⟨-, hexact, hshort, hlong, hblock, -⟩ := Header.bytes_agree
  have hb : b.toBytes = .ok (List.replicate 96 0) :=
    Wire.Item.bounded_eq_ok.2 ⟨by decide, by decide⟩
  exact ⟨hshort _ (by decide), hexact _ (by decide), hlong _ (by decide), hb, (hblock b _ hb).2⟩

end TestChain
