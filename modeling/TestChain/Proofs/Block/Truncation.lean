import TestChain.Proofs.Block.Bytes
import TestChain.Proofs.Wire.Incremental

/-! Bytes that are cut short or go on.

The readers of transactions, blocks and headers are put together of readers that do not look ahead,
so they do not either. Hence a written form is read whole or not at all (`Wire.Whole`): of a part of
it there is nothing to be said but that the input ended too soon, and what is behind it is refused.
No written form is the beginning of another of its kind. -/
namespace TestChain

open Wire (Reader Reads Incremental Fault incremental_pure incremental_choose incremental_fixed
  incremental_u32 incremental_u64 incremental_string)

/-! ### The readers of the format -/

theorem Network.incremental : Incremental Network.read := by
  refine incremental_choose fun reader h => ?_
  obtain ⟨n, -, rfl⟩ := List.mem_map.1 h
  exact incremental_pure n

theorem SigHash.incremental : Incremental SigHash.read :=
  incremental_choose (by simp [incremental_pure])

theorem Address.incremental : Incremental Address.read :=
  Network.incremental.bind fun _ => (incremental_fixed 20).bind fun _ => incremental_pure _

theorem OutPoint.incremental : Incremental OutPoint.read :=
  (incremental_fixed 32).bind fun _ => incremental_u32.bind fun _ => incremental_pure _

theorem Signature.incremental : Incremental Signature.read :=
  incremental_string.bind fun _ => SigHash.incremental.bind fun _ => incremental_pure _

theorem LockScript.incremental : Incremental LockScript.read :=
  incremental_choose (by simp [Address.incremental.map, incremental_string.map])

theorem UnlockScript.incremental_readCoinbase : Incremental UnlockScript.readCoinbase :=
  incremental_u32.option.bind fun _ => incremental_string.bind fun _ => incremental_pure _

theorem UnlockScript.incremental : Incremental UnlockScript.read :=
  incremental_choose
    (by simp [incremental_pure, Signature.incremental.map, incremental_readCoinbase])

theorem TxInput.incremental : Incremental TxInput.read :=
  OutPoint.incremental.bind fun _ => UnlockScript.incremental.bind fun _ =>
    incremental_u32.bind fun _ => incremental_pure _

theorem TxOutput.incremental : Incremental TxOutput.read :=
  incremental_u64.bind fun _ => LockScript.incremental.bind fun _ => incremental_pure _

theorem Tx.incremental : Incremental Tx.read :=
  incremental_u32.bind fun _ => TxInput.incremental.list.bind fun _ =>
    TxOutput.incremental.list.bind fun _ => incremental_u32.bind fun _ => incremental_pure _

theorem Header.incremental : Incremental Header.read :=
  incremental_u32.bind fun _ => (incremental_fixed 32).bind fun _ =>
    (incremental_fixed 32).bind fun _ => incremental_u64.bind fun _ =>
      incremental_u32.bind fun _ => incremental_u64.bind fun _ => incremental_pure _

theorem Block.incremental : Incremental Block.read :=
  Header.incremental.bind fun _ => Tx.incremental.list.bind fun _ => incremental_pure _

/-! ### Whole or not at all -/

theorem ChainError.decoding_message (item : Wire.Item) (fault : Fault) :
    (decoding item fault).kind = .decoding ∧ (decoding item fault).message =
      "Decoding error: " ++ item.name ++ " decoding failed: " ++ fault.message := by
  refine ⟨rfl, ?_⟩
  have hdetail : (decoding item fault).detail = item.name ++ " decoding failed: " ++ fault.message := by
    simp only [detail]
    rfl
  have hmessage : (decoding item fault).message =
      "Decoding error" ++ ": " ++ (decoding item fault).detail := by
    simp only [message, kind, ErrorKind.render, ErrorKind.detailed, ErrorKind.heading, if_true]
    rfl
  have hheading : "Decoding error" ++ ": " = "Decoding error: " := by decide
  rw [hmessage, hdetail, hheading, String.append_assoc, String.append_assoc, String.append_assoc]

namespace Wire

/-- Written forms that are read whole or not at all, for the values that fit them. -/
structure Whole (item : Item) (ofBytes : Bytes → Except ChainError α) (write : α → Bytes)
    (fits : α → Prop) : Prop where
  /-- Of anything less than all of it, the input ended too soon. -/
  cut : ∀ a, fits a → ∀ front back, write a = front ++ back → back ≠ [] →
    ∃ fault : Fault, fault.IsCut ∧ ofBytes front = .error (.decoding item fault)
  /-- Anything behind it is left over. -/
  extended : ∀ a, fits a → ∀ more, more ≠ [] →
    ofBytes (write a ++ more) = .error (.decoding item .leftOver)
  /-- None is the beginning of another. -/
  prefix_free : ∀ a b, fits a → fits b → write a <+: write b → write a = write b

namespace Item
variable {item : Item} {reader : Reader α} {good : α → Prop} {write : α → Bytes}

theorem readAll_eq_error {bs : Bytes} {fault : Fault} (h : reader.run bs = .error fault) :
    item.readAll reader bs = .error (.decoding item fault) := by
  rw [readAll, h]
  rfl

/-- Values that read back as they are written, but for what is stripped from them. -/
theorem whole (hreads : Reads reader good write) (hincremental : Incremental reader)
    {fits : α → Prop} {strip : α → α} (hstrip : ∀ a, write (strip a) = write a)
    (hgood : ∀ a, fits a → good (strip a)) : Whole item (item.readAll reader) write fits := by
  have hread : ∀ a, fits a → reader (write a) = .ok (strip a, []) := fun a ha =>
    (hreads _ _ _).2 ⟨hgood a ha, by rw [hstrip, List.append_nil]⟩
  have hextended : ∀ a, fits a → ∀ more, more ≠ [] →
      item.readAll reader (write a ++ more) = .error (.decoding item .leftOver) := by
    intro a ha more hmore
    rw [← hstrip a]
    exact readAll_eq_error (hreads.run_append (hgood a ha) hmore)
  refine ⟨fun a ha front back hsplit hback => ?_, hextended, fun a b ha hb hbegins => ?_⟩
  · obtain ⟨fault, hcut, hfault⟩ := hincremental.run_cut hback (hsplit ▸ hread a ha)
    exact ⟨fault, hcut, readAll_eq_error hfault⟩
  · obtain ⟨more, hmore⟩ := hbegins
    cases more with
    | nil => rw [← hmore, List.append_nil]
    | cons byte more =>
      have hall : item.readAll reader (write b) = .ok (strip b) :=
        (readAll_eq_ok hreads).2 ⟨hgood b hb, (hstrip b).symm⟩
      rw [← hmore, hextended a ha _ (List.cons_ne_nil _ _)] at hall
      cases hall

end Item

end Wire

theorem Tx.whole : Wire.Whole .transaction Tx.ofBytes Tx.encode Tx.LengthsFit :=
  Wire.Item.whole Tx.reads Tx.incremental Tx.encode_strip fun tx h =>
    ⟨Tx.lengthsFit_strip.2 h, tx.isBare_strip⟩

theorem Block.whole : Wire.Whole .block Block.ofBytes Block.encode Block.LengthsFit :=
  Wire.Item.whole Block.reads Block.incremental Block.encode_strip fun b h =>
    ⟨Block.lengthsFit_strip.2 h, b.isBare_strip⟩

theorem Header.whole : Wire.Whole .header Header.ofBytes Header.encode fun _ => True :=
  Wire.Item.whole Header.reads Header.incremental (fun h => (rfl : (id h).encode = h.encode))
    fun _ _ => trivial

/-- **Bytes that are cut short or go on are refused.** A transaction, a block and a header are read
from their written form whole or not at all: from any part of it, also from nothing, with the error
of an input that ended too soon, and with anything behind it as bytes that are left over. None is
the beginning of another. Lists and byte strings are those that a count can hold. -/
theorem ofBytes_whole :
    Wire.Whole .transaction Tx.ofBytes Tx.encode Tx.LengthsFit ∧
    Wire.Whole .block Block.ofBytes Block.encode Block.LengthsFit ∧
    (Wire.Whole .header Header.ofBytes Header.encode fun _ => True) ∧
    (∀ (item : Wire.Item) (fault : Fault), fault.IsCut →
      (ChainError.decoding item fault).kind = .decoding ∧
        ∃ text, (ChainError.decoding item fault).message =
          "Decoding error: " ++ item.name ++ " decoding failed: " ++ ("io error: " ++ text)) ∧
    ∀ item : Wire.Item, (ChainError.decoding item .leftOver).kind = .decoding ∧
      (ChainError.decoding item .leftOver).message = "Decoding error: " ++ item.name ++
        " decoding failed: " ++ "Slice had bytes remaining after deserialization" := by
  refine ⟨Tx.whole, Block.whole, Header.whole, fun item fault hcut => ?_, fun item => ?_⟩
  · obtain ⟨hkind, hmessage⟩ := ChainError.decoding_message item fault
    obtain ⟨text, htext⟩ := Fault.message_of_isCut hcut
    exact ⟨hkind, text, by rw [hmessage, htext]⟩
  · exact ChainError.decoding_message item .leftOver

/-- A coinbase cut inside its script, a block of it cut inside the number of its transactions, a
header of which nothing is left, and the first two with one byte more. -/
theorem ofBytes_whole_coinbase :
    let tx : Tx := .coinbase (some 1) [7]
    let b : Block := ⟨⟨0, .zero, .zero, 0, 0, 0⟩, [tx]⟩
    (∃ fault : Fault, fault.IsCut ∧
      Tx.ofBytes (tx.encode.take 53) = .error (.decoding .transaction fault)) ∧
    Tx.ofBytes (tx.encode ++ [0]) = .error (.decoding .transaction .leftOver) ∧
    (∃ fault : Fault, fault.IsCut ∧
      Block.ofBytes (b.encode.take 90) = .error (.decoding .block fault)) ∧
    Block.ofBytes (b.encode ++ [0]) = .error (.decoding .block .leftOver) ∧
    ∃ fault : Fault, fault.IsCut ∧ (∃ text, (ChainError.decoding .header fault).message =
      "Decoding error: " ++ "Header" ++ " decoding failed: " ++ ("io error: " ++ text)) ∧
      Header.ofBytes [] = .error (.decoding .header fault) := by
  intro tx b
  have htx : tx.LengthsFit := Tx.lengthsFit_of_size (by decide)
  have hb : b.LengthsFit := Block.lengthsFit_of_size (by decide)
  obtain ⟨hwholeTx, hwholeBlock, hwholeHeader, htexts, -⟩ := ofBytes_whole
  obtain ⟨fault, hcut, hheader⟩ := hwholeHeader.cut b.header trivial [] _ rfl (by decide)
  refine ⟨hwholeTx.cut tx htx _ (tx.encode.drop 53) (List.take_append_drop ..).symm (by decide),
    hwholeTx.extended tx htx [0] (by decide), ?_, hwholeBlock.extended b hb [0] (by decide),
    fault, hcut, (htexts .header fault hcut).2, hheader⟩
  exact hwholeBlock.cut b hb _ (b.encode.drop 90) (List.take_append_drop ..).symm (by decide)

end TestChain
