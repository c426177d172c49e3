import TestChain.Key.Address
import TestChain.Proofs.Bytes.Digits
import TestChain.Proofs.Outcome

/-! Which texts are addresses.

A text is an address when it is a network's name, a colon and forty digits of either case
(`Address.Spells`); printed again, it has its digits in lower case. Any other text is refused for
what is first wrong with it (`Address.Refusal`): the colon, the name before the first colon, and
then the digits, as they are stored. -/
namespace TestChain

namespace Network
variable {name : String} {n : Network}

theorem ofName?_name (n : Network) : ofName? n.name = some n := by
  cases n <;> rfl

theorem ofName?_eq_some_iff : ofName? name = some n ↔ name = n.name := by
  constructor
  · intro h
    have hfound := List.find?_some h
    exact (of_decide_eq_true hfound).symm
  · rintro rfl
    exact ofName?_name n

theorem parse_eq_ok_iff : parse name = .ok n ↔ name = n.name := by
  rw [← ofName?_eq_some_iff, parse]
  cases ofName? name with
  | none => exact ⟨nofun, nofun⟩
  | some m => simp

theorem parse_name (n : Network) : parse n.name = .ok n := parse_eq_ok_iff.2 rfl

theorem parse_eq_error_iff {e : ChainError} : parse name = .error e ↔
    (∀ n : Network, n.name ≠ name) ∧ e = .configuration (.unknownNetwork name) := by
  rw [parse]
  cases hname : ofName? name with
  | none =>
    have hunknown (n : Network) : n.name ≠ name := fun h => by
      rw [← h, ofName?_name] at hname
      cases hname
    simp [hunknown, eq_comm]
  | some n =>
    refine ⟨nofun, fun h => ?_⟩
    exact absurd (ofName?_eq_some_iff.1 hname).symm (h.1 n)

theorem colon_notMem_name (n : Network) : ':' ∉ n.name.toList := by
  cases n <;> decide

end Network

namespace Address
variable {s : String} {a : Address} {network : Network} {name digits : List Char} {e : ChainError}

/-- A network's name, a colon, and what is in place of the digits. -/
def spell (network : Network) (digits : List Char) : String :=
  network.name ++ ":" ++ String.ofList digits

theorem text_eq (a : Address) : a.text = spell a.network (Hex.encodeChars a.hash.toList) := rfl

theorem eq_spell_iff :
    s = spell network digits ↔ s.toList = network.name.toList ++ ':' :: digits := by
  rw [← String.toList_inj, spell, String.toList_append, String.toList_append, String.toList_ofList,
    String.toList_ofList, List.append_assoc, List.singleton_append]

/-! ### Reading the parts -/

/-- What is read of the parts before and behind the first colon. -/
def parseParts (name digits : List Char) : Except ChainError Address := do
  let network ← Network.parse (String.ofList name)
  let hash ← parseHash digits
  return ⟨network, hash⟩

theorem ne_colon_of_notMem {cs : List Char} (h : ':' ∉ cs) : ∀ c ∈ cs, (c != ':') = true :=
  fun _ hc => bne_iff_ne.2 fun hcolon => h (hcolon ▸ hc)

theorem parse_of_noColon (h : ':' ∉ s.toList) : parse s = .error (.crypto (.noNetwork s)) := by
  have hdrop : (s.toList ++ []).dropWhile (· != ':') = [] :=
    List.dropWhile_append_of_pos (ne_colon_of_notMem h)
  rw [List.append_nil] at hdrop
  rw [parse, hdrop]

theorem parse_of_colon (h : s.toList = name ++ ':' :: digits) (hname : ':' ∉ name) :
    parse s = parseParts name digits := by
  have hdrop : s.toList.dropWhile (· != ':') = ':' :: digits := by
    rw [h, List.dropWhile_append_of_pos (ne_colon_of_notMem hname)]
    rfl
  have htake : s.toList.takeWhile (· != ':') = name := by
    rw [h, List.takeWhile_append_of_pos (ne_colon_of_notMem hname)]
    exact List.append_nil name
  rw [parse, hdrop, htake]
  rfl

theorem parse_spell (network : Network) (digits : List Char) :
    parse (spell network digits) = (parseHash digits).map (⟨network, ·⟩) := by
  have hnetwork : Network.parse (String.ofList network.name.toList) = .ok network := by
    rw [String.ofList_toList, network.parse_name]
  rw [parse_of_colon (eq_spell_iff.1 rfl) network.colon_notMem_name, parseParts, hnetwork]
  cases parseHash digits <;> rfl

theorem parse_of_unknown (h : s.toList = name ++ ':' :: digits) (hname : ':' ∉ name)
    (hunknown : ∀ n : Network, n.name ≠ String.ofList name) :
    parse s = .error (.configuration (.unknownNetwork (String.ofList name))) := by
  rw [parse_of_colon h hname]
  exact except_bind_eq_error.2 (.inl (Network.parse_eq_error_iff.2 ⟨hunknown, rfl⟩))

/-- A text has no colon, or no network's name before the first one, or both. -/
theorem noColon_or_unknown_or_spell (s : String) : ':' ∉ s.toList ∨
    (∃ name rest, s.toList = name ++ ':' :: rest ∧ ':' ∉ name ∧
      ∀ n : Network, n.name ≠ String.ofList name) ∨
    ∃ network rest, s = spell network rest := by
  by_cases hcolon : ':' ∈ s.toList
  · obtain ⟨name, rest, hsplit, hname⟩ := List.eq_append_cons_of_mem hcolon
    by_cases hunknown : ∀ n : Network, n.name ≠ String.ofList name
    · exact .inr (.inl ⟨name, rest, hsplit, hname, hunknown⟩)
    · obtain ⟨network, hnetwork⟩ := Classical.not_forall.1 hunknown
      have hname' : network.name.toList = name := by
        rw [Classical.not_not.1 hnetwork, String.toList_ofList]
      exact .inr (.inr ⟨network, rest, eq_spell_iff.2 (hname' ▸ hsplit)⟩)
  · exact .inl hcolon

theorem parseHash_eq_ok_iff {hash : FixedBytes 20} :
    parseHash digits = .ok hash ↔ Hex.decode digits = .ok hash.toList := by
  rw [parseHash]
  cases Hex.decode digits with
  | error fault => exact ⟨nofun, nofun⟩
  | ok bs =>
    rw [Except.ok.injEq, ← FixedBytes.ofList?_eq_some_iff]
    cases hfit : FixedBytes.ofList? 20 bs with
    | none => simp only [hfit, reduceCtorEq]
    | some found => simp only [hfit, Except.ok.injEq, Option.some.injEq]

/-- What is wrong with digits: they are none, or they are not those of twenty bytes. -/
theorem parseHash_eq_error_iff : parseHash digits = .error e ↔
    (∃ fault, Hex.decode digits = .error fault ∧ e = .crypto (.addressHex fault)) ∨
      ∃ bs, Hex.decode digits = .ok bs ∧ bs.length ≠ 20 ∧ e = .crypto (.addressSize bs.length) := by
  rw [parseHash]
  cases Hex.decode digits with
  | error fault => simp [eq_comm]
  | ok bs =>
    by_cases hfit : bs.length = 20
    · simp [FixedBytes.ofList?, hfit]
    · simp [FixedBytes.ofList?, hfit, eq_comm]

/-! ### Texts of addresses -/

/-- The text of an address: a network's name, a colon and forty digits of either case. -/
structure Spells (s : String) (network : Network) (digits : List Char) : Prop where
  text : s = spell network digits
  length : digits.length = 40
  digits : ∀ c ∈ digits, Hex.IsDigit c

theorem parse_eq_ok_iff : parse s = .ok a ↔
    ∃ digits, s = spell a.network digits ∧ Hex.decode digits = .ok a.hash.toList := by
  constructor
  · intro h
    rcases noColon_or_unknown_or_spell s with
      hcolon | ⟨name, rest, hsplit, hname, hunknown⟩ | ⟨network, digits, rfl⟩
    · rw [parse_of_noColon hcolon] at h
      cases h
    · rw [parse_of_unknown hsplit hname hunknown] at h
      cases h
    · rw [parse_spell] at h
      obtain ⟨hash, hhash, rfl⟩ := except_map_eq_ok.1 h
      exact ⟨digits, rfl, parseHash_eq_ok_iff.1 hhash⟩
  · rintro ⟨digits, rfl, hread⟩
    rw [parse_spell]
    exact except_map_eq_ok.2 ⟨a.hash, parseHash_eq_ok_iff.2 hread, rfl⟩

theorem parse_text (a : Address) : parse a.text = .ok a :=
  parse_eq_ok_iff.2 ⟨_, a.text_eq, Hex.decode_encodeChars _⟩

theorem exists_spells (h : parse s = .ok a) : ∃ network digits, Spells s network digits := by
  obtain ⟨digits, htext, hread⟩ := parse_eq_ok_iff.1 h
  obtain ⟨hdigits, hlength, -⟩ := Hex.spells_of_decode hread
  rw [a.hash.length_toList] at hlength
  exact ⟨a.network, digits, htext, hlength, hdigits⟩

/-- The text of an address is read, and printed again but for the case of its digits. -/
theorem Spells.exists_parse (h : Spells s network digits) : ∃ a, parse s = .ok a ∧
    a.network = network ∧ a.text = spell network (digits.map Char.toLower) := by
  obtain ⟨bs, hread⟩ := Hex.exists_decode (by rw [h.length]) h.digits
  obtain ⟨-, hlength, hlower⟩ := Hex.spells_of_decode hread
  rw [h.length] at hlength
  refine ⟨⟨network, bs, by omega⟩, parse_eq_ok_iff.2 ⟨digits, h.text, hread⟩, rfl, ?_⟩
  rw [text_eq, hlower]

/-! ### Other texts -/

/-- What is first wrong with a text that is no address, as the kind of the error and the error. -/
inductive Refusal (s : String) : ErrorKind → ChainError → Prop
  | noColon : ':' ∉ s.toList → Refusal s .crypto (.crypto (.noNetwork s))
  /-- What stands before the first colon is no network. -/
  | unknownNetwork {name rest : List Char} : s.toList = name ++ ':' :: rest → ':' ∉ name →
      (∀ n : Network, n.name ≠ String.ofList name) →
      Refusal s .configuration (.configuration (.unknownNetwork (String.ofList name)))
  /-- What stands behind it is stored in an odd number of bytes, or one of them is no digit. -/
  | flaw {network : Network} {rest : List Char} {fault : Hex.Fault} : s = spell network rest →
      Hex.Flaw rest fault → Refusal s .crypto (.crypto (.addressHex fault))
  /-- There are too few digits, or too many. -/
  | size {network : Network} {digits : List Char} : s = spell network digits →
      digits.length % 2 = 0 → (∀ c ∈ digits, Hex.IsDigit c) → digits.length ≠ 40 →
      Refusal s .crypto (.crypto (.addressSize (digits.length / 2)))

theorem Refusal.kind_eq {kind : ErrorKind} (h : Refusal s kind e) : e.kind = kind := by
  cases h <;> rfl

theorem Refusal.parse_eq {kind : ErrorKind} (h : Refusal s kind e) : parse s = .error e := by
  cases h with
  | noColon hcolon => exact parse_of_noColon hcolon
  | unknownNetwork hsplit hname hunknown => exact parse_of_unknown hsplit hname hunknown
  | flaw htext hflaw =>
    rw [htext, parse_spell, except_map_eq_error]
    exact parseHash_eq_error_iff.2 (.inl ⟨_, Hex.decode_eq_error_iff.2 hflaw, rfl⟩)
  | @size network digits htext heven hdigits hsize =>
    obtain ⟨bs, hread⟩ := Hex.exists_decode heven hdigits
    obtain ⟨-, hlength, -⟩ := Hex.spells_of_decode hread
    have hhalf : digits.length / 2 = bs.length := by omega
    rw [htext, parse_spell, except_map_eq_error, hhalf]
    exact parseHash_eq_error_iff.2 (.inr ⟨bs, hread, by omega, rfl⟩)

theorem exists_refusal (h : parse s = .error e) : ∃ kind, Refusal s kind e := by
  rcases noColon_or_unknown_or_spell s with
    hcolon | ⟨name, rest, hsplit, hname, hunknown⟩ | ⟨network, rest, rfl⟩
  · rw [parse_of_noColon hcolon] at h
    cases h
    exact ⟨_, .noColon hcolon⟩
  · rw [parse_of_unknown hsplit hname hunknown] at h
    cases h
    exact ⟨_, .unknownNetwork hsplit hname hunknown⟩
  · rw [parse_spell, except_map_eq_error] at h
    rcases parseHash_eq_error_iff.1 h with ⟨fault, hread, rfl⟩ | ⟨bs, hread, hsize, rfl⟩
    · exact ⟨_, .flaw rfl (Hex.decode_eq_error_iff.1 hread)⟩
    · obtain ⟨hdigits, hlength, -⟩ := Hex.spells_of_decode hread
      have hhalf : bs.length = rest.length / 2 := by omega
      rw [hhalf]
      exact ⟨_, .size rfl (by omega) hdigits (by omega)⟩

theorem parse_eq_error_iff : parse s = .error e ↔ Refusal s e.kind e := by
  constructor
  · intro h
    obtain ⟨kind, hrefusal⟩ := exists_refusal h
    exact hrefusal.kind_eq ▸ hrefusal
  · exact Refusal.parse_eq

/-- **Addresses are read of their texts and of nothing else.** A text is an address just when it is
one of the networks' names, a colon and forty digits of either case. Printed again, it has its
digits in lower case, and what is printed of any address is read as that address. Any other text is
refused for what is first wrong with it, by an error of that kind. -/
theorem parse_exact (s : String) :
    ((∃ a, parse s = .ok a) ↔ ∃ network digits, Spells s network digits) ∧
    (∀ network digits, Spells s network digits → ∃ a, parse s = .ok a ∧ a.network = network ∧
      a.text = spell network (digits.map Char.toLower)) ∧
    (∀ e, parse s = .error e ↔ Refusal s e.kind e) ∧
    ∀ a : Address, parse a.text = .ok a := by
  refine ⟨⟨fun ⟨a, h⟩ => exists_spells h, fun ⟨network, digits, h⟩ => ?_⟩,
    fun _ _ => Spells.exists_parse, fun e => parse_eq_error_iff, parse_text⟩
  obtain ⟨a, ha, -⟩ := h.exists_parse
  exact ⟨a, ha⟩

/-- Digits of both cases are read, and printed in lower case. A letter that is stored in two bytes
is an even number of them, of which the first is refused, and with a digit before it an odd number.
What stands before the first of two colons is no network. -/
theorem parse_exact_mixed :
    (∃ a, parse "regtest:00112233445566778899aAbBcCdDeEfF00112233" = .ok a ∧
      a.text = "regtest:00112233445566778899aabbccddeeff00112233") ∧
    parse "unittest:é" = .error (.crypto (.addressHex (.badByte 0xc3 0))) ∧
    parse "unittest:0é" = .error (.crypto (.addressHex .oddLength)) ∧
    parse "moonnet:00:" = .error (.configuration (.unknownNetwork "moonnet")) := by
  let digits := "00112233445566778899aAbBcCdDeEfF00112233".toList
  have hdigits : digits.all (fun c => decide (Hex.IsDigit c)) = true := by decide
  have hspells : Spells "regtest:00112233445566778899aAbBcCdDeEfF00112233" .regtest digits :=
    ⟨eq_spell_iff.2 (by decide), by decide,
      fun c hc => of_decide_eq_true (List.all_eq_true.1 hdigits c hc)⟩
  have hletter : "unittest:é" = spell .unittest ['é'] := eq_spell_iff.2 (by decide)
  have hdigitLetter : "unittest:0é" = spell .unittest ['0', 'é'] := eq_spell_iff.2 (by decide)
  have hcolons : "moonnet:00:".toList = "moonnet".toList ++ ':' :: "00:".toList := by decide
  obtain ⟨-, hread, -, -⟩ := parse_exact "regtest:00112233445566778899aAbBcCdDeEfF00112233"
  obtain ⟨-, -, heven, -⟩ := parse_exact "unittest:é"
  obtain ⟨-, -, hodd, -⟩ := parse_exact "unittest:0é"
  obtain ⟨-, -, hunknown, -⟩ := parse_exact "moonnet:00:"
  refine ⟨?_, (heven _).2 (.flaw hletter ?_), (hodd _).2 (.flaw hdigitLetter ?_),
    (hunknown _).2 (.unknownNetwork hcolons (by decide) fun n => by cases n <;> decide)⟩
  · obtain ⟨a, ha, -, htext⟩ := hread _ _ hspells
    refine ⟨a, ha, htext.trans ?_⟩
    exact (eq_spell_iff.2 (by decide)).symm
  · exact .badByte (by decide) ⟨by decide, by decide, nofun⟩
  · exact .oddLength (by decide)

end Address

end TestChain
