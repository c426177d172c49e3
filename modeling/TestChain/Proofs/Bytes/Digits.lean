import TestChain.Proofs.Bytes.Hex
import TestChain.Proofs.Outcome

/-! Which texts spell bytes.

A text is read digit by digit, but what is wrong with it is said of the bytes under which it is
stored: their number, and the first of them that is no digit. A letter outside ASCII takes several
bytes, the first of which is no digit, so the two views agree (`Hex.digitValues_eq_error_iff`). What
spells bytes is an even number of digits, and in lower case it is what is written of the bytes
(`Hex.spells_of_decode`). -/
namespace TestChain.Hex

/-! ### Digits -/

/-- A hexadecimal digit of either case. -/
def IsDigit (c : Char) : Prop :=
  ('0' ≤ c ∧ c ≤ '9') ∨ ('a' ≤ c ∧ c ≤ 'f') ∨ ('A' ≤ c ∧ c ≤ 'F')

instance (c : Char) : Decidable (IsDigit c) := inferInstanceAs (Decidable (_ ∨ _))

/-- The byte of a hexadecimal digit in ASCII. -/
def IsDigitByte (b : UInt8) : Prop :=
  (0x30 ≤ b ∧ b ≤ 0x39) ∨ (0x61 ≤ b ∧ b ≤ 0x66) ∨ (0x41 ≤ b ∧ b ≤ 0x46)

instance (b : UInt8) : Decidable (IsDigitByte b) := inferInstanceAs (Decidable (_ ∨ _))

variable {c : Char} {cs : List Char}

theorem isDigit_iff_toNat : IsDigit c ↔ (48 ≤ c.toNat ∧ c.toNat ≤ 57) ∨
    (97 ≤ c.toNat ∧ c.toNat ≤ 102) ∨ (65 ≤ c.toNat ∧ c.toNat ≤ 70) := Iff.rfl

theorem isDigitByte_iff_toNat {b : UInt8} : IsDigitByte b ↔ (48 ≤ b.toNat ∧ b.toNat ≤ 57) ∨
    (97 ≤ b.toNat ∧ b.toNat ≤ 102) ∨ (65 ≤ b.toNat ∧ b.toNat ≤ 70) := Iff.rfl

theorem isSome_digitValue?_iff : (digitValue? c).isSome = true ↔ IsDigit c := by
  unfold digitValue? IsDigit
  split
  · simp [*]
  · split
    · simp [*]
    · split <;> simp [*]

theorem isDigit_of_digitValue? {v : Nat} (h : digitValue? c = some v) : IsDigit c :=
  isSome_digitValue?_iff.1 (by rw [h]; rfl)

theorem toNat_lt_of_isDigit (h : IsDigit c) : c.toNat < 128 := by
  rw [isDigit_iff_toNat] at h
  omega

/-- What is checked of a digit that is read, for all of ASCII. -/
theorem digitValue?_spec : ∀ n < 128, ∀ v, digitValue? (Char.ofNat n) = some v →
    v < 16 ∧ digitChar v = (Char.ofNat n).toLower := by
  decide

/-- A digit that is read is written in lower case. -/
theorem digitChar_of_digitValue? {v : Nat} (h : digitValue? c = some v) :
    v < 16 ∧ digitChar v = c.toLower := by
  have hc := digitValue?_spec c.toNat (toNat_lt_of_isDigit (isDigit_of_digitValue? h)) v
  rw [Char.ofNat_toNat] at hc
  exact hc h

/-! ### Stored bytes -/

/-- The bytes under which a text is stored. -/
def storedBytes (cs : List Char) : Bytes := cs.flatMap String.utf8EncodeChar

theorem storedBytes_cons (c : Char) (cs : List Char) :
    storedBytes (c :: cs) = String.utf8EncodeChar c ++ storedBytes cs := List.flatMap_cons

theorem storedLength_eq (cs : List Char) : storedLength cs = (storedBytes cs).length := by
  induction cs with
  | nil => rfl
  | cons c cs ih =>
    rw [storedBytes_cons, List.length_append, String.length_utf8EncodeChar, ← ih]
    rfl

theorem utf8EncodeChar_of_isDigit (h : IsDigit c) : String.utf8EncodeChar c = [leadByte c] := by
  have hlt := toNat_lt_of_isDigit h
  have hone : String.utf8EncodeChar c = [UInt8.ofNat c.toNat] := if_pos (Nat.le_of_lt_succ hlt)
  rw [leadByte, hone]
  rfl

theorem exists_utf8EncodeChar (c : Char) :
    ∃ rest, String.utf8EncodeChar c = leadByte c :: rest := by
  obtain ⟨lead, rest, h⟩ := List.exists_cons_of_ne_nil (String.utf8EncodeChar_ne_nil (c := c))
  exact ⟨rest, by rw [leadByte, h]; rfl⟩

/-- The first byte of a character is a digit just when the character is. -/
theorem isDigitByte_leadByte : IsDigitByte (leadByte c) ↔ IsDigit c := by
  rw [isDigitByte_iff_toNat, isDigit_iff_toNat]
  have hval : c.toNat = c.val.toNat := rfl
  -- One case for each number of bytes. The first of several is 192 or more.
  unfold leadByte
  fun_cases String.utf8EncodeChar c <;> simp only [List.headD_cons, UInt8.toNat_ofNat'] <;> omega

theorem storedBytes_of_isDigit (h : ∀ c ∈ cs, IsDigit c) : storedBytes cs = cs.map leadByte := by
  induction cs with
  | nil => rfl
  | cons c cs ih =>
    obtain ⟨hc, hcs⟩ := List.forall_mem_cons.1 h
    rw [storedBytes_cons, utf8EncodeChar_of_isDigit hc, ih hcs]
    rfl

/-! ### The first bad byte -/

/-- The byte at the place is the first that is no digit. -/
structure FirstBad (bs : Bytes) (byte : UInt8) (position : Nat) : Prop where
  here : bs[position]? = some byte
  bad : ¬ IsDigitByte byte
  before : ∀ b ∈ bs.take position, IsDigitByte b

section
variable {b byte : UInt8} {bs : Bytes} {position : Nat}

theorem firstBad_cons_of_bad (h : ¬ IsDigitByte b) :
    FirstBad (b :: bs) byte position ↔ byte = b ∧ position = 0 := by
  constructor
  · rintro ⟨hhere, -, hbefore⟩
    cases position with
    | zero => exact ⟨(Option.some.inj hhere).symm, rfl⟩
    | succ k => exact absurd (hbefore b (List.mem_cons_self ..)) h
  · rintro ⟨rfl, rfl⟩
    exact ⟨rfl, h, nofun⟩

theorem firstBad_cons_of_digit (h : IsDigitByte b) :
    FirstBad (b :: bs) byte position ↔ ∃ k, position = k + 1 ∧ FirstBad bs byte k := by
  constructor
  · rintro ⟨hhere, hbad, hbefore⟩
    cases position with
    | zero => exact absurd (Option.some.inj hhere ▸ h) hbad
    | succ k => exact ⟨k, rfl, hhere, hbad, fun d hd => hbefore d (List.mem_cons_of_mem b hd)⟩
  · rintro ⟨k, rfl, hhere, hbad, hbefore⟩
    exact ⟨hhere, hbad, List.forall_mem_cons.2 ⟨h, hbefore⟩⟩

end

/-! ### Reading digits -/

variable {position : Nat} {fault : Fault}

theorem digitValues_cons_of_none (h : digitValue? c = none) :
    digitValues position (c :: cs) = .error (.badByte (leadByte c) position) := by
  rw [digitValues, h]

theorem digitValues_cons_of_some {v : Nat} (h : digitValue? c = some v) :
    digitValues position (c :: cs) = (digitValues (position + 1) cs).map (v :: ·) := by
  rw [digitValues, h]
  cases digitValues (position + 1) cs <;> rfl

/-- What stops the reading of digits is the first stored byte that is none. -/
theorem digitValues_eq_error_iff : digitValues position cs = .error fault ↔
    ∃ byte k, FirstBad (storedBytes cs) byte k ∧ fault = .badByte byte (position + k) := by
  induction cs generalizing position with
  | nil => exact ⟨nofun, fun ⟨_, _, h, _⟩ => nomatch h.here⟩
  | cons c cs ih =>
    rw [storedBytes_cons]
    cases hc : digitValue? c with
    | none =>
      obtain ⟨rest, hrest⟩ := exists_utf8EncodeChar c
      have hbad : ¬ IsDigitByte (leadByte c) := by
        rw [isDigitByte_leadByte, ← isSome_digitValue?_iff, hc]
        nofun
      simp only [digitValues_cons_of_none hc, hrest, List.cons_append, firstBad_cons_of_bad hbad]
      constructor
      · intro h
        cases h
        exact ⟨leadByte c, 0, ⟨rfl, rfl⟩, rfl⟩
      · rintro ⟨_, _, ⟨rfl, rfl⟩, rfl⟩
        rfl
    | some v =>
      have hdigit := isDigit_of_digitValue? hc
      rw [digitValues_cons_of_some hc, except_map_eq_error, ih, utf8EncodeChar_of_isDigit hdigit,
        List.singleton_append]
      simp only [firstBad_cons_of_digit (isDigitByte_leadByte.2 hdigit)]
      constructor
      · rintro ⟨byte, k, hbad, rfl⟩
        exact ⟨byte, k + 1, ⟨k, rfl, hbad⟩, by rw [Nat.add_assoc, Nat.add_comm 1]⟩
      · rintro ⟨byte, _, ⟨k, rfl, hbad⟩, rfl⟩
        exact ⟨byte, k, hbad, by rw [Nat.add_assoc, Nat.add_comm 1]⟩

/-- What is read of digits. -/
theorem digitValues_spec {vs : List Nat} (h : digitValues position cs = .ok vs) :
    (∀ c ∈ cs, IsDigit c) ∧ (∀ v ∈ vs, v < 16) ∧ vs.map digitChar = cs.map Char.toLower := by
  induction cs generalizing position vs with
  | nil =>
    cases h
    exact ⟨nofun, nofun, rfl⟩
  | cons c cs ih =>
    cases hc : digitValue? c with
    | none =>
      rw [digitValues_cons_of_none hc] at h
      cases h
    | some v =>
      rw [digitValues_cons_of_some hc] at h
      obtain ⟨rest, hrest, rfl⟩ := except_map_eq_ok.1 h
      obtain ⟨hdigits, hvalues, hlower⟩ := ih hrest
      obtain ⟨hv, hchar⟩ := digitChar_of_digitValue? hc
      refine ⟨List.forall_mem_cons.2 ⟨isDigit_of_digitValue? hc, hdigits⟩,
        List.forall_mem_cons.2 ⟨hv, hvalues⟩, ?_⟩
      rw [List.map_cons, List.map_cons, hchar, hlower]

/-! ### Whole texts -/

/-- The two digits' values of each byte. -/
def halves (bs : Bytes) : List Nat := bs.flatMap fun b => [b.toNat / 16, b.toNat % 16]

theorem encodeChars_eq_map (bs : Bytes) : encodeChars bs = (halves bs).map digitChar := by
  rw [halves, List.map_flatMap]
  rfl

theorem halves_cons (b : UInt8) (bs : Bytes) :
    halves (b :: bs) = b.toNat / 16 :: b.toNat % 16 :: halves bs := rfl

theorem length_halves (bs : Bytes) : (halves bs).length = 2 * bs.length := by
  induction bs with
  | nil => rfl
  | cons b bs ih =>
    rw [halves_cons, List.length_cons, List.length_cons, List.length_cons, ih]
    omega

/-- An even number of values are those of the bytes that they join to. -/
theorem halves_joinPairs {vs : List Nat} (heven : vs.length % 2 = 0) (hvalues : ∀ v ∈ vs, v < 16) :
    halves (joinPairs vs) = vs := by
  fun_induction joinPairs vs with
  | case1 high low rest ih =>
    obtain ⟨hhigh, hvalues⟩ := List.forall_mem_cons.1 hvalues
    obtain ⟨hlow, hvalues⟩ := List.forall_mem_cons.1 hvalues
    have hrest : rest.length % 2 = 0 := by
      rw [List.length_cons, List.length_cons] at heven
      omega
    have hbyte : (UInt8.ofNat (16 * high + low)).toNat = 16 * high + low :=
      UInt8.toNat_ofNat_of_lt' (by show _ < 256; omega)
    have hdiv : (16 * high + low) / 16 = high := by omega
    have hmod : (16 * high + low) % 16 = low := by omega
    rw [halves_cons, hbyte, hdiv, hmod, ih hrest hvalues]
  | case2 vs hshort =>
    match vs with
    | [] => rfl
    | [_] => cases heven
    | high :: low :: rest => exact absurd rfl (hshort high low rest)

/-- What is first wrong with a text that spells no bytes: it is stored in an odd number of bytes, or
else one of them is no digit. -/
inductive Flaw (cs : List Char) : Fault → Prop
  | oddLength : (storedBytes cs).length % 2 = 1 → Flaw cs .oddLength
  | badByte {byte : UInt8} {position : Nat} : (storedBytes cs).length % 2 = 0 →
      FirstBad (storedBytes cs) byte position → Flaw cs (.badByte byte position)

theorem decode_of_odd (h : (storedBytes cs).length % 2 = 1) : decode cs = .error .oddLength := by
  rw [decode, storedLength_eq, if_pos h]

theorem decode_of_even (h : (storedBytes cs).length % 2 = 0) :
    decode cs = (digitValues 0 cs).map joinPairs := by
  rw [decode, storedLength_eq, if_neg (by omega)]

/-- A text that spells no bytes is refused for its first flaw. -/
theorem decode_eq_error_iff : decode cs = .error fault ↔ Flaw cs fault := by
  constructor
  · intro h
    rcases Nat.mod_two_eq_zero_or_one (storedBytes cs).length with heven | hodd
    · rw [decode_of_even heven, except_map_eq_error] at h
      obtain ⟨byte, k, hbad, rfl⟩ := digitValues_eq_error_iff.1 h
      rw [Nat.zero_add]
      exact .badByte heven hbad
    · rw [decode_of_odd hodd] at h
      cases h
      exact .oddLength hodd
  · intro h
    cases h with
    | oddLength hodd => exact decode_of_odd hodd
    | badByte heven hbad =>
      rw [decode_of_even heven, except_map_eq_error]
      exact digitValues_eq_error_iff.2 ⟨_, _, hbad, by rw [Nat.zero_add]⟩

/-- An even number of digits has no flaw. -/
theorem exists_decode (heven : cs.length % 2 = 0) (h : ∀ c ∈ cs, IsDigit c) :
    ∃ bs, decode cs = .ok bs := by
  have hstored := storedBytes_of_isDigit h
  have hlength : (storedBytes cs).length = cs.length := by rw [hstored, List.length_map]
  cases hread : decode cs with
  | ok bs => exact ⟨bs, rfl⟩
  | error fault =>
    cases decode_eq_error_iff.1 hread with
    | oddLength hodd => omega
    | badByte _ hbad =>
      have hmem := List.mem_of_getElem? hbad.here
      rw [hstored, List.mem_map] at hmem
      obtain ⟨c, hc, rfl⟩ := hmem
      exact absurd (isDigitByte_leadByte.2 (h c hc)) hbad.bad

/-- What spells bytes is digits, as many as are written of the bytes, and the same in lower case. -/
theorem spells_of_decode {bs : Bytes} (h : decode cs = .ok bs) :
    (∀ c ∈ cs, IsDigit c) ∧ cs.length = 2 * bs.length ∧ encodeChars bs = cs.map Char.toLower := by
  rcases Nat.mod_two_eq_zero_or_one (storedBytes cs).length with heven | hodd
  · rw [decode_of_even heven] at h
    obtain ⟨vs, hread, rfl⟩ := except_map_eq_ok.1 h
    obtain ⟨hdigits, hvalues, hlower⟩ := digitValues_spec hread
    have hlength : vs.length = cs.length := by
      rw [← List.length_map digitChar, hlower, List.length_map]
    rw [storedBytes_of_isDigit hdigits, List.length_map, ← hlength] at heven
    have hhalves := halves_joinPairs heven hvalues
    refine ⟨hdigits, ?_, ?_⟩
    · rw [← hlength, ← length_halves, hhalves]
    · rw [encodeChars_eq_map, hhalves, hlower]
  · rw [decode_of_odd hodd] at h
    cases h

end TestChain.Hex
