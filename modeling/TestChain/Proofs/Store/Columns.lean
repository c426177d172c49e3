import TestChain.Proofs.Block.HeaderBytes
import TestChain.Proofs.Store.Opening

/-! Which rows are records.

A database can be changed from outside, so a row may hold anything. It is read just when each of its
columns could have been written (`BlockRow.Readable`), and what it is read as is then written as the
same row again: reading and writing rows are inverse (`BlockRow.toRecord_eq_ok_iff`). Otherwise the
first column at fault is reported, of work, height and header. -/
namespace TestChain

/-- What a database keeps when the record is put: the row, under the hash of the record, and
everything else as it was. -/
def ChainRecord.KeptAs (r : ChainRecord) (row : BlockRow) : Prop :=
  ∀ (db : Database) (rows : Table Bytes BlockRow), db.blocks = .table rows →
    db.put r = .ok { db with blocks := .table (rows.insert r.hash.toList row) }

theorem ChainRecord.keptAs_iff {r : ChainRecord} {row : BlockRow} : r.KeptAs row ↔ row = r.row := by
  constructor
  · intro h
    -- An empty table with the row in it shows which row it was.
    have hput := h ⟨.table .empty, .missing⟩ .empty rfl
    rw [Database.put_eq rfl] at hput
    have hblocks := congrArg Database.blocks (Except.ok.inj hput)
    have hrow := congrArg (Table.get? · r.hash.toList) (Slot.table.inj hblocks)
    simp only [Table.get?_insert, if_true, Option.some.injEq] at hrow
    exact hrow.symm
  · rintro rfl
    intro db rows h
    exact Database.put_eq h r

namespace BlockRow
variable {row : BlockRow} {r : ChainRecord}

/-- The height is one that a record can have. -/
def HeightFits (row : BlockRow) : Prop := 0 ≤ row.height.toInt ∧ row.height.toInt ≤ 4294967295

instance (row : BlockRow) : Decidable row.HeightFits := inferInstanceAs (Decidable (_ ∧ _))

/-- Every column is one that a record can have. -/
structure Readable (row : BlockRow) : Prop where
  work : row.chainWork.length = 16
  height : row.HeightFits
  header : row.header.length = 88

/-! ### Single columns -/

theorem encode_workOf (bs : FixedBytes 16) :
    LittleEndian.encode 16 (workOf bs).toNat = bs.toList := by
  have h := LittleEndian.encode_decode bs.toList
  rwa [bs.length_toList] at h

theorem heightFits_iff :
    row.HeightFits ↔ 0 ≤ row.height.toInt ∧ row.height.toInt < UInt32.size := by
  have hsize : UInt32.size = 4294967296 := rfl
  unfold HeightFits
  omega

theorem ofNat_height (h : row.HeightFits) :
    Int64.ofNat (UInt32.ofNat row.height.toInt.toNat).toNat = row.height := by
  obtain ⟨hleast, hmost⟩ := heightFits_iff.1 h
  have hkept : (UInt32.ofNat row.height.toInt.toNat).toNat = row.height.toInt.toNat :=
    UInt32.toNat_ofNat_of_lt' (by omega)
  apply Int64.toInt_inj.1
  rw [toInt_height, hkept, Int.toNat_of_nonneg hleast]

/-! ### Whole rows -/

theorem toRecord_of_work (h : row.chainWork.length ≠ 16) :
    row.toRecord = .error (.database (.workSize row.chainWork.length)) := by
  rw [toRecord, FixedBytes.ofList?, dif_neg h]

theorem toRecord_of_height (hwork : row.chainWork.length = 16) (h : ¬ row.HeightFits) :
    row.toRecord = .error (.database (.height row.height.toInt)) := by
  rw [toRecord, FixedBytes.ofList?, dif_pos hwork]
  exact if_neg fun hbounds => h (heightFits_iff.2 hbounds)

/-- With work and height in order it is up to the header. -/
theorem toRecord_of_header (hwork : row.chainWork.length = 16) (hheight : row.HeightFits) :
    row.toRecord = (Header.ofBytes row.header).map fun header =>
      ⟨header, workOf ⟨row.chainWork, hwork⟩, UInt32.ofNat row.height.toInt.toNat⟩ := by
  rw [toRecord, FixedBytes.ofList?, dif_pos hwork]
  show (if _ then _ else _) = _
  rw [if_pos (heightFits_iff.1 hheight)]
  cases Header.ofBytes row.header <;> rfl

theorem Readable.exists_toRecord (h : row.Readable) : ∃ r, row.toRecord = .ok r := by
  obtain ⟨header, hheader⟩ := Header.exists_encode_eq h.header
  rw [toRecord_of_header h.work h.height]
  exact ⟨_, except_map_eq_ok.2 ⟨header, Header.ofBytes_eq_ok.2 hheader.symm, rfl⟩⟩

theorem readable_row (r : ChainRecord) : r.row.Readable where
  work := LittleEndian.length_encode ..
  height := by
    have hlt := r.height.toNat_lt
    have hheight : r.row.height.toInt = r.height.toNat := toInt_height r.height
    rw [HeightFits, hheight]
    omega
  header := r.header.length_encode

theorem fits_of_toRecord (h : row.toRecord = .ok r) :
    row.chainWork.length = 16 ∧ row.HeightFits := by
  by_cases hwork : row.chainWork.length = 16
  · by_cases hheight : row.HeightFits
    · exact ⟨hwork, hheight⟩
    · rw [toRecord_of_height hwork hheight] at h
      cases h
  · rw [toRecord_of_work hwork] at h
    cases h

/-- Reading a row undoes writing it, and writing it undoes reading it. -/
theorem toRecord_eq_ok_iff : row.toRecord = .ok r ↔ row = r.row := by
  constructor
  · intro h
    obtain ⟨hwork, hheight⟩ := fits_of_toRecord h
    rw [toRecord_of_header hwork hheight] at h
    obtain ⟨header, hheader, rfl⟩ := except_map_eq_ok.1 h
    rw [ChainRecord.row, ofNat_height hheight, encode_workOf, ← Header.ofBytes_eq_ok.1 hheader]
  · rintro rfl
    exact toRecord_row r

theorem exists_toRecord_iff : (∃ r, row.toRecord = .ok r) ↔ row.Readable := by
  constructor
  · rintro ⟨r, h⟩
    rw [toRecord_eq_ok_iff.1 h]
    exact readable_row r
  · exact Readable.exists_toRecord

/-- **Rows are records just when each column could have been written.** A row is read just when it
has sixteen bytes of work, a height of 32 bits and the 88 bytes of a header, and it is then the row
that is kept of the record it is read as. Any record is kept as a row that is read as the record.
What is wrong with any other row is reported of work first, then of the height, then of the header.
-/
theorem toRecord_exact (row : BlockRow) :
    ((∃ r, row.toRecord = .ok r) ↔ row.Readable) ∧
    (∀ r, row.toRecord = .ok r ↔ r.KeptAs row) ∧
    (∀ r : ChainRecord, ∃ kept, r.KeptAs kept ∧ kept.toRecord = .ok r) ∧
    (row.chainWork.length ≠ 16 →
      row.toRecord = .error (.database (.workSize row.chainWork.length))) ∧
    (row.chainWork.length = 16 → ¬ row.HeightFits →
      row.toRecord = .error (.database (.height row.height.toInt))) ∧
    (row.chainWork.length = 16 → row.HeightFits → row.header.length ≠ 88 →
      ∃ fault, row.toRecord = .error (.decoding .header fault)) := by
  refine ⟨exists_toRecord_iff, fun r => ?_, fun r => ?_, toRecord_of_work, toRecord_of_height, ?_⟩
  · rw [toRecord_eq_ok_iff, ChainRecord.keptAs_iff]
  · exact ⟨r.row, ChainRecord.keptAs_iff.2 rfl, toRecord_row r⟩
  · intro hwork hheight hheader
    obtain ⟨fault, hfault⟩ := Header.exists_ofBytes_eq_error hheader
    exact ⟨fault, by rw [toRecord_of_header hwork hheight, except_map_eq_error, hfault]⟩

/-- The highest record that can be kept, and what is reported when a row of it is changed: one more
height, a negative one in a row that also lacks a byte of work, and a header that lacks a byte. -/
theorem toRecord_exact_highest :
    let highest : BlockRow := ⟨4294967295, List.replicate 16 255, List.replicate 88 0⟩
    (∃ r, highest.toRecord = .ok r ∧ r.KeptAs highest) ∧
    { highest with height := 4294967296 }.toRecord = .error (.database (.height 4294967296)) ∧
    { highest with height := -1, chainWork := List.replicate 15 255 }.toRecord =
      .error (.database (.workSize 15)) ∧
    ∃ fault, { highest with header := List.replicate 87 0 }.toRecord =
      .error (.decoding .header fault) := by
  intro highest
  have hfits : highest.HeightFits := by decide
  obtain ⟨hread, hkept, -⟩ := toRecord_exact highest
  obtain ⟨-, -, -, -, hheight, -⟩ := toRecord_exact { highest with height := 4294967296 }
  obtain ⟨-, -, -, hwork, -⟩ :=
    toRecord_exact { highest with height := -1, chainWork := List.replicate 15 255 }
  obtain ⟨-, -, -, -, -, hheader⟩ :=
    toRecord_exact { highest with header := List.replicate 87 0 }
  obtain ⟨r, hr⟩ := hread.2 ⟨by decide, hfits, by decide⟩
  refine ⟨⟨r, hr, (hkept r).1 hr⟩, hheight (by decide) (by decide), hwork (by decide), ?_⟩
  exact hheader (by decide) hfits (by decide)

end BlockRow

end TestChain
