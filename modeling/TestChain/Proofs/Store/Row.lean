import TestChain.Proofs.Block.Bytes
import TestChain.Store.Database

/-! Records in columns.

Every record has a row (`ChainRecord.toRow_eq`), since a header is always within its limit, and the
row spells the record it was made of (`BlockRow.toRecord_row`): a height fits the signed column, and
sixteen bytes hold any work. -/
namespace TestChain

/-- The columns that a record is kept in. -/
def ChainRecord.row (r : ChainRecord) : BlockRow :=
  ⟨Int64.ofNat r.height.toNat, LittleEndian.encode 16 r.chainWork.toNat, r.header.encode⟩

theorem ChainRecord.toRow_eq (r : ChainRecord) : r.toRow = .ok r.row := by
  rw [toRow, r.header.toBytes_eq]
  rfl

/-- Every record can be written. -/
theorem Database.Write.record_eq (r : ChainRecord) :
    Write.record r = .ok (.saveBlock r.hash r.row) := by
  rw [Write.record, r.toRow_eq]
  rfl

theorem Database.put_eq_apply (db : Database) (r : ChainRecord) :
    db.put r = db.apply (.saveBlock r.hash r.row) := by
  rw [put, Write.record_eq]
  rfl

namespace BlockRow

/-- The column of a height is not negative, and is that height. -/
theorem toInt_height (height : UInt32) : (Int64.ofNat height.toNat).toInt = height.toNat := by
  have h := height.toNat_lt
  rw [Int64.toInt_ofNat_of_lt]
  omega

theorem workOf_encode (work : Work) (h : (LittleEndian.encode 16 work.toNat).length = 16) :
    workOf ⟨LittleEndian.encode 16 work.toNat, h⟩ = work := by
  obtain ⟨n, hn⟩ := work
  have hdecode : LittleEndian.decode (LittleEndian.encode 16 n) = n := by
    rw [LittleEndian.decode_encode]
    exact Nat.mod_eq_of_lt hn
  simp only [workOf, hdecode]

/-- **A record reads back from its row.** -/
theorem toRecord_row (r : ChainRecord) : r.row.toRecord = .ok r := by
  have hwork : FixedBytes.ofList? 16 r.row.chainWork =
      some ⟨LittleEndian.encode 16 r.chainWork.toNat, LittleEndian.length_encode ..⟩ :=
    FixedBytes.ofList?_eq_some_iff.2 rfl
  have hheight : r.row.height.toInt = r.height.toNat := toInt_height r.height
  have hheader : Header.ofBytes r.row.header = .ok r.header := Header.ofBytes_eq_ok.2 rfl
  have hlt : r.height.toNat < UInt32.size := r.height.toNat_lt
  have hbounds : 0 ≤ (r.height.toNat : Int) ∧ (r.height.toNat : Int) < UInt32.size := by omega
  simp only [toRecord, hwork, hheight, hbounds, and_self, if_true, hheader, Int.toNat_natCast,
    UInt32.ofNat_toNat, workOf_encode]
  rfl

end BlockRow

end TestChain
