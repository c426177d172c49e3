/-! Tables: rows under distinct keys.

`Table.insert` replaces the row of a key where it stands, or adds one at the end, so that writing a
row twice is writing it once. -/
namespace TestChain

/-- Rows under distinct keys, in the order in which the keys came. -/
structure Table (κ α : Type) [DecidableEq κ] where
  rows : List (κ × α)
  nodup_keys : (rows.map Prod.fst).Nodup

namespace Table
variable {κ α : Type} [DecidableEq κ]

def empty : Table κ α := ⟨[], List.nodup_nil⟩

/-- The row of a key in a list of rows. -/
def lookup (key : κ) : List (κ × α) → Option α
  | [] => none
  | row :: rest => if row.1 = key then some row.2 else lookup key rest

/-- The rows with that of a key replaced, or added at the end. -/
def replace (key : κ) (value : α) : List (κ × α) → List (κ × α)
  | [] => [(key, value)]
  | row :: rest => if row.1 = key then (key, value) :: rest else row :: replace key value rest

theorem mem_keys_replace {key k : κ} {value : α} {rows : List (κ × α)} :
    k ∈ (replace key value rows).map Prod.fst ↔ k = key ∨ k ∈ rows.map Prod.fst := by
  induction rows with
  | nil => simp [replace]
  | cons row rest ih =>
    by_cases h : row.1 = key
    · simp [replace, h]
    · simp only [replace, h, if_false, List.map_cons, List.mem_cons, ih]
      grind

theorem nodup_replace {key : κ} {value : α} {rows : List (κ × α)}
    (h : (rows.map Prod.fst).Nodup) : ((replace key value rows).map Prod.fst).Nodup := by
  induction rows with
  | nil => simp [replace]
  | cons row rest ih =>
    rw [List.map_cons, List.nodup_cons] at h
    by_cases hk : row.1 = key
    · simp only [replace, hk, if_true, List.map_cons, List.nodup_cons]
      exact ⟨hk ▸ h.1, h.2⟩
    · simp only [replace, if_neg hk, List.map_cons, List.nodup_cons, mem_keys_replace, not_or]
      exact ⟨⟨hk, h.1⟩, ih h.2⟩

/-- The row of a key. -/
def get? (t : Table κ α) (key : κ) : Option α := lookup key t.rows

/-- The table with the row of a key replaced or added. -/
def insert (t : Table κ α) (key : κ) (value : α) : Table κ α :=
  ⟨replace key value t.rows, nodup_replace t.nodup_keys⟩

/-- The table without the row of a key. -/
def erase (t : Table κ α) (key : κ) : Table κ α :=
  ⟨t.rows.filter (·.1 ≠ key), t.nodup_keys.sublist (List.filter_sublist.map _)⟩

/-- The number of rows. -/
def size (t : Table κ α) : Nat := t.rows.length

theorem lookup_replace (key k : κ) (value : α) (rows : List (κ × α)) :
    lookup k (replace key value rows) = if k = key then some value else lookup k rows := by
  induction rows with
  | nil => simp only [replace, lookup, eq_comm]
  | cons row rest ih => grind [replace, lookup]

/-- A read after a write sees what was written, and nothing else has changed. -/
theorem get?_insert (t : Table κ α) (key k : κ) (value : α) :
    (t.insert key value).get? k = if k = key then some value else t.get? k :=
  lookup_replace key k value t.rows

theorem get?_empty (k : κ) : (empty : Table κ α).get? k = none := rfl

end Table

end TestChain
