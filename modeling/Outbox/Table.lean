/-
# Tables: maps with a row key and a column key

A `Table ρ γ α` holds at most one value per cell, a cell being a row key and a column key. Cells are
ordered by row and then by column, so the entries of a table come out row by row. `Table.rows` is the
view of a table as a map of rows; a row that it shows is never empty, because a table without any
cell in a row has no such row.

Keys held per user and device, signatures per user and key, room keys per room and session are all
tables.

Key definitions: `Cell`, `Table`, `Table.rowKeys`, `Table.row`, `Table.rows`, `Table.ofRows`,
`Table.ofRows?`.
-/
import Outbox.SortedMap.Basic

namespace Outbox

/-- The place of a value in a table. -/
structure Cell (ρ γ : Type) where
  /-- The row key. -/
  row : ρ
  /-- The column key. -/
  column : γ
deriving DecidableEq, Repr

namespace Cell

variable {ρ γ : Type} [Ord ρ] [Ord γ]

/-- Cells are ordered by row, and within a row by column. -/
instance : Ord (Cell ρ γ) := ⟨compareLex (compareOn Cell.row) (compareOn Cell.column)⟩

instance [Std.TransOrd ρ] [Std.TransOrd γ] : Std.TransOrd (Cell ρ γ) :=
  inferInstanceAs (Std.TransCmp (compareLex (compareOn Cell.row) (compareOn Cell.column)))

theorem compare_eq (a b : Cell ρ γ) :
    compare a b = (compare a.row b.row).then (compare a.column b.column) := rfl

instance [Std.LawfulEqOrd ρ] [Std.LawfulEqOrd γ] : Std.LawfulEqOrd (Cell ρ γ) where
  compare_self := by simp [compare_eq, Std.ReflOrd.compare_self]
  eq_of_compare {a b} h := by
    obtain ⟨hr, hc⟩ := Ordering.then_eq_eq.1 ((compare_eq a b).symm.trans h)
    cases a
    cases b
    cases Std.LawfulEqCmp.eq_of_compare hr
    cases Std.LawfulEqCmp.eq_of_compare hc
    rfl

theorem compare_of_row_eq [Std.ReflOrd ρ] {a b : Cell ρ γ} (h : a.row = b.row) :
    compare a b = compare a.column b.column := by
  rw [compare_eq, h, Std.ReflOrd.compare_self]
  rfl

end Cell

/-- A map from cells to values. -/
abbrev Table (ρ γ α : Type) [Ord ρ] [Ord γ] := SortedMap (Cell ρ γ) α

namespace Table

variable {ρ γ α : Type} [Ord ρ] [Ord γ] [Std.TransOrd ρ] [Std.LawfulEqOrd ρ]

/-- The rows in which the table holds a value. -/
def rowKeys (t : Table ρ γ α) : SortedSet ρ := SortedSet.ofKeys (t.keys.map Cell.row)

/-- The values of one row, by column. -/
def row [DecidableEq ρ] (t : Table ρ γ α) (r : ρ) : SortedMap γ α where
  toList := t.toList.filterMap fun e => if e.1.row = r then some (e.1.column, e.2) else none
  increasing := by
    refine List.pairwise_filterMap.2 (t.increasing.imp fun {a b} h x hx y hy => ?_)
    simp only [Option.ite_none_right_eq_some, Option.some.injEq] at hx hy
    obtain ⟨ha, rfl⟩ := hx
    obtain ⟨hb, rfl⟩ := hy
    rw [Cell.compare_of_row_eq (ha.trans hb.symm)] at h
    exact h

/-- The table as a map of its rows. -/
def rows [DecidableEq ρ] (t : Table ρ γ α) : SortedMap ρ (SortedMap γ α) :=
  t.rowKeys.mapValues fun r _ => t.row r

variable [Std.TransOrd γ] [Std.LawfulEqOrd γ]

/-- The table with the given rows. An empty row leaves no trace. -/
def ofRows (rows : SortedMap ρ (SortedMap γ α)) : Table ρ γ α :=
  SortedMap.ofList <| rows.toList.flatMap fun r => r.2.toList.map fun e => (⟨r.1, e.1⟩, e.2)

/-- The table with the given rows, or the key of the first row that is empty. -/
def ofRows? (rows : SortedMap ρ (SortedMap γ α)) : Except ρ (Table ρ γ α) :=
  match rows.toList.find? fun r => r.2.isEmpty with
  | some r => .error r.1
  | none => .ok (ofRows rows)

end Table
end Outbox
