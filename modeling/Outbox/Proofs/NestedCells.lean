/-
# Rows that change cell by cell

A value can be put at a place of a table that is kept row by row, and taken away from it. The row is made
for its first value, and goes with its last one. What is done in this way to the rows of a table is what is
done to the table, and the values of the rows come in the order of the cells.

Key definitions: `Rows.entries`, `Rows.put`, `Rows.remove`, `Rows.mapCells`.
Key theorems: `Rows.cell?_modify`, `Table.entries_rows`, `Table.rows_mapValues`, `Table.rows_insert`,
`Table.rows_erase`.
-/
import Outbox.Proofs.NestedRows

namespace Outbox

namespace SortedMap

variable {κ α : Type} [Ord κ] [Std.TransOrd κ] [Std.LawfulEqOrd κ]

/-- A map is made of its entries. -/
theorem ofList_toList (m : SortedMap κ α) : ofList m.toList = m :=
  ext fun k => by rw [ofList, get?_insertMany_toList, get?_empty, Option.or_none]

/-- Entries in order are the entries of the map that is made of them. -/
theorem toList_ofList {l : List (κ × α)} (hl : l.Pairwise fun a b => compare a.1 b.1 = .lt) :
    (ofList l).toList = l :=
  congrArg toList (ofList_toList ⟨l, hl⟩)

end SortedMap

namespace Rows

variable {ρ γ α β : Type} [Ord ρ] [Ord γ]

/-- The values with their cells, row by row. -/
def entries (rows : Rows ρ γ α) : List (Cell ρ γ × α) :=
  rows.toList.flatMap fun r => r.2.toList.map fun e => (⟨r.1, e.1⟩, e.2)

/-- Changes every value. -/
def mapCells (rows : Rows ρ γ α) (f : Cell ρ γ → α → β) : Rows ρ γ β :=
  rows.mapValues fun r m => m.mapValues fun x v => f ⟨r, x⟩ v

variable {rows : Rows ρ γ α} {c : Cell ρ γ} {v : α}

theorem cell?_mapCells [Std.LawfulEqOrd ρ] [Std.LawfulEqOrd γ] (rows : Rows ρ γ α) (f : Cell ρ γ → α → β)
    (c : Cell ρ γ) : (rows.mapCells f).cell? c = (rows.cell? c).map (f c) := by
  rw [cell?, mapCells, SortedMap.get?_mapValues, cell?]
  cases rows.get? c.row with
  | none => rfl
  | some m => exact SortedMap.get?_mapValues _ _ _

theorem Tidy.mapCells [Std.LawfulEqOrd ρ] (h : rows.Tidy) (f : Cell ρ γ → α → β) : (rows.mapCells f).Tidy := by
  intro r m hr
  rw [Rows.mapCells, SortedMap.get?_mapValues, Option.map_eq_some_iff] at hr
  obtain ⟨m, hm, rfl⟩ := hr
  simpa [SortedMap.isEmpty, SortedMap.mapValues] using h r m hm

/-- To change one row is to change its values. -/
theorem cell?_modify [Std.LawfulEqOrd ρ] {f : SortedMap γ α → SortedMap γ α} {g : γ → Option α → Option α}
    (hf : ∀ m x, (f m).get? x = g x (m.get? x)) (hg : ∀ x, g x none = none) (rows : Rows ρ γ α) (r : ρ) (x : γ) :
    Rows.cell? (SortedMap.modify rows r f) ⟨r, x⟩ = g x (rows.cell? ⟨r, x⟩) := by
  rw [cell?, cell?, SortedMap.get?_modify_self]
  cases rows.get? r with
  | none => exact (hg x).symm
  | some m => exact hf m x

variable [Std.TransOrd ρ] [Std.LawfulEqOrd ρ]

/-- A row that is changed still has values. -/
theorem Tidy.modify (h : rows.Tidy) {f : SortedMap γ α → SortedMap γ α}
    (hf : ∀ m, m.isEmpty = false → (f m).isEmpty = false) (r : ρ) : Tidy (SortedMap.modify rows r f) := by
  intro r' m' hr'
  by_cases he : r' = r
  · subst he
    rw [SortedMap.get?_modify_self, Option.map_eq_some_iff] at hr'
    obtain ⟨m, hm, rfl⟩ := hr'
    exact hf m (h r' m hm)
  · rw [SortedMap.get?_modify_of_ne _ _ he] at hr'
    exact h r' m' hr'

theorem cell?_modify_of_ne (rows : Rows ρ γ α) (r : ρ) (f : SortedMap γ α → SortedMap γ α) (c : Cell ρ γ)
    (hc : c.row ≠ r) : Rows.cell? (SortedMap.modify rows r f) c = rows.cell? c := by
  rw [cell?, cell?, SortedMap.get?_modify_of_ne _ _ hc]

/-! ### One cell -/

/-- Takes the value of a cell away, and the row if it has no other one. -/
def remove (rows : Rows ρ γ α) (c : Cell ρ γ) : Rows ρ γ α :=
  match rows.get? c.row with
  | none => rows
  | some m => if (m.erase c.column).isEmpty then rows.erase c.row else rows.insert c.row (m.erase c.column)

theorem remove_eq_retainRow (rows : Rows ρ γ α) (c : Cell ρ γ) :
    rows.remove c = rows.retainRow c.row fun x _ => decide (compare c.column x ≠ .eq) := rfl

theorem Tidy.remove (h : rows.Tidy) (c : Cell ρ γ) : (rows.remove c).Tidy := h.retainRow _ _

variable [Std.TransOrd γ] [Std.LawfulEqOrd γ]

/-- Puts a value at a cell. The row is made if it is not there. -/
def put (rows : Rows ρ γ α) (c : Cell ρ γ) (v : α) : Rows ρ γ α :=
  rows.insert c.row ((rows.getD c.row ∅).insert c.column v)

theorem Tidy.put (h : rows.Tidy) (c : Cell ρ γ) (v : α) : (rows.put c v).Tidy :=
  h.insert (SortedMap.isEmpty_eq_false_of_mem (SortedMap.mem_insert.2 (.inl rfl)))

variable [DecidableEq ρ] [DecidableEq γ]

theorem cell?_put (rows : Rows ρ γ α) (c d : Cell ρ γ) (v : α) :
    (rows.put c v).cell? d = if d = c then some v else rows.cell? d := by
  obtain ⟨r, x⟩ := c
  obtain ⟨s, y⟩ := d
  by_cases hr : s = r
  · subst hr
    have hrow : (rows.put ⟨s, x⟩ v).get? s = some ((rows.getD s ∅).insert x v) :=
      SortedMap.get?_insert_self _ _ _
    rw [cell?_eq hrow, SortedMap.get?_insert, SortedMap.getD, cell?]
    cases rows.get? s <;> simp
  · have hother : (rows.put ⟨r, x⟩ v).get? s = rows.get? s := SortedMap.get?_insert_of_ne _ _ hr
    simp [cell?, hother, hr]

theorem cell?_remove (rows : Rows ρ γ α) (c d : Cell ρ γ) :
    (rows.remove c).cell? d = if d = c then none else rows.cell? d := by
  obtain ⟨r, x⟩ := c
  obtain ⟨s, y⟩ := d
  rw [remove_eq_retainRow]
  by_cases hr : s = r
  · subst hr
    rw [cell?_retainRow_self]
    by_cases hx : y = x
    · subst hx
      cases rows.cell? ⟨s, y⟩ <;> simp [Std.ReflOrd.compare_self]
    · have hne : compare x y ≠ .eq := fun h => hx (Std.LawfulEqCmp.eq_of_compare h).symm
      cases rows.cell? ⟨s, y⟩ <;> simp [hx, hne]
  · rw [cell?_retainRow_of_ne _ _ _ _ hr]
    simp [hr]

end Rows

/-! ### Tables -/

namespace Table

open Rows

variable {ρ γ α β : Type} [Ord ρ] [Ord γ] [Std.TransOrd ρ] [Std.LawfulEqOrd ρ] [Std.TransOrd γ]
  [Std.LawfulEqOrd γ]

/-- The entries of a table that is made of rows come row by row. -/
theorem toList_ofRows (rows : Rows ρ γ α) : (ofRows rows).toList = rows.entries :=
  SortedMap.toList_ofList (pairwise_flatMap_rows rows)

variable [DecidableEq ρ]

theorem rows_mapValues (t : Table ρ γ α) (f : Cell ρ γ → α → β) :
    Table.rows (SortedMap.mapValues t f) = Rows.mapCells t.rows f :=
  (tidy_rows _).ext ((tidy_rows t).mapCells f) fun c => by
    rw [cell?_rows, SortedMap.get?_mapValues, cell?_mapCells, cell?_rows]

/-- The entries of a table come row by row. -/
theorem entries_rows (t : Table ρ γ α) : Rows.entries t.rows = t.toList := by
  rw [← toList_ofRows, ofRows_rows]

/-- A table has no rows exactly if it has no values. -/
theorem isEmpty_rows (t : Table ρ γ α) : SortedMap.isEmpty t.rows = t.isEmpty := by
  rw [← isEmpty_ofRows (tidy_rows t), ofRows_rows]

/-- The rows of a table make the table. -/
theorem ofRows?_rows (t : Table ρ γ α) : ofRows? t.rows = .ok t :=
  ofRows?_eq_ok_iff.2 ⟨tidy_rows t, ofRows_rows t⟩

variable [DecidableEq γ]

/-- What is inserted into a table is put at its cell. -/
theorem rows_insert (t : Table ρ γ α) (c : Cell ρ γ) (v : α) :
    Table.rows (SortedMap.insert t c v) = Rows.put t.rows c v :=
  (tidy_rows _).ext ((tidy_rows t).put c v) fun d => by
    rw [cell?_rows, SortedMap.get?_insert, cell?_put, cell?_rows]

/-- What is erased from a table is taken away from its cell. -/
theorem rows_erase (t : Table ρ γ α) (c : Cell ρ γ) : Table.rows (SortedMap.erase t c) = Rows.remove t.rows c :=
  (tidy_rows _).ext ((tidy_rows t).remove c) fun d => by
    rw [cell?_rows, SortedMap.get?_erase, cell?_remove, cell?_rows]

/-- To put values at their cells one after the other is to insert them all. -/
theorem foldl_put (l : List (Cell ρ γ × α)) (t : Table ρ γ α) :
    l.foldl (fun rows e => Rows.put rows e.1 e.2) t.rows = Table.rows (SortedMap.insertMany t l) :=
  List.foldl_hom Table.rows fun t e => (rows_insert t e.1 e.2).symm

end Table
end Outbox
