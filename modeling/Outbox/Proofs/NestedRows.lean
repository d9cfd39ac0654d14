/-
# Tables that are kept row by row

A table can be kept as a map of its rows, each of which is a map of its own. A row is made when the first
value for it comes, and has to go together with its last value: a row that stays behind has nothing in it
and still counts, and no request can be made of it.

As long as no row is empty, the rows say no more than the cells do. So what is done row by row to the rows of
a table is what is done to the table as a whole.

Key definitions: `Rows.cell?`, `Rows.Tidy`, `Rows.extendRow`, `Rows.extend`, `Rows.retainRow`, `Rows.prune`.
Key theorems: `Rows.cell?_foldl`, `Rows.Tidy.ext`, `Table.ofRows?_eq_ok_iff`, `Table.rows_insertMany`,
`Table.rows_filter`.
-/
import Outbox.Proofs.HostView

namespace Outbox

namespace Rows

variable {ρ γ α : Type} [Ord ρ] [Ord γ]

/-! ### Rows and cells -/

/-- The value at a cell, if its row is there and has a value for its column. -/
def cell? (rows : Rows ρ γ α) (c : Cell ρ γ) : Option α := (rows.get? c.row).bind (·.get? c.column)

/-- No row is empty. -/
def Tidy (rows : Rows ρ γ α) : Prop := ∀ r m, rows.get? r = some m → m.isEmpty = false

variable {rows rows' more : Rows ρ γ α} {r : ρ} {m : SortedMap γ α} {c : Cell ρ γ}

theorem cell?_eq (h : rows.get? c.row = some m) : rows.cell? c = m.get? c.column := by
  rw [cell?, h, Option.bind_some]

theorem tidy_empty : Tidy (∅ : Rows ρ γ α) := fun _ _ h => nomatch h

/-- Where no row is empty, a row that is not there is one without values. -/
theorem Tidy.get?_eq_none_iff [Std.TransOrd γ] [Std.LawfulEqOrd γ] (h : rows.Tidy) :
    rows.get? r = none ↔ ∀ x, rows.cell? ⟨r, x⟩ = none := by
  constructor
  · intro hr x
    simp [cell?, hr]
  · intro hnone
    cases hr : rows.get? r with
    | none => rfl
    | some m =>
      obtain ⟨x, v, hv⟩ := SortedMap.exists_get?_of_isEmpty (h r m hr)
      have hcell : rows.cell? ⟨r, x⟩ = some v := (cell?_eq hr).trans hv
      rw [hnone x] at hcell
      cases hcell

variable [Std.TransOrd ρ] [Std.LawfulEqOrd ρ]

theorem tidy_iff_toList : rows.Tidy ↔ ∀ e ∈ rows.toList, e.2.isEmpty = false := by
  simp only [Tidy, ← SortedMap.mem_toList, Prod.forall]

theorem Tidy.insert (h : rows.Tidy) (hm : m.isEmpty = false) : Tidy (SortedMap.insert rows r m) := by
  intro r' m' hr'
  by_cases he : r' = r
  · subst he
    rw [SortedMap.get?_insert_self, Option.some.injEq] at hr'
    rw [← hr', hm]
  · rw [SortedMap.get?_insert_of_ne _ _ he] at hr'
    exact h r' m' hr'

theorem Tidy.erase (h : rows.Tidy) : Tidy (SortedMap.erase rows r) := by
  intro r' m' hr'
  by_cases he : r' = r
  · rw [he, SortedMap.get?_erase_self] at hr'
    cases hr'
  · rw [SortedMap.get?_erase_of_ne _ he] at hr'
    exact h r' m' hr'

section Ext

variable [Std.TransOrd γ] [Std.LawfulEqOrd γ]

/-- **Rows of which none is empty are told by their cells.** -/
theorem Tidy.ext (h : rows.Tidy) (h' : rows'.Tidy) (hc : ∀ c, rows.cell? c = rows'.cell? c) :
    rows = rows' := by
  refine SortedMap.ext fun r => ?_
  have hnone : rows.get? r = none ↔ rows'.get? r = none := by
    rw [h.get?_eq_none_iff, h'.get?_eq_none_iff]
    simp only [hc]
  cases hr : rows.get? r with
  | none => exact (hnone.1 hr).symm
  | some m =>
    cases hr' : rows'.get? r with
    | none =>
      rw [hnone.2 hr'] at hr
      cases hr
    | some m' =>
      refine congrArg some (SortedMap.ext fun x => ?_)
      rw [← cell?_eq (c := ⟨r, x⟩) hr, hc, cell?_eq hr']

/-- Where no row is empty, there are no rows exactly if there are no values. -/
theorem Tidy.isEmpty_iff (h : rows.Tidy) : rows.isEmpty = true ↔ ∀ c, rows.cell? c = none := by
  rw [SortedMap.isEmpty_iff_get?]
  constructor
  · intro hr c
    exact h.get?_eq_none_iff.1 (hr c.row) c.column
  · intro hc r
    exact h.get?_eq_none_iff.2 fun x => hc ⟨r, x⟩

end Ext

/-! ### One row after the other -/

/-- If what is done for a row changes the cells of this row only, then what is done for one row after the
other changes each cell once, as it was at first. -/
theorem cell?_foldl {β : Type} {f : Rows ρ γ α → ρ → SortedMap γ β → Rows ρ γ α}
    {g : SortedMap γ β → γ → Option α → Option α}
    (hself : ∀ rows r m x, (f rows r m).cell? ⟨r, x⟩ = g m x (rows.cell? ⟨r, x⟩))
    (hother : ∀ rows r m (c : Cell ρ γ), c.row ≠ r → (f rows r m).cell? c = rows.cell? c)
    {l : List (ρ × SortedMap γ β)} (hl : l.Pairwise fun a b => compare a.1 b.1 = .lt)
    (rows : Rows ρ γ α) (c : Cell ρ γ) :
    (l.foldl (fun rows e => f rows e.1 e.2) rows).cell? c =
      ((SortedMap.lookup c.row l).elim (rows.cell? c) fun m => g m c.column (rows.cell? c)) := by
  induction l generalizing rows with
  | nil => rfl
  | cons e l ih =>
    obtain ⟨he, ht⟩ := List.pairwise_cons.1 hl
    rw [List.foldl_cons, ih ht]
    by_cases hc : c.row = e.1
    · obtain ⟨r, x⟩ := c
      have hc : r = e.1 := hc
      subst hc
      -- all later rows have larger keys, so that the row of the cell is not met again
      rw [SortedMap.lookup_eq_none_of_lt he, hself]
      simp [SortedMap.lookup, Std.ReflOrd.compare_self]
    · have hne : compare c.row e.1 ≠ .eq := fun h => hc (Std.LawfulEqCmp.eq_of_compare h)
      rw [hother _ _ _ _ hc]
      simp [SortedMap.lookup, hne]

/-! ### Values that go -/

/-- Keeps the values of a row that satisfy a test, and the row if there are any. -/
def retainRow (rows : Rows ρ γ α) (r : ρ) (keep : γ → α → Bool) : Rows ρ γ α :=
  match rows.get? r with
  | none => rows
  | some m => if (m.filter keep).isEmpty then rows.erase r else rows.insert r (m.filter keep)

/-- Takes out the values that other rows have too, one row after the other. -/
def prune [BEq α] (rows done : Rows ρ γ α) : Rows ρ γ α :=
  done.toList.foldl (fun rows e => rows.retainRow e.1 fun x v => !(e.2.get? x).any (· == v)) rows

/-- A row that lost its last value is gone. -/
theorem Tidy.retainRow (h : rows.Tidy) (r : ρ) (keep : γ → α → Bool) : (rows.retainRow r keep).Tidy := by
  unfold Rows.retainRow
  split
  · exact h
  · next m _ =>
    by_cases hm : (m.filter keep).isEmpty = true
    · rw [if_pos hm]
      exact h.erase
    · rw [if_neg hm]
      exact h.insert (Bool.eq_false_iff.2 hm)

theorem Tidy.prune [BEq α] (h : rows.Tidy) (done : Rows ρ γ α) : (rows.prune done).Tidy :=
  List.foldlRecOn _ _ h fun _ h e _ => h.retainRow e.1 _

theorem cell?_retainRow_of_ne (rows : Rows ρ γ α) (r : ρ) (keep : γ → α → Bool) (c : Cell ρ γ)
    (hc : c.row ≠ r) : (rows.retainRow r keep).cell? c = rows.cell? c := by
  unfold retainRow cell?
  split
  · rfl
  · split
    · rw [SortedMap.get?_erase_of_ne _ hc]
    · rw [SortedMap.get?_insert_of_ne _ _ hc]

variable [Std.TransOrd γ] [Std.LawfulEqOrd γ]

theorem cell?_retainRow_self (rows : Rows ρ γ α) (r : ρ) (keep : γ → α → Bool) (x : γ) :
    (rows.retainRow r keep).cell? ⟨r, x⟩ = (rows.cell? ⟨r, x⟩).filter (keep x) := by
  unfold retainRow
  split
  · next hr => simp [cell?, hr]
  · next m hr =>
    have hfilter : (m.filter keep).get? x = (rows.cell? ⟨r, x⟩).filter (keep x) := by
      rw [cell?_eq hr, SortedMap.get?_filter]
    split
    · next hempty =>
      rw [← hfilter, SortedMap.isEmpty_iff_get?.1 hempty x]
      simp [cell?]
    · rw [← hfilter]
      exact cell?_eq (SortedMap.get?_insert_self _ _ _)

theorem cell?_prune [BEq α] (rows done : Rows ρ γ α) (c : Cell ρ γ) :
    (rows.prune done).cell? c = (rows.cell? c).filter fun v => !(done.cell? c).any (· == v) := by
  have hfold := cell?_foldl (f := fun rows r m => rows.retainRow r fun x v => !(m.get? x).any (· == v))
    (g := fun m x => Option.filter fun v => !(m.get? x).any (· == v))
    (fun rows r m x => cell?_retainRow_self rows r _ x)
    (fun rows r m c => cell?_retainRow_of_ne rows r _ c) done.increasing rows c
  refine hfold.trans ?_
  show (done.get? c.row).elim _ _ = (rows.cell? c).filter fun v => !((done.get? c.row).bind _).any _
  cases done.get? c.row with
  | none => cases rows.cell? c <;> rfl
  | some m => rfl

/-! ### Values that come -/

/-- Adds values to a row, over those that it has in the same columns. The row is made if it is not there. -/
def extendRow (rows : Rows ρ γ α) (r : ρ) (m : SortedMap γ α) : Rows ρ γ α :=
  rows.insert r ((rows.getD r ∅).insertMany m.toList)

/-- Adds rows one after the other. -/
def extend (rows more : Rows ρ γ α) : Rows ρ γ α :=
  more.toList.foldl (fun rows e => rows.extendRow e.1 e.2) rows

theorem Tidy.extendRow (h : rows.Tidy) (r : ρ) (hm : m.isEmpty = false) : (rows.extendRow r m).Tidy :=
  h.insert (SortedMap.isEmpty_insertMany hm)

theorem Tidy.extend (h : rows.Tidy) (hmore : more.Tidy) : (rows.extend more).Tidy :=
  List.foldlRecOn _ _ h fun _ h e he => h.extendRow e.1 (tidy_iff_toList.1 hmore e he)

theorem cell?_extendRow_self (rows : Rows ρ γ α) (r : ρ) (m : SortedMap γ α) (x : γ) :
    (rows.extendRow r m).cell? ⟨r, x⟩ = (m.get? x).or (rows.cell? ⟨r, x⟩) := by
  have hrow : (rows.extendRow r m).get? r = some ((rows.getD r ∅).insertMany m.toList) :=
    SortedMap.get?_insert_self _ _ _
  rw [cell?_eq hrow, SortedMap.get?_insertMany_toList, SortedMap.getD, cell?]
  cases rows.get? r with
  | none => simp
  | some n => simp

theorem cell?_extendRow_of_ne (rows : Rows ρ γ α) (r : ρ) (m : SortedMap γ α) (c : Cell ρ γ)
    (hc : c.row ≠ r) : (rows.extendRow r m).cell? c = rows.cell? c := by
  unfold cell? extendRow
  rw [SortedMap.get?_insert_of_ne _ _ hc]

theorem cell?_extend (rows more : Rows ρ γ α) (c : Cell ρ γ) :
    (rows.extend more).cell? c = (more.cell? c).or (rows.cell? c) := by
  refine (cell?_foldl (g := fun m x v => (m.get? x).or v) cell?_extendRow_self cell?_extendRow_of_ne
    more.increasing rows c).trans ?_
  show (more.get? c.row).elim _ _ = ((more.get? c.row).bind _).or _
  cases more.get? c.row with
  | none => rfl
  | some m => rfl

end Rows

/-! ### The rows of a table -/

namespace Table

open Rows

variable {ρ γ α : Type} [Ord ρ] [Ord γ] {rows : Rows ρ γ α} {t u : Table ρ γ α}

/-- The values of rows come by increasing cell. -/
theorem pairwise_flatMap_rows [Std.ReflOrd ρ] (rows : Rows ρ γ α) :
    (rows.toList.flatMap fun r => r.2.toList.map fun e => ((⟨r.1, e.1⟩ : Cell ρ γ), e.2)).Pairwise
      fun a b => compare a.1 b.1 = .lt := by
  rw [List.pairwise_flatMap]
  constructor
  · intro r _
    rw [List.pairwise_map]
    refine r.2.increasing.imp fun {a b} h => ?_
    exact (Cell.compare_of_row_eq (a := ⟨r.1, a.1⟩) (b := ⟨r.1, b.1⟩) rfl).trans h
  · refine rows.increasing.imp fun {r s} h a ha b hb => ?_
    obtain ⟨x, -, rfl⟩ := List.mem_map.1 ha
    obtain ⟨y, -, rfl⟩ := List.mem_map.1 hb
    rw [Cell.compare_eq, h]
    rfl

variable [Std.TransOrd ρ] [Std.LawfulEqOrd ρ] [Std.TransOrd γ] [Std.LawfulEqOrd γ]

/-- A table that is made of rows has their values. -/
theorem get?_ofRows (rows : Rows ρ γ α) (c : Cell ρ γ) : (ofRows rows).get? c = rows.cell? c := by
  have hinc := pairwise_flatMap_rows rows
  refine Option.ext fun v => ?_
  rw [ofRows, SortedMap.ofList, SortedMap.get?_insertMany hinc, SortedMap.get?_empty, Option.or_none,
    ← SortedMap.mem_iff_lookup hinc, cell?, Option.bind_eq_some_iff]
  simp only [List.mem_flatMap, List.mem_map, Prod.mk.injEq]
  constructor
  · rintro ⟨⟨r, m⟩, hr, ⟨x, w⟩, he, rfl, rfl⟩
    exact ⟨m, SortedMap.mem_toList.1 hr, SortedMap.mem_toList.1 he⟩
  · rintro ⟨m, hr, he⟩
    exact ⟨(c.row, m), SortedMap.mem_toList.2 hr, (c.column, v), SortedMap.mem_toList.2 he, rfl, rfl⟩

/-- Of rows of which none is empty, nothing is left out. -/
theorem isEmpty_ofRows (h : rows.Tidy) : (ofRows rows).isEmpty = rows.isEmpty := by
  rw [Bool.eq_iff_iff, SortedMap.isEmpty_iff_get?, h.isEmpty_iff]
  simp only [get?_ofRows]

/-- Rows make a table unless one of them is empty. -/
theorem ofRows?_eq_ok_iff : ofRows? rows = .ok t ↔ rows.Tidy ∧ ofRows rows = t := by
  unfold ofRows?
  split
  · next e he =>
    have hempty : e.2.isEmpty = true := by simpa using List.find?_some he
    refine iff_of_false nofun fun ⟨htidy, _⟩ => ?_
    rw [tidy_iff_toList.1 htidy e (List.mem_of_find?_eq_some he)] at hempty
    cases hempty
  · next he =>
    have htidy : rows.Tidy := by
      rw [tidy_iff_toList]
      intro e hmem
      exact Bool.eq_false_iff.2 (List.find?_eq_none.1 he e hmem)
    simp [htidy]

variable [DecidableEq ρ]

/-- The rows of a table have its values. -/
theorem cell?_rows (t : Table ρ γ α) (c : Cell ρ γ) : Rows.cell? t.rows c = t.get? c :=
  bind_get?_rows t c.row c.column

/-- No row of a table is empty. -/
theorem tidy_rows (t : Table ρ γ α) : Rows.Tidy t.rows := by
  intro r m hr
  obtain rfl := eq_row_of_mem_rows (SortedMap.mem_toList.2 hr)
  have hkey : r ∈ t.rowKeys := SortedMap.mem_mapValues.1 (SortedMap.mem_iff.2 ⟨_, hr⟩)
  obtain ⟨⟨r', x⟩, hc, hr'⟩ := List.mem_map.1 (SortedSet.mem_ofKeys.1 hkey)
  have hr' : r' = r := hr'
  subst hr'
  obtain ⟨v, hv⟩ := SortedMap.mem_iff.1 (SortedMap.mem_keys.1 hc)
  exact SortedMap.isEmpty_eq_false_of_mem (SortedMap.mem_iff.2 ⟨v, (get?_row t r' x).trans hv⟩)

/-- Rows of which none is empty are those of the table that is made of them. -/
theorem rows_ofRows (h : rows.Tidy) : (ofRows rows).rows = rows :=
  (tidy_rows _).ext h fun c => by rw [cell?_rows, get?_ofRows]

/-- A table is made of its rows. -/
theorem ofRows_rows (t : Table ρ γ α) : ofRows t.rows = t :=
  SortedMap.ext fun c => by rw [get?_ofRows, cell?_rows]

/-- What is inserted into a table is added to its rows. -/
theorem rows_insertMany (t u : Table ρ γ α) :
    Table.rows (SortedMap.insertMany t u.toList) = Rows.extend t.rows u.rows := by
  refine (tidy_rows _).ext ((tidy_rows t).extend (tidy_rows u)) fun c => ?_
  rw [cell?_rows, cell?_extend, cell?_rows, cell?_rows, SortedMap.get?_insertMany_toList]

/-- What is taken out of a table is taken out of its rows. -/
theorem rows_filter [BEq α] (t u : Table ρ γ α) :
    Table.rows (SortedMap.filter t fun c v => !(u.get? c).any (· == v)) = Rows.prune t.rows u.rows := by
  refine (tidy_rows _).ext ((tidy_rows t).prune u.rows) fun c => ?_
  rw [cell?_rows, cell?_prune, cell?_rows, cell?_rows, SortedMap.get?_filter]

end Table
end Outbox
