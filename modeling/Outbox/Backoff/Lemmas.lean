/-
# What a record of failures says of its items

An item on record is left alone from its last failure until its wait is over, and that is 15 seconds at
least. What is not on record is not left alone. So as long as nothing is recorded, an item that is left alone
was left alone before, and the other way around its wait may run out.

Key definitions: `Backoff.RanOut`.
Key theorems: `Backoff.contains_of_record`, `Backoff.contains_mono`, `Backoff.exists_get?_extend`,
`Backoff.get?_remove_of_mem`.
-/
import Outbox.Backoff.Basic
import Outbox.SortedMap.Lemmas

namespace Outbox
namespace Backoff

variable {κ : Type} [Ord κ] {b : Backoff κ} {k : κ} {now now' : Instant}

/-! ### Waits -/

/-- No wait is shorter than the first one. -/
theorem firstDelaySeconds_le_delay (i : Item) : firstDelaySeconds ≤ i.delay := by
  have hpow : 1 ≤ 1 <<< i.repetitions := by
    rw [Nat.one_shiftLeft]
    exact Nat.one_le_two_pow
  have hsize : UInt64.size = 18446744073709551616 := rfl
  simp only [Item.delay, delaySeconds, saturate, maxDelaySeconds, firstDelaySeconds, hsize]
  omega

/-- An item is left alone until its wait is over. -/
theorem Item.isActive_iff {i : Item} {now : Instant} :
    i.isActive now = true ↔ now < i.since + i.delay * nanosPerSecond := by
  have hpos : 0 < i.delay * nanosPerSecond :=
    Nat.mul_pos (Nat.lt_of_lt_of_le (by decide) (firstDelaySeconds_le_delay i)) (by decide)
  have hsub : ∀ a b c : Nat, 0 < c → (a - b < c ↔ a < b + c) := fun a b c _ => by omega
  rw [isActive, decide_eq_true_eq]
  exact hsub _ _ _ hpos

/-- What is on record is left alone for the first wait at least. -/
theorem contains_of_record {i : Item} (hi : b.items.get? k = some i)
    (hlt : now' < i.since + firstDelaySeconds * nanosPerSecond) : b.contains now' k = true := by
  have hle := Nat.mul_le_mul_right nanosPerSecond (firstDelaySeconds_le_delay i)
  rw [contains, hi, Option.any_some, Item.isActive_iff]
  exact Nat.lt_of_lt_of_le hlt (Nat.add_le_add_left hle _)

/-- What is not on record is not left alone. -/
theorem contains_of_get?_eq_none (h : b.items.get? k = none) (now : Instant) :
    b.contains now k = false := by
  rw [contains, h]
  rfl

/-- What is left alone at a time was left alone before, since it was put on record. -/
theorem contains_mono (hle : now ≤ now') (h : b.contains now' k = true) : b.contains now k = true := by
  obtain ⟨i, hi, hactive⟩ := (Option.any_eq_true _ _).1 h
  rw [Item.isActive_iff] at hactive
  rw [contains, hi, Option.any_some, Item.isActive_iff]
  exact Nat.lt_of_le_of_lt hle hactive

/-- The item was left alone, and no longer is. -/
def RanOut (b : Backoff κ) (now now' : Instant) (k : κ) : Prop :=
  b.contains now k = true ∧ b.contains now' k = false

/-- No wait runs out in no time. -/
theorem not_ranOut_self (b : Backoff κ) (now : Instant) (k : κ) : ¬ b.RanOut now now k :=
  fun h => Bool.false_ne_true (h.2.symm.trans h.1)

/-! ### What is on record -/

variable [Std.TransOrd κ] [Std.LawfulEqOrd κ] {l : List κ}

theorem get?_extend_of_notMem (hk : k ∉ l) : (b.extend now l).items.get? k = b.items.get? k := by
  unfold extend
  induction l generalizing b with
  | nil => rfl
  | cons x l ih =>
    rw [List.mem_cons, not_or] at hk
    exact (ih hk.2).trans (SortedMap.get?_insert_of_ne _ _ hk.1)

/-- An item that failed is on record since it did. -/
theorem exists_get?_extend (hk : k ∈ l) :
    ∃ i, (b.extend now l).items.get? k = some i ∧ i.since = now := by
  unfold extend
  induction l generalizing b with
  | nil => cases hk
  | cons x l ih =>
    by_cases hmem : k ∈ l
    · exact ih hmem
    · obtain rfl : k = x := (List.mem_cons.1 hk).resolve_right hmem
      have hrecord : ((b.record now k).extend now l).items.get? k = (b.record now k).items.get? k :=
        get?_extend_of_notMem hmem
      exact ⟨_, hrecord.trans (SortedMap.get?_insert_self _ _ _), rfl⟩

theorem get?_remove_of_notMem (hk : k ∉ l) : (b.remove l).items.get? k = b.items.get? k := by
  obtain ⟨items⟩ := b
  simp only [remove]
  induction l generalizing items with
  | nil => rfl
  | cons x l ih =>
    rw [List.mem_cons, not_or] at hk
    exact (ih hk.2 (items.erase x)).trans (SortedMap.get?_erase_of_ne _ hk.1)

/-- What is not on record is not put there when items are taken off it. -/
theorem get?_foldl_erase {m : SortedMap κ Item} (h : m.get? k = none) :
    (l.foldl SortedMap.erase m).get? k = none := by
  induction l generalizing m with
  | nil => exact h
  | cons x l ih =>
    apply ih
    by_cases hx : k = x
    · rw [hx]
      exact SortedMap.get?_erase_self m x
    · rw [SortedMap.get?_erase_of_ne m hx]
      exact h

theorem get?_remove_of_mem (hk : k ∈ l) : (b.remove l).items.get? k = none := by
  obtain ⟨l₁, l₂, rfl⟩ := List.append_of_mem hk
  rw [remove, List.foldl_append, List.foldl_cons]
  exact get?_foldl_erase (SortedMap.get?_erase_self _ _)

end Backoff
end Outbox
