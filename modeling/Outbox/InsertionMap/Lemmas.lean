/-
# Look-ups in maps in order of insertion

What each operation does to look-ups and to the order of the keys.

Key theorems: `InsertionMap.get?_eq_none_iff`, `InsertionMap.mem_toList_iff`,
`InsertionMap.get?_insert`, `InsertionMap.get?_erase`, `InsertionMap.keys_insert_of_notMem`.
-/
import Outbox.InsertionMap.Basic

namespace Outbox
namespace InsertionMap

variable {κ α β : Type}

theorem mem_iff {m : InsertionMap κ α} {k : κ} : k ∈ m ↔ k ∈ m.keys := Iff.rfl

variable [DecidableEq κ]

/-- There is no value at a key exactly if the key is not in the map. -/
theorem get?_eq_none_iff {m : InsertionMap κ α} {k : κ} : m.get? k = none ↔ k ∉ m := by
  unfold get?
  rw [List.lookup_eq_none_iff, mem_iff, keys, List.mem_map]
  refine ⟨fun h hk => ?_, fun h e he => bne_iff_ne.2 fun hk => h ⟨e, he, hk.symm⟩⟩
  obtain ⟨e, he, hk⟩ := hk
  exact bne_iff_ne.1 (h e he) hk.symm

/-- A key in the map has a value. -/
theorem exists_get?_of_mem {m : InsertionMap κ α} {k : κ} (h : k ∈ m) : ∃ v, m.get? k = some v := by
  cases hk : m.get? k with
  | none => exact absurd h (get?_eq_none_iff.1 hk)
  | some v => exact ⟨v, rfl⟩

theorem lookup_map (l : List (κ × α)) (f : κ → α → β) (k : κ) :
    (l.map fun e => (e.1, f e.1 e.2)).lookup k = (l.lookup k).map (f k) := by
  induction l with
  | nil => rfl
  | cons e l ih =>
    obtain ⟨k', v⟩ := e
    by_cases hk : k = k'
    · subst hk
      simp
    · simp [List.lookup_cons, beq_false_of_ne hk, ih]

/-- The value at a key is changed on its own. -/
@[simp] theorem get?_mapValues (m : InsertionMap κ α) (f : κ → α → β) (k : κ) :
    (m.mapValues f).get? k = (m.get? k).map (f k) :=
  lookup_map m.toList f k

theorem lookup_filter {p : κ → α → Bool} {l : List (κ × α)} (h : (l.map Prod.fst).Nodup) (k : κ) :
    (l.filter fun e => p e.1 e.2).lookup k = (l.lookup k).filter (p k) := by
  induction l with
  | nil => rfl
  | cons e l ih =>
    obtain ⟨k', v⟩ := e
    obtain ⟨hk', hl⟩ := List.nodup_cons.1 h
    by_cases hk : k = k'
    · subst hk
      have hn : (l.filter fun e => p e.1 e.2).lookup k = none := by
        refine List.lookup_eq_none_iff.2 fun e he => bne_iff_ne.2 fun hke => hk' ?_
        exact List.mem_map.2 ⟨e, (List.mem_filter.1 he).1, hke.symm⟩
      by_cases hp : p k v = true <;> simp [hp, hn, Option.filter]
    · have hb : (k == k') = false := beq_false_of_ne hk
      by_cases hp : p k' v = true <;> simp [List.lookup_cons, hp, hb, ih hl]

/-- A filtered map has the entries that satisfy the test. -/
@[simp] theorem get?_filter (m : InsertionMap κ α) (p : κ → α → Bool) (k : κ) :
    (m.filter p).get? k = (m.get? k).filter (p k) :=
  lookup_filter m.nodup k

/-- After a removal there is no value at the key, and the others are as they were. -/
theorem get?_erase (m : InsertionMap κ α) (k k' : κ) :
    (m.erase k).get? k' = if k' = k then none else m.get? k' := by
  unfold erase
  rw [get?_filter]
  by_cases h : k' = k
  · cases m.get? k' <;> simp [h]
  · cases m.get? k' <;> simp [h]

theorem get?_push (m : InsertionMap κ α) (k : κ) (v : α) (h : k ∉ m) (k' : κ) :
    (m.push k v h).get? k' = if k' = k then some v else m.get? k' := by
  have hl : (m.push k v h).get? k' = (m.get? k').or ([(k, v)].lookup k') := List.lookup_append
  rw [hl]
  by_cases hk : k' = k
  · subst hk
    simp [get?_eq_none_iff.2 h]
  · simp [List.lookup_cons, beq_false_of_ne hk, hk]

/-- After an insertion the value at the key is the inserted one, and the others are as they were. -/
theorem get?_insert (m : InsertionMap κ α) (k : κ) (v : α) (k' : κ) :
    (m.insert k v).get? k' = if k' = k then some v else m.get? k' := by
  unfold insert
  split
  · next h =>
    rw [get?_mapValues]
    by_cases hk : k' = k
    · subst hk
      obtain ⟨w, hw⟩ := exists_get?_of_mem h
      simp [hw]
    · simp [hk]
  · next h => exact get?_push m k v h k'

theorem mem_iff_get? {m : InsertionMap κ α} {k : κ} : k ∈ m ↔ ∃ v, m.get? k = some v :=
  ⟨exists_get?_of_mem, fun ⟨_, hv⟩ => Decidable.byContradiction fun hk =>
    nomatch hv.symm.trans (get?_eq_none_iff.2 hk)⟩

theorem mem_insert {m : InsertionMap κ α} {k k' : κ} {v : α} : k' ∈ m.insert k v ↔ k' = k ∨ k' ∈ m := by
  simp only [mem_iff_get?, get?_insert]
  split <;> simp [*]

theorem mem_erase {m : InsertionMap κ α} {k k' : κ} : k' ∈ m.erase k ↔ k' ≠ k ∧ k' ∈ m := by
  simp only [mem_iff_get?, get?_erase]
  split <;> simp [*]

/-- A new key comes last. -/
theorem keys_insert_of_notMem {m : InsertionMap κ α} {k : κ} (h : k ∉ m) (v : α) :
    (m.insert k v).keys = m.keys ++ [k] := by
  simp [insert, h, push, keys]

/-- The entries of a map are exactly the look-ups that succeed. -/
theorem mem_toList_iff {m : InsertionMap κ α} {k : κ} {v : α} :
    (k, v) ∈ m.toList ↔ m.get? k = some v := by
  unfold get?
  rw [List.lookup_eq_some_iff]
  constructor
  · intro h
    obtain ⟨l₁, l₂, hl⟩ := List.append_of_mem h
    refine ⟨l₁, l₂, hl, fun e he => bne_iff_ne.2 fun hk => ?_⟩
    -- An earlier entry with the same key would repeat the key.
    have hn := m.nodup
    rw [hl, List.map_append, List.nodup_append] at hn
    exact hn.2.2 e.1 (List.mem_map_of_mem he) k (by simp) hk.symm
  · rintro ⟨l₁, l₂, hl, -⟩
    rw [hl]
    simp

theorem mem_values {m : InsertionMap κ α} {v : α} : v ∈ m.values ↔ ∃ k, m.get? k = some v := by
  simp only [values, List.mem_map, Prod.exists, exists_eq_right, mem_toList_iff]

/-- If each value tells its key, no two values tell the same. -/
theorem pairwise_values {m : InsertionMap κ α} {f : α → κ}
    (h : ∀ {k v}, m.get? k = some v → f v = k) : m.values.Pairwise fun v w => f v ≠ f w := by
  refine List.pairwise_map.2 ((List.pairwise_map.1 m.nodup).imp_of_mem fun {a b} ha hb hne he => hne ?_)
  rw [← h (mem_toList_iff.1 ha), ← h (mem_toList_iff.1 hb), he]

end InsertionMap
end Outbox
