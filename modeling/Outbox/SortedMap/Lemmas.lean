/-
# What the operations on maps in key order do to look-ups

Every operation is described through `SortedMap.get?`, and a map is determined by its look-ups, so
nothing outside this file needs the list of entries behind a map. The members of the list are
exactly the look-ups that succeed.

Key theorems: `SortedMap.ext`, `SortedMap.mem_toList`, `SortedMap.get?_insert`,
`SortedMap.get?_filter`, `SortedMap.get?_erase`, `SortedMap.get?_mapValues`.
-/
import Outbox.SortedMap.Basic

namespace Outbox
namespace SortedMap

variable {κ α β : Type} [Ord κ]

theorem lookup_eq_none_of_lt [Std.TransOrd κ] {k : κ} :
    ∀ {l : List (κ × α)}, (∀ e ∈ l, compare k e.1 = .lt) → lookup k l = none
  | [], _ => rfl
  | e :: l, h => by
    simp [lookup, h e List.mem_cons_self,
      lookup_eq_none_of_lt fun e he => h e (List.mem_cons_of_mem _ he)]

/-- In a list with increasing keys the entries are exactly the look-ups that succeed. -/
theorem mem_iff_lookup [Std.TransOrd κ] [Std.LawfulEqOrd κ] {k : κ} {v : α} :
    ∀ {l : List (κ × α)}, l.Pairwise (fun a b => compare a.1 b.1 = .lt) →
      ((k, v) ∈ l ↔ lookup k l = some v)
  | [], _ => by simp [lookup]
  | (k', v') :: l, h => by
    obtain ⟨hl, ht⟩ := List.pairwise_cons.1 h
    by_cases hk : compare k k' = .eq
    · cases Std.LawfulEqCmp.eq_of_compare hk
      have hn : (k, v) ∉ l := fun hm => by
        have := hl _ hm
        rw [Std.ReflOrd.compare_self] at this
        cases this
      simp [lookup, hn, eq_comm]
    · have hne : k ≠ k' := fun e => hk (e ▸ Std.ReflOrd.compare_self)
      simp [lookup, hk, hne, mem_iff_lookup ht]

/-- The entries of a map are exactly the look-ups that succeed. -/
theorem mem_toList [Std.TransOrd κ] [Std.LawfulEqOrd κ] {m : SortedMap κ α} {k : κ} {v : α} :
    (k, v) ∈ m.toList ↔ m.get? k = some v :=
  mem_iff_lookup m.increasing

theorem toList_eq_of_lookup [Std.TransOrd κ] [Std.LawfulEqOrd κ] :
    ∀ {l l' : List (κ × α)}, l.Pairwise (fun a b => compare a.1 b.1 = .lt) →
      l'.Pairwise (fun a b => compare a.1 b.1 = .lt) → (∀ k, lookup k l = lookup k l') → l = l'
  | [], [], _, _, _ => rfl
  | [], (k, v) :: l, _, _, h => by simpa [lookup, Std.ReflOrd.compare_self] using h k
  | (k, v) :: l, [], _, _, h => by simpa [lookup, Std.ReflOrd.compare_self] using h k
  | (k, v) :: l, (k', v') :: l', hp, hp', h => by
    obtain ⟨hl, ht⟩ := List.pairwise_cons.1 hp
    obtain ⟨hl', ht'⟩ := List.pairwise_cons.1 hp'
    -- Neither list can start below the other: its head would be missing there.
    have hkk' : compare k k' = .eq := by
      cases hc : compare k k' with
      | eq => rfl
      | lt =>
        have := h k
        have hn : lookup k l' = none :=
          lookup_eq_none_of_lt fun e he => Std.TransCmp.lt_trans hc (hl' e he)
        simp [lookup, Std.ReflOrd.compare_self, hc, hn] at this
      | gt =>
        have := h k'
        have hc' : compare k' k = .lt := Std.OrientedCmp.lt_of_gt hc
        have hn : lookup k' l = none :=
          lookup_eq_none_of_lt fun e he => Std.TransCmp.lt_trans hc' (hl e he)
        simp [lookup, Std.ReflOrd.compare_self, hc', hn] at this
    cases Std.LawfulEqCmp.eq_of_compare hkk'
    have hv : v = v' := by simpa [lookup, Std.ReflOrd.compare_self] using h k
    subst hv
    refine congrArg _ (toList_eq_of_lookup ht ht' fun x => ?_)
    by_cases hx : compare x k = .eq
    · cases Std.LawfulEqCmp.eq_of_compare hx
      rw [lookup_eq_none_of_lt hl, lookup_eq_none_of_lt hl']
    · simpa [lookup, hx] using h x

/-- **A map is determined by its look-ups.** -/
@[ext] theorem ext [Std.TransOrd κ] [Std.LawfulEqOrd κ] {m n : SortedMap κ α}
    (h : ∀ k, m.get? k = n.get? k) : m = n :=
  eq_of_toList_eq (toList_eq_of_lookup m.increasing n.increasing h)

@[simp] theorem toList_empty : (∅ : SortedMap κ α).toList = [] := rfl

@[simp] theorem get?_empty (k : κ) : (∅ : SortedMap κ α).get? k = none := rfl

theorem isEmpty_iff {m : SortedMap κ α} : m.isEmpty = true ↔ m = ∅ := by
  refine ⟨fun h => eq_of_toList_eq (List.isEmpty_iff.1 h), ?_⟩
  rintro rfl
  rfl

theorem mem_iff {m : SortedMap κ α} {k : κ} : k ∈ m ↔ ∃ v, m.get? k = some v :=
  Option.isSome_iff_exists

theorem contains_iff {m : SortedMap κ α} {k : κ} : m.contains k = true ↔ k ∈ m := Iff.rfl

theorem mem_keys [Std.TransOrd κ] [Std.LawfulEqOrd κ] {m : SortedMap κ α} {k : κ} :
    k ∈ m.keys ↔ k ∈ m := by
  simp only [keys, List.mem_map, Prod.exists, mem_toList, mem_iff]
  constructor
  · rintro ⟨k, v, h, rfl⟩
    exact ⟨v, h⟩
  · rintro ⟨v, h⟩
    exact ⟨k, v, h, rfl⟩

theorem nodup_keys [Std.TransOrd κ] [Std.LawfulEqOrd κ] (m : SortedMap κ α) : m.keys.Nodup := by
  refine List.pairwise_map.2 (m.increasing.imp fun {a b} h e => ?_)
  rw [e, Std.ReflOrd.compare_self] at h
  cases h

theorem lookup_insertEntry_self [Std.TransOrd κ] [Std.LawfulEqOrd κ] {k : κ} {v : α} :
    ∀ l : List (κ × α), lookup k (insertEntry k v l) = some v
  | [] => by simp [insertEntry, lookup, Std.ReflOrd.compare_self]
  | (k', v') :: l => by
    unfold insertEntry
    split
    · simp [lookup, Std.ReflOrd.compare_self]
    · simp [lookup, Std.ReflOrd.compare_self]
    · next h => simp [lookup, h, lookup_insertEntry_self l]

theorem lookup_insertEntry_of_ne [Std.TransOrd κ] [Std.LawfulEqOrd κ] {k k₀ : κ} {v : α}
    (hne : k ≠ k₀) : ∀ l : List (κ × α), lookup k (insertEntry k₀ v l) = lookup k l
  | [] => by
    have : compare k k₀ ≠ .eq := fun h => hne (Std.LawfulEqCmp.eq_of_compare h)
    simp [insertEntry, lookup, this]
  | (k', v') :: l => by
    have hk : compare k k₀ ≠ .eq := fun h => hne (Std.LawfulEqCmp.eq_of_compare h)
    unfold insertEntry
    split
    · simp [lookup, hk]
    · next h =>
      cases Std.LawfulEqCmp.eq_of_compare h
      simp [lookup, hk]
    · simp [lookup, lookup_insertEntry_of_ne hne l]

@[simp] theorem get?_insert_self [Std.TransOrd κ] [Std.LawfulEqOrd κ] (m : SortedMap κ α) (k : κ)
    (v : α) : (m.insert k v).get? k = some v :=
  lookup_insertEntry_self _

theorem get?_insert_of_ne [Std.TransOrd κ] [Std.LawfulEqOrd κ] (m : SortedMap κ α) {k k₀ : κ}
    (v : α) (h : k ≠ k₀) : (m.insert k₀ v).get? k = m.get? k :=
  lookup_insertEntry_of_ne h _

theorem get?_insert [Std.TransOrd κ] [Std.LawfulEqOrd κ] [DecidableEq κ] (m : SortedMap κ α)
    (k k₀ : κ) (v : α) : (m.insert k₀ v).get? k = if k = k₀ then some v else m.get? k := by
  split
  · next h => rw [h, get?_insert_self]
  · next h => exact get?_insert_of_ne m v h

theorem lookup_filter [Std.TransOrd κ] [Std.LawfulEqOrd κ] {p : κ → α → Bool} {k : κ} :
    ∀ {l : List (κ × α)}, l.Pairwise (fun a b => compare a.1 b.1 = .lt) →
      lookup k (l.filter fun e => p e.1 e.2) = (lookup k l).filter (p k)
  | [], _ => rfl
  | (k', v) :: l, h => by
    obtain ⟨hl, ht⟩ := List.pairwise_cons.1 h
    have ih := lookup_filter (p := p) (k := k) ht
    by_cases hk : compare k k' = .eq
    · cases Std.LawfulEqCmp.eq_of_compare hk
      have hn : lookup k l = none := lookup_eq_none_of_lt hl
      cases hp : p k v <;> simp_all [lookup, Option.filter, Std.ReflOrd.compare_self]
    · cases hp : p k' v <;> simp_all [lookup]

/-- A filtered map has the entries that satisfy the test. -/
@[simp] theorem get?_filter [Std.TransOrd κ] [Std.LawfulEqOrd κ] (m : SortedMap κ α)
    (p : κ → α → Bool) (k : κ) : (m.filter p).get? k = (m.get? k).filter (p k) :=
  lookup_filter m.increasing

@[simp] theorem get?_erase_self [Std.TransOrd κ] [Std.LawfulEqOrd κ] (m : SortedMap κ α) (k : κ) :
    (m.erase k).get? k = none := by
  cases h : m.get? k <;> simp [erase, h, Std.ReflOrd.compare_self]

theorem get?_erase_of_ne [Std.TransOrd κ] [Std.LawfulEqOrd κ] (m : SortedMap κ α) {k k₀ : κ}
    (h : k ≠ k₀) : (m.erase k₀).get? k = m.get? k := by
  have : compare k₀ k ≠ .eq := fun hc => h (Std.LawfulEqCmp.eq_of_compare hc).symm
  cases hg : m.get? k <;> simp [erase, hg, this]

theorem get?_erase [Std.TransOrd κ] [Std.LawfulEqOrd κ] [DecidableEq κ] (m : SortedMap κ α)
    (k k₀ : κ) : (m.erase k₀).get? k = if k = k₀ then none else m.get? k := by
  split
  · next h => rw [h, get?_erase_self]
  · next h => exact get?_erase_of_ne m h

theorem get?_erase_eq_some_iff [Std.TransOrd κ] [Std.LawfulEqOrd κ] [DecidableEq κ]
    {m : SortedMap κ α} {k k₀ : κ} {v : α} :
    (m.erase k₀).get? k = some v ↔ k ≠ k₀ ∧ m.get? k = some v := by
  rw [get?_erase, Option.ite_none_left_eq_some]

theorem lookup_map [Std.LawfulEqOrd κ] {f : κ → α → β} {k : κ} :
    ∀ l : List (κ × α), lookup k (l.map fun e => (e.1, f e.1 e.2)) = (lookup k l).map (f k)
  | [] => rfl
  | (k', v) :: l => by
    by_cases hk : compare k k' = .eq
    · cases Std.LawfulEqCmp.eq_of_compare hk
      simp [lookup]
    · simp [lookup, hk, lookup_map l]

@[simp] theorem get?_mapValues [Std.LawfulEqOrd κ] (m : SortedMap κ α) (f : κ → α → β) (k : κ) :
    (m.mapValues f).get? k = (m.get? k).map (f k) :=
  lookup_map _

@[simp] theorem get?_modify_self [Std.LawfulEqOrd κ] (m : SortedMap κ α) (k : κ) (f : α → α) :
    (m.modify k f).get? k = (m.get? k).map f := by
  simp [modify, Std.ReflOrd.compare_self]

theorem get?_modify_of_ne [Std.LawfulEqOrd κ] [Std.OrientedOrd κ] (m : SortedMap κ α) {k k₀ : κ}
    (f : α → α) (h : k ≠ k₀) : (m.modify k₀ f).get? k = m.get? k := by
  have : compare k₀ k ≠ .eq := fun hc => h (Std.LawfulEqCmp.eq_of_compare hc).symm
  cases hg : m.get? k <;> simp [modify, hg, this]

@[simp] theorem insertMany_nil [Std.TransOrd κ] [Std.LawfulEqOrd κ] (m : SortedMap κ α) :
    m.insertMany [] = m := rfl

@[simp] theorem insertMany_cons [Std.TransOrd κ] [Std.LawfulEqOrd κ] (m : SortedMap κ α)
    (e : κ × α) (l : List (κ × α)) : m.insertMany (e :: l) = (m.insert e.1 e.2).insertMany l := rfl

theorem mem_mapValues [Std.LawfulEqOrd κ] {m : SortedMap κ α} {f : κ → α → β} {k : κ} :
    k ∈ m.mapValues f ↔ k ∈ m := by
  rw [mem_iff, mem_iff, get?_mapValues]
  cases m.get? k <;> simp

theorem isEmpty_eq_false_of_mem {m : SortedMap κ α} {k : κ} (h : k ∈ m) : m.isEmpty = false := by
  rw [Bool.eq_false_iff, ne_eq, isEmpty_iff]
  rintro rfl
  simp [mem_iff] at h

/-- A map that is not empty has an entry. -/
theorem exists_get?_of_isEmpty [Std.TransOrd κ] [Std.LawfulEqOrd κ] {m : SortedMap κ α}
    (h : m.isEmpty = false) : ∃ k v, m.get? k = some v := by
  obtain ⟨⟨k, v⟩, he⟩ := List.isEmpty_eq_false_iff_exists_mem.1 h
  exact ⟨k, v, mem_toList.1 he⟩

theorem isEmpty_take {m : SortedMap κ α} {n : Nat} (hm : m.isEmpty = false) (hn : 0 < n) :
    (m.take n).isEmpty = false := by
  obtain ⟨l, hl⟩ := m
  cases l with
  | nil => cases hm
  | cons e l =>
    obtain ⟨n, rfl⟩ := Nat.exists_eq_succ_of_ne_zero (Nat.ne_of_gt hn)
    rfl

theorem get?_of_get?_take [Std.TransOrd κ] [Std.LawfulEqOrd κ] {m : SortedMap κ α} {n : Nat} {k : κ}
    {v : α} (h : (m.take n).get? k = some v) : m.get? k = some v :=
  mem_toList.1 (List.mem_of_mem_take (mem_toList.2 h))

theorem mem_of_mem_take [Std.TransOrd κ] [Std.LawfulEqOrd κ] {m : SortedMap κ α} {n : Nat} {k : κ}
    (h : k ∈ m.take n) : k ∈ m := by
  obtain ⟨v, hv⟩ := mem_iff.1 h
  exact mem_iff.2 ⟨v, get?_of_get?_take hv⟩

theorem mem_insert [Std.TransOrd κ] [Std.LawfulEqOrd κ] {m : SortedMap κ α} {k k₀ : κ} {v : α} :
    k ∈ m.insert k₀ v ↔ k = k₀ ∨ k ∈ m := by
  rw [mem_iff, mem_iff]
  by_cases h : k = k₀
  · rw [h, get?_insert_self]
    simp
  · rw [get?_insert_of_ne m v h]
    simp [h]

/-- After insertions there are the old keys and the inserted ones. -/
theorem mem_insertMany [Std.TransOrd κ] [Std.LawfulEqOrd κ] {k : κ} {l : List (κ × α)}
    {m : SortedMap κ α} : k ∈ m.insertMany l ↔ k ∈ l.map Prod.fst ∨ k ∈ m := by
  induction l generalizing m with
  | nil => simp
  | cons e l ih =>
    rw [insertMany_cons, ih, mem_insert, List.map_cons, List.mem_cons]
    exact or_left_comm.trans or_assoc.symm

/-- After insertions of entries in order, an inserted value is found first. -/
theorem get?_insertMany [Std.TransOrd κ] [Std.LawfulEqOrd κ] {k : κ} {l : List (κ × α)}
    {m : SortedMap κ α} (hl : l.Pairwise fun a b => compare a.1 b.1 = .lt) :
    (m.insertMany l).get? k = (lookup k l).or (m.get? k) := by
  induction l generalizing m with
  | nil => rfl
  | cons e l ih =>
    obtain ⟨he, ht⟩ := List.pairwise_cons.1 hl
    rw [insertMany_cons, ih ht]
    by_cases hk : k = e.1
    · subst hk
      rw [lookup_eq_none_of_lt he, get?_insert_self]
      simp [lookup, Std.ReflOrd.compare_self]
    · have hne : compare k e.1 ≠ .eq := fun hc => hk (Std.LawfulEqCmp.eq_of_compare hc)
      rw [get?_insert_of_ne m e.2 hk]
      simp [lookup, hne]

/-- A map over another one: its values are found first. -/
theorem get?_insertMany_toList [Std.TransOrd κ] [Std.LawfulEqOrd κ] (m n : SortedMap κ α) (k : κ) :
    (m.insertMany n.toList).get? k = (n.get? k).or (m.get? k) :=
  get?_insertMany n.increasing

theorem isEmpty_iff_get? [Std.TransOrd κ] [Std.LawfulEqOrd κ] {m : SortedMap κ α} :
    m.isEmpty = true ↔ ∀ k, m.get? k = none := by
  constructor
  · intro h k
    rw [isEmpty_iff.1 h, get?_empty]
  · intro h
    rw [isEmpty_iff]
    exact ext h

theorem isEmpty_insertMany [Std.TransOrd κ] [Std.LawfulEqOrd κ] {m n : SortedMap κ α}
    (h : n.isEmpty = false) : (m.insertMany n.toList).isEmpty = false := by
  obtain ⟨k, v, hv⟩ := exists_get?_of_isEmpty h
  apply isEmpty_eq_false_of_mem (k := k)
  rw [mem_iff, get?_insertMany_toList, hv]
  exact ⟨v, rfl⟩

end SortedMap

/-- A set has the members of the list that it was made of. -/
theorem SortedSet.mem_ofKeys {κ : Type} [Ord κ] [Std.TransOrd κ] [Std.LawfulEqOrd κ] {k : κ}
    {l : List κ} : k ∈ SortedSet.ofKeys l ↔ k ∈ l := by
  have he : k ∉ (∅ : SortedMap κ Unit) := by simp [SortedMap.mem_iff]
  rw [ofKeys, SortedMap.ofList, SortedMap.mem_insertMany, or_iff_left he, List.map_map]
  simp [Function.comp_def]

/-- Two sets with the same members are the same set. -/
theorem SortedSet.eq_of_mem_iff {κ : Type} [Ord κ] [Std.TransOrd κ] [Std.LawfulEqOrd κ]
    {s t : SortedSet κ} (h : ∀ k, k ∈ s ↔ k ∈ t) : s = t := by
  have hmem : ∀ (s : SortedSet κ) k, s.get? k = some () ↔ k ∈ s := fun s k =>
    ⟨fun hk => SortedMap.mem_iff.2 ⟨_, hk⟩, fun hk => (SortedMap.mem_iff.1 hk).elim fun _ hk => hk⟩
  exact SortedMap.ext fun k => Option.ext fun ⟨⟩ => by rw [hmem, hmem, h]

/-- The keys of a set that is made of a list in order are the list. -/
theorem SortedSet.keys_ofKeys {κ : Type} [Ord κ] [Std.TransOrd κ] [Std.LawfulEqOrd κ] {l : List κ}
    (hl : l.Pairwise fun a b => compare a b = .lt) : (SortedSet.ofKeys l).keys = l := by
  let s : SortedSet κ := ⟨l.map fun k => (k, ()), List.pairwise_map.2 hl⟩
  have hkeys : s.keys = l := by simp [s, SortedMap.keys, Function.comp_def]
  have heq : SortedSet.ofKeys l = s := by
    refine SortedSet.eq_of_mem_iff fun k => ?_
    rw [SortedSet.mem_ofKeys, ← SortedMap.mem_keys, hkeys]
  rw [heq, hkeys]

end Outbox
