/-
# Finite maps in key order

`SortedMap κ α` is a finite map whose entries are listed by increasing key. The order is part of
the type, so whatever is read off a map (its keys, its entries, the first few of them) comes out in
key order, and two maps that answer every look-up alike are the same map.

The key order is `compare`: for texts it is the order of code points, which is also the order of
their UTF-8 bytes.

Key definitions: `SortedMap`, `SortedMap.get?`, `SortedMap.insert`, `SortedMap.erase`,
`SortedMap.filter`, `SortedMap.mapValues`, `SortedMap.ofList`, `SortedSet`.
-/

namespace Outbox

/-- A finite map, as the list of its entries by strictly increasing key. -/
structure SortedMap (κ : Type) (α : Type) [Ord κ] where
  /-- The entries, by increasing key. -/
  toList : List (κ × α)
  /-- Each key is below every later one. -/
  increasing : toList.Pairwise fun a b => compare a.1 b.1 = .lt

namespace SortedMap

variable {κ α β : Type} [Ord κ]

/-- Two maps with the same entries are the same map. -/
theorem eq_of_toList_eq {m n : SortedMap κ α} (h : m.toList = n.toList) : m = n := by
  cases m
  cases n
  cases h
  rfl

/-- The map without entries. -/
def empty : SortedMap κ α := ⟨[], .nil⟩

instance : EmptyCollection (SortedMap κ α) := ⟨empty⟩

instance : Inhabited (SortedMap κ α) := ⟨∅⟩

instance [BEq κ] [BEq α] : BEq (SortedMap κ α) := ⟨fun m n => m.toList == n.toList⟩

/-- The keys, in order. -/
def keys (m : SortedMap κ α) : List κ := m.toList.map Prod.fst

/-- The values, in the order of their keys. -/
def values (m : SortedMap κ α) : List α := m.toList.map Prod.snd

/-- The number of entries. -/
def size (m : SortedMap κ α) : Nat := m.toList.length

/-- Whether there is no entry. -/
def isEmpty (m : SortedMap κ α) : Bool := m.toList.isEmpty

/-- The value beside the key `k` in a list of entries. -/
def lookup (k : κ) : List (κ × α) → Option α
  | [] => none
  | (k', v) :: l => if compare k k' = .eq then some v else lookup k l

/-- The value at a key, if there is an entry for it. -/
def get? (m : SortedMap κ α) (k : κ) : Option α := lookup k m.toList

/-- The value at a key, or `v` if there is no entry for it. -/
def getD (m : SortedMap κ α) (k : κ) (v : α) : α := (m.get? k).getD v

/-- Whether there is an entry for a key. -/
def contains (m : SortedMap κ α) (k : κ) : Bool := (m.get? k).isSome

instance : Membership κ (SortedMap κ α) := ⟨fun m k => m.contains k = true⟩

instance (m : SortedMap κ α) (k : κ) : Decidable (k ∈ m) :=
  inferInstanceAs (Decidable (m.contains k = true))

/-- Puts an entry at its place in a list of entries, over an entry with the same key. -/
def insertEntry (k : κ) (v : α) : List (κ × α) → List (κ × α)
  | [] => [(k, v)]
  | (k', v') :: l =>
    match compare k k' with
    | .lt => (k, v) :: (k', v') :: l
    | .eq => (k, v) :: l
    | .gt => (k', v') :: insertEntry k v l

theorem mem_insertEntry {k : κ} {v : α} {e : κ × α} :
    ∀ {l : List (κ × α)}, e ∈ insertEntry k v l → e = (k, v) ∨ e ∈ l
  | [], h => .inl (List.mem_singleton.1 h)
  | (k', v') :: l, h => by
    unfold insertEntry at h
    split at h
    · exact List.mem_cons.1 h
    · exact (List.mem_cons.1 h).imp id (List.mem_cons_of_mem _)
    · rcases List.mem_cons.1 h with h | h
      · exact .inr (h ▸ List.mem_cons_self)
      · exact (mem_insertEntry h).imp id (List.mem_cons_of_mem _)

theorem pairwise_insertEntry [Std.TransOrd κ] [Std.LawfulEqOrd κ] (k : κ) (v : α) :
    ∀ {l : List (κ × α)}, l.Pairwise (fun a b => compare a.1 b.1 = .lt) →
      (insertEntry k v l).Pairwise fun a b => compare a.1 b.1 = .lt
  | [], _ => List.pairwise_singleton _ _
  | (k', v') :: l, h => by
    obtain ⟨hl, ht⟩ := List.pairwise_cons.1 h
    unfold insertEntry
    split
    · next hc =>
      refine List.pairwise_cons.2 ⟨fun e he => ?_, h⟩
      rcases List.mem_cons.1 he with rfl | he
      · exact hc
      · exact Std.TransCmp.lt_trans hc (hl e he)
    · next hc =>
      cases Std.LawfulEqCmp.eq_of_compare hc
      exact List.pairwise_cons.2 ⟨hl, ht⟩
    · next hc =>
      refine List.pairwise_cons.2 ⟨fun e he => ?_, pairwise_insertEntry k v ht⟩
      rcases mem_insertEntry he with rfl | he
      · exact Std.OrientedCmp.lt_of_gt hc
      · exact hl e he

/-- Sets the value at a key. -/
def insert [Std.TransOrd κ] [Std.LawfulEqOrd κ] (m : SortedMap κ α) (k : κ) (v : α) :
    SortedMap κ α :=
  ⟨insertEntry k v m.toList, pairwise_insertEntry k v m.increasing⟩

/-- Keeps the entries that satisfy a test on the key and the value. -/
def filter (m : SortedMap κ α) (p : κ → α → Bool) : SortedMap κ α :=
  ⟨m.toList.filter fun e => p e.1 e.2, m.increasing.sublist List.filter_sublist⟩

/-- The first `n` entries. -/
def take (m : SortedMap κ α) (n : Nat) : SortedMap κ α :=
  ⟨m.toList.take n, m.increasing.sublist (List.take_sublist n _)⟩

/-- Removes the entry for a key, if there is one. -/
def erase (m : SortedMap κ α) (k : κ) : SortedMap κ α :=
  m.filter fun k' _ => decide (compare k k' ≠ .eq)

/-- Changes every value, keeping the keys. -/
def mapValues (m : SortedMap κ α) (f : κ → α → β) : SortedMap κ β :=
  ⟨m.toList.map fun e => (e.1, f e.1 e.2), List.pairwise_map.2 m.increasing⟩

/-- Changes the value at a key, if there is an entry for it. -/
def modify (m : SortedMap κ α) (k : κ) (f : α → α) : SortedMap κ α :=
  m.mapValues fun k' v => if compare k k' = .eq then f v else v

/-- Inserts entries one after the other, so that of two with the same key the later one stays. -/
def insertMany [Std.TransOrd κ] [Std.LawfulEqOrd κ] (m : SortedMap κ α) (l : List (κ × α)) :
    SortedMap κ α :=
  l.foldl (fun m e => m.insert e.1 e.2) m

/-- The map of a list of entries, of which a later one overrides an earlier one. -/
def ofList [Std.TransOrd κ] [Std.LawfulEqOrd κ] (l : List (κ × α)) : SortedMap κ α :=
  insertMany ∅ l

end SortedMap

/-- A finite set, listed in order. -/
abbrev SortedSet (κ : Type) [Ord κ] := SortedMap κ Unit

/-- The set of the members of a list. -/
def SortedSet.ofKeys {κ : Type} [Ord κ] [Std.TransOrd κ] [Std.LawfulEqOrd κ] (l : List κ) :
    SortedSet κ :=
  SortedMap.ofList (l.map fun k => (k, ()))

end Outbox
