/-
# Finite maps in order of insertion

`InsertionMap κ α` is a finite map whose entries are listed in the order in which their keys were
first inserted. Inserting under a key that is there replaces the value in place, and removing an entry
leaves the order of the others alone.

Key definitions: `InsertionMap`, `InsertionMap.get?`, `InsertionMap.insert`, `InsertionMap.erase`,
`InsertionMap.filter`, `InsertionMap.mapValues`.
-/

namespace Outbox

/-- A finite map, as the list of its entries in order of insertion. -/
structure InsertionMap (κ : Type) (α : Type) where
  /-- The entries, in order of insertion. -/
  toList : List (κ × α)
  /-- No two entries have the same key. -/
  nodup : (toList.map Prod.fst).Nodup

namespace InsertionMap

variable {κ α : Type}

/-- Two maps with the same entries in the same order are the same map. -/
@[ext] theorem eq_of_toList_eq {m n : InsertionMap κ α} (h : m.toList = n.toList) : m = n := by
  cases m
  cases n
  cases h
  rfl

/-- The map without entries. -/
def empty : InsertionMap κ α := ⟨[], .nil⟩

instance : EmptyCollection (InsertionMap κ α) := ⟨empty⟩

instance : Inhabited (InsertionMap κ α) := ⟨∅⟩

/-- The keys, in order of insertion. -/
def keys (m : InsertionMap κ α) : List κ := m.toList.map Prod.fst

/-- The values, in the order in which their keys were inserted. -/
def values (m : InsertionMap κ α) : List α := m.toList.map Prod.snd

/-- The number of entries. -/
def size (m : InsertionMap κ α) : Nat := m.toList.length

/-- Keeps the entries that satisfy a test on the key and the value. -/
def filter (m : InsertionMap κ α) (p : κ → α → Bool) : InsertionMap κ α :=
  ⟨m.toList.filter fun e => p e.1 e.2, m.nodup.sublist (List.filter_sublist.map _)⟩

/-- Changes every value, keeping the keys and their order. -/
def mapValues (m : InsertionMap κ α) (f : κ → α → β) : InsertionMap κ β :=
  ⟨m.toList.map fun e => (e.1, f e.1 e.2), by simpa [Function.comp_def] using m.nodup⟩

variable [DecidableEq κ]

/-- The value beside a key, if there is an entry for it. -/
def get? (m : InsertionMap κ α) (k : κ) : Option α := m.toList.lookup k

instance : Membership κ (InsertionMap κ α) := ⟨fun m k => k ∈ m.keys⟩

instance (m : InsertionMap κ α) (k : κ) : Decidable (k ∈ m) :=
  inferInstanceAs (Decidable (k ∈ m.keys))

/-- Removes the entry for a key, if there is one. -/
def erase (m : InsertionMap κ α) (k : κ) : InsertionMap κ α := m.filter fun k' _ => k' != k

/-- Adds an entry at the end. -/
def push (m : InsertionMap κ α) (k : κ) (v : α) (h : k ∉ m) : InsertionMap κ α where
  toList := m.toList ++ [(k, v)]
  nodup := by
    rw [List.map_append, List.nodup_append]
    refine ⟨m.nodup, by simp, fun a ha b hb e => h ?_⟩
    obtain rfl : a = k := e.trans (List.mem_singleton.1 hb)
    exact ha

/-- Sets the value at a key: in place if there is an entry for it, and at the end otherwise. -/
def insert (m : InsertionMap κ α) (k : κ) (v : α) : InsertionMap κ α :=
  if h : k ∈ m then m.mapValues fun k' v' => if k' = k then v else v' else m.push k v h

end InsertionMap
end Outbox
