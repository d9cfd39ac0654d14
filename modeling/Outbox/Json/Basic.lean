/-
# JSON values

`Json` is the type of values that are written. An integer and a floating point number are different
values even when they denote the same number, and an object is the list of its members as they are
written.

`Opaque` is the type of values that are read, kept and compared without being looked at: keys,
contents, backup data. In them every object lists its members by increasing name and every integer
fits 64 bits, with or without a sign, so that a value has one written form. `Json.same` compares
values; it only differs from equality in that zero has one value under both signs.

Key definitions: `Json`, `Json.same`, `Json.IsCanonical`, `Opaque`.
-/
import Outbox.Binary64.Basic
import Outbox.SortedMap.Basic

namespace Outbox

/-- A JSON value. -/
inductive Json where
  /-- The value `null`. -/
  | null
  /-- A truth value. -/
  | bool (b : Bool)
  /-- An integer. -/
  | int (n : Int)
  /-- A floating point number. -/
  | float (x : Binary64)
  /-- A text. -/
  | str (s : String)
  /-- An array. -/
  | arr (items : List Json)
  /-- An object, with its members in the order in which they are written. -/
  | obj (members : List (String × Json))

namespace Json

mutual

/-- Whether two values are the same, zero being the same under both signs. -/
def same : Json → Json → Bool
  | null, null => true
  | bool a, bool b => a == b
  | int m, int n => m == n
  | float x, float y => x.same y
  | str s, str t => s == t
  | arr as, arr bs => sameItems as bs
  | obj as, obj bs => sameMembers as bs
  | _, _ => false

/-- Whether two arrays have the same items. -/
def sameItems : List Json → List Json → Bool
  | [], [] => true
  | a :: as, b :: bs => same a b && sameItems as bs
  | _, _ => false

/-- Whether two objects have the same members in the same order. -/
def sameMembers : List (String × Json) → List (String × Json) → Bool
  | [], [] => true
  | (k, a) :: as, (l, b) :: bs => k == l && same a b && sameMembers as bs
  | _, _ => false

end

mutual

/-- Every value is the same as itself. -/
theorem same_self : ∀ a : Json, a.same a = true
  | null => rfl
  | bool _ => beq_self_eq_true _
  | int _ => beq_self_eq_true _
  | float x => x.same_self
  | str _ => beq_self_eq_true _
  | arr items => sameItems_self items
  | obj members => sameMembers_self members

theorem sameItems_self : ∀ items : List Json, sameItems items items = true
  | [] => rfl
  | a :: as => by rw [sameItems, same_self a, sameItems_self as]; rfl

theorem sameMembers_self : ∀ members : List (String × Json), sameMembers members members = true
  | [] => rfl
  | (k, a) :: as => by rw [sameMembers, beq_self_eq_true k, same_self a, sameMembers_self as]; rfl

end

/-- The integers that are kept as integers: those of 64 bits, with or without a sign. -/
def InIntRange (n : Int) : Prop :=
  -9223372036854775808 ≤ n ∧ n < 18446744073709551616

instance (n : Int) : Decidable (InIntRange n) :=
  inferInstanceAs (Decidable (-9223372036854775808 ≤ n ∧ n < 18446744073709551616))

/-- Whether the names of members strictly increase. -/
def NamesIncrease (members : List (String × Json)) : Prop :=
  members.Pairwise fun a b => compare a.1 b.1 = .lt

mutual

/-- Whether the value is written in the one form that a value which is kept has. -/
def IsCanonical : Json → Prop
  | int n => InIntRange n
  | arr items => AreCanonical items
  | obj members => NamesIncrease members ∧ HaveCanonicalValues members
  | _ => True

/-- Whether all items are canonical. -/
def AreCanonical : List Json → Prop
  | [] => True
  | a :: as => IsCanonical a ∧ AreCanonical as

/-- Whether the values of all members are canonical. -/
def HaveCanonicalValues : List (String × Json) → Prop
  | [] => True
  | (_, a) :: as => IsCanonical a ∧ HaveCanonicalValues as

end

/-- Whether the value is an object. -/
def isObject : Json → Bool
  | obj _ => true
  | _ => false

theorem haveCanonicalValues_insertEntry {k : String} {v : Json} (hv : IsCanonical v) :
    ∀ {l : List (String × Json)}, HaveCanonicalValues l →
      HaveCanonicalValues (SortedMap.insertEntry k v l)
  | [], _ => ⟨hv, trivial⟩
  | (k', v') :: l, h => by
    obtain ⟨hv', hl⟩ := h
    unfold SortedMap.insertEntry
    split
    · exact ⟨hv, hv', hl⟩
    · exact ⟨hv, hl⟩
    · exact ⟨hv', haveCanonicalValues_insertEntry hv hl⟩

end Json

/-- A value that is kept as it was read. -/
structure Opaque where
  /-- The value. -/
  value : Json
  /-- The value is in canonical form. -/
  canonical : value.IsCanonical

namespace Opaque

instance : BEq Opaque := ⟨fun a b => a.value.same b.value⟩

instance : ReflBEq Opaque := ⟨fun {a} => a.value.same_self⟩

theorem eq_of_value_eq {a b : Opaque} (h : a.value = b.value) : a = b := by
  cases a
  cases b
  cases h
  rfl

/-- The value `null`. -/
def null : Opaque := ⟨.null, trivial⟩

instance : Inhabited Opaque := ⟨null⟩

/-- Whether the value is an object. -/
def isObject (a : Opaque) : Bool := a.value.isObject

end Opaque
end Outbox
