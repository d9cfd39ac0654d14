/-
# Reading values from the syntax of a text

A decoder takes from a node what it needs and fails on anything else. It is given the number of
levels that arrays and objects may still be nested, counted from the top of the text. What a decoder
does not look at (the value of a member that a record does not have) is neither bounded in nesting
nor in the range of its numbers.

An integer is a number written without point and exponent that fits 64 bits, with or without a sign;
minus zero is not one. All other numbers are floating point numbers, and one that is too large is an
error.

Key definitions: `Numeral.toInt?`, `Numeral.toFloat?`, `Node.toJson?`, `Decoder`, `Decoder.opaqueValue`,
`Decoder.mapOf`, `Decoder.record`, `Record`.
Key theorems: `Node.isCanonical_of_toJson?`.
-/
import Outbox.Binary64.Decimal
import Outbox.Json.Basic
import Outbox.Json.Embedded

namespace Outbox

namespace Numeral

/-- Continues a number by as many digits as fit 64 bits. Gives the number and how many digits are
left over. -/
def accumulate (n : Nat) : List Nat → Nat × Nat
  | [] => (n, 0)
  | d :: ds => if n * 10 + d < UInt64.size then accumulate (n * 10 + d) ds else (n, ds.length + 1)

/-- The integer before the point, with its sign. -/
def wholeValue (n : Numeral) : Int :=
  if n.negative then -(Node.ofDigits n.whole : Int) else Node.ofDigits n.whole

/-- The integer that is written, if it is one. -/
def toInt? (n : Numeral) : Option Int :=
  if n.fraction = none ∧ n.exponent = none ∧ ¬(n.negative = true ∧ n.wholeValue = 0) ∧
      Json.InIntRange n.wholeValue then
    some n.wholeValue
  else none

/-- The floating point number that is written, unless it is too large. Digits beyond what fits 64
bits are taken for zeros before the point and for nothing after it. -/
def toFloat? (n : Numeral) : Option Binary64 :=
  let fraction := n.fraction.getD []
  let (whole, dropped) := accumulate 0 n.whole
  let (coefficient, unread) := accumulate whole fraction
  Binary64.ofDecimal? n.negative coefficient
    (dropped - (fraction.length - unread) + n.exponent.getD 0)

/-- The value that is written, unless it is too large. -/
def toJson? (n : Numeral) : Option Json :=
  match n.toInt? with
  | some i => some (.int i)
  | none => n.toFloat?.map .float

theorem inIntRange_of_toInt? {n : Numeral} {i : Int} (h : n.toInt? = some i) :
    Json.InIntRange i := by
  unfold toInt? at h
  split at h
  · next hc =>
    cases h
    exact hc.2.2.2
  · cases h

theorem isCanonical_of_toJson? {n : Numeral} {j : Json} (h : n.toJson? = some j) :
    j.IsCanonical := by
  unfold toJson? at h
  split at h
  · next hi =>
    cases h
    exact inIntRange_of_toInt? hi
  · obtain ⟨x, _, rfl⟩ := Option.map_eq_some_iff.1 h
    trivial

end Numeral

namespace Node

mutual

/-- The value of a node, in canonical form. -/
def toJson? : Node → Option Json
  | null => some .null
  | bool b => some (.bool b)
  | num n => n.toJson?
  | str s => s.map .str
  | arr items => (itemsToJson? items).map .arr
  | obj members => (membersToJson? [] members).map .obj

/-- The values of the items of an array. -/
def itemsToJson? : List Node → Option (List Json)
  | [] => some []
  | a :: as => do return (← toJson? a) :: (← itemsToJson? as)

/-- Adds members to a list of members by increasing name. A later member replaces an earlier one of
the same name. -/
def membersToJson? (done : List (String × Json)) :
    List (Option String × Node) → Option (List (String × Json))
  | [] => some done
  | (name, a) :: as => do
    membersToJson? (SortedMap.insertEntry (← name) (← toJson? a) done) as

end

mutual

/-- **What is read is in canonical form.** -/
theorem isCanonical_of_toJson? : ∀ {n : Node} {j : Json}, n.toJson? = some j → j.IsCanonical
  | null, _, h => by cases h; trivial
  | bool _, _, h => by cases h; trivial
  | num n, _, h => Numeral.isCanonical_of_toJson? h
  | str s, _, h => by
    obtain ⟨_, _, rfl⟩ := Option.map_eq_some_iff.1 h
    trivial
  | arr items, _, h => by
    obtain ⟨l, hl, rfl⟩ := Option.map_eq_some_iff.1 h
    exact areCanonical_of_itemsToJson? hl
  | obj members, _, h => by
    obtain ⟨l, hl, rfl⟩ := Option.map_eq_some_iff.1 h
    exact canonical_of_membersToJson? .nil trivial hl

theorem areCanonical_of_itemsToJson? : ∀ {l : List Node} {js : List Json},
    itemsToJson? l = some js → Json.AreCanonical js
  | [], _, h => by cases h; trivial
  | a :: as, _, h => by
    simp only [itemsToJson?, Option.bind_eq_bind, Option.bind_eq_some_iff] at h
    obtain ⟨j, hj, js, hjs, h⟩ := h
    cases h
    exact ⟨isCanonical_of_toJson? hj, areCanonical_of_itemsToJson? hjs⟩

theorem canonical_of_membersToJson? : ∀ {l : List (Option String × Node)}
    {done ms : List (String × Json)}, Json.NamesIncrease done → Json.HaveCanonicalValues done →
      membersToJson? done l = some ms → Json.NamesIncrease ms ∧ Json.HaveCanonicalValues ms
  | [], _, _, hn, hv, h => by cases h; exact ⟨hn, hv⟩
  | (name, a) :: as, _, _, hn, hv, h => by
    simp only [membersToJson?, Option.bind_eq_bind, Option.bind_eq_some_iff] at h
    obtain ⟨k, _, j, hj, h⟩ := h
    exact canonical_of_membersToJson? (SortedMap.pairwise_insertEntry _ _ hn)
      (Json.haveCanonicalValues_insertEntry (isCanonical_of_toJson? hj) hv) h

end

/-- The value of a node, to be kept as it is. -/
def toOpaque? (n : Node) : Option Opaque :=
  match h : n.toJson? with
  | some j => some ⟨j, isCanonical_of_toJson? h⟩
  | none => none

end Node

/-- A way to read a value from a node, given the levels of nesting that are left. -/
abbrev Decoder (α : Type) := Nat → Node → Option α

/-- The members of a record, and the levels of nesting that are left for their values. -/
structure Record where
  /-- The levels of nesting that are left. -/
  depth : Nat
  /-- The members, by name. -/
  members : List (String × Node)

namespace Record

/-- A member that has to be there. -/
def get (r : Record) (name : String) (d : Decoder α) : Option α :=
  r.members.lookup name >>= d r.depth

/-- A member that has a value when it is missing. -/
def getD (r : Record) (name : String) (d : Decoder α) (default : α) : Option α :=
  match r.members.lookup name with
  | some node => d r.depth node
  | none => some default

end Record

namespace Decoder

/-- Any value, to be kept as it is. It may be given by its text. -/
def opaqueValue : Decoder Opaque := fun depth n =>
  if n.height ≤ depth then n.expand? >>= Node.toOpaque? else none

/-- A text. -/
def text : Decoder String
  | _, .str s => s
  | _, _ => none

/-- A natural number of 64 bits. -/
def uint64 : Decoder UInt64
  | _, .num n =>
    match n.toInt? with
    | some (.ofNat i) => if h : i < UInt64.size then some (UInt64.ofNatLT i h) else none
    | _ => none
  | _, _ => none

/-- A value or `null`. -/
def nullable (d : Decoder α) : Decoder (Option α)
  | _, .null => some none
  | depth, n => (d depth n).map some

/-- A map, written as an object. Every member has to be right, and of members with the same key the
last one stays. -/
def mapOf [Ord κ] [Std.TransOrd κ] [Std.LawfulEqOrd κ] (key? : String → Option κ)
    (d : Decoder α) : Decoder (SortedMap κ α)
  | depth + 1, .obj members => do
    let entries ← members.mapM fun (name, n) => do return (← name >>= key?, ← d depth n)
    return .ofList entries
  | _, _ => none

/-- The members of a record with the given member names. A record is written as an object or, by an
array, as its members in order, of which the last ones may be missing. In an object no member of the
record is repeated; others are passed over, unless the record is closed. -/
def record (names : List String) (closed : Bool) : Decoder Record
  | depth + 1, .obj members => do
    let members ← members.mapM fun (name, n) => do return (← name, n)
    let known := members.filter fun m => names.contains m.1
    if (known.map Prod.fst).Nodup ∧ (closed = true → known.length = members.length) then
      return ⟨depth, known⟩
    else none
  | depth + 1, .arr items => if items.length ≤ names.length then some ⟨depth, names.zip items⟩ else none
  | _, _ => none

/-- Reads a whole text. -/
def decode? (d : Decoder α) (text : String) : Option α := Node.parse? text >>= d maxNesting

end Decoder
end Outbox
