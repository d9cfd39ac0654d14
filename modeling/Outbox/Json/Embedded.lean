/-
# Values that are given by their texts

A value that is kept may be given by its text. An object whose first member bears a certain name, the
mark, stands for the value that the text in this member says. Such an object has no other members,
and its text is read as a whole of its own, in which values may be given by their texts again. An
object that bears the mark elsewhere is an ordinary one.

Expanding a node puts the values in the place of the texts. It changes nothing where there is nothing
to be expanded.

Key definitions: `Node.textMark`, `Node.IsPlain`, `Node.expand?`.
Key theorems: `Node.expand?_of_isPlain`.
-/
import Outbox.Json.Node

namespace Outbox
namespace Node

/-- The name of a member that holds the text of a value. -/
def textMark : String := "$serde_json::private::RawValue"

/-- Whether the first one of the members of an object bears the mark. -/
def isMarked : List (Option String × Node) → Bool
  | [] => false
  | (name, _) :: _ => name == some textMark

/-- The text in the only member of an object. -/
def onlyText? : List (Option String × Node) → Option String
  | [(_, str text)] => text
  | _ => none

mutual

/-- Whether no value is given by its text. -/
def IsPlain : Node → Prop
  | arr items => ArePlain items
  | obj members => isMarked members = false ∧ HavePlainValues members
  | _ => True

/-- Whether all items of an array are plain. -/
def ArePlain : List Node → Prop
  | [] => True
  | a :: as => IsPlain a ∧ ArePlain as

/-- Whether the values of all members of an object are plain. -/
def HavePlainValues : List (Option String × Node) → Prop
  | [] => True
  | (_, a) :: as => IsPlain a ∧ HavePlainValues as

end

mutual

/-- Puts values in the place of their texts, given how a text is read. -/
def expandWith (read? : String → Option Node) : Node → Option Node
  | arr items => (expandItemsWith read? items).map arr
  | obj members =>
    if isMarked members then onlyText? members >>= read?
    else (expandMembersWith read? members).map obj
  | n => some n

/-- Expands the items of an array. -/
def expandItemsWith (read? : String → Option Node) : List Node → Option (List Node)
  | [] => some []
  | a :: as => do return (← expandWith read? a) :: (← expandItemsWith read? as)

/-- Expands the values of the members of an object. -/
def expandMembersWith (read? : String → Option Node) :
    List (Option String × Node) → Option (List (Option String × Node))
  | [] => some []
  | (name, a) :: as => do
    return (name, ← expandWith read? a) :: (← expandMembersWith read? as)

end

/-- Reads a text and expands it. The first argument bounds the number of texts that stand in one
another. -/
def ofText? : Nat → String → Option Node
  | 0, _ => none
  | fuel + 1, text => do
    let n ← parse? text
    if n.height ≤ maxNesting then n.expandWith (ofText? fuel) else none

/-- Puts values in the place of their texts. A text is longer than a text that stands in it, so that
its length bounds the number of texts that stand in one another. -/
def expand? (n : Node) : Option Node :=
  n.expandWith fun text => ofText? (text.length + 1) text

mutual

theorem expandWith_of_isPlain (read? : String → Option Node) :
    ∀ {n : Node}, n.IsPlain → n.expandWith read? = some n
  | null, _ => rfl
  | bool _, _ => rfl
  | num _, _ => rfl
  | str _, _ => rfl
  | arr _, h => by simp only [expandWith, expandItemsWith_of_arePlain read? h, Option.map_some]
  | obj _, h => by
    simp only [expandWith, h.1, expandMembersWith_of_havePlainValues read? h.2, Option.map_some,
      Bool.false_eq_true, if_false]

theorem expandItemsWith_of_arePlain (read? : String → Option Node) :
    ∀ {l : List Node}, ArePlain l → expandItemsWith read? l = some l
  | [], _ => rfl
  | _ :: _, h => by
    simp only [expandItemsWith, expandWith_of_isPlain read? h.1,
      expandItemsWith_of_arePlain read? h.2]
    rfl

theorem expandMembersWith_of_havePlainValues (read? : String → Option Node) :
    ∀ {l : List (Option String × Node)}, HavePlainValues l → expandMembersWith read? l = some l
  | [], _ => rfl
  | (_, _) :: _, h => by
    simp only [expandMembersWith, expandWith_of_isPlain read? h.1,
      expandMembersWith_of_havePlainValues read? h.2]
    rfl

end

/-- **Without texts in the place of values, nothing changes.** -/
theorem expand?_of_isPlain {n : Node} (h : n.IsPlain) : n.expand? = some n :=
  expandWith_of_isPlain _ h

end Node
end Outbox
