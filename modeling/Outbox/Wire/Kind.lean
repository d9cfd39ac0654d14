/-
# The kind of a request as a value

A kind is written as its number. A value that is not the number of a kind is rejected with a message
that says what was found: something else than an integer, an integer that does not fit eight bits, or
a number that no kind has.

Key definitions: `RequestKind.toJson`, `RequestKind.ofJson`, `KindError`, `KindError.message`.
-/
import Outbox.Json.Printer
import Outbox.Request.Kind
import Outbox.Text.Quoted

namespace Outbox

/-- Why a value is not a kind. -/
inductive KindError where
  /-- The value is not an integer. -/
  | notAnInteger (found : Json)
  /-- The integer is not in the range of numbers of kinds. -/
  | outOfRange (n : Int)
  /-- No kind has the number. -/
  | unassigned (n : UInt8)

/-- A value as messages describe it. -/
def Json.describe : Json → String
  | null => "null"
  | bool b => if b then "boolean `true`" else "boolean `false`"
  | int n => "integer `" ++ String.ofList (intChars n) ++ "`"
  | float x => "floating point `" ++ String.ofList (floatChars x) ++ "`"
  | str s => "string " ++ Text.quoted s
  | arr _ => "sequence"
  | obj _ => "map"

/-- The wording of an error. -/
def KindError.message : KindError → String
  | notAnInteger found => s!"invalid type: {found.describe}, expected u8"
  | outOfRange n => s!"invalid value: {(Json.int n).describe}, expected u8"
  | unassigned n => s!"invalid value: {(Json.int n.toNat).describe}, expected a request kind"

namespace RequestKind

/-- The kind as a value. -/
def toJson (k : RequestKind) : Json := .int k.number.toNat

/-- The kind that a value is. -/
def ofJson : Json → Except KindError RequestKind
  | .int n =>
    if 0 ≤ n ∧ n < UInt8.size then
      let number := UInt8.ofNat n.toNat
      match ofNumber? number with
      | some k => .ok k
      | none => .error (.unassigned number)
    else .error (.outOfRange n)
  | found => .error (.notAnInteger found)

end RequestKind
end Outbox
