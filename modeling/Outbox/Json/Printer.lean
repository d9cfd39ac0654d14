/-
# Writing JSON

Values are written without blanks. In texts only the quote, the backslash and the characters below
U+0020 are escaped. A floating point number is written with the fewest digits that read back to it:
in positional notation, always with a point, from 10^-5 up to 10^16, and with an exponent outside of
that range.

Key definitions: `Json.chars`, `Json.render`.
-/
import Outbox.Binary64.Decimal
import Outbox.Json.Basic

namespace Outbox
namespace Json

/-- The lower case hexadecimal digit of a number below 16. -/
def hexDigit (n : Nat) : Char := (Nat.toDigits 16 n).headD '0'

/-- A character as it stands in a text between quotes. -/
def escape (c : Char) : List Char :=
  match c with
  | '"' => ['\\', '"']
  | '\\' => ['\\', '\\']
  | '\x08' => ['\\', 'b']
  | '\t' => ['\\', 't']
  | '\n' => ['\\', 'n']
  | '\x0c' => ['\\', 'f']
  | '\r' => ['\\', 'r']
  | c =>
    if c.toNat < 0x20 then ['\\', 'u', '0', '0', hexDigit (c.toNat / 16), hexDigit (c.toNat % 16)]
    else [c]

/-- A text between quotes. -/
def quoted (s : String) : List Char := '"' :: (s.toList.flatMap escape ++ ['"'])

/-- The decimal digits of a natural number. -/
def natChars (n : Nat) : List Char := Nat.toDigits 10 n

/-- An integer, with a sign if it is negative. -/
def intChars : Int → List Char
  | .ofNat n => natChars n
  | .negSucc n => '-' :: natChars (n + 1)

/-- How floating point numbers are written: where the first digit of a number may stand for it to be
written positionally. Place 1 is right before the point, place 0 right after it. -/
structure FloatFormat where
  /-- The lowest place of the first digit in positional notation. -/
  lowestPlace : Int
  /-- The highest place of the first digit in positional notation. -/
  highestPlace : Int

/-- Positional notation is used from 10^-5 up to 10^16. -/
def floatFormat : FloatFormat := ⟨-4, 16⟩

/-- An exponent, which always has a sign. -/
def exponentChars : Int → List Char
  | .ofNat n => '+' :: natChars n
  | .negSucc n => '-' :: natChars (n + 1)

/-- The digits of a number with the point at the given place, counted from before the first digit. -/
def positionalChars (digits : List Char) : Int → List Char
  | .ofNat 0 => ['0', '.'] ++ digits
  | .ofNat place =>
    let whole := digits.take place ++ List.replicate (place - digits.length) '0'
    let fraction := digits.drop place
    whole ++ '.' :: (if fraction.isEmpty then ['0'] else fraction)
  | .negSucc n => ['0', '.'] ++ List.replicate (n + 1) '0' ++ digits

/-- The digits of a number with the point after the first one and an exponent. -/
def scientificChars (digits : List Char) (place : Int) : List Char :=
  let fraction := digits.drop 1
  digits.take 1 ++ (if fraction.isEmpty then [] else '.' :: fraction) ++
    'e' :: exponentChars (place - 1)

/-- A floating point number. -/
def floatChars (x : Binary64) : List Char :=
  let magnitude :=
    if x.isZero then ['0', '.', '0']
    else
      let decimal := x.shortest
      let digits := natChars decimal.coefficient
      let place := digits.length + decimal.power
      if floatFormat.lowestPlace ≤ place ∧ place ≤ floatFormat.highestPlace then
        positionalChars digits place
      else scientificChars digits place
  if x.negative then '-' :: magnitude else magnitude

mutual

/-- The characters of a written value. -/
def chars : Json → List Char
  | null => ['n', 'u', 'l', 'l']
  | bool true => ['t', 'r', 'u', 'e']
  | bool false => ['f', 'a', 'l', 's', 'e']
  | int n => intChars n
  | float x => floatChars x
  | str s => quoted s
  | arr [] => ['[', ']']
  | arr (a :: as) => '[' :: (chars a ++ itemsChars as)
  | obj [] => ['{', '}']
  | obj ((k, a) :: as) => '{' :: (quoted k ++ ':' :: (chars a ++ membersChars as))

/-- The items after the first one, and the closing bracket. -/
def itemsChars : List Json → List Char
  | [] => [']']
  | a :: as => ',' :: (chars a ++ itemsChars as)

/-- The members after the first one, and the closing brace. -/
def membersChars : List (String × Json) → List Char
  | [] => ['}']
  | (k, a) :: as => ',' :: (quoted k ++ ':' :: (chars a ++ membersChars as))

end

/-- The text of a written value. -/
def render (a : Json) : String := String.ofList a.chars

end Json
end Outbox
