/-
# Finite binary floating point numbers of 64 bits

A number is a sign, a significand below 2^53 and an exponent; its magnitude is the significand times
2^exponent in units of 2^-1074, the least positive magnitude. Every significand other than those of
exponent zero uses all 53 bits, so a magnitude has one representation. Zero has two signs, and
`Binary64.same` does not tell them apart.

Everything is exact arithmetic on natural numbers: an operation forms the quotient that it means and
rounds it once, to the nearest number and, halfway between two, to the one with the even
significand.

Key definitions: `Binary64`, `Binary64.ofRatio?`, `Binary64.mul?`, `Binary64.div?`, `Binary64.same`.
-/

namespace Outbox

/-- Bits of a full significand. -/
def Binary64.precision : Nat := 53

/-- The unit of magnitudes is 2 to the minus this. -/
def Binary64.unitBits : Nat := 1074

/-- The exponent of the largest numbers. -/
def Binary64.maxExponent : Nat := 2045

/-- A finite floating point number. -/
structure Binary64 where
  /-- Whether the number has a minus sign. -/
  negative : Bool
  /-- The significand. -/
  significand : Nat
  /-- The exponent, in units of 2^-1074. -/
  exponent : Nat
  /-- The significand fits its bits. -/
  significand_lt : significand < 1 <<< Binary64.precision
  /-- The significand uses all its bits, unless the exponent is the least. -/
  normal : 1 <<< (Binary64.precision - 1) ≤ significand ∨ exponent = 0
  /-- The number is not too large. -/
  exponent_le : exponent ≤ Binary64.maxExponent
deriving DecidableEq, Repr

namespace Binary64

/-- The number with the given sign, significand and exponent, if there is one. -/
def ofParts? (negative : Bool) (significand exponent : Nat) : Option Binary64 :=
  if h : significand < 1 <<< precision ∧ (1 <<< (precision - 1) ≤ significand ∨ exponent = 0) ∧
      exponent ≤ maxExponent then
    some ⟨negative, significand, exponent, h.1, h.2.1, h.2.2⟩
  else none

/-- The quotient of two numbers, rounded to the nearest integer and to an even one in a tie. -/
def roundDiv (num den : Nat) : Nat :=
  let q := num / den
  let r := num % den
  if den < 2 * r ∨ (den = 2 * r ∧ q % 2 = 1) then q + 1 else q

/-- The number nearest to a quotient, unless the quotient is too large. -/
def ofRatio? (negative : Bool) (num den : Nat) : Option Binary64 :=
  let units := num <<< unitBits
  let exponent := (units / den).log2 - (precision - 1)
  let significand := roundDiv units (den <<< exponent)
  if significand = 1 <<< precision then ofParts? negative (1 <<< (precision - 1)) (exponent + 1)
  else ofParts? negative significand exponent

/-- The magnitude, in units of 2^-1074. -/
def units (x : Binary64) : Nat := x.significand <<< x.exponent

/-- Whether the number is zero, of either sign. -/
def isZero (x : Binary64) : Bool := x.significand == 0

/-- The number with the other sign. -/
def neg (x : Binary64) : Binary64 := { x with negative := !x.negative }

/-- The rounded product, unless it is too large. -/
def mul? (x y : Binary64) : Option Binary64 :=
  ofRatio? (x.negative != y.negative) (x.units * y.units) (1 <<< (2 * unitBits))

/-- The rounded quotient, unless it is too large. -/
def div? (x y : Binary64) : Option Binary64 :=
  ofRatio? (x.negative != y.negative) x.units y.units

/-- Whether two numbers have the same value, zero having one value under both signs. -/
def same (x y : Binary64) : Bool :=
  x.significand == y.significand && x.exponent == y.exponent &&
    (x.negative == y.negative || x.isZero)

theorem same_self (x : Binary64) : x.same x = true := by simp [same]

end Binary64
end Outbox
