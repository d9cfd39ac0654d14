/-
# Floating point numbers and decimals

A decimal is an integer times a power of ten.

Reading one takes two roundings: the integer is rounded to a number, and that number is multiplied
or divided by the rounded power of ten. The result is the nearest number whenever both are exact, as
for integers of up to 53 bits and powers up to 10^22, and can be off by a step otherwise.

Writing one is exact: `Binary64.shortest` is the decimal with the fewest digits to which the number
is the nearest, and among those the one nearest to the number.

Key definitions: `Binary64.ofDecimal?`, `Binary64.Decimal`, `Binary64.shortest`.
-/
import Outbox.Binary64.Basic

namespace Outbox
namespace Binary64

/-- The largest power of ten that is a finite number. -/
def maxPowerOfTen : Nat := 308

/-- The number nearest to a power of ten. -/
def powerOfTen? (n : Nat) : Option Binary64 := ofRatio? false (Nat.pow 10 n) 1

/-- Divides a number `steps` times by 10^308, or until it is zero. -/
def divideSteps? (x : Binary64) : Nat → Option Binary64
  | 0 => some x
  | steps + 1 =>
    if x.isZero then some x
    else do divideSteps? (← x.div? (← powerOfTen? maxPowerOfTen)) steps

/-- Multiplies a number by a power of ten, unless the product is too large. A power below 10^-308 is
applied in steps of 10^-308 and a last step for the rest. -/
def scaleByTen? (x : Binary64) : Int → Option Binary64
  | .ofNat power =>
    if power ≤ maxPowerOfTen then powerOfTen? power >>= x.mul?
    else if x.isZero then some x
    else none
  | .negSucc power => do
    let steps := power / maxPowerOfTen
    (← x.divideSteps? steps).div? (← powerOfTen? (power + 1 - steps * maxPowerOfTen))

/-- Reads a decimal, unless it is too large. -/
def ofDecimal? (negative : Bool) (coefficient : Nat) (power : Int) : Option Binary64 := do
  let x ← ofRatio? false coefficient 1
  let x ← x.scaleByTen? power
  return if negative then x.neg else x

/-- A decimal number: `coefficient · 10^power`. -/
structure Decimal where
  /-- The digits, as a number. -/
  coefficient : Nat
  /-- The power of ten. -/
  power : Int
deriving DecidableEq, Repr

/-- Moves trailing zeros of the coefficient into the power. -/
def Decimal.trim (d : Decimal) : Decimal :=
  if h : d.coefficient ≠ 0 ∧ d.coefficient % 10 = 0 then
    Decimal.trim ⟨d.coefficient / 10, d.power + 1⟩
  else d
termination_by d.coefficient
decreasing_by omega

/-- The magnitude, in units of 10^-1074, which is an integer. -/
def tenthUnits (x : Binary64) : Nat := x.units * Nat.pow 5 unitBits

/-- Whether the number has the nearest magnitude to `n` units of 10^-1074. -/
def isNearestTo (x : Binary64) (n : Nat) : Bool :=
  match ofRatio? x.negative n (Nat.pow 10 unitBits) with
  | some y => y == x
  | none => false

/-- The factor of the multiple of a step that is nearest to `n`, among those that pass a test, if one does.
Only the two multiples next to `n` need a look; of two at the same distance the even one is taken. -/
def nearestFactor? (test : Nat → Bool) (n step : Nat) : Option Nat :=
  let low := n / step
  let rest := n % step
  match test (low * step), test ((low + 1) * step) with
  | true, true =>
    if 2 * rest < step ∨ (2 * rest = step ∧ low % 2 = 0) then some low else some (low + 1)
  | true, false => some low
  | false, true => some (low + 1)
  | false, false => none

/-- The decimal nearest to the number among the multiples of `10^drop` units to which the number is
nearest, if there is one. -/
def onGrid? (x : Binary64) (drop : Nat) : Option Decimal :=
  (nearestFactor? x.isNearestTo x.tenthUnits (Nat.pow 10 drop)).map fun factor =>
    ⟨factor, (drop : Int) - unitBits⟩

/-- The decimal with the fewest digits to which the magnitude of the number is the nearest. Grids are
tried from the coarsest on; the finest holds the number itself. -/
def shortest (x : Binary64) : Decimal :=
  let digits := (Nat.toDigits 10 x.tenthUnits).length
  let found := (List.range digits).findSome? fun i => x.onGrid? (digits - 1 - i)
  (found.getD ⟨x.tenthUnits, -(unitBits : Int)⟩).trim

end Binary64
end Outbox
