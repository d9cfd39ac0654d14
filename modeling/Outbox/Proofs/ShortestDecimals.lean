/-
# The shortest decimal of a number

The shortest decimal of a floating point number is one to which the number is the nearest, and no two
numbers of a sign are the nearest ones to the same decimal. So a number is told by its sign and its shortest
decimal. Decimals are rational numbers, since the power of ten may be negative.

Key definitions: `Binary64.Decimal.value`.
Key theorems: `Binary64.isNearestTo_tenthUnits`, `Binary64.eq_of_isNearestTo`, `Binary64.value_shortest`.
-/
import Mathlib.Algebra.Field.Rat
import Mathlib.Tactic.FieldSimp
import Mathlib.Tactic.Ring
import Outbox.Binary64.Decimal

namespace Outbox
namespace Binary64

variable {x y : Binary64} {num den n : Nat} {d : Decimal}

/-! ### The number nearest to itself -/

theorem roundDiv_mul_self (q : Nat) (hden : 0 < den) : roundDiv (q * den) den = q := by
  have hdiv : q * den / den = q := Nat.mul_div_cancel q hden
  have hmod : q * den % den = 0 := Nat.mul_mod_left q den
  have hround : ¬ (den < 2 * 0 ∨ den = 2 * 0 ∧ q % 2 = 1) := by omega
  rw [roundDiv, hdiv, hmod, if_neg hround]

/-- The exponent of a number is told by its magnitude. -/
theorem log2_units_sub (x : Binary64) : x.units.log2 - (precision - 1) = x.exponent := by
  have hlt : x.significand < 2 ^ 53 := x.significand_lt
  have hunits : x.units = x.significand * 2 ^ x.exponent := Nat.shiftLeft_eq _ _
  rcases x.normal with hfull | hleast
  · have hfull : 2 ^ 52 ≤ x.significand := hfull
    have hpos : 0 < 2 ^ x.exponent := Nat.two_pow_pos _
    have hne : x.units ≠ 0 := by
      rw [hunits]
      exact Nat.mul_ne_zero (by omega) (by omega)
    have hlog : x.units.log2 = 52 + x.exponent := by
      rw [Nat.log2_eq_iff hne, hunits, Nat.add_right_comm, Nat.pow_add, Nat.pow_add]
      exact ⟨Nat.mul_le_mul_right _ hfull, Nat.mul_lt_mul_of_pos_right hlt hpos⟩
    rw [hlog]
    exact Nat.add_sub_cancel_left 52 x.exponent
  · rw [hunits, hleast, Nat.pow_zero, Nat.mul_one]
    rcases Nat.eq_zero_or_pos x.significand with hzero | hpos
    · rw [hzero]
      rfl
    · have hlog : x.significand.log2 < 53 := (Nat.log2_lt (by omega)).2 hlt
      exact Nat.sub_eq_zero_of_le (Nat.le_of_lt_succ hlog)

/-- A quotient that is the magnitude of a number is read as that number. -/
theorem ofRatio?_of_eq (hden : 0 < den) (h : num <<< unitBits = x.units * den) :
    ofRatio? x.negative num den = some x := by
  have hquot : x.units * den / den = x.units := Nat.mul_div_cancel _ hden
  have hround : roundDiv (x.units * den) (den <<< x.exponent) = x.significand := by
    have hpos : 0 < den <<< x.exponent := by
      rw [Nat.shiftLeft_eq]
      exact Nat.mul_pos hden (Nat.two_pow_pos _)
    have hunits : x.units * den = x.significand * (den <<< x.exponent) := by
      rw [units, Nat.shiftLeft_eq, Nat.shiftLeft_eq]
      ring
    rw [hunits, roundDiv_mul_self _ hpos]
  have hparts : ofParts? x.negative x.significand x.exponent = some x :=
    dif_pos ⟨x.significand_lt, x.normal, x.exponent_le⟩
  unfold ofRatio?
  simp only [h, hquot, log2_units_sub, hround, if_neg (Nat.ne_of_lt x.significand_lt), hparts]

theorem isNearestTo_iff : x.isNearestTo n = true ↔
    ofRatio? x.negative n (Nat.pow 10 unitBits) = some x := by
  unfold isNearestTo
  split
  · next z hz => rw [hz, beq_iff_eq, Option.some.injEq]
  · next hz =>
    rw [hz]
    exact iff_of_false nofun nofun

theorem ten_pow (k : Nat) : 5 ^ k * 2 ^ k = 10 ^ k := (Nat.mul_pow 5 2 k).symm

theorem ten_pow_pos (k : Nat) : 0 < Nat.pow 10 k := Nat.pow_pos (by decide)

/-- A number is the nearest one to itself. -/
theorem isNearestTo_tenthUnits (x : Binary64) : x.isNearestTo x.tenthUnits = true := by
  refine isNearestTo_iff.2 (ofRatio?_of_eq (ten_pow_pos _) ?_)
  rw [Nat.shiftLeft_eq, tenthUnits, Nat.pow_eq, Nat.pow_eq, Nat.mul_assoc, ten_pow]

/-- No two numbers of a sign are the nearest ones to the same magnitude. -/
theorem eq_of_isNearestTo (hs : x.negative = y.negative) (hx : x.isNearestTo n = true)
    (hy : y.isNearestTo n = true) : x = y := by
  rw [isNearestTo_iff] at hx hy
  rw [hs, hy] at hx
  exact (Option.some.inj hx).symm

/-! ### The shortest decimal -/

/-- The number that a decimal is. -/
def Decimal.value (d : Decimal) : ℚ := d.coefficient * 10 ^ d.power

theorem Decimal.value_trim (d : Decimal) : d.trim.value = d.value := by
  induction d using Decimal.trim.induct with
  | case1 d h ih =>
    have hc : (d.coefficient : ℚ) = (d.coefficient / 10 : Nat) * 10 := by
      exact_mod_cast (Nat.div_mul_cancel (Nat.dvd_of_mod_eq_zero h.2)).symm
    rw [Decimal.trim, dif_pos h, ih, value, value, hc, zpow_add_one₀ (by norm_num)]
    ring
  | case2 d h => rw [Decimal.trim, dif_neg h]

/-- A multiple of a step of `10^drop` units of `10^-k`. -/
theorem Decimal.value_mul_pow (c drop k : Nat) :
    (⟨c, (drop : Int) - k⟩ : Decimal).value * 10 ^ k = (c * Nat.pow 10 drop : Nat) := by
  rw [value, zpow_sub₀ (by norm_num), zpow_natCast, zpow_natCast, Nat.pow_eq]
  push_cast
  field_simp

/-- The multiple that is chosen passes the test. -/
theorem test_of_nearestFactor? {test : Nat → Bool} {step factor : Nat}
    (h : nearestFactor? test n step = some factor) : test (factor * step) = true := by
  unfold nearestFactor? at h
  extract_lets low rest at h
  split at h
  · next hlow hhigh =>
    split at h
    · exact Option.some.inj h ▸ hlow
    · exact Option.some.inj h ▸ hhigh
  · next hlow hhigh => exact Option.some.inj h ▸ hlow
  · next hlow hhigh => exact Option.some.inj h ▸ hhigh
  · cases h

/-- The decimal of a grid is a multiple of its step. -/
theorem value_of_onGrid? {drop : Nat} (h : x.onGrid? drop = some d) :
    ∃ n : Nat, d.value * 10 ^ unitBits = n ∧ x.isNearestTo n = true := by
  obtain ⟨factor, hf, rfl⟩ := Option.map_eq_some_iff.1 h
  exact ⟨_, Decimal.value_mul_pow factor drop unitBits, test_of_nearestFactor? hf⟩

/-- A number is the nearest one to its shortest decimal. -/
theorem value_shortest (x : Binary64) :
    ∃ n : Nat, x.shortest.value * 10 ^ unitBits = n ∧ x.isNearestTo n = true := by
  unfold shortest
  dsimp only
  rw [Decimal.value_trim]
  cases hfound : (List.range (Nat.toDigits 10 x.tenthUnits).length).findSome? fun i =>
      x.onGrid? ((Nat.toDigits 10 x.tenthUnits).length - 1 - i) with
  | none =>
    have hself := Decimal.value_mul_pow x.tenthUnits 0 unitBits
    rw [Nat.pow_eq, Nat.pow_zero, Nat.mul_one, Nat.cast_zero, zero_sub] at hself
    exact ⟨x.tenthUnits, hself, x.isNearestTo_tenthUnits⟩
  | some d =>
    obtain ⟨i, -, hd⟩ := List.exists_of_findSome?_eq_some hfound
    exact value_of_onGrid? hd

end Binary64
end Outbox
