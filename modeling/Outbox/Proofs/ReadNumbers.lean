/-
# Numbers are read as they are written

A written number is read digit by digit with its point and its exponent, and it ends where it does, whatever
number it means. Its parts are those of which it is written: no zero stands needlessly before the point, and there
are digits on both sides of it.

What is read says which number was written. Zeros around the digits, the point and the exponent only multiply by
powers of ten, so that a floating point number says its shortest decimal, and besides it always has a point or an
exponent, which an integer has not.

Key definitions: `Numeral.value`, `Node.NumberParts`, `Json.intParts`, `Json.floatParts`.
Key theorems: `Node.numeral?_chars`, `Json.chars_intParts`, `Json.chars_floatParts`, `Json.wellFormed_intParts`,
`Json.wellFormed_floatParts`, `Json.numeral_intParts_injective`, `Json.numeral_floatParts_injective`.
-/
import Outbox.Json.Decoder
import Outbox.Json.Printer
import Outbox.Proofs.ShortestDecimals

namespace Outbox

/-- The number that is written, without its sign. -/
def Numeral.value (n : Numeral) : ℚ :=
  let fraction := n.fraction.getD []
  Node.ofDigits (n.whole ++ fraction) * 10 ^ (n.exponent.getD 0 - fraction.length)

/-! ### Numbers that are read -/

namespace Node

variable {ds s : List Char} {c : Char}

/-- A value may end here. -/
def ValueEnds (s : List Char) : Prop := ∀ c ∈ s.head?, c = ',' ∨ c = ']' ∨ c = '\x7d'

/-- No digit goes on here. -/
def DigitsEnd (s : List Char) : Prop := ∀ c ∈ s.head?, c.isDigit = false

theorem valueEnds_nil : ValueEnds [] := fun _ hc => nomatch hc

theorem ValueEnds.digitsEnd (h : ValueEnds s) : DigitsEnd s := by
  intro c hc
  rcases h c hc with rfl | rfl | rfl <;> rfl

theorem digitsEnd_cons (hc : c.isDigit = false) (s : List Char) : DigitsEnd (c :: s) :=
  fun _ h => Option.some.inj h ▸ hc

theorem digits?_append (hds : ∀ c ∈ ds, c.isDigit = true) (hne : ds ≠ []) (hs : DigitsEnd s) :
    digits? (ds ++ s) = some (ds.map digitValue, s) := by
  have hsplit : s.takeWhile Char.isDigit = [] ∧ s.dropWhile Char.isDigit = s := by
    cases s with
    | nil => exact ⟨rfl, rfl⟩
    | cons c s => simp [hs c rfl]
  have hdigits : splitDigits (ds ++ s) = (ds.map digitValue, s) := by
    rw [splitDigits, List.takeWhile_append_of_pos hds, List.dropWhile_append_of_pos hds, hsplit.1, hsplit.2,
      List.append_nil]
  rw [digits?, hdigits]
  simp [hne]

theorem digitValue_eq_zero_iff (hc : c.isDigit = true) : digitValue c = 0 ↔ c = '0' := by
  have hge : '0'.toNat ≤ c.toNat := by
    simp only [Char.isDigit, Bool.and_eq_true, decide_eq_true_eq] at hc
    exact UInt32.le_iff_toNat_le.1 hc.1
  constructor
  · intro hzero
    have hle : c.toNat ≤ '0'.toNat := Nat.sub_eq_zero_iff_le.1 hzero
    exact Char.toNat_inj.1 (Nat.le_antisymm hle hge)
  · rintro rfl
    rfl

/-- Digits do not start with a needless zero. -/
def Leads (ds : List Char) : Prop := ds.head? = some '0' → ds = ['0']

theorem whole?_append (hds : ∀ c ∈ ds, c.isDigit = true) (hne : ds ≠ []) (hlead : Leads ds) (hs : DigitsEnd s) :
    whole? (ds ++ s) = some (ds.map digitValue, s) := by
  rw [whole?, digits?_append hds hne hs]
  split
  · next d ds' rest heq =>
    obtain ⟨c, cs, rfl⟩ := List.exists_cons_of_ne_nil hne
    simp only [Option.some.injEq, Prod.mk.injEq, List.map_cons, List.cons.injEq] at heq
    obtain ⟨⟨hzero, hmore⟩, -⟩ := heq
    rw [digitValue_eq_zero_iff (hds c List.mem_cons_self)] at hzero
    have hone := hlead (congrArg some hzero)
    rw [List.cons.injEq] at hone
    rw [hone.2] at hmore
    cases hmore
  · rfl

/-- The parts of a written number. -/
structure NumberParts where
  /-- Whether there is a minus sign. -/
  negative : Bool
  /-- The digits before the point. -/
  whole : List Char
  /-- The digits after the point, if there is one. -/
  fraction : Option (List Char)
  /-- The exponent, if there is one. -/
  exponent : Option Int

namespace NumberParts

/-- The point and the digits after it. -/
def fractionChars : Option (List Char) → List Char
  | none => []
  | some ds => '.' :: ds

/-- The mark of an exponent and the exponent. -/
def exponentPart : Option Int → List Char
  | none => []
  | some n => 'e' :: Json.exponentChars n

/-- The number without its sign, as it is written. -/
def magnitude (p : NumberParts) : List Char := p.whole ++ (fractionChars p.fraction ++ exponentPart p.exponent)

/-- The number as it is written. -/
def chars (p : NumberParts) : List Char := if p.negative then '-' :: p.magnitude else p.magnitude

/-- The number as it is read. -/
def numeral (p : NumberParts) : Numeral :=
  ⟨p.negative, p.whole.map digitValue, p.fraction.map (List.map digitValue), p.exponent⟩

/-- The parts are those of a number. -/
structure WellFormed (p : NumberParts) : Prop where
  /-- There are digits before the point. -/
  whole_ne : p.whole ≠ []
  /-- Before the point there are only digits. -/
  whole_digits : ∀ c ∈ p.whole, c.isDigit = true
  /-- No zero is needless. -/
  leads : Leads p.whole
  /-- After the point there are digits, and only digits. -/
  fraction : ∀ ds ∈ p.fraction, ds ≠ [] ∧ ∀ c ∈ ds, c.isDigit = true

end NumberParts

open NumberParts

theorem isDigit_of_mem_natChars {n : Nat} (h : c ∈ Json.natChars n) : c.isDigit = true :=
  Nat.isDigit_of_mem_toDigits (by decide) (by decide) h

theorem ofDigits_map_digitValue (cs : List Char) : ofDigits (cs.map digitValue) = Nat.ofDigitChars 10 cs 0 := by
  rw [ofDigits, List.foldl_map, Nat.ofDigitChars_eq_foldl]
  simp only [digitValue, Nat.mul_comm]

theorem ofDigits_natChars (n : Nat) : ofDigits ((Json.natChars n).map digitValue) = n := by
  rw [ofDigits_map_digitValue]
  exact Nat.ofDigitChars_toDigits (by decide) (by decide)

theorem signed?_exponentChars (n : Int) (hs : DigitsEnd s) :
    signed? (Json.exponentChars n ++ s) = some (n, s) := by
  have hread : ∀ n, digits? (Json.natChars n ++ s) = some ((Json.natChars n).map digitValue, s) := fun n =>
    digits?_append (fun _ => isDigit_of_mem_natChars) Nat.toDigits_ne_nil hs
  cases n with
  | ofNat n =>
    show (digits? (Json.natChars n ++ s)).map _ = _
    simp only [hread, Option.map_some, ofDigits_natChars]
    rfl
  | negSucc n =>
    show (digits? (Json.natChars (n + 1) ++ s)).map _ = _
    simp only [hread, Option.map_some, ofDigits_natChars]
    rfl

theorem exponent?_append (exponent : Option Int) (hs : ValueEnds s) :
    exponent? (exponentPart exponent ++ s) = some (exponent, s) := by
  cases exponent with
  | none =>
    show exponent? s = _
    cases s with
    | nil => rfl
    | cons c s => rcases hs c rfl with rfl | rfl | rfl <;> rfl
  | some n =>
    show (signed? (Json.exponentChars n ++ s)).map _ = _
    rw [signed?_exponentChars n hs.digitsEnd]
    rfl

theorem digitsEnd_exponentPart (exponent : Option Int) (hs : ValueEnds s) :
    DigitsEnd (exponentPart exponent ++ s) := by
  cases exponent with
  | none => exact hs.digitsEnd
  | some n => exact digitsEnd_cons rfl _

theorem fraction?_append {fraction : Option (List Char)} (exponent : Option Int)
    (hf : ∀ ds ∈ fraction, ds ≠ [] ∧ ∀ c ∈ ds, c.isDigit = true) (hs : ValueEnds s) :
    fraction? (fractionChars fraction ++ (exponentPart exponent ++ s)) =
      some (fraction.map (List.map digitValue), exponentPart exponent ++ s) := by
  cases fraction with
  | none =>
    show fraction? (exponentPart exponent ++ s) = _
    cases exponent with
    | none =>
      show fraction? s = _
      cases s with
      | nil => rfl
      | cons c s => rcases hs c rfl with rfl | rfl | rfl <;> rfl
    | some n => rfl
  | some ds =>
    obtain ⟨hne, hds⟩ := hf ds rfl
    show (digits? (ds ++ (exponentPart exponent ++ s))).map _ = _
    rw [digits?_append hds hne (digitsEnd_exponentPart exponent hs)]
    rfl

theorem magnitude?_magnitude {p : NumberParts} (hp : p.WellFormed) (negative : Bool) (hs : ValueEnds s) :
    magnitude? negative (p.magnitude ++ s) = some ({ p.numeral with negative }, s) := by
  have hends : DigitsEnd (fractionChars p.fraction ++ (exponentPart p.exponent ++ s)) := by
    cases p.fraction with
    | none => exact digitsEnd_exponentPart p.exponent hs
    | some ds => exact digitsEnd_cons rfl _
  rw [magnitude?, magnitude, List.append_assoc, List.append_assoc,
    whole?_append hp.whole_digits hp.whole_ne hp.leads hends]
  simp only [Option.bind_eq_bind, Option.bind_some, fraction?_append p.exponent hp.fraction hs,
    exponent?_append p.exponent hs]
  rfl

/-- **A written number is read**, and it ends where it does. -/
theorem numeral?_chars {p : NumberParts} (hp : p.WellFormed) (hs : ValueEnds s) :
    numeral? (p.chars ++ s) = some (p.numeral, s) := by
  have hmagnitude := fun negative => magnitude?_magnitude hp negative hs
  obtain ⟨negative, whole, fraction, exponent⟩ := p
  cases negative with
  | true => exact hmagnitude true
  | false =>
    obtain ⟨c, cs, rfl⟩ := List.exists_cons_of_ne_nil hp.whole_ne
    have hc : c.isDigit = true := hp.whole_digits c List.mem_cons_self
    have hminus : c ≠ '-' := by
      rintro rfl
      cases hc
    refine Eq.trans ?_ (hmagnitude false)
    show numeral? (c :: _) = magnitude? false (c :: _)
    rw [numeral?.eq_def]
    split
    · next heq => exact absurd (List.head_eq_of_cons_eq heq) hminus
    · rfl

end Node

/-! ### Numbers that are written -/

namespace Json

open Node

variable {digits whole fraction : List Char} {x y : Binary64} {n : Nat}

theorem eq_zero_of_head?_natChars (h : (natChars n).head? = some '0') : n = 0 := by
  induction n using Nat.strongRecOn with
  | ind n ih =>
    rw [natChars] at h
    by_cases hn : n < 10
    · rw [Nat.toDigits_of_lt_base hn] at h
      have hone : ∀ n < 10, Nat.digitChar n = '0' → n = 0 := by decide
      exact hone n hn (Option.some.inj h)
    · rw [Nat.toDigits_of_base_le (by decide) (by omega), List.head?_append_of_ne_nil _ Nat.toDigits_ne_nil] at h
      have hzero := ih (n / 10) (by omega) h
      omega

theorem leads_natChars (n : Nat) : Leads (natChars n) := by
  intro h
  rw [eq_zero_of_head?_natChars h]
  rfl

/-- The parts of an integer. -/
def intParts : Int → NumberParts
  | .ofNat n => ⟨false, natChars n, none, none⟩
  | .negSucc n => ⟨true, natChars (n + 1), none, none⟩

theorem chars_intParts (n : Int) : (intParts n).chars = intChars n := by
  cases n <;> simp [intParts, NumberParts.chars, NumberParts.magnitude, NumberParts.fractionChars,
    NumberParts.exponentPart, intChars]

theorem wellFormed_intParts (n : Int) : (intParts n).WellFormed := by
  cases n with
  | ofNat n =>
    exact ⟨Nat.toDigits_ne_nil, fun _ => isDigit_of_mem_natChars, leads_natChars n, fun ds h => nomatch h⟩
  | negSucc n =>
    exact ⟨Nat.toDigits_ne_nil, fun _ => isDigit_of_mem_natChars, leads_natChars (n + 1), fun ds h => nomatch h⟩

/-- The parts of a number in positional notation. -/
def positionalParts (negative : Bool) (digits : List Char) : Int → NumberParts
  | .ofNat 0 => ⟨negative, ['0'], some digits, none⟩
  | .ofNat place =>
    let fraction := digits.drop place
    ⟨negative, digits.take place ++ List.replicate (place - digits.length) '0',
      some (if fraction.isEmpty then ['0'] else fraction), none⟩
  | .negSucc n => ⟨negative, ['0'], some (List.replicate (n + 1) '0' ++ digits), none⟩

/-- The parts of a number with an exponent. -/
def scientificParts (negative : Bool) (digits : List Char) (place : Int) : NumberParts :=
  let fraction := digits.drop 1
  ⟨negative, digits.take 1, if fraction.isEmpty then none else some fraction, some (place - 1)⟩

/-- The parts of a number that is not zero. -/
def decimalParts (negative : Bool) (d : Binary64.Decimal) : NumberParts :=
  let digits := natChars d.coefficient
  let place := digits.length + d.power
  if floatFormat.lowestPlace ≤ place ∧ place ≤ floatFormat.highestPlace then
    positionalParts negative digits place
  else scientificParts negative digits place

/-- The parts of a floating point number. -/
def floatParts (x : Binary64) : NumberParts :=
  if x.isZero then ⟨x.negative, ['0'], some ['0'], none⟩ else decimalParts x.negative x.shortest

/-- The magnitude of a number that is not zero, as it is written. -/
def decimalChars (d : Binary64.Decimal) : List Char :=
  let digits := natChars d.coefficient
  let place := digits.length + d.power
  if floatFormat.lowestPlace ≤ place ∧ place ≤ floatFormat.highestPlace then positionalChars digits place
  else scientificChars digits place

/-- The magnitude of a number, as it is written. -/
def magnitudeChars (x : Binary64) : List Char :=
  if x.isZero then ['0', '.', '0'] else decimalChars x.shortest

theorem floatChars_eq (x : Binary64) :
    floatChars x = if x.negative then '-' :: magnitudeChars x else magnitudeChars x := rfl

theorem magnitude_point (negative : Bool) (whole fraction : List Char) :
    (NumberParts.mk negative whole (some fraction) none).magnitude = whole ++ '.' :: fraction :=
  congrArg (whole ++ '.' :: ·) (List.append_nil fraction)

theorem magnitude_positionalParts (negative : Bool) (digits : List Char) (place : Int) :
    (positionalParts negative digits place).magnitude = positionalChars digits place := by
  match place with
  | .ofNat 0 => exact magnitude_point negative _ _
  | .ofNat (place + 1) => exact magnitude_point negative _ _
  | .negSucc n =>
    refine (magnitude_point negative _ _).trans ?_
    rw [positionalChars, List.append_assoc]
    rfl

theorem magnitude_scientificParts (negative : Bool) (digits : List Char) (place : Int) :
    (scientificParts negative digits place).magnitude = scientificChars digits place := by
  unfold scientificParts scientificChars NumberParts.magnitude
  dsimp only
  rw [List.append_assoc]
  split <;> rfl

theorem magnitude_decimalParts (negative : Bool) (d : Binary64.Decimal) :
    (decimalParts negative d).magnitude = decimalChars d := by
  unfold decimalParts decimalChars
  dsimp only
  split
  · exact magnitude_positionalParts _ _ _
  · exact magnitude_scientificParts _ _ _

theorem negative_decimalParts (negative : Bool) (d : Binary64.Decimal) :
    (decimalParts negative d).negative = negative := by
  unfold decimalParts
  dsimp only
  split
  · unfold positionalParts
    split <;> rfl
  · rfl

theorem negative_floatParts (x : Binary64) : (floatParts x).negative = x.negative := by
  unfold floatParts
  split
  · rfl
  · exact negative_decimalParts _ _

theorem magnitude_floatParts (x : Binary64) : (floatParts x).magnitude = magnitudeChars x := by
  unfold floatParts magnitudeChars
  split
  · rfl
  · exact magnitude_decimalParts _ _

theorem chars_floatParts (x : Binary64) : (floatParts x).chars = floatChars x := by
  rw [floatChars_eq, NumberParts.chars, negative_floatParts, magnitude_floatParts]

/-- The shortest decimal of a number that is not zero has digits. -/
theorem coefficient_shortest_ne_zero (hx : x.isZero = false) : x.shortest.coefficient ≠ 0 := by
  intro hzero
  obtain ⟨n, hvalue, hnear⟩ := x.value_shortest
  have hn : n = 0 := by
    have hcast : (n : ℚ) = 0 := by
      rw [← hvalue, Binary64.Decimal.value, hzero, Nat.cast_zero, zero_mul, zero_mul]
    exact_mod_cast hcast
  -- Only zero is the nearest number to nothing.
  let zero : Binary64 := { x with
    significand := 0, exponent := 0, significand_lt := by decide, normal := .inr rfl
    exponent_le := Nat.zero_le _ }
  have hself := zero.isNearestTo_tenthUnits
  rw [Binary64.tenthUnits, Binary64.units, Nat.zero_shiftLeft, Nat.zero_mul, ← hn] at hself
  have heq : x = zero := Binary64.eq_of_isNearestTo rfl hnear hself
  have hzero : zero.isZero = true := rfl
  rw [heq, hzero] at hx
  cases hx

theorem wellFormed_point (negative : Bool) {whole fraction : List Char} (hne : whole ≠ [])
    (hwhole : ∀ c ∈ whole, c.isDigit = true) (hlead : Leads whole) (hne' : fraction ≠ [])
    (hfraction : ∀ c ∈ fraction, c.isDigit = true) :
    (NumberParts.mk negative whole (some fraction) none).WellFormed :=
  ⟨hne, hwhole, hlead, fun _ h => Option.some.inj h ▸ ⟨hne', hfraction⟩⟩

section WellFormed

variable (hdigits : ∀ c ∈ digits, c.isDigit = true) (hne : digits ≠ []) (hlead : digits.head? ≠ some '0')
include hdigits hne hlead

theorem wellFormed_positionalParts (negative : Bool) (place : Int) :
    (positionalParts negative digits place).WellFormed := by
  have hzeros : ∀ n, ∀ c ∈ List.replicate n '0', c.isDigit = true := fun n c hc =>
    (List.mem_replicate.1 hc).2 ▸ rfl
  match place with
  | .ofNat 0 => exact wellFormed_point negative (List.cons_ne_nil _ _) (hzeros 1) (fun _ => rfl) hne hdigits
  | .ofNat (place + 1) =>
    obtain ⟨c, ds, rfl⟩ := List.exists_cons_of_ne_nil hne
    refine wellFormed_point negative (List.cons_ne_nil _ _) ?_ (fun h => absurd h hlead) ?_ ?_
    · intro d hd
      rcases List.mem_append.1 hd with hd | hd
      · exact hdigits d (List.mem_of_mem_take hd)
      · exact hzeros _ d hd
    · split
      · exact List.cons_ne_nil _ _
      · next hrest => exact fun hnil => hrest (hnil ▸ rfl)
    · split
      · exact hzeros 1
      · exact fun d hd => hdigits d (List.mem_of_mem_drop hd)
  | .negSucc n =>
    refine wellFormed_point negative (List.cons_ne_nil _ _) (hzeros 1) (fun _ => rfl)
      (List.append_ne_nil_of_right_ne_nil _ hne) fun d hd => ?_
    rcases List.mem_append.1 hd with hd | hd
    · exact hzeros _ d hd
    · exact hdigits d hd

theorem wellFormed_scientificParts (negative : Bool) (place : Int) :
    (scientificParts negative digits place).WellFormed := by
  obtain ⟨c, ds, rfl⟩ := List.exists_cons_of_ne_nil hne
  refine ⟨List.cons_ne_nil _ _, fun d hd => hdigits d (List.mem_of_mem_take hd), fun h => absurd h hlead, ?_⟩
  intro fraction hf
  have hf : (if ds.isEmpty = true then none else some ds) = some fraction := hf
  split at hf
  · cases hf
  · next hrest =>
    cases hf
    exact ⟨fun hnil => hrest (hnil ▸ rfl), fun d hd => hdigits d (List.mem_cons_of_mem c hd)⟩

end WellFormed

theorem wellFormed_decimalParts (negative : Bool) {d : Binary64.Decimal} (hd : d.coefficient ≠ 0) :
    (decimalParts negative d).WellFormed := by
  have hdigits : ∀ c ∈ natChars d.coefficient, c.isDigit = true := fun _ => isDigit_of_mem_natChars
  have hne : natChars d.coefficient ≠ [] := Nat.toDigits_ne_nil
  have hlead : (natChars d.coefficient).head? ≠ some '0' := fun h => hd (eq_zero_of_head?_natChars h)
  unfold decimalParts
  dsimp only
  split
  · exact wellFormed_positionalParts hdigits hne hlead negative _
  · exact wellFormed_scientificParts hdigits hne hlead negative _

theorem wellFormed_floatParts (x : Binary64) : (floatParts x).WellFormed := by
  unfold floatParts
  split
  · exact ⟨List.cons_ne_nil _ _, by simp, fun _ => rfl, by simp⟩
  · next hx => exact wellFormed_decimalParts _ (coefficient_shortest_ne_zero (Bool.eq_false_iff.2 hx))

/-! ### What is read says which number was written -/

theorem wholeValue_numeral_intParts (n : Int) : (intParts n).numeral.wholeValue = n := by
  cases n with
  | ofNat n => exact congrArg Int.ofNat (ofDigits_natChars n)
  | negSucc n =>
    show -(ofDigits ((natChars (n + 1)).map digitValue) : Int) = Int.negSucc n
    rw [ofDigits_natChars]
    rfl

/-- **An integer is told by what is read of it.** -/
theorem numeral_intParts_injective {m n : Int} (h : (intParts m).numeral = (intParts n).numeral) : m = n := by
  rw [← wholeValue_numeral_intParts m, h, wholeValue_numeral_intParts]

theorem value_numeral (p : NumberParts) : p.numeral.value =
    Nat.ofDigitChars 10 (p.whole ++ p.fraction.getD []) 0 *
      10 ^ (p.exponent.getD 0 - (p.fraction.getD []).length) := by
  obtain ⟨negative, whole, fraction, exponent⟩ := p
  cases fraction <;>
    simp [Numeral.value, NumberParts.numeral, ← List.map_append, ofDigits_map_digitValue]

/-- Digits between zeros, and a point among them, say a number by its digits and by its place. -/
theorem value_point (negative : Bool) (i j : Nat) {place : Int}
    (heq : whole ++ fraction = List.replicate i '0' ++ (digits ++ List.replicate j '0'))
    (hplace : fraction.length + place = digits.length + j) :
    (NumberParts.mk negative whole (some fraction) none).numeral.value =
      Nat.ofDigitChars 10 digits 0 * 10 ^ (place - digits.length) := by
  have hdigits : Nat.ofDigitChars 10 (whole ++ fraction) 0 = 10 ^ j * Nat.ofDigitChars 10 digits 0 := by
    rw [heq, Nat.ofDigitChars_append, Nat.ofDigitChars_replicate_zero, Nat.mul_zero, Nat.ofDigitChars_append,
      Nat.ofDigitChars_replicate_zero]
  have hpower : place - digits.length = j + (0 - fraction.length : Int) := by omega
  rw [value_numeral, Option.getD_some, Option.getD_none, hdigits, hpower, zpow_add₀ (by norm_num), zpow_natCast]
  push_cast
  ring

theorem value_positionalParts (negative : Bool) (digits : List Char) (place : Int) :
    (positionalParts negative digits place).numeral.value =
      Nat.ofDigitChars 10 digits 0 * 10 ^ (place - digits.length) := by
  -- The point is right before the digits, among or after them, or further before them.
  match place with
  | .ofNat 0 => exact value_point negative 1 0 (by simp) (by simp)
  | .ofNat (place + 1) =>
    by_cases hle : digits.length ≤ place + 1
    · have hfraction : (digits.drop (place + 1)).isEmpty = true := by simpa using hle
      simp only [positionalParts, hfraction, if_true]
      refine value_point negative 0 (place + 1 - digits.length + 1) ?_ ?_
      · simp [List.take_of_length_le hle, List.replicate_succ']
      · simp
        omega
    · have hfraction : ¬ (digits.drop (place + 1)).isEmpty = true := by simpa using hle
      have hzeros : place + 1 - digits.length = 0 := by omega
      simp only [positionalParts, hfraction]
      refine value_point negative 0 0 ?_ ?_
      · simp [hzeros]
      · simp
        omega
  | .negSucc n =>
    refine value_point negative (n + 2) 0 ?_ ?_
    · simp [List.replicate_succ]
    · simp
      omega

theorem value_scientificParts (negative : Bool) (hne : digits ≠ []) (place : Int) :
    (scientificParts negative digits place).numeral.value =
      Nat.ofDigitChars 10 digits 0 * 10 ^ (place - digits.length) := by
  obtain ⟨c, fraction, rfl⟩ := List.exists_cons_of_ne_nil hne
  cases fraction with
  | nil => simpa [scientificParts] using value_numeral (scientificParts negative [c] place)
  | cons d fraction =>
    have hpower : place - 1 - ((d :: fraction).length : Int) = place - (c :: d :: fraction).length := by
      simp only [List.length_cons, Nat.cast_add, Nat.cast_one]
      omega
    rw [← hpower]
    exact value_numeral (scientificParts negative (c :: d :: fraction) place)

theorem value_decimalParts (negative : Bool) (d : Binary64.Decimal) :
    (decimalParts negative d).numeral.value = d.value := by
  have hne : natChars d.coefficient ≠ [] := Nat.toDigits_ne_nil
  have hvalue : (Nat.ofDigitChars 10 (natChars d.coefficient) 0 : ℚ) *
      10 ^ ((natChars d.coefficient).length + d.power - (natChars d.coefficient).length) = d.value := by
    rw [natChars, Nat.ofDigitChars_toDigits (by decide) (by decide), add_sub_cancel_left, Binary64.Decimal.value]
  rw [← hvalue, decimalParts]
  split
  · exact value_positionalParts negative _ _
  · exact value_scientificParts negative hne _

/-- A number is the nearest one to what is read of it. -/
theorem value_floatParts (x : Binary64) : ∃ n : Nat,
    (floatParts x).numeral.value * 10 ^ Binary64.unitBits = n ∧ x.isNearestTo n = true := by
  unfold floatParts
  split
  · next hzero =>
    have hnear := x.isNearestTo_tenthUnits
    rw [Binary64.tenthUnits, Binary64.units, beq_iff_eq.1 hzero, Nat.zero_shiftLeft, Nat.zero_mul] at hnear
    refine ⟨0, ?_, hnear⟩
    have hdigits : Nat.ofDigitChars 10 ['0', '0'] 0 = 0 := by decide
    simp [value_numeral, hdigits]
  · rw [value_decimalParts]
    exact x.value_shortest

/-- **A floating point number is told by what is read of it.** -/
theorem numeral_floatParts_injective (h : (floatParts x).numeral = (floatParts y).numeral) : x = y := by
  -- The sign stands apart: the two zeros say the same number.
  have hsign : x.negative = y.negative := by
    rw [← negative_floatParts x, ← negative_floatParts y]
    exact congrArg Numeral.negative h
  obtain ⟨m, hm, hnear⟩ := value_floatParts x
  obtain ⟨n, hn, hnear'⟩ := value_floatParts y
  have hmn : m = n := Nat.cast_injective (hm.symm.trans (h ▸ hn))
  subst hmn
  exact Binary64.eq_of_isNearestTo hsign hnear hnear'

theorem marked_decimalParts (negative : Bool) (d : Binary64.Decimal) :
    (decimalParts negative d).fraction.isSome = true ∨ (decimalParts negative d).exponent.isSome = true := by
  unfold decimalParts
  dsimp only
  split
  · unfold positionalParts
    split <;> exact .inl rfl
  · exact .inr rfl

/-- A floating point number is written with a point or with an exponent. -/
theorem marked_floatParts (x : Binary64) :
    (floatParts x).fraction.isSome = true ∨ (floatParts x).exponent.isSome = true := by
  unfold floatParts
  split
  · exact .inl rfl
  · exact marked_decimalParts _ _

/-- No integer is read as a floating point number is. -/
theorem numeral_intParts_ne_floatParts (n : Int) (x : Binary64) :
    (intParts n).numeral ≠ (floatParts x).numeral := by
  intro h
  have hint : (intParts n).numeral.fraction = none ∧ (intParts n).numeral.exponent = none := by
    cases n <;> exact ⟨rfl, rfl⟩
  rw [h] at hint
  rcases marked_floatParts x with hmark | hmark
  · rw [Option.map_eq_none_iff.1 hint.1] at hmark
    cases hmark
  · have hnone : (floatParts x).exponent = none := hint.2
    rw [hnone] at hmark
    cases hmark

end Json
end Outbox
