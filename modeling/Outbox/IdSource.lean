/-
# Sources of fresh names

Requests and messages are named by a source that never gives a name twice and never gives the empty
one. Anything with these two properties will do; `IdSource.counting` counts, and a tag keeps the names
of several sources apart.

Key definitions: `IdSource`, `IdSource.counting`.
Key theorems: `IdSource.mint_ne_of_lt`, `IdSource.toDigits_injective`.
-/

namespace Outbox

/-- An endless supply of distinct names. -/
structure IdSource where
  /-- The name with the given number. -/
  mint : Nat → String
  /-- No name is given twice. -/
  mint_injective : ∀ {i j : Nat}, mint i = mint j → i = j
  /-- No name is empty. -/
  mint_ne_empty : ∀ i : Nat, mint i ≠ ""

namespace IdSource

/-- Names with different numbers are different. -/
theorem mint_ne_of_lt (s : IdSource) {i j : Nat} (h : i < j) : s.mint i ≠ s.mint j :=
  fun e => Nat.ne_of_lt h (s.mint_injective e)

/-- Different numbers are written with different digits. -/
theorem toDigits_injective {i j : Nat} (h : Nat.toDigits 10 i = Nat.toDigits 10 j) : i = j :=
  calc
    i = Nat.ofDigitChars 10 (Nat.toDigits 10 i) 0 :=
      (Nat.ofDigitChars_toDigits (by decide) (by decide)).symm
    _ = Nat.ofDigitChars 10 (Nat.toDigits 10 j) 0 := by rw [h]
    _ = j := Nat.ofDigitChars_toDigits (by decide) (by decide)

/-- The tag, a hyphen and the number. -/
def counting (tag : String) : IdSource where
  mint n := String.ofList (tag.toList ++ '-' :: Nat.toDigits 10 n)
  mint_injective h := by
    have h := List.append_cancel_left (String.ofList_injective h)
    exact toDigits_injective (List.tail_eq_of_cons_eq h)
  mint_ne_empty n h := by simpa using congrArg String.toList h

end IdSource
end Outbox
