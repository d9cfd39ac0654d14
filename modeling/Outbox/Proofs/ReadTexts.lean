/-
# Values are read as they are written

A written value is read as what it says, up to where it ends, whatever follows it. Escapes are read as their
characters, and numbers as they are written, also where the number that they mean is another question. As a value
and a list of values each take a character before they go on, two levels of recursion for each character of a text
are enough for its reader. What is read tells the value, so no two values are written alike.

Key definitions: `Node.pieceOf`, `Json.toNode`.
Key theorems: `Node.string?_flatMap_escape`, `Node.value?_chars`, `Node.parse?_render`, `Json.toNode_injective`,
`Json.render_injective`.
-/
import Outbox.Proofs.ReadNumbers

namespace Outbox

/-! ### Texts between quotes -/

namespace Node

open Json (escape hexDigit quoted)

variable {s : List Char}

/-- What is read of a character that is written. -/
def pieceOf (c : Char) : Piece :=
  if c.toNat < 0x20 ∧ c ∉ ['\x08', '\t', '\n', '\x0c', '\r'] then .unit c.toNat else .char c

theorem hexValue?_hexDigit : ∀ n < 16, hexValue? (hexDigit n) = some n := by decide

theorem hexUnit?_hexDigit {n : Nat} (hn : n < 0x20) :
    hexUnit? '0' '0' (hexDigit (n / 16)) (hexDigit (n % 16)) = some n := by
  have hread : hexUnit? '0' '0' (hexDigit (n / 16)) (hexDigit (n % 16)) =
      some (((0 * 16 + 0) * 16 + n / 16) * 16 + n % 16) := by
    unfold hexUnit?
    rw [hexValue?_hexDigit (n / 16) (by omega), hexValue?_hexDigit (n % 16) (by omega)]
    rfl
  rw [hread]
  congr 1
  omega

theorem pieces?_escape (c : Char) (s : List Char) :
    pieces? (escape c ++ s) = (pieces? s).map fun r => (pieceOf c :: r.1, r.2) := by
  have hbind : ∀ p : Piece, (do let r ← pieces? s; return (p :: r.1, r.2)) =
      (pieces? s).map fun r => (p :: r.1, r.2) := by
    intro p
    cases pieces? s <;> rfl
  unfold escape
  split
  -- Seven characters have an escape of their own.
  iterate 7 exact hbind _
  next hquote hslash hback htab hnew hform hreturn =>
    split
    · next hlow =>
      have hpiece : pieceOf c = .unit c.toNat := if_pos ⟨hlow, by simp_all⟩
      rw [hpiece, ← hbind]
      show (hexUnit? _ _ _ _ >>= _) = _
      rw [hexUnit?_hexDigit hlow]
      rfl
    · next hhigh =>
      have hpiece : pieceOf c = .char c := if_neg fun h => hhigh h.1
      rw [hpiece, ← hbind, List.singleton_append, pieces?.eq_def]
      split
      · next h => cases h
      · next h => exact absurd (List.head_eq_of_cons_eq h) hquote
      · next h => exact absurd (List.head_eq_of_cons_eq h) hslash
      · next h => exact absurd (List.head_eq_of_cons_eq h) hslash
      · next h =>
        cases h
        rw [if_neg (not_or.2 ⟨hhigh, hslash⟩)]

theorem assemble?_pieceOf (c : Char) (ps : List Piece) :
    assemble? (pieceOf c :: ps) = (assemble? ps).map (c :: ·) := by
  unfold pieceOf
  split
  · next hlow =>
    have hhigh : isHighSurrogate c.toNat = false := by simp [isHighSurrogate]; omega
    have hlow : isLowSurrogate c.toNat = false := by simp [isLowSurrogate]; omega
    rw [assemble?.eq_def]
    split
    · next h => cases h
    · next h => cases h
    · next h =>
      cases h
      rw [hhigh, hlow, Char.ofNat_toNat]
      rfl
    · next h =>
      cases h
      rw [hhigh, hlow, Char.ofNat_toNat]
      rfl
  · rfl

theorem pieces?_flatMap_escape (cs : List Char) (s : List Char) :
    pieces? (cs.flatMap escape ++ '"' :: s) = some (cs.map pieceOf, s) := by
  induction cs with
  | nil => rfl
  | cons c cs ih =>
    rw [List.flatMap_cons, List.append_assoc, pieces?_escape, ih]
    rfl

theorem assemble?_map_pieceOf (cs : List Char) : assemble? (cs.map pieceOf) = some cs := by
  induction cs with
  | nil => rfl
  | cons c cs ih =>
    rw [List.map_cons, assemble?_pieceOf, ih]
    rfl

theorem quoted_append (k : String) (s : List Char) :
    quoted k ++ s = '"' :: (k.toList.flatMap escape ++ '"' :: s) := by
  rw [quoted, List.cons_append, List.append_assoc, List.singleton_append]

/-- **A written text is read**, and it ends with its quote. -/
theorem string?_flatMap_escape (k : String) (s : List Char) :
    string? (k.toList.flatMap escape ++ '"' :: s) = some (some k, s) := by
  rw [string?, pieces?_flatMap_escape]
  show some ((assemble? (k.toList.map pieceOf)).map String.ofList, s) = _
  rw [assemble?_map_pieceOf, Option.map_some, String.ofList_toList]

end Node

/-! ### Values -/

namespace Json

mutual

/-- The value as it is read. -/
def toNode : Json → Node
  | null => .null
  | bool b => .bool b
  | int n => .num (intParts n).numeral
  | float x => .num (floatParts x).numeral
  | str s => .str (some s)
  | arr items => .arr (itemsToNode items)
  | obj members => .obj (membersToNode members)

/-- The items of an array as they are read. -/
def itemsToNode : List Json → List Node
  | [] => []
  | a :: as => toNode a :: itemsToNode as

/-- The members of an object as they are read. -/
def membersToNode : List (String × Json) → List (Option String × Node)
  | [] => []
  | (k, a) :: as => (some k, toNode a) :: membersToNode as

end

end Json

namespace Node

open Json (chars escape itemsChars itemsToNode membersChars membersToNode quoted)

variable {a : Json} {cs s : List Char} {n : Numeral} {fuel : Nat}

theorem skipBlanks_cons {c : Char} (hc : isBlank c = false) (cs : List Char) :
    skipBlanks (c :: cs) = c :: cs := by
  rw [skipBlanks, List.dropWhile_cons_of_neg (by rw [hc]; exact Bool.false_ne_true)]

/-- A number starts with a sign or with a digit. -/
theorem NumberParts.WellFormed.exists_chars_eq {p : NumberParts} (hp : p.WellFormed) :
    ∃ c cs, p.chars = c :: cs ∧ (c = '-' ∨ c.isDigit = true) := by
  obtain ⟨c, cs, hwhole⟩ := List.exists_cons_of_ne_nil hp.whole_ne
  have hdigit : c.isDigit = true := hp.whole_digits c (hwhole ▸ List.mem_cons_self)
  rw [NumberParts.chars]
  split
  · exact ⟨_, _, rfl, .inl rfl⟩
  · rw [NumberParts.magnitude, hwhole]
    exact ⟨_, _, rfl, .inr hdigit⟩

/-- The first character of a number is none with which something else starts or ends. -/
theorem ne_of_number {c d : Char} (hc : c = '-' ∨ c.isDigit = true) (hd : d ≠ '-') (hd' : d.isDigit = false) :
    c ≠ d := by
  rintro rfl
  rcases hc with rfl | hc
  · exact hd rfl
  · rw [hd'] at hc
    cases hc

theorem isBlank_of_number {c : Char} (hc : c = '-' ∨ c.isDigit = true) : isBlank c = false := by
  simp only [isBlank, Bool.or_eq_false_iff, beq_eq_false_iff_ne]
  exact ⟨⟨⟨ne_of_number hc (by decide) rfl, ne_of_number hc (by decide) rfl⟩, ne_of_number hc (by decide) rfl⟩,
    ne_of_number hc (by decide) rfl⟩

/-- No value starts with a blank, nor as an array ends. -/
theorem exists_chars_eq (a : Json) : ∃ c cs, a.chars = c :: cs ∧ isBlank c = false ∧ c ≠ ']' := by
  have hnumber : ∀ {p : NumberParts}, p.WellFormed →
      ∃ c cs, p.chars = c :: cs ∧ isBlank c = false ∧ c ≠ ']' := by
    intro p hp
    obtain ⟨c, cs, hchars, hc⟩ := hp.exists_chars_eq
    exact ⟨c, cs, hchars, isBlank_of_number hc, ne_of_number hc (by decide) rfl⟩
  match a with
  | .int n =>
    rw [chars, ← Json.chars_intParts]
    exact hnumber (Json.wellFormed_intParts n)
  | .float x =>
    rw [chars, ← Json.chars_floatParts]
    exact hnumber (Json.wellFormed_floatParts x)
  | .null | .bool true | .bool false | .str _ | .arr [] | .arr (_ :: _) | .obj [] | .obj ((_, _) :: _) =>
    exact ⟨_, _, rfl, rfl, by decide⟩

/-- A number starts as no other value does. -/
theorem value?_chars_of_wellFormed {p : NumberParts} (hp : p.WellFormed) (hs : ValueEnds s) (fuel : Nat) :
    value? (fuel + 1) (p.chars ++ s) = some (num p.numeral, s) := by
  have hread := numeral?_chars hp hs
  obtain ⟨c, cs, hchars, hc⟩ := hp.exists_chars_eq
  rw [hchars, List.cons_append] at hread ⊢
  rw [value?, skipBlanks_cons (isBlank_of_number hc)]
  split
  iterate 6 next h => exact absurd (List.head_eq_of_cons_eq h) (ne_of_number hc (by decide) rfl)
  rw [hread]
  rfl

theorem valueEnds_itemsChars (l : List Json) (s : List Char) : ValueEnds (itemsChars l ++ s) := by
  cases l with
  | nil => exact fun c hc => Option.some.inj hc ▸ .inr (.inl rfl)
  | cons a as => exact fun c hc => Option.some.inj hc ▸ .inl rfl

theorem valueEnds_membersChars (l : List (String × Json)) (s : List Char) : ValueEnds (membersChars l ++ s) := by
  cases l with
  | nil => exact fun c hc => Option.some.inj hc ▸ .inr (.inr rfl)
  | cons a as => exact fun c hc => Option.some.inj hc ▸ .inl rfl

mutual

-- The induction is on the value. A value takes a character before its items or members are read, and they take
-- one each before the next one is.
/-- **A written value is read**, and it ends where it does, given two levels of recursion for each character. -/
theorem value?_chars : ∀ {a : Json} {fuel : Nat} {s : List Char}, 2 * a.chars.length ≤ fuel → ValueEnds s →
    value? fuel (a.chars ++ s) = some (a.toNode, s)
  | a, 0, _, hfuel, _ => by
    obtain ⟨c, cs, hc, -⟩ := exists_chars_eq a
    simp [hc] at hfuel
  | .null, _ + 1, _, _, _ => rfl
  | .bool true, _ + 1, _, _, _ => rfl
  | .bool false, _ + 1, _, _, _ => rfl
  | .int n, fuel + 1, s, _, hs => by
    show value? (fuel + 1) (Json.intChars n ++ s) = _
    rw [← Json.chars_intParts, value?_chars_of_wellFormed (Json.wellFormed_intParts n) hs]
    rfl
  | .float x, fuel + 1, s, _, hs => by
    show value? (fuel + 1) (Json.floatChars x ++ s) = _
    rw [← Json.chars_floatParts, value?_chars_of_wellFormed (Json.wellFormed_floatParts x) hs]
    rfl
  | .str k, fuel + 1, s, _, _ => by
    show value? (fuel + 1) (quoted k ++ s) = _
    rw [quoted_append]
    show (string? _).map _ = _
    rw [string?_flatMap_escape]
    rfl
  | .arr [], _ + 1, _, _, _ => rfl
  | .arr (a :: as), fuel + 1, s, hfuel, _ => by
    have hitems : items? fuel ((itemsChars (a :: as)).tail ++ s) = some (itemsToNode (a :: as), s) := by
      refine items?_itemsChars (List.cons_ne_nil _ _) ?_
      simp only [chars, itemsChars, List.length_cons, List.tail_cons] at hfuel ⊢
      omega
    obtain ⟨c, cs, hc, hblank, hclose⟩ := exists_chars_eq a
    have hstart : (itemsChars (a :: as)).tail ++ s = c :: (cs ++ itemsChars as ++ s) := by
      simp [itemsChars, hc]
    show value? (fuel + 1) ('[' :: ((itemsChars (a :: as)).tail ++ s)) = _
    rw [hstart] at hitems ⊢
    show (match skipBlanks (c :: _) with
      | ']' :: cs => some (arr [], cs)
      | cs => (items? fuel cs).map fun (items, rest) => (arr items, rest)) = _
    rw [skipBlanks_cons hblank]
    split
    · next h => exact absurd (List.head_eq_of_cons_eq h) hclose
    · rw [hitems]
      rfl
  | .obj [], _ + 1, _, _, _ => rfl
  | .obj ((k, a) :: ms), fuel + 1, s, hfuel, _ => by
    have hmembers : members? fuel ((membersChars ((k, a) :: ms)).tail ++ s) =
        some (membersToNode ((k, a) :: ms), s) := by
      refine members?_membersChars (List.cons_ne_nil _ _) ?_
      simp only [chars, membersChars, List.length_cons, List.tail_cons] at hfuel ⊢
      omega
    show (members? fuel ((membersChars ((k, a) :: ms)).tail ++ s)).map _ = _
    rw [hmembers]
    rfl

theorem items?_itemsChars : ∀ {l : List Json} {fuel : Nat} {s : List Char}, l ≠ [] →
    2 * (itemsChars l).tail.length ≤ fuel →
    items? fuel ((itemsChars l).tail ++ s) = some (itemsToNode l, s)
  | [], _, _, h, _ => absurd rfl h
  | a :: as, 0, s, _, hfuel => by
    obtain ⟨c, cs, hc, -⟩ := exists_chars_eq a
    simp [itemsChars, hc] at hfuel
  | a :: as, fuel + 1, s, _, hfuel => by
    simp only [itemsChars, List.tail_cons, List.length_append] at hfuel
    have hvalue : value? fuel (a.chars ++ (itemsChars as ++ s)) = some (a.toNode, itemsChars as ++ s) := by
      refine value?_chars ?_ (valueEnds_itemsChars as s)
      cases as <;> simp only [itemsChars, List.length_cons] at hfuel <;> omega
    show (value? fuel (a.chars ++ itemsChars as ++ s) >>= _) = _
    rw [List.append_assoc, hvalue]
    cases as with
    | nil => rfl
    | cons b bs =>
      have hitems : items? fuel ((itemsChars (b :: bs)).tail ++ s) = some (itemsToNode (b :: bs), s) := by
        refine items?_itemsChars (List.cons_ne_nil _ _) ?_
        simp only [itemsChars, List.length_cons, List.tail_cons] at hfuel ⊢
        omega
      show (items? fuel ((itemsChars (b :: bs)).tail ++ s) >>= _) = _
      rw [hitems]
      rfl

theorem members?_membersChars : ∀ {l : List (String × Json)} {fuel : Nat} {s : List Char}, l ≠ [] →
    2 * (membersChars l).tail.length ≤ fuel →
    members? fuel ((membersChars l).tail ++ s) = some (membersToNode l, s)
  | [], _, _, h, _ => absurd rfl h
  | (k, a) :: as, 0, s, _, hfuel => by simp [membersChars, quoted] at hfuel
  | (k, a) :: as, fuel + 1, s, _, hfuel => by
    simp only [membersChars, List.tail_cons, List.length_append, List.length_cons] at hfuel
    have hvalue : value? fuel (a.chars ++ (membersChars as ++ s)) = some (a.toNode, membersChars as ++ s) := by
      refine value?_chars (by omega) (valueEnds_membersChars as s)
    have hstart : (membersChars ((k, a) :: as)).tail ++ s =
        '"' :: (k.toList.flatMap escape ++ '"' :: (':' :: (a.chars ++ (membersChars as ++ s)))) := by
      rw [membersChars, List.tail_cons, List.append_assoc, quoted_append]
      simp
    rw [hstart]
    show (string? _ >>= _) = _
    rw [string?_flatMap_escape]
    show (value? fuel _ >>= _) = _
    rw [hvalue]
    cases as with
    | nil => rfl
    | cons m ms =>
      have hmembers : members? fuel ((membersChars (m :: ms)).tail ++ s) = some (membersToNode (m :: ms), s) := by
        refine members?_membersChars (List.cons_ne_nil _ _) ?_
        simp only [membersChars, List.length_cons, List.tail_cons] at hfuel ⊢
        omega
      show (members? fuel ((membersChars (m :: ms)).tail ++ s) >>= _) = _
      rw [hmembers]
      rfl

end

/-- **The text of a value is read as what it says.** -/
theorem parse?_render (a : Json) : parse? a.render = some a.toNode := by
  have hread : value? (2 * a.chars.length + 2) (a.chars ++ []) = some (a.toNode, []) :=
    value?_chars (by omega) valueEnds_nil
  rw [List.append_nil] at hread
  rw [parse?, Json.render, String.toList_ofList]
  simp only [hread]
  rfl

end Node

/-! ### What is read says which value was written -/

namespace Json

mutual

/-- **A value is told by what is read of it.** -/
theorem toNode_injective : ∀ {a b : Json}, a.toNode = b.toNode → a = b
  | null, null, _ => rfl
  | bool _, bool _, h => congrArg bool (Node.bool.inj h)
  | int _, int _, h => congrArg int (numeral_intParts_injective (Node.num.inj h))
  | int n, float x, h => absurd (Node.num.inj h) (numeral_intParts_ne_floatParts n x)
  | float x, int n, h => absurd (Node.num.inj h).symm (numeral_intParts_ne_floatParts n x)
  | float _, float _, h => congrArg float (numeral_floatParts_injective (Node.num.inj h))
  | str _, str _, h => congrArg str (Option.some.inj (Node.str.inj h))
  | arr _, arr _, h => congrArg arr (itemsToNode_injective (Node.arr.inj h))
  | obj _, obj _, h => congrArg obj (membersToNode_injective (Node.obj.inj h))

theorem itemsToNode_injective : ∀ {l m : List Json}, itemsToNode l = itemsToNode m → l = m
  | [], [], _ => rfl
  | _ :: _, _ :: _, h => by
    obtain ⟨hhead, htail⟩ := List.cons.inj h
    rw [toNode_injective hhead, itemsToNode_injective htail]

theorem membersToNode_injective : ∀ {l m : List (String × Json)}, membersToNode l = membersToNode m → l = m
  | [], [], _ => rfl
  | (_, _) :: _, (_, _) :: _, h => by
    obtain ⟨hhead, htail⟩ := List.cons.inj h
    obtain ⟨hname, hvalue⟩ := Prod.mk.inj hhead
    rw [Option.some.inj hname, toNode_injective hvalue, membersToNode_injective htail]

end

/-- **A value is told by its text.** -/
theorem render_injective {a b : Json} (h : render a = render b) : a = b := by
  have hread := Node.parse?_render a
  rw [h, Node.parse?_render, Option.some.injEq] at hread
  exact (toNode_injective hread).symm

end Json
end Outbox
