/-
# The syntax of a JSON text

A `Node` is what a well-formed JSON text says, before any decision on what it means: numbers are
kept as they are written, members are kept in order and with repetitions, nesting is not limited, and
a text whose escapes leave half of a surrogate pair over is kept as `none`. Whoever makes use of a
node decides whether such a thing is an error, so a part that nobody looks at only has to be
well-formed.

Key definitions: `Numeral`, `Node`, `Node.parse?`, `Node.height`, `maxNesting`.
-/

namespace Outbox

/-- A number as it is written. -/
structure Numeral where
  /-- Whether there is a minus sign. -/
  negative : Bool
  /-- The digits before the point. -/
  whole : List Nat
  /-- The digits after the point, if there is one. -/
  fraction : Option (List Nat)
  /-- The exponent, if there is one. -/
  exponent : Option Int
deriving DecidableEq, Repr

/-- A well-formed JSON text. -/
inductive Node where
  /-- The value `null`. -/
  | null
  /-- A truth value. -/
  | bool (b : Bool)
  /-- A number. -/
  | num (n : Numeral)
  /-- A text, if its surrogates are paired. -/
  | str (s : Option String)
  /-- An array. -/
  | arr (items : List Node)
  /-- An object, with its members as they are written. -/
  | obj (members : List (Option String × Node))

namespace Node

/-- The blanks that may stand between the parts of a text. -/
def isBlank (c : Char) : Bool := c == ' ' || c == '\t' || c == '\n' || c == '\r'

/-- What follows the blanks at the start of a text. -/
def skipBlanks (cs : List Char) : List Char := cs.dropWhile isBlank

/-- A part of a text between quotes. -/
inductive Piece where
  /-- A character, plain or escaped by one letter. -/
  | char (c : Char)
  /-- A 16-bit number after `\u`. -/
  | unit (n : Nat)
deriving DecidableEq, Repr

/-- The value of a hexadecimal digit. -/
def hexValue? (c : Char) : Option Nat :=
  if c.isDigit then some (c.toNat - '0'.toNat)
  else if 'a' ≤ c ∧ c ≤ 'f' then some (c.toNat - 'a'.toNat + 10)
  else if 'A' ≤ c ∧ c ≤ 'F' then some (c.toNat - 'A'.toNat + 10)
  else none

/-- The number that four hexadecimal digits spell. -/
def hexUnit? (a b c d : Char) : Option Nat := do
  return (((← hexValue? a) * 16 + (← hexValue? b)) * 16 + (← hexValue? c)) * 16 + (← hexValue? d)

/-- The character that a letter after a backslash stands for. -/
def unescape? : Char → Option Char
  | '"' => some '"'
  | '\\' => some '\\'
  | '/' => some '/'
  | 'b' => some '\x08'
  | 'f' => some '\x0c'
  | 'n' => some '\n'
  | 'r' => some '\r'
  | 't' => some '\t'
  | _ => none

/-- Reads a text up to its closing quote. -/
def pieces? : List Char → Option (List Piece × List Char)
  | [] => none
  | '"' :: cs => some ([], cs)
  | '\\' :: 'u' :: a :: b :: c :: d :: cs => do
    let n ← hexUnit? a b c d
    let (ps, rest) ← pieces? cs
    return (.unit n :: ps, rest)
  | '\\' :: c :: cs => do
    let c ← unescape? c
    let (ps, rest) ← pieces? cs
    return (.char c :: ps, rest)
  | c :: cs =>
    if c.toNat < 0x20 ∨ c = '\\' then none
    else do
      let (ps, rest) ← pieces? cs
      return (.char c :: ps, rest)

/-- Whether a 16-bit number is the first half of a surrogate pair. -/
def isHighSurrogate (n : Nat) : Bool := 0xD800 ≤ n && n < 0xDC00

/-- Whether a 16-bit number is the second half of a surrogate pair. -/
def isLowSurrogate (n : Nat) : Bool := 0xDC00 ≤ n && n < 0xE000

/-- The character that a surrogate pair stands for. -/
def ofSurrogates (high low : Nat) : Char :=
  Char.ofNat (0x10000 + (high - 0xD800) * 0x400 + (low - 0xDC00))

/-- The characters of a text, unless half of a surrogate pair stands alone. -/
def assemble? : List Piece → Option (List Char)
  | [] => some []
  | .char c :: ps => (assemble? ps).map (c :: ·)
  | .unit n :: .unit m :: ps =>
    if isHighSurrogate n then
      if isLowSurrogate m then (assemble? ps).map (ofSurrogates n m :: ·) else none
    else if isLowSurrogate n then none
    else (assemble? (.unit m :: ps)).map (Char.ofNat n :: ·)
  | .unit n :: ps =>
    if isHighSurrogate n ∨ isLowSurrogate n then none
    else (assemble? ps).map (Char.ofNat n :: ·)

/-- Reads a text after its opening quote. -/
def string? (cs : List Char) : Option (Option String × List Char) := do
  let (ps, rest) ← pieces? cs
  return ((assemble? ps).map String.ofList, rest)

/-- The value of a decimal digit. -/
def digitValue (c : Char) : Nat := c.toNat - '0'.toNat

/-- Splits a text into the digits that it starts with, as numbers, and the rest. -/
def splitDigits (cs : List Char) : List Nat × List Char :=
  ((cs.takeWhile Char.isDigit).map digitValue, cs.dropWhile Char.isDigit)

/-- Reads at least one digit. -/
def digits? (cs : List Char) : Option (List Nat × List Char) :=
  let (ds, rest) := splitDigits cs
  if ds.isEmpty then none else some (ds, rest)

/-- Reads the digits before the point: a single zero, or digits of which the first is not zero. -/
def whole? (cs : List Char) : Option (List Nat × List Char) :=
  match digits? cs with
  | some (0 :: _ :: _, _) => none
  | r => r

/-- Reads the digits after a point, if there is a point. -/
def fraction? : List Char → Option (Option (List Nat) × List Char)
  | '.' :: cs => (digits? cs).map fun (ds, rest) => (some ds, rest)
  | cs => some (none, cs)

/-- The number that digits spell. -/
def ofDigits (ds : List Nat) : Nat := ds.foldl (fun n d => n * 10 + d) 0

/-- Reads a sign and digits. -/
def signed? : List Char → Option (Int × List Char)
  | '-' :: cs => (digits? cs).map fun (ds, rest) => (-(ofDigits ds : Int), rest)
  | '+' :: cs => (digits? cs).map fun (ds, rest) => ((ofDigits ds : Int), rest)
  | cs => (digits? cs).map fun (ds, rest) => ((ofDigits ds : Int), rest)

/-- Reads an exponent, if there is one. -/
def exponent? : List Char → Option (Option Int × List Char)
  | 'e' :: cs => (signed? cs).map fun (n, rest) => (some n, rest)
  | 'E' :: cs => (signed? cs).map fun (n, rest) => (some n, rest)
  | cs => some (none, cs)

/-- Reads a number without its sign. -/
def magnitude? (negative : Bool) (cs : List Char) : Option (Numeral × List Char) := do
  let (whole, cs) ← whole? cs
  let (fraction, cs) ← fraction? cs
  let (exponent, cs) ← exponent? cs
  return (⟨negative, whole, fraction, exponent⟩, cs)

/-- Reads a number. -/
def numeral? : List Char → Option (Numeral × List Char)
  | '-' :: cs => magnitude? true cs
  | cs => magnitude? false cs

mutual

/-- Reads a value after optional blanks. The first argument bounds the depth of the recursion. -/
def value? : Nat → List Char → Option (Node × List Char)
  | 0, _ => none
  | fuel + 1, cs =>
    match skipBlanks cs with
    | 'n' :: 'u' :: 'l' :: 'l' :: cs => some (null, cs)
    | 't' :: 'r' :: 'u' :: 'e' :: cs => some (bool true, cs)
    | 'f' :: 'a' :: 'l' :: 's' :: 'e' :: cs => some (bool false, cs)
    | '"' :: cs => (string? cs).map fun (s, rest) => (str s, rest)
    | '[' :: cs =>
      match skipBlanks cs with
      | ']' :: cs => some (arr [], cs)
      | cs => (items? fuel cs).map fun (items, rest) => (arr items, rest)
    | '{' :: cs =>
      match skipBlanks cs with
      | '}' :: cs => some (obj [], cs)
      | cs => (members? fuel cs).map fun (members, rest) => (obj members, rest)
    | cs => (numeral? cs).map fun (n, rest) => (num n, rest)

/-- Reads the items of an array and its closing bracket. -/
def items? : Nat → List Char → Option (List Node × List Char)
  | 0, _ => none
  | fuel + 1, cs => do
    let (item, cs) ← value? fuel cs
    match skipBlanks cs with
    | ']' :: cs => return ([item], cs)
    | ',' :: cs => return (← items? fuel cs).map (item :: ·) id
    | _ => none

/-- Reads the members of an object and its closing brace. -/
def members? : Nat → List Char → Option (List (Option String × Node) × List Char)
  | 0, _ => none
  | fuel + 1, cs =>
    match skipBlanks cs with
    | '"' :: cs => do
      let (name, cs) ← string? cs
      match skipBlanks cs with
      | ':' :: cs => do
        let (value, cs) ← value? fuel cs
        match skipBlanks cs with
        | '}' :: cs => return ([(name, value)], cs)
        | ',' :: cs => return (← members? fuel cs).map ((name, value) :: ·) id
        | _ => none
      | _ => none
    | _ => none

end

/-- Reads a whole text: one value with optional blanks around it. Two steps of recursion per
character are enough, since a value and a list of values each take a character before they recur
to the other. -/
def parse? (text : String) : Option Node :=
  let cs := text.toList
  match value? (2 * cs.length + 2) cs with
  | some (node, rest) => if (skipBlanks rest).isEmpty then some node else none
  | none => none

mutual

/-- The number of levels of arrays and objects. -/
def height : Node → Nat
  | arr items => itemsHeight items + 1
  | obj members => membersHeight members + 1
  | _ => 0

/-- The number of levels in the items of an array. -/
def itemsHeight : List Node → Nat
  | [] => 0
  | a :: as => max (height a) (itemsHeight as)

/-- The number of levels in the members of an object. -/
def membersHeight : List (Option String × Node) → Nat
  | [] => 0
  | (_, a) :: as => max (height a) (membersHeight as)

end

end Node

/-- The levels of nesting that a text may have. -/
def maxNesting : Nat := 127

end Outbox
