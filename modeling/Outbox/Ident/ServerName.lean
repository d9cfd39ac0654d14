/-
# The form of a server name

A server name is a host with an optional port. The host is a name of ASCII letters, digits, hyphens
and dots, which may be empty before a port, or an IPv6 address in brackets. Server names are compared
character by character: two spellings of one address are two names.

Key definitions: `isServerName`, `Address.isIPv6`, `Address.isPort`.
-/
namespace Outbox

namespace Address

/-- The value of a digit in the given base, of which letters of either case are digits from ten on. -/
def digit? (base : Nat) (c : Char) : Option Nat :=
  let d := if c.isDigit then some (c.toNat - '0'.toNat)
    else if 'a' ≤ c ∧ c ≤ 'z' then some (c.toNat - 'a'.toNat + 10)
    else if 'A' ≤ c ∧ c ≤ 'Z' then some (c.toNat - 'A'.toNat + 10)
    else none
  d.filter (· < base)

/-- Splits a text into its longest prefix of digits and the rest. -/
def splitDigits (base : Nat) (cs : List Char) : List Nat × List Char :=
  let isDigit := fun c => (digit? base c).isSome
  ((cs.takeWhile isDigit).filterMap (digit? base), cs.dropWhile isDigit)

/-- The number that digits spell. -/
def ofDigits (base : Nat) (digits : List Nat) : Nat :=
  digits.foldl (fun n d => n * base + d) 0

/-- Reads a group of an IPv6 address: one to four hexadecimal digits. -/
def group? (cs : List Char) : Option (List Char) :=
  let (digits, rest) := splitDigits 16 cs
  if 1 ≤ digits.length ∧ digits.length ≤ 4 then some rest else none

/-- Reads a part of an IPv4 address: a number below 256, without a leading zero. -/
def octet? (cs : List Char) : Option (List Char) :=
  let (digits, rest) := splitDigits 10 cs
  if 1 ≤ digits.length ∧ digits.length ≤ 3 ∧ ofDigits 10 digits < 256
      ∧ (digits.head? = some 0 → digits.length = 1) then some rest
  else none

/-- Reads one given character. -/
def char? (c : Char) : List Char → Option (List Char)
  | [] => none
  | c' :: cs => if c' = c then some cs else none

/-- Reads an IPv4 address: four parts with dots between them. -/
def ipv4? (cs : List Char) : Option (List Char) := do
  let cs ← octet? cs
  let cs ← octet? (← char? '.' cs)
  let cs ← octet? (← char? '.' cs)
  octet? (← char? '.' cs)

/-- What a run of groups of an IPv6 address amounts to. -/
structure Groups where
  /-- How many groups were read, an IPv4 address counting for two. -/
  count : Nat
  /-- Whether the run ended with an IPv4 address. -/
  endsInIPv4 : Bool
  /-- The text after the run. -/
  rest : List Char

/-- Reads groups with colons between them, as many as there are, but at most `limit`. Where two
groups still fit, an IPv4 address may stand for them, and it ends the run. -/
def groups (limit : Nat) (first : Bool) (cs : List Char) : Groups :=
  match limit with
  | 0 => ⟨0, false, cs⟩
  | limit + 1 =>
    match if first then some cs else char? ':' cs with
    | none => ⟨0, false, cs⟩
    | some cs' =>
      match if limit = 0 then none else ipv4? cs' with
      | some rest => ⟨2, true, rest⟩
      | none =>
        match group? cs' with
        | none => ⟨0, false, cs⟩
        | some rest =>
          let more := groups limit false rest
          { more with count := more.count + 1 }

/-- Whether a text is an IPv6 address: eight groups, or fewer with one gap `::`, which stands for at
least one group. -/
def isIPv6 (cs : List Char) : Bool :=
  let front := groups 8 true cs
  if front.count = 8 then front.rest.isEmpty
  else if front.endsInIPv4 then false
  else
    match front.rest with
    | ':' :: ':' :: cs => (groups (7 - front.count) true cs).rest.isEmpty
    | _ => false

/-- Whether a text is a port: digits, after an optional plus sign, that spell a number below
65536. -/
def isPort (cs : List Char) : Bool :=
  let cs := match cs with
    | '+' :: cs => cs
    | cs => cs
  let (digits, rest) := splitDigits 10 cs
  !digits.isEmpty && rest.isEmpty && decide (ofDigits 10 digits < 65536)

end Address

/-- A character of a host name. -/
def isHostChar (c : Char) : Bool := c.isAlphanum || c == '-' || c == '.'

/-- Whether a text may follow the host of a server name: nothing, or a colon and a port. -/
def isPortSuffix : List Char → Bool
  | [] => true
  | ':' :: port => Address.isPort port
  | _ => false

/-- Whether a text is a server name. -/
def isServerName : List Char → Bool
  | [] => false
  | '[' :: cs =>
    match cs.dropWhile (· ≠ ']') with
    | _ :: suffix => Address.isIPv6 (cs.takeWhile (· ≠ ']')) && isPortSuffix suffix
    | [] => false
  | cs => (cs.takeWhile (· ≠ ':')).all isHostChar && isPortSuffix (cs.dropWhile (· ≠ ':'))

end Outbox
