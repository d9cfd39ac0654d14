/-
# Identifiers of servers, users, rooms and events

An identifier is a text of a given form: for users a sigil, a part that names the user, and the name
of the server that the user belongs to. Identifiers are equal when their texts are, and they are
ordered as texts. Devices, transactions, sessions, keys and key algorithms are named by arbitrary
texts.

Key definitions: `Ident`, `Ident.parse?`, `ServerName`, `UserId`, `UserId.server`, `RoomId`, `EventId`.
-/
import Outbox.Ident.ServerName

namespace Outbox

/-- The name of a device, unique among the devices of its user. -/
abbrev DeviceId := String

/-- The name of a message, which survives retries of the request that carries it. -/
abbrev TransactionId := String

/-- The name of a request. -/
abbrev RequestId := String

/-- The name of a room key. -/
abbrev SessionId := String

/-- The name of a published key. -/
abbrev KeyId := String

/-- The name of a one-time key algorithm. -/
abbrev Algorithm := String

/-- A text of a given form. -/
structure Ident (form : String → Bool) where
  /-- The identifier as it is written. -/
  text : String
  /-- The text has the form. -/
  valid : form text = true
deriving DecidableEq

namespace Ident

variable {form : String → Bool}

/-- The identifier that a text is, if it has the form. -/
def parse? (text : String) : Option (Ident form) :=
  if h : form text = true then some ⟨text, h⟩ else none

theorem eq_of_text_eq {a b : Ident form} (h : a.text = b.text) : a = b := by
  cases a
  cases b
  cases h
  rfl

theorem parse?_text (a : Ident form) : parse? a.text = some a := by simp [parse?, a.valid]

/-- Identifiers are ordered as texts. -/
instance : Ord (Ident form) := ⟨compareOn text⟩

instance : Std.TransOrd (Ident form) := inferInstanceAs (Std.TransCmp (compareOn text))

instance : Std.LawfulEqOrd (Ident form) where
  compare_self := Std.ReflOrd.compare_self (α := String)
  eq_of_compare h := eq_of_text_eq (Std.LawfulEqOrd.eq_of_compare (α := String) h)

end Ident

/-- The longest text, in bytes, that an identifier may have. -/
def maxIdentBytes : Nat := 255

/-- What follows the first colon of a text. -/
def afterColon (cs : List Char) : List Char := (cs.dropWhile (· ≠ ':')).drop 1

/-- The name of a server. -/
abbrev ServerName := Ident fun text => isServerName text.toList

/-- A character of the part of a user ID that names the user: any visible ASCII character. -/
def isLocalChar (c : Char) : Bool := 0x21 ≤ c.toNat && c.toNat ≤ 0x7E

/-- Whether a text, after its sigil, names a user and a server. -/
def isUserOnServer (cs : List Char) : Bool :=
  let name := cs.takeWhile (· ≠ ':')
  !name.isEmpty && name.all isLocalChar && isServerName (afterColon cs)

/-- Whether a text is a user ID. -/
def isUserId (text : String) : Bool :=
  decide (text.utf8ByteSize ≤ maxIdentBytes) &&
    match text.toList with
    | '@' :: cs => isUserOnServer cs
    | _ => false

/-- The name of a user, unique among all servers. -/
abbrev UserId := Ident isUserId

namespace UserId

theorem isServerName_afterColon (u : UserId) : isServerName (afterColon u.text.toList) = true := by
  have h := u.valid
  unfold isUserId at h
  split at h
  · next cs hcs =>
    have : afterColon u.text.toList = afterColon cs := by simp [hcs, afterColon]
    simp only [isUserOnServer, Bool.and_eq_true] at h
    exact this ▸ h.2.2
  · simp at h

/-- The server that the user belongs to: what follows the first colon. -/
def server (u : UserId) : ServerName where
  text := String.ofList (afterColon u.text.toList)
  valid := by simpa using u.isServerName_afterColon

end UserId

/-- Whether a text is a room ID. -/
def isRoomId (text : String) : Bool :=
  decide (text.utf8ByteSize ≤ maxIdentBytes) && text.toList.head? == some '!'

/-- The name of a room. -/
abbrev RoomId := Ident isRoomId

/-- Whether a text is an event ID. One that names a server is bounded in length like the other
identifiers, one that does not is not. -/
def isEventId (text : String) : Bool :=
  text.toList.head? == some '$' &&
    (!text.toList.contains ':' ||
      decide (text.utf8ByteSize ≤ maxIdentBytes) && isServerName (afterColon text.toList))

/-- The name of an event in a room. -/
abbrev EventId := Ident isEventId

end Outbox
