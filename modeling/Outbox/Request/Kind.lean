/-
# The seven kinds of requests

A kind has a number, by which hosts refer to it, a name, and a label, which is how messages about
requests spell it.

Key definitions: `RequestKind`, `RequestKind.number`, `RequestKind.ofNumber?`, `RequestKind.all`.
Key theorems: `RequestKind.ofNumber?_number`, `RequestKind.ofNumber?_eq_some_iff`.
-/

namespace Outbox

/-- What a request asks of the server. -/
inductive RequestKind where
  /-- To publish keys of this device. -/
  | keysUpload
  /-- To list the devices of users. -/
  | keysQuery
  /-- To hand over one-time keys of devices. -/
  | keysClaim
  /-- To deliver messages to devices. -/
  | toDevice
  /-- To publish signatures of keys. -/
  | signatureUpload
  /-- To post a message to a room. -/
  | roomMessage
  /-- To store room keys in a backup. -/
  | keysBackup
deriving DecidableEq, Repr, Inhabited

namespace RequestKind

/-- All kinds, by number. -/
def all : List RequestKind :=
  [keysUpload, keysQuery, keysClaim, toDevice, signatureUpload, roomMessage, keysBackup]

/-- The number of the kind. -/
def number : RequestKind → UInt8
  | keysUpload => 0
  | keysQuery => 1
  | keysClaim => 2
  | toDevice => 3
  | signatureUpload => 4
  | roomMessage => 5
  | keysBackup => 6

/-- The kind with the given number, if there is one. -/
def ofNumber? (n : UInt8) : Option RequestKind := all[n.toNat]?

/-- The name of the kind. -/
def name : RequestKind → String
  | keysUpload => "keys_upload"
  | keysQuery => "keys_query"
  | keysClaim => "keys_claim"
  | toDevice => "to_device"
  | signatureUpload => "signature_upload"
  | roomMessage => "room_message"
  | keysBackup => "keys_backup"

/-- The kind as it is spelt in messages. -/
def label : RequestKind → String
  | keysUpload => "KeysUpload"
  | keysQuery => "KeysQuery"
  | keysClaim => "KeysClaim"
  | toDevice => "ToDevice"
  | signatureUpload => "SignatureUpload"
  | roomMessage => "RoomMessage"
  | keysBackup => "KeysBackup"

/-- The kind with the given name, if there is one. -/
def ofName? (s : String) : Option RequestKind := all.find? fun k => k.name == s

theorem ofNumber?_number (k : RequestKind) : ofNumber? k.number = some k := by
  cases k <;> rfl

theorem number_injective {j k : RequestKind} (h : j.number = k.number) : j = k := by
  have := ofNumber?_number j
  rw [h, ofNumber?_number k] at this
  exact (Option.some.inj this).symm

theorem toNat_number_all : ∀ i (h : i < all.length), (all[i]).number.toNat = i := by decide

/-- A number is that of one kind at most. -/
theorem ofNumber?_eq_some_iff {n : UInt8} {k : RequestKind} : ofNumber? n = some k ↔ k.number = n := by
  constructor
  · intro h
    obtain ⟨hlt, rfl⟩ := List.getElem?_eq_some_iff.1 h
    exact UInt8.toNat_inj.1 (toNat_number_all _ hlt)
  · rintro rfl
    exact ofNumber?_number k

/-- The numbers above that of the last kind are free. -/
theorem ofNumber?_eq_none_iff {n : UInt8} : ofNumber? n = none ↔ keysBackup.number < n := by
  rw [ofNumber?, List.getElem?_eq_none_iff, UInt8.lt_iff_toNat_lt]
  exact Nat.succ_le_iff.symm

end RequestKind
end Outbox
