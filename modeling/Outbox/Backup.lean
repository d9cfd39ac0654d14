/-
# Backup of room keys

Room keys are stored in a backup on the server, a bounded number per request. A key is backed up when
a request for the active version, holding the key with the value it has, was answered; a change of
the version or of the value undoes that.

Key definitions: `Backup`, `Backup.enable`, `Backup.disable`, `Backup.addRoomKey`, `Backup.request?`,
`Backup.markSent`, `RoomKeyCounts`.
-/
import Outbox.Request.Payload

namespace Outbox

/-- A room key. -/
structure BackupEntry where
  /-- The key, encrypted for the backup. -/
  data : Opaque
  /-- Whether the key is in the active backup. -/
  backedUp : Bool

/-- How many room keys there are. -/
structure RoomKeyCounts where
  /-- All of them. -/
  total : Nat
  /-- Those in the active backup. -/
  backedUp : Nat
deriving DecidableEq, Repr

/-- The room keys, and which of them are backed up. -/
structure Backup where
  /-- The version of the active backup, if there is one. -/
  version : Option String
  /-- The room keys. -/
  roomKeys : Table RoomId SessionId BackupEntry

namespace Backup

/-- No backup, and no keys. -/
def empty : Backup := ⟨none, ∅⟩

/-- Whether there is an active backup. -/
def isEnabled (b : Backup) : Bool := b.version.isSome

/-- Forgets which keys are backed up. -/
def reset (b : Backup) : Backup :=
  { b with roomKeys := b.roomKeys.mapValues fun _ e => { e with backedUp := false } }

/-- Makes a version the active one. Another version than the active one starts from nothing. -/
def enable (b : Backup) (version : String) : Backup :=
  if b.version = some version then b else { b.reset with version := some version }

/-- Stops to back up keys. -/
def disable (b : Backup) : Backup := { b.reset with version := none }

/-- Adds a room key, or replaces one. -/
def addRoomKey (b : Backup) (key : Cell RoomId SessionId) (data : Opaque) : Backup :=
  { b with roomKeys := b.roomKeys.insert key ⟨data, false⟩ }

/-- How many keys there are, and how many are backed up. -/
def counts (b : Backup) : RoomKeyCounts where
  total := b.roomKeys.size
  backedUp := (b.roomKeys.filter fun _ e => e.backedUp).size

/-- Whether a key is backed up. -/
def isBackedUp (b : Backup) (key : Cell RoomId SessionId) : Bool :=
  (b.roomKeys.get? key).any (·.backedUp)

/-- The keys that are not backed up. -/
def remaining (b : Backup) : Table RoomId SessionId Opaque :=
  (b.roomKeys.filter fun _ e => !e.backedUp).mapValues fun _ e => e.data

/-- The request for the first keys that are not backed up, if there are any and a backup is active. A
request holds at least one key, whatever the size of a batch. -/
def request? (b : Backup) (batchSize : Nat) : Option KeysBackup :=
  b.version.bind fun version =>
    (KeysBackup.ofTable version (b.remaining.take (max batchSize 1))).toOption

/-- Takes note that a request was answered. One for another version than the active one says nothing
about the active one. -/
def markSent (b : Backup) (request : KeysBackup) : Backup :=
  if b.version = some request.version then
    { b with
      roomKeys := b.roomKeys.mapValues fun key e =>
        if (request.rooms.get? key).any (· == e.data) then { e with backedUp := true } else e }
  else b

end Backup
end Outbox
