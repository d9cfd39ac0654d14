/-
# What requests carry

Each kind of request has a payload, which can only be built from valid parts: a payload is never
empty, and no user or room in it is without an entry. The functions that build payloads check the
parts in a fixed order and report the first thing that is wrong.

Key definitions: `KeysUpload`, `KeysQuery`, `KeysClaim`, `ToDevice`, `SignatureUpload`, `RoomMessage`,
`KeysBackup`, `Payload`, `OutgoingRequest`.
-/
import Outbox.Duration
import Outbox.Json.Basic
import Outbox.Request.ValidationError
import Outbox.Table

namespace Outbox

/-- The rows of a table as they are put together by a caller, possibly empty. -/
abbrev Rows (ρ γ α : Type) [Ord ρ] [Ord γ] := SortedMap ρ (SortedMap γ α)

/-- Keys of this device that the server should know. -/
structure KeysUpload where
  /-- The identity keys of the device. -/
  deviceKeys : Option Opaque
  /-- Keys that are handed out once each. -/
  oneTimeKeys : SortedMap KeyId Opaque
  /-- Keys that are handed out when the one-time keys are used up. -/
  fallbackKeys : SortedMap KeyId Opaque
  /-- Something is uploaded. -/
  nonempty : deviceKeys.isSome = true ∨ oneTimeKeys.isEmpty = false ∨ fallbackKeys.isEmpty = false

namespace KeysUpload

instance : BEq KeysUpload where
  beq a b :=
    a.deviceKeys == b.deviceKeys && a.oneTimeKeys == b.oneTimeKeys && a.fallbackKeys == b.fallbackKeys

/-- Builds the payload of an upload of keys. -/
def ofKeys (deviceKeys : Option Opaque) (oneTimeKeys fallbackKeys : SortedMap KeyId Opaque) :
    Except ValidationError KeysUpload :=
  if h : deviceKeys.isSome = true ∨ oneTimeKeys.isEmpty = false ∨ fallbackKeys.isEmpty = false then
    .ok ⟨deviceKeys, oneTimeKeys, fallbackKeys, h⟩
  else .error .nothingToUpload

end KeysUpload

/-- Users whose devices the server should list. -/
structure KeysQuery where
  /-- How long the server may wait for other servers. -/
  timeout : Option Duration
  /-- The users. -/
  users : SortedSet UserId
  /-- The point of the event stream up to which changes have to be taken into account. -/
  token : Option String
  /-- Somebody is asked about. -/
  nonempty : users.isEmpty = false

namespace KeysQuery

instance : BEq KeysQuery where
  beq a b :=
    a.timeout == b.timeout && a.users == b.users && a.token == b.token

/-- Builds the payload of a query for the devices of users. -/
def ofUsers (users : SortedSet UserId) (timeout : Option Duration) (token : Option String) :
    Except ValidationError KeysQuery :=
  if h : users.isEmpty = false then .ok ⟨timeout, users, token, h⟩ else .error .noUsersToQuery

end KeysQuery

/-- Devices of which the server should hand over a one-time key each. -/
structure KeysClaim where
  /-- How long the server may wait for other servers. -/
  timeout : Option Duration
  /-- The kind of key that is claimed of each device. -/
  oneTimeKeys : Table UserId DeviceId Algorithm
  /-- Some key is claimed. -/
  nonempty : oneTimeKeys.isEmpty = false

namespace KeysClaim

instance : BEq KeysClaim where
  beq a b :=
    a.timeout == b.timeout && a.oneTimeKeys == b.oneTimeKeys

/-- Builds the payload of a claim from a table. -/
def ofTable (oneTimeKeys : Table UserId DeviceId Algorithm) (timeout : Option Duration) :
    Except ValidationError KeysClaim :=
  if h : oneTimeKeys.isEmpty = false then .ok ⟨timeout, oneTimeKeys, h⟩
  else .error (.noTargetUsers .keysClaim)

/-- Builds the payload of a claim from the devices of each user. -/
def ofRows (oneTimeKeys : Rows UserId DeviceId Algorithm) (timeout : Option Duration) :
    Except ValidationError KeysClaim :=
  match Table.ofRows? oneTimeKeys with
  | .ok table => ofTable table timeout
  | .error user => .error (.emptyUserEntry .keysClaim user)

end KeysClaim

/-- The devices of a user that a message is for. -/
inductive DeviceTarget where
  /-- One device. -/
  | device (id : DeviceId)
  /-- All devices. -/
  | all
deriving DecidableEq, Repr

namespace DeviceTarget

/-- The order of targets: devices by name, and all devices last. -/
protected def compare : DeviceTarget → DeviceTarget → Ordering
  | device a, device b => compare a b
  | device _, all => .lt
  | all, device _ => .gt
  | all, all => .eq

instance : Ord DeviceTarget := ⟨DeviceTarget.compare⟩

theorem compare_eq (a b : DeviceTarget) : compare a b = DeviceTarget.compare a b := rfl

instance : Std.TransOrd DeviceTarget where
  eq_swap {a b} := by
    cases a <;> cases b
    · exact Std.OrientedOrd.eq_swap (α := String)
    all_goals rfl
  isLE_trans {a b c} := by
    cases a <;> cases b <;> cases c <;>
      simp only [compare_eq, DeviceTarget.compare, Ordering.isLE] <;> try simp
    exact Std.TransOrd.isLE_trans (α := String)

instance : Std.LawfulEqOrd DeviceTarget where
  compare_self {a} := by
    cases a
    · exact Std.ReflOrd.compare_self (α := String)
    · rfl
  eq_of_compare {a b} h := by
    cases a <;> cases b <;> simp_all [compare_eq, DeviceTarget.compare]

/-- The target as it is written. -/
def text : DeviceTarget → String
  | device id => id
  | all => "*"

/-- The target that a text means, if it means one: the empty text does not, and an asterisk means all
devices. -/
def parse? (text : String) : Option DeviceTarget :=
  if text = "" then none else if text = "*" then some all else some (device text)

end DeviceTarget

/-- Messages to devices. -/
structure ToDevice where
  /-- The type of the messages. -/
  eventType : String
  /-- The name of the messages, which stays the same when they are sent again. -/
  txnId : TransactionId
  /-- The content for each target. -/
  messages : Table UserId DeviceTarget Opaque
  /-- The type says something. -/
  eventType_ne : eventType ≠ ""
  /-- The messages have a name. -/
  txnId_ne : txnId ≠ ""
  /-- There is a message. -/
  nonempty : messages.isEmpty = false

namespace ToDevice

instance : BEq ToDevice where
  beq a b :=
    a.eventType == b.eventType && a.txnId == b.txnId && a.messages == b.messages

/-- Builds the payload of messages to devices from the contents for each user. -/
def ofRows (eventType : String) (txnId : TransactionId) (messages : Rows UserId DeviceTarget Opaque) :
    Except ValidationError ToDevice :=
  if ht : eventType = "" then .error (.emptyEventType .toDevice)
  else if hi : txnId = "" then .error (.emptyTransactionId .toDevice)
  else
    match Table.ofRows? messages with
    | .ok table =>
      if h : table.isEmpty = false then .ok ⟨eventType, txnId, table, ht, hi, h⟩
      else .error (.noTargetUsers .toDevice)
    | .error user => .error (.emptyUserEntry .toDevice user)

/-- The number of targets. -/
def messageCount (r : ToDevice) : Nat := r.messages.size

end ToDevice

/-- Signatures of keys. -/
structure SignatureUpload where
  /-- The signed keys of each user. -/
  signedKeys : Table UserId KeyId Opaque
  /-- There is a signature. -/
  nonempty : signedKeys.isEmpty = false

namespace SignatureUpload

instance : BEq SignatureUpload where
  beq a b :=
    a.signedKeys == b.signedKeys

/-- Builds the payload of an upload of signatures from a table. -/
def ofTable (signedKeys : Table UserId KeyId Opaque) : Except ValidationError SignatureUpload :=
  if h : signedKeys.isEmpty = false then .ok ⟨signedKeys, h⟩
  else .error (.noTargetUsers .signatureUpload)

/-- Builds the payload of an upload of signatures from the signed keys of each user. -/
def ofRows (signedKeys : Rows UserId KeyId Opaque) : Except ValidationError SignatureUpload :=
  match Table.ofRows? signedKeys with
  | .ok table => ofTable table
  | .error user => .error (.emptyUserEntry .signatureUpload user)

end SignatureUpload

/-- A message to a room. -/
structure RoomMessage where
  /-- The room. -/
  roomId : RoomId
  /-- The name of the message, which stays the same when it is sent again. -/
  txnId : TransactionId
  /-- The type of the message. -/
  eventType : String
  /-- The content of the message. -/
  content : Opaque
  /-- The message has a name. -/
  txnId_ne : txnId ≠ ""
  /-- The type says something. -/
  eventType_ne : eventType ≠ ""
  /-- The content is an object. -/
  content_isObject : content.isObject = true

namespace RoomMessage

instance : BEq RoomMessage where
  beq a b :=
    a.roomId == b.roomId && a.txnId == b.txnId && a.eventType == b.eventType &&
    a.content == b.content

/-- Builds the payload of a message to a room. -/
def ofContent (roomId : RoomId) (txnId : TransactionId) (eventType : String) (content : Opaque) :
    Except ValidationError RoomMessage :=
  if ht : eventType = "" then .error (.emptyEventType .roomMessage)
  else if hi : txnId = "" then .error (.emptyTransactionId .roomMessage)
  else if hc : content.isObject = true then .ok ⟨roomId, txnId, eventType, content, hi, ht, hc⟩
  else .error .contentNotAnObject

end RoomMessage

/-- Room keys for a backup. -/
structure KeysBackup where
  /-- The version of the backup. -/
  version : String
  /-- The keys of each room. -/
  rooms : Table RoomId SessionId Opaque
  /-- The version is given. -/
  version_ne : version ≠ ""
  /-- There is a key. -/
  nonempty : rooms.isEmpty = false

namespace KeysBackup

instance : BEq KeysBackup where
  beq a b :=
    a.version == b.version && a.rooms == b.rooms

/-- Builds the payload of a backup from a table. -/
def ofTable (version : String) (rooms : Table RoomId SessionId Opaque) :
    Except ValidationError KeysBackup :=
  if hv : version = "" then .error .emptyBackupVersion
  else if h : rooms.isEmpty = false then .ok ⟨version, rooms, hv, h⟩
  else .error .noRoomKeys

/-- Builds the payload of a backup from the keys of each room. -/
def ofRows (version : String) (rooms : Rows RoomId SessionId Opaque) :
    Except ValidationError KeysBackup :=
  if version = "" then .error .emptyBackupVersion
  else
    match Table.ofRows? rooms with
    | .ok table => ofTable version table
    | .error room => .error (.emptyRoomEntry room)

/-- The number of room keys. -/
def keyCount (r : KeysBackup) : Nat := r.rooms.size

end KeysBackup

/-- What a request carries. -/
inductive Payload where
  /-- Keys to upload. -/
  | keysUpload (r : KeysUpload)
  /-- Users to ask about. -/
  | keysQuery (r : KeysQuery)
  /-- One-time keys to claim. -/
  | keysClaim (r : KeysClaim)
  /-- Messages to devices. -/
  | toDevice (r : ToDevice)
  /-- Signatures to upload. -/
  | signatureUpload (r : SignatureUpload)
  /-- A message to a room. -/
  | roomMessage (r : RoomMessage)
  /-- Room keys to back up. -/
  | keysBackup (r : KeysBackup)
deriving BEq

namespace Payload

/-- The kind of the request that carries the payload. -/
def kind : Payload → RequestKind
  | keysUpload _ => .keysUpload
  | keysQuery _ => .keysQuery
  | keysClaim _ => .keysClaim
  | toDevice _ => .toDevice
  | signatureUpload _ => .signatureUpload
  | roomMessage _ => .roomMessage
  | keysBackup _ => .keysBackup

/-- The keys, if the payload is an upload of keys. -/
def keysUpload? : Payload → Option KeysUpload
  | keysUpload r => some r
  | _ => none

/-- The query, if the payload is one for the devices of users. -/
def keysQuery? : Payload → Option KeysQuery
  | keysQuery r => some r
  | _ => none

/-- The claim, if the payload is one for one-time keys. -/
def keysClaim? : Payload → Option KeysClaim
  | keysClaim r => some r
  | _ => none

/-- The messages, if the payload is one of messages to devices. -/
def toDevice? : Payload → Option ToDevice
  | toDevice r => some r
  | _ => none

/-- The signatures, if the payload is an upload of signatures. -/
def signatureUpload? : Payload → Option SignatureUpload
  | signatureUpload r => some r
  | _ => none

/-- The message, if the payload is one to a room. -/
def roomMessage? : Payload → Option RoomMessage
  | roomMessage r => some r
  | _ => none

/-- The backup, if the payload is one of room keys. -/
def keysBackup? : Payload → Option KeysBackup
  | keysBackup r => some r
  | _ => none

end Payload

/-- A request that is to be sent. -/
structure OutgoingRequest where
  /-- The name of the request. -/
  id : RequestId
  /-- What the request carries. -/
  payload : Payload
deriving BEq

/-- The kind of a request. -/
def OutgoingRequest.kind (r : OutgoingRequest) : RequestKind := r.payload.kind

end Outbox
