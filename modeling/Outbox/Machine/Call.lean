/-
# The calls that a machine answers

Everything that changes a machine is a call. A call is refused as a whole or carried out as a whole.

Key definitions: `Call`, `Refusal`, `Answer`, `Machine.step`, `Machine.run`.
-/
import Outbox.Machine.Completion

namespace Outbox

/-- Why a call was refused. -/
inductive Refusal where
  /-- Some part of a request is wrong. -/
  | invalid (e : ValidationError)
  /-- The queue has no room. -/
  | queueFull (e : QueueFull)
  /-- The outcome of a request was not accepted. -/
  | notMarked (e : MarkError)
deriving DecidableEq

namespace Machine

/-- Makes a query for the devices of users and hands it out at once. It tells about the devices of the
users, and does not bring them up to date. -/
def queryKeysFor (m : Machine) (users : List UserId) :
    Except Refusal (OutgoingRequest × Machine) :=
  match DeviceLists.queryFor users m.settings with
  | .error e => .error (.invalid e)
  | .ok query =>
    let request : OutgoingRequest := ⟨m.nextId, .keysQuery query⟩
    match m.queue.enqueueInFlight request with
    | .error e => .error (.queueFull e)
    | .ok queue => .ok (request, { m with minted := m.minted + 1, queue })

/-- Adds one-time keys to upload. -/
def addOneTimeKeys (m : Machine) (keys : SortedMap KeyId Opaque) : Machine :=
  { m with ownKeys := m.ownKeys.addOneTimeKeys keys }

/-- Adds fallback keys to upload. -/
def addFallbackKeys (m : Machine) (keys : SortedMap KeyId Opaque) : Machine :=
  { m with ownKeys := m.ownKeys.addFallbackKeys keys }

/-- Starts to keep the devices of users up to date. -/
def trackUsers (m : Machine) (users : List UserId) : Machine :=
  { m with deviceLists := m.deviceLists.track users }

/-- Takes note of a report that the devices of users changed. -/
def receiveDeviceChanges (m : Machine) (users : List UserId) (token : Option String) : Machine :=
  { m with deviceLists := m.deviceLists.receiveChanges users token }

/-- Notes that the sessions with devices of a user are missing. -/
def markSessionsMissing (m : Machine) (user : UserId) (devices : List DeviceId) : Machine :=
  { m with sessions := m.sessions.markMissing user devices }

/-- Accepts messages to devices, and gives the transaction ID that they have from now on. -/
def queueToDevice (m : Machine) (eventType : String) (messages : Rows UserId DeviceTarget Opaque) :
    Except ValidationError (TransactionId × Machine) :=
  (m.messages.addToDevice m.nextId eventType messages).map fun messages =>
    (m.nextId, { m with minted := m.minted + 1, messages })

/-- Accepts signatures to upload. -/
def queueSignatures (m : Machine) (signedKeys : Rows UserId KeyId Opaque) :
    Except ValidationError Machine :=
  (m.messages.addSignatures signedKeys).map fun messages => { m with messages }

/-- Accepts a message to a room, and gives the transaction ID that it has from now on. -/
def queueRoomMessage (m : Machine) (room : RoomId) (eventType : String) (content : Opaque) :
    Except ValidationError (TransactionId × Machine) :=
  (m.messages.addRoomMessage m.nextId room eventType content).map fun messages =>
    (m.nextId, { m with minted := m.minted + 1, messages })

/-- Makes a version of the backup the active one. Requests for other versions that were not handed out
are dropped. -/
def enableBackup (m : Machine) (version : String) : Except ValidationError Machine :=
  if version = "" then .error .emptyBackupVersion
  else
    .ok { m with
      backup := m.backup.enable version
      queue := m.queue.retainPending fun p => p.keysBackup?.all fun r => r.version = version }

/-- Stops to back up room keys. Backup requests that were not handed out are dropped. -/
def disableBackup (m : Machine) : Machine :=
  { m with
    backup := m.backup.disable
    queue := m.queue.retainPending fun p => p.kind ≠ .keysBackup }

/-- Adds a room key to back up, or replaces one. -/
def addRoomKey (m : Machine) (key : Cell RoomId SessionId) (data : Opaque) : Machine :=
  { m with backup := m.backup.addRoomKey key data }

end Machine

/-- A call that may change a machine. -/
inductive Call where
  /-- To hand out the requests that are needed. -/
  | outgoingRequests
  /-- To take note of how a request ended. -/
  | markAsSent (id : RequestId) (outcome : Outcome)
  /-- To hand out a query for the devices of users. -/
  | queryKeysFor (users : List UserId)
  /-- To add one-time keys. -/
  | addOneTimeKeys (keys : SortedMap KeyId Opaque)
  /-- To add fallback keys. -/
  | addFallbackKeys (keys : SortedMap KeyId Opaque)
  /-- To track users. -/
  | trackUsers (users : List UserId)
  /-- To take note of changed devices. -/
  | receiveDeviceChanges (users : List UserId) (token : Option String)
  /-- To ask for sessions with devices. -/
  | markSessionsMissing (user : UserId) (devices : List DeviceId)
  /-- To send messages to devices. -/
  | queueToDevice (eventType : String) (messages : Rows UserId DeviceTarget Opaque)
  /-- To upload signatures. -/
  | queueSignatures (signedKeys : Rows UserId KeyId Opaque)
  /-- To send a message to a room. -/
  | queueRoomMessage (room : RoomId) (eventType : String) (content : Opaque)
  /-- To back up room keys. -/
  | enableBackup (version : String)
  /-- To stop backing up room keys. -/
  | disableBackup
  /-- To add a room key. -/
  | addRoomKey (key : Cell RoomId SessionId) (data : Opaque)

/-- What a call gives back. -/
inductive Answer where
  /-- The call was carried out. -/
  | done
  /-- Requests were handed out. -/
  | handedOut (requests : List OutgoingRequest)
  /-- A message was accepted under a transaction ID. -/
  | accepted (txnId : TransactionId)
  /-- The call was refused. -/
  | refused (reason : Refusal)

namespace Machine

/-- The answer to a call and the machine afterwards. -/
def step (m : Machine) (now : Instant) : Call → Answer × Machine
  | .outgoingRequests =>
    let (requests, m) := m.outgoingRequests now
    (.handedOut requests, m)
  | .markAsSent id outcome =>
    match m.markAsSent now id outcome with
    | .ok m => (.done, m)
    | .error e => (.refused (.notMarked e), m)
  | .queryKeysFor users =>
    match m.queryKeysFor users with
    | .ok (request, m) => (.handedOut [request], m)
    | .error e => (.refused e, m)
  | .addOneTimeKeys keys => (.done, m.addOneTimeKeys keys)
  | .addFallbackKeys keys => (.done, m.addFallbackKeys keys)
  | .trackUsers users => (.done, m.trackUsers users)
  | .receiveDeviceChanges users token => (.done, m.receiveDeviceChanges users token)
  | .markSessionsMissing user devices => (.done, m.markSessionsMissing user devices)
  | .queueToDevice eventType messages =>
    match m.queueToDevice eventType messages with
    | .ok (txnId, m) => (.accepted txnId, m)
    | .error e => (.refused (.invalid e), m)
  | .queueSignatures signedKeys =>
    match m.queueSignatures signedKeys with
    | .ok m => (.done, m)
    | .error e => (.refused (.invalid e), m)
  | .queueRoomMessage room eventType content =>
    match m.queueRoomMessage room eventType content with
    | .ok (txnId, m) => (.accepted txnId, m)
    | .error e => (.refused (.invalid e), m)
  | .enableBackup version =>
    match m.enableBackup version with
    | .ok m => (.done, m)
    | .error e => (.refused (.invalid e), m)
  | .disableBackup => (.done, m.disableBackup)
  | .addRoomKey key data => (.done, m.addRoomKey key data)

/-- The answers to calls made one after the other, each at its time, and the machine afterwards. -/
def run (m : Machine) : List (Instant × Call) → List Answer × Machine
  | [] => ([], m)
  | (now, call) :: calls =>
    let (answer, m) := m.step now call
    let (answers, m) := m.run calls
    (answer :: answers, m)

end Machine
end Outbox
