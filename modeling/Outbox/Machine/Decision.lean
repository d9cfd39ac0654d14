/-
# What a machine decides to send

In a decision pass a machine looks at each of its parts and queues the requests that are needed and
not queued yet. Each part has a guard of its own against doing work twice: for uploads and claims a
queued request of the kind, for queries a query on its way for the user, for messages a queued request
with the transaction ID, for backups a queued request for the active version. A pass ends early when
the queue is full; what was not queued is decided on again in the next pass.

Key definitions: `Machine.wanted`, `Machine.add`, `Machine.decisionPass`.
-/
import Outbox.Machine.Basic

namespace Outbox
namespace Machine

/-- A request, if there is one, unless a request of its kind is queued. -/
def onePerKind (m : Machine) (kind : RequestKind) (payload : Option Payload) : List Payload :=
  if m.queue.containsKind kind then [] else payload.toList

/-- The upload of keys that is needed. -/
def wantedKeysUpload (m : Machine) : List Payload :=
  m.onePerKind .keysUpload (m.ownKeys.upload?.map .keysUpload)

/-- The queries for devices that are needed. -/
def wantedKeysQueries (m : Machine) (now : Instant) : List Payload :=
  (m.deviceLists.queries m.settings now).map .keysQuery

/-- The claim of keys that is needed. There is one at a time, since two could claim keys of the same
device. -/
def wantedKeysClaim (m : Machine) : List Payload :=
  m.onePerKind .keysClaim ((m.sessions.claim? m.settings).map .keysClaim)

/-- The messages to devices that are not queued. -/
def wantedToDevice (m : Machine) : List Payload :=
  let queued := (m.queue.ofKind .toDevice).filterMap fun r => r.payload.toDevice?.map (·.txnId)
  (m.messages.toDevice.values.filter fun r => !queued.contains r.txnId).map .toDevice

/-- The upload of signatures that is needed. Others cannot verify signatures before they know the
device, so these wait until its keys were uploaded. -/
def wantedSignatureUpload (m : Machine) : List Payload :=
  if m.ownKeys.shared then
    m.onePerKind .signatureUpload (m.messages.signatureUpload?.map .signatureUpload)
  else []

/-- The messages to rooms that are not queued. -/
def wantedRoomMessages (m : Machine) : List Payload :=
  let queued := (m.queue.ofKind .roomMessage).filterMap fun r => r.payload.roomMessage?.map (·.txnId)
  (m.messages.roomMessages.values.filter fun r => !queued.contains r.txnId).map .roomMessage

/-- Whether a backup request for the active version is queued. -/
def isBackupQueued (m : Machine) : Bool :=
  (m.queue.ofKind .keysBackup).any fun r => r.payload.keysBackup?.map (·.version) == m.backup.version

/-- The backup request that is needed. -/
def wantedKeysBackup (m : Machine) : List Payload :=
  if m.isBackupQueued then []
  else ((m.backup.request? m.settings.backupBatchSize.toNat).map .keysBackup).toList

/-- The requests that are needed and not queued, in the order in which they are queued. -/
def wanted (m : Machine) (now : Instant) : List Payload :=
  m.wantedKeysUpload ++ m.wantedKeysQueries now ++ m.wantedKeysClaim ++ m.wantedToDevice ++
    m.wantedSignatureUpload ++ m.wantedRoomMessages ++ m.wantedKeysBackup

/-- The device lists once a request was decided on: a query is on its way. -/
def noteDecision (d : DeviceLists) (r : OutgoingRequest) : DeviceLists :=
  match r.payload with
  | .keysQuery query => d.beginQuery r.id query d.invalidations
  | _ => d

/-- Queues a request under a fresh name. -/
def add (m : Machine) (payload : Payload) : Except QueueFull Machine :=
  let request : OutgoingRequest := ⟨m.nextId, payload⟩
  (m.queue.enqueue request).map fun queue =>
    { m with
      minted := m.minted + 1
      deviceLists := noteDecision m.deviceLists request
      queue }

/-- Queues requests one after the other, as far as they fit. -/
def addAll (m : Machine) : List Payload → Machine
  | [] => m
  | payload :: payloads =>
    match m.add payload with
    | .ok m => m.addAll payloads
    | .error _ => m

/-- Decides which requests are needed and queues them. -/
def decisionPass (m : Machine) (now : Instant) : Machine := m.addAll (m.wanted now)

/-- Decides which requests are needed, and hands out all requests that were not handed out yet. -/
def outgoingRequests (m : Machine) (now : Instant) : List OutgoingRequest × Machine :=
  let m := m.decisionPass now
  let (requests, queue) := m.queue.drainPending
  (requests, { m with queue })

end Machine
end Outbox
