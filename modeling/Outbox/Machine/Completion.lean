/-
# What a machine learns from the end of a request

The outcome of a request goes to the part of the machine that asked for it. An answer is taken note of
together with the request it answers, as an exchange. After a failure most parts are as they were, so
that the request is made again; messages and claims that failed for good are given up.

Key definitions: `Exchange`, `Exchange.of?`, `Machine.receiveExchange`, `Machine.receiveFailure`,
`Machine.markAsSent`.
Key theorems: `Exchange.isSome_of?_iff`.
-/
import Outbox.Machine.Decision

namespace Outbox

/-- A request together with the response to it. -/
inductive Exchange where
  /-- An upload of keys. -/
  | keysUpload (request : KeysUpload) (response : KeysUploadResponse)
  /-- A query for devices. -/
  | keysQuery (request : KeysQuery) (response : KeysQueryResponse)
  /-- A claim of keys. -/
  | keysClaim (request : KeysClaim) (response : KeysClaimResponse)
  /-- Messages to devices. -/
  | toDevice (request : ToDevice) (response : ToDeviceResponse)
  /-- An upload of signatures. -/
  | signatureUpload (request : SignatureUpload) (response : SignatureUploadResponse)
  /-- A message to a room. -/
  | roomMessage (request : RoomMessage) (response : RoomMessageResponse)
  /-- A backup of room keys. -/
  | keysBackup (request : KeysBackup) (response : KeysBackupResponse)

namespace Exchange

/-- The exchange of a request and a response, if they are of one kind. -/
def of? : Payload → Response → Option Exchange
  | .keysUpload request, .keysUpload response => some (keysUpload request response)
  | .keysQuery request, .keysQuery response => some (keysQuery request response)
  | .keysClaim request, .keysClaim response => some (keysClaim request response)
  | .toDevice request, .toDevice response => some (toDevice request response)
  | .signatureUpload request, .signatureUpload response => some (signatureUpload request response)
  | .roomMessage request, .roomMessage response => some (roomMessage request response)
  | .keysBackup request, .keysBackup response => some (keysBackup request response)
  | _, _ => none

/-- A request and a response make an exchange exactly if they are of one kind. -/
theorem isSome_of?_iff {payload : Payload} {response : Response} :
    (of? payload response).isSome = true ↔ response.kind = payload.kind := by
  cases payload <;> cases response <;> simp [of?, Response.kind, Payload.kind]

end Exchange

namespace Machine

/-- Takes note of the response to a request of the given name. -/
def receiveExchange (m : Machine) (now : Instant) (id : RequestId) : Exchange → Machine
  | .keysUpload request response =>
    { m with ownKeys := m.ownKeys.receiveUpload request response }
  | .keysQuery _ response =>
    { m with deviceLists := m.deviceLists.receiveQuery now id response }
  | .keysClaim request response =>
    { m with sessions := m.sessions.receiveClaim request response }
  | .toDevice request _ =>
    { m with messages := m.messages.removeToDevice request.txnId }
  | .signatureUpload request _ =>
    { m with messages := m.messages.receiveSignatureUpload request }
  | .roomMessage request _ =>
    { m with messages := m.messages.removeRoomMessage request.txnId }
  | .keysBackup request _ =>
    { m with backup := m.backup.markSent request }

/-- Takes note of a failure of a request of the given name. -/
def receiveFailure (m : Machine) (id : RequestId) (payload : Payload) (failure : Failure) : Machine :=
  match payload with
  | .keysQuery _ => { m with deviceLists := m.deviceLists.forgetQuery id }
  | .keysClaim request =>
    if failure.isPermanent then { m with sessions := m.sessions.failClaim request } else m
  | .toDevice request =>
    if failure.isPermanent then
      { m with messages := m.messages.removeToDevice request.txnId }
    else m
  | .roomMessage request =>
    if failure.isPermanent then
      { m with messages := m.messages.removeRoomMessage request.txnId }
    else m
  | _ => m

/-- Takes note of how a request ended. -/
def receiveOutcome (m : Machine) (now : Instant) (r : OutgoingRequest) : Outcome → Machine
  | .success response =>
    match Exchange.of? r.payload response with
    | some exchange => m.receiveExchange now r.id exchange
    | none => m
  | .failure failure => m.receiveFailure r.id r.payload failure

/-- Tells the machine how a request that was handed out ended. The machine then decides what else is
needed. -/
def markAsSent (m : Machine) (now : Instant) (id : RequestId) (outcome : Outcome) :
    Except MarkError Machine :=
  (m.queue.resolve id outcome).map fun (r, queue) =>
    ({ m with queue }.receiveOutcome now r outcome).decisionPass now

end Machine
end Outbox
