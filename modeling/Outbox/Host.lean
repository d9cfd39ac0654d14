/-
# Requests as hosts see them

A host is a program that sends requests on behalf of the engine. It sees a request flat, as texts:
the name of the request, the parts that are not in the body, and the body. Hosts can look at requests
but not make them.

Key definitions: `HostRequest`, `HostRequest.ofRequest`, `HostRequest.construct`,
`RequestKind.hostFields`.
-/
import Outbox.Wire.Body

namespace Outbox

/-- A request, as texts. -/
inductive HostRequest where
  /-- An upload of keys. -/
  | keysUpload (id body : String)
  /-- A query for the devices of users. -/
  | keysQuery (id body : String)
  /-- A claim of one-time keys. -/
  | keysClaim (id body : String)
  /-- Messages to devices. -/
  | toDevice (id eventType txnId body : String)
  /-- An upload of signatures. -/
  | signatureUpload (id body : String)
  /-- A message to a room. -/
  | roomMessage (id roomId txnId eventType body : String)
  /-- A backup of room keys. -/
  | keysBackup (id version body : String)
deriving DecidableEq, Repr

/-- The attempt to make a request from outside of the engine. -/
structure ConstructionForbidden where
  /-- The kind of the request. -/
  kind : RequestKind
deriving DecidableEq, Repr

/-- The name of the host's view of the requests of a kind. -/
def RequestKind.hostName (k : RequestKind) : String := k.label ++ "Request"

/-- The names of the texts that a host sees of the requests of a kind. -/
def RequestKind.hostFields : RequestKind → List String
  | .keysUpload | .keysQuery | .keysClaim | .signatureUpload => ["id", "body"]
  | .toDevice => ["id", "event_type", "txn_id", "body"]
  | .roomMessage => ["id", "room_id", "txn_id", "event_type", "body"]
  | .keysBackup => ["id", "version", "body"]

/-- The kind of the requests whose view has the given name, if there is one. -/
def RequestKind.ofHostName? (s : String) : Option RequestKind :=
  RequestKind.all.find? fun k => k.hostName == s

/-- The wording of the error. -/
def ConstructionForbidden.message (e : ConstructionForbidden) : String :=
  s!"cannot construct a `{e.kind.hostName}` outside of the engine, " ++
    "requests are created by the state machine"

namespace HostRequest

/-- The view of a request. -/
def ofRequest (r : OutgoingRequest) : HostRequest :=
  let body := r.payload.body
  match r.payload with
  | .keysUpload _ => keysUpload r.id body
  | .keysQuery _ => keysQuery r.id body
  | .keysClaim _ => keysClaim r.id body
  | .toDevice m => toDevice r.id m.eventType m.txnId body
  | .signatureUpload _ => signatureUpload r.id body
  | .roomMessage m => roomMessage r.id m.roomId.text m.txnId m.eventType body
  | .keysBackup b => keysBackup r.id b.version body

/-- Making a request from texts, one for each of `RequestKind.hostFields`, is always refused. -/
def construct (kind : RequestKind) (_texts : List String) :
    Except ConstructionForbidden HostRequest :=
  .error ⟨kind⟩

/-- The kind of the request. -/
def kind : HostRequest → RequestKind
  | keysUpload _ _ => .keysUpload
  | keysQuery _ _ => .keysQuery
  | keysClaim _ _ => .keysClaim
  | toDevice _ _ _ _ => .toDevice
  | signatureUpload _ _ => .signatureUpload
  | roomMessage _ _ _ _ _ => .roomMessage
  | keysBackup _ _ _ => .keysBackup

/-- The name of the request. -/
def id : HostRequest → String
  | keysUpload id _ | keysQuery id _ | keysClaim id _ | toDevice id _ _ _ | signatureUpload id _
  | roomMessage id _ _ _ _ | keysBackup id _ _ => id

/-- The body of the request. -/
def body : HostRequest → String
  | keysUpload _ body | keysQuery _ body | keysClaim _ body | toDevice _ _ _ body
  | signatureUpload _ body | roomMessage _ _ _ _ body | keysBackup _ _ body => body

end HostRequest
end Outbox
