/-
# Messages and signatures to send

Messages to devices and to rooms are kept, in the order in which they were accepted, until they were
sent or cannot be sent. A message has a transaction ID, which tells the server that a message which
is sent again is the same one. Signatures are kept until they were uploaded with the value they have.

Key definitions: `Messages`, `Messages.addToDevice`, `Messages.addRoomMessage`,
`Messages.addSignatures`, `Messages.signatureUpload?`, `Messages.receiveSignatureUpload`.
-/
import Outbox.InsertionMap.Basic
import Outbox.Request.Payload

namespace Outbox

/-- What other parts of the engine want to be sent. -/
structure Messages where
  /-- Messages to devices. -/
  toDevice : InsertionMap TransactionId ToDevice
  /-- Messages to rooms. -/
  roomMessages : InsertionMap TransactionId RoomMessage
  /-- Signatures. -/
  signatures : Table UserId KeyId Opaque

namespace Messages

/-- Nothing is to be sent. -/
def empty : Messages := ⟨∅, ∅, ∅⟩

/-- Accepts messages to devices under a transaction ID. -/
def addToDevice (s : Messages) (txnId : TransactionId) (eventType : String)
    (messages : Rows UserId DeviceTarget Opaque) : Except ValidationError Messages :=
  (ToDevice.ofRows eventType txnId messages).map fun r =>
    { s with toDevice := s.toDevice.insert txnId r }

/-- Accepts a message to a room under a transaction ID. -/
def addRoomMessage (s : Messages) (txnId : TransactionId) (room : RoomId) (eventType : String)
    (content : Opaque) : Except ValidationError Messages :=
  (RoomMessage.ofContent room txnId eventType content).map fun r =>
    { s with roomMessages := s.roomMessages.insert txnId r }

/-- Accepts one signature, over that of the same key. -/
def addSignature (s : Messages) (key : Cell UserId KeyId) (signed : Opaque) : Messages :=
  { s with signatures := s.signatures.insert key signed }

/-- Accepts signatures, over those of the same keys. One that is rejected takes the others of the call
with it. -/
def addSignatures (s : Messages) (signedKeys : Rows UserId KeyId Opaque) :
    Except ValidationError Messages :=
  (SignatureUpload.ofRows signedKeys).map fun r =>
    { s with signatures := s.signatures.insertMany r.signedKeys.toList }

/-- Whether there are signatures to upload. -/
def hasSignatures (s : Messages) : Bool := !s.signatures.isEmpty

/-- The upload of all signatures, if there are any. -/
def signatureUpload? (s : Messages) : Option SignatureUpload :=
  (SignatureUpload.ofTable s.signatures).toOption

/-- Drops the messages to devices with a transaction ID. -/
def removeToDevice (s : Messages) (txnId : TransactionId) : Messages :=
  { s with toDevice := s.toDevice.erase txnId }

/-- Drops the message to a room with a transaction ID. -/
def removeRoomMessage (s : Messages) (txnId : TransactionId) : Messages :=
  { s with roomMessages := s.roomMessages.erase txnId }

/-- Takes note of the response to an upload of signatures, whatever it says: those that have the value
that was uploaded are done with. -/
def receiveSignatureUpload (s : Messages) (request : SignatureUpload) : Messages :=
  { s with
    signatures := s.signatures.filter fun key signed =>
      !(request.signedKeys.get? key).any (· == signed) }

end Messages
end Outbox
