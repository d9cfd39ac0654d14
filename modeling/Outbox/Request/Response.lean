/-
# What comes back

A request that was sent ends with a response of its kind or with a failure. A failure is transient if
the same request may succeed later, and permanent otherwise.

Key definitions: `Response`, `Response.kind`, `Failure`, `Outcome`.
-/
import Outbox.Json.Basic
import Outbox.Request.Kind
import Outbox.Request.Payload

namespace Outbox

/-- The answer to an upload of keys. -/
structure KeysUploadResponse where
  /-- The one-time keys that the server holds, by algorithm. -/
  oneTimeKeyCounts : SortedMap Algorithm UInt64
deriving BEq

/-- The answer to a query for the devices of users. -/
structure KeysQueryResponse where
  /-- What went wrong, by server. -/
  failures : SortedMap String Opaque
  /-- The devices of each user. -/
  deviceKeys : Rows UserId DeviceId Opaque
  /-- The master key of each user. -/
  masterKeys : SortedMap UserId Opaque
  /-- The self-signing key of each user. -/
  selfSigningKeys : SortedMap UserId Opaque
  /-- The user-signing key of each user. -/
  userSigningKeys : SortedMap UserId Opaque
deriving BEq

/-- The answer to a claim of one-time keys. -/
structure KeysClaimResponse where
  /-- What went wrong, by server. -/
  failures : SortedMap String Opaque
  /-- The keys of each device. -/
  oneTimeKeys : Rows UserId DeviceId (SortedMap KeyId Opaque)
deriving BEq

/-- The answer to messages to devices, which says nothing. -/
structure ToDeviceResponse where
deriving BEq

/-- The answer to an upload of signatures. -/
structure SignatureUploadResponse where
  /-- What went wrong, by user and key. -/
  failures : Rows UserId KeyId Opaque
deriving BEq

/-- The answer to a message to a room. -/
structure RoomMessageResponse where
  /-- The event that the message became. -/
  eventId : EventId
deriving BEq

/-- The answer to a backup of room keys. -/
structure KeysBackupResponse where
  /-- A tag of the contents of the backup. -/
  etag : String
  /-- The number of keys in the backup. -/
  count : UInt64
deriving BEq

/-- An answer of the server. -/
inductive Response where
  /-- The answer to an upload of keys. -/
  | keysUpload (r : KeysUploadResponse)
  /-- The answer to a query for devices. -/
  | keysQuery (r : KeysQueryResponse)
  /-- The answer to a claim of keys. -/
  | keysClaim (r : KeysClaimResponse)
  /-- The answer to messages to devices. -/
  | toDevice (r : ToDeviceResponse)
  /-- The answer to an upload of signatures. -/
  | signatureUpload (r : SignatureUploadResponse)
  /-- The answer to a message to a room. -/
  | roomMessage (r : RoomMessageResponse)
  /-- The answer to a backup of room keys. -/
  | keysBackup (r : KeysBackupResponse)
deriving BEq

/-- The kind of the requests that the response answers. -/
def Response.kind : Response → RequestKind
  | keysUpload _ => .keysUpload
  | keysQuery _ => .keysQuery
  | keysClaim _ => .keysClaim
  | toDevice _ => .toDevice
  | signatureUpload _ => .signatureUpload
  | roomMessage _ => .roomMessage
  | keysBackup _ => .keysBackup

/-- Whether a request may succeed when it is sent again. -/
inductive FailureClass where
  /-- It may. -/
  | transient
  /-- It will not. -/
  | permanent
deriving DecidableEq, Repr

/-- Why a request was not answered. -/
structure Failure where
  /-- Whether sending the request again may help. -/
  failureClass : FailureClass
  /-- What went wrong. -/
  reason : String
deriving DecidableEq, Repr

namespace Failure

/-- A failure after which the request may be sent again. -/
def transient (reason : String) : Failure := ⟨.transient, reason⟩

/-- A failure after which the request should not be sent again. -/
def permanent (reason : String) : Failure := ⟨.permanent, reason⟩

/-- Whether sending the request again is of no use. -/
def isPermanent (f : Failure) : Bool := f.failureClass == .permanent

end Failure

/-- How a request that was sent ended. -/
inductive Outcome where
  /-- The server answered. -/
  | success (response : Response)
  /-- The request failed. -/
  | failure (failure : Failure)

end Outbox
