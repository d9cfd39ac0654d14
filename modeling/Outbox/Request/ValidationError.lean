/-
# Why a request cannot be made

Every request has a part that must not be missing. The causes are told apart here, and their wording
is `ValidationError.message`.

Key definitions: `ValidationError`, `ValidationError.message`.
-/
import Outbox.Ident.Basic
import Outbox.Request.Kind

namespace Outbox

/-- What is wrong with the parts of a request. -/
inductive ValidationError where
  /-- There are no keys to upload. -/
  | nothingToUpload
  /-- There is nobody whose devices are asked for. -/
  | noUsersToQuery
  /-- The request concerns no user. -/
  | noTargetUsers (kind : RequestKind)
  /-- The request has nothing for one of its users. -/
  | emptyUserEntry (kind : RequestKind) (user : UserId)
  /-- The type of the event is empty. -/
  | emptyEventType (kind : RequestKind)
  /-- The transaction ID is empty. -/
  | emptyTransactionId (kind : RequestKind)
  /-- The content of a room message is not an object. -/
  | contentNotAnObject
  /-- The backup has no version. -/
  | emptyBackupVersion
  /-- There are no room keys to back up. -/
  | noRoomKeys
  /-- There are no keys for one of the rooms. -/
  | emptyRoomEntry (room : RoomId)
deriving DecidableEq

namespace ValidationError

/-- The wording of an error. -/
def message : ValidationError → String
  | nothingToUpload => "a keys upload request needs device keys, one-time keys or fallback keys"
  | noUsersToQuery => "a keys query request needs at least one user"
  | noTargetUsers kind => s!"the {kind.label} request doesn't target any user"
  | emptyUserEntry kind user =>
    s!"the {kind.label} request contains no entries for user {user.text}"
  | emptyEventType kind => s!"the {kind.label} request has an empty event type"
  | emptyTransactionId kind => s!"the {kind.label} request has an empty transaction ID"
  | contentNotAnObject => "the content of a room message needs to be a JSON object"
  | emptyBackupVersion => "a keys backup request needs a backup version"
  | noRoomKeys => "a keys backup request needs at least one room key"
  | emptyRoomEntry room => s!"the keys backup request contains no room keys for room {room.text}"

/-- The name of an error. -/
def name : ValidationError → String
  | nothingToUpload => "NothingToUpload"
  | noUsersToQuery => "NoUsersToQuery"
  | noTargetUsers _ => "NoTargetUsers"
  | emptyUserEntry _ _ => "EmptyUserEntry"
  | emptyEventType _ => "EmptyEventType"
  | emptyTransactionId _ => "EmptyTransactionId"
  | contentNotAnObject => "ContentNotAnObject"
  | emptyBackupVersion => "EmptyBackupVersion"
  | noRoomKeys => "NoRoomKeys"
  | emptyRoomEntry _ => "EmptyRoomEntry"

end ValidationError
end Outbox
