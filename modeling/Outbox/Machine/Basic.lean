/-
# The machine that decides what to send

A machine keeps the encryption state of one device up to date. It never sends anything itself: it
decides which requests are needed, hands them out, and is told how each one ended. Its state is that
of its parts, namely the keys of the device, the devices of other users, the sessions with them,
messages and signatures, and the backup of room keys, together with the queue of requests.

Key definitions: `Machine`, `Machine.new`, and the views of a machine.
-/
import Outbox.Backup
import Outbox.DeviceLists
import Outbox.IdSource
import Outbox.Messages
import Outbox.OwnKeys
import Outbox.Queue
import Outbox.Sessions

namespace Outbox

/-- The machine of a device. -/
structure Machine where
  /-- The user of the device. -/
  userId : UserId
  /-- The device. -/
  deviceId : DeviceId
  /-- What was adjusted about the requests. -/
  settings : Settings
  /-- Where the names of requests and messages come from. -/
  ids : IdSource
  /-- How many names were used. -/
  minted : Nat
  /-- The keys of the device. -/
  ownKeys : OwnKeys
  /-- The devices of other users. -/
  deviceLists : DeviceLists
  /-- The sessions with devices. -/
  sessions : Sessions
  /-- Messages and signatures to send. -/
  messages : Messages
  /-- The backup of room keys. -/
  backup : Backup
  /-- The requests that were decided on. -/
  queue : Queue

namespace Machine

/-- The machine of a new device. -/
def new (userId : UserId) (deviceId : DeviceId) (deviceKeys : Opaque) (settings : Settings)
    (ids : IdSource) : Machine where
  userId := userId
  deviceId := deviceId
  settings := settings
  ids := ids
  minted := 0
  ownKeys := .new deviceKeys
  deviceLists := .new userId
  sessions := .empty
  messages := .empty
  backup := .empty
  queue := .empty (settings.maxQueuedRequests.map UInt64.toNat)

/-- The name that is used next. -/
def nextId (m : Machine) : String := m.ids.mint m.minted

/-- The requests that were decided on and not handed out, in order. -/
def pendingRequests (m : Machine) : List OutgoingRequest := m.queue.pending

/-- The requests that were handed out and whose outcome is not known, in order. -/
def inFlightRequests (m : Machine) : List OutgoingRequest := m.queue.inFlight

/-- Where a request is, if it is queued. -/
def requestState? (m : Machine) (id : RequestId) : Option RequestState :=
  (m.queue.get? id).map Prod.snd

/-- Whether there are keys of the device that the server does not have. -/
def needsKeysUpload (m : Machine) : Bool := m.ownKeys.needsUpload

/-- How many one-time keys the server has, by algorithm, as it last said. -/
def oneTimeKeyCounts (m : Machine) : SortedMap Algorithm UInt64 := m.ownKeys.oneTimeKeyCounts

/-- The users whose devices are kept up to date. -/
def trackedUsers (m : Machine) : List UserId := m.deviceLists.trackedUsers

/-- The tracked users whose devices have to be queried, also if a query is on its way. -/
def usersForKeyQuery (m : Machine) : List UserId := m.deviceLists.outdatedUsers

/-- The devices of a user, as the server last listed them. -/
def userDevices (m : Machine) (user : UserId) : SortedMap DeviceId Opaque :=
  (m.deviceLists.userDevices? user).getD ∅

/-- The devices that need a one-time key. -/
def devicesForKeyClaim (m : Machine) : Table UserId DeviceId Unit := m.sessions.missing

/-- Whether there is a session with a device. -/
def hasSession (m : Machine) (device : Cell UserId DeviceId) : Bool := m.sessions.hasSession device

/-- Whether no key of a device could be claimed. -/
def isSessionFailed (m : Machine) (device : Cell UserId DeviceId) : Bool :=
  m.sessions.isFailed device

/-- The version of the active backup, if there is one. -/
def backupVersion? (m : Machine) : Option String := m.backup.version

/-- How many room keys there are, and how many are backed up. -/
def roomKeyCounts (m : Machine) : RoomKeyCounts := m.backup.counts

/-- Whether a room key is in the active backup. -/
def isRoomKeyBackedUp (m : Machine) (key : Cell RoomId SessionId) : Bool := m.backup.isBackedUp key

end Machine
end Outbox
