/-
# The devices of other users

The devices of tracked users are kept up to date by querying the server. A tracked user is outdated
from when tracking starts, or from when the server reports a change, until a query that was decided
on afterwards was answered for that user. Every invalidation takes a new number from a counter, and a
query remembers the counter as it was decided on; comparing the two tells an answer that is recent
enough from one that is not.

Users of a server that does not answer are left alone for a while, except those of our own server.

Key definitions: `DeviceLists`, `DeviceLists.track`, `DeviceLists.receiveChanges`,
`DeviceLists.queries`, `DeviceLists.beginQuery`, `DeviceLists.receiveQuery`, `batches`.
-/
import Outbox.Backoff.Basic
import Outbox.Request.Response
import Outbox.Settings

namespace Outbox

/-- What is known of a tracked user. -/
structure TrackedUser where
  /-- Whether the devices of the user have to be queried. -/
  outdated : Bool
  /-- The number of the last invalidation. -/
  invalidatedAt : Nat
deriving DecidableEq, Repr

/-- A query that was decided on and whose outcome is not known. -/
structure QueryDetails where
  /-- The counter of invalidations when the query was decided on. -/
  decidedAt : Nat
  /-- The users of the query. -/
  users : SortedSet UserId

/-- Skips items and then cuts the rest of a list into batches of `n + 1` items. -/
def batchesFrom (n : Nat) : Nat → List α → List (List α)
  | _, [] => []
  | 0, a :: l => (a :: l.take n) :: batchesFrom n n l
  | skip + 1, _ :: l => batchesFrom n skip l

/-- Cuts a list into batches of `n` items, or of one item if `n` is zero. The last batch may be
shorter. -/
def batches (n : Nat) (l : List α) : List (List α) := batchesFrom (n - 1) 0 l

/-- The tracked users and their devices. -/
structure DeviceLists where
  /-- Our own user. -/
  ownUser : UserId
  /-- The tracked users. -/
  tracked : SortedMap UserId TrackedUser
  /-- The number of invalidations so far. It is counted without a bound; a counter of 64 bits would differ
  only after 2^64 invalidations. -/
  invalidations : Nat
  /-- The point of the event stream that the last report of changes gave. -/
  syncToken : Option String
  /-- The devices of users, as the server last listed them. -/
  devices : Rows UserId DeviceId Opaque
  /-- The queries whose outcome is not known, apart from those made for a caller. -/
  queriesInFlight : SortedMap RequestId QueryDetails
  /-- The servers that did not answer. -/
  failures : Backoff ServerName

namespace DeviceLists

/-- Notes that the devices of a user have to be queried. -/
def invalidate (d : DeviceLists) (user : UserId) : DeviceLists :=
  let invalidations := d.invalidations + 1
  { d with
    tracked := d.tracked.insert user ⟨true, invalidations⟩
    invalidations }

/-- Starts to track a user, unless the user is tracked already. -/
def trackUser (d : DeviceLists) (user : UserId) : DeviceLists :=
  if user ∈ d.tracked then d else d.invalidate user

/-- Starts to track those of the users that are not tracked already. -/
def track (d : DeviceLists) (users : List UserId) : DeviceLists := users.foldl trackUser d

/-- The devices of nobody, with our own user tracked. -/
def new (ownUser : UserId) : DeviceLists :=
  track ⟨ownUser, ∅, 0, none, ∅, ∅, ∅⟩ [ownUser]

/-- Notes that the devices of a user changed, if the user is tracked. -/
def changeUser (d : DeviceLists) (user : UserId) : DeviceLists :=
  if user ∈ d.tracked then d.invalidate user else d

/-- Takes note of a report that the devices of users changed. A point of the event stream replaces the
last one, if it is given. -/
def receiveChanges (d : DeviceLists) (users : List UserId) (token : Option String) : DeviceLists :=
  let d := users.foldl changeUser d
  { d with syncToken := token.or d.syncToken }

/-- The tracked users. -/
def trackedUsers (d : DeviceLists) : List UserId := d.tracked.keys

/-- The tracked users whose devices have to be queried. -/
def outdatedUsers (d : DeviceLists) : List UserId := (d.tracked.filter fun _ t => t.outdated).keys

/-- The devices of a user, if the server ever listed them. -/
def userDevices? (d : DeviceLists) (user : UserId) : Option (SortedMap DeviceId Opaque) :=
  d.devices.get? user

/-- Whether a query for the devices of a user is on its way. -/
def isBeingQueried (d : DeviceLists) (user : UserId) : Bool :=
  d.queriesInFlight.values.any fun q => q.users.contains user

/-- The users to query at a time: those that are outdated, are not being queried, and whose server is
not left alone. -/
def eligibleUsers (d : DeviceLists) (now : Instant) : List UserId :=
  (d.tracked.filter fun user t =>
    t.outdated && !d.isBeingQueried user && !d.failures.contains now user.server).keys

/-- The queries to make at a time, of a bounded number of users each. -/
def queries (d : DeviceLists) (settings : Settings) (now : Instant) : List KeysQuery :=
  (batches settings.keyQueryBatchSize.toNat (d.eligibleUsers now)).filterMap fun users =>
    (KeysQuery.ofUsers (.ofKeys users) (some settings.keyQueryTimeout) d.syncToken).toOption

/-- Notes that a query, which was decided on when the counter of invalidations stood as given, is on
its way. -/
def beginQuery (d : DeviceLists) (id : RequestId) (query : KeysQuery) (decidedAt : Nat) :
    DeviceLists :=
  { d with queriesInFlight := d.queriesInFlight.insert id ⟨decidedAt, query.users⟩ }

/-- The query for the devices of given users, whether they are tracked or not. -/
def queryFor (users : List UserId) (settings : Settings) : Except ValidationError KeysQuery :=
  KeysQuery.ofUsers (.ofKeys users) (some settings.keyQueryTimeout) none

/-- The servers that did not answer, according to a response. Our own server is not believed to be
one. -/
def failedServers (d : DeviceLists) (response : KeysQueryResponse) : List ServerName :=
  (response.failures.keys.filterMap Ident.parse?).filter (· ≠ d.ownUser.server)

/-- Whether a response says that the devices of a user could not be listed. -/
def isFailed (d : DeviceLists) (response : KeysQueryResponse) (user : UserId) : Bool :=
  decide (user.server ≠ d.ownUser.server) && response.failures.contains user.server.text

/-- Whether a response to a query lists the devices of a user as they are now: the query named the
user, the response has the devices, and nothing changed since the query was decided on. -/
def bringsUpToDate (d : DeviceLists) (details : QueryDetails) (response : KeysQueryResponse)
    (user : UserId) (t : TrackedUser) : Bool :=
  details.users.contains user && !d.isFailed response user && response.deviceKeys.contains user &&
    decide (t.invalidatedAt ≤ details.decidedAt)

/-- Takes note of the response to a query. The devices are kept in any case; users become up to date
only by a query that was made to bring them up to date. -/
def receiveQuery (d : DeviceLists) (now : Instant) (id : RequestId) (response : KeysQueryResponse) :
    DeviceLists :=
  { d with
    failures :=
      (d.failures.extend now (d.failedServers response)).remove
        (response.deviceKeys.keys.map UserId.server)
    devices := d.devices.insertMany response.deviceKeys.toList
    queriesInFlight := d.queriesInFlight.erase id
    tracked :=
      match d.queriesInFlight.get? id with
      | none => d.tracked
      | some details =>
        d.tracked.mapValues fun user t =>
          if d.bringsUpToDate details response user t then { t with outdated := false } else t }

/-- Forgets a query that failed, so that its users are queried again. -/
def forgetQuery (d : DeviceLists) (id : RequestId) : DeviceLists :=
  { d with queriesInFlight := d.queriesInFlight.erase id }

end DeviceLists
end Outbox
