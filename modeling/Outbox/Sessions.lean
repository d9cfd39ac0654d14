/-
# Encrypted sessions with devices

A session with a device starts with a one-time key of the device, which the server hands over. A
device whose session is missing gets a key claimed; if there is none, it counts as failed until its
session is reported missing again.

Key definitions: `Sessions`, `Sessions.markMissing`, `Sessions.claim?`, `Sessions.receiveClaim`,
`Sessions.failClaim`.
-/
import Outbox.Request.Response
import Outbox.Settings

namespace Outbox

/-- The key that a response hands over for a device: the first one by name. -/
def KeysClaimResponse.key? (r : KeysClaimResponse) (device : Cell UserId DeviceId) : Option Opaque :=
  (r.oneTimeKeys.get? device.row).bind fun devices =>
    (devices.get? device.column).bind fun keys => keys.values.head?

/-- The sessions with the devices of all users. -/
structure Sessions where
  /-- The devices that need a one-time key. -/
  missing : Table UserId DeviceId Unit
  /-- The key that the session with a device started with. -/
  established : Table UserId DeviceId Opaque
  /-- The devices of which no key could be claimed. -/
  failed : Table UserId DeviceId Unit

namespace Sessions

/-- No session was asked for. -/
def empty : Sessions := ⟨∅, ∅, ∅⟩

/-- The algorithm of the keys that are claimed. -/
def claimedAlgorithm : Algorithm := "signed_curve25519"

/-- Notes that the session with a device is missing. -/
def markDeviceMissing (s : Sessions) (device : Cell UserId DeviceId) : Sessions :=
  { s with failed := s.failed.erase device, missing := s.missing.insert device () }

/-- Notes that the sessions with devices of a user are missing. -/
def markMissing (s : Sessions) (user : UserId) (devices : List DeviceId) : Sessions :=
  (devices.map (Cell.mk user)).foldl markDeviceMissing s

/-- Whether there is a session with a device. -/
def hasSession (s : Sessions) (device : Cell UserId DeviceId) : Bool := s.established.contains device

/-- Whether no key of a device could be claimed. -/
def isFailed (s : Sessions) (device : Cell UserId DeviceId) : Bool := s.failed.contains device

/-- The claim of a key of every device whose session is missing, if there are any. -/
def claim? (s : Sessions) (settings : Settings) : Option KeysClaim :=
  (KeysClaim.ofTable (s.missing.mapValues fun _ _ => claimedAlgorithm)
    (some settings.keyClaimTimeout)).toOption

/-- The devices of a claim are no longer missing a session. -/
def withoutMissing (s : Sessions) (request : KeysClaim) : Table UserId DeviceId Unit :=
  s.missing.filter fun device _ => !request.oneTimeKeys.contains device

/-- Takes note of the response to a claim: sessions start with the keys in it, and the other devices
of the claim failed. -/
def receiveClaim (s : Sessions) (request : KeysClaim) (response : KeysClaimResponse) : Sessions where
  missing := s.withoutMissing request
  established := s.established.insertMany <|
    request.oneTimeKeys.keys.filterMap fun device =>
      (response.key? device).map fun key => (device, key)
  failed := s.failed.insertMany <|
    request.oneTimeKeys.keys.filterMap fun device =>
      if (response.key? device).isNone then some (device, ()) else none

/-- Takes note that a claim failed for good: all its devices failed. -/
def failClaim (s : Sessions) (request : KeysClaim) : Sessions :=
  { s with
    missing := s.withoutMissing request
    failed := s.failed.insertMany (request.oneTimeKeys.keys.map fun device => (device, ())) }

end Sessions
end Outbox
