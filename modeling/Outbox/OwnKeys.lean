/-
# The keys of this device

The identity keys of the device are uploaded once. One-time and fallback keys are uploaded after they
were added; a key that was replaced while an upload of its former value was on its way is uploaded
again.

Key definitions: `OwnKeys`, `OwnKeys.upload?`, `OwnKeys.receiveUpload`.
-/
import Outbox.Request.Response

namespace Outbox

/-- The keys of this device, and what the server knows of them. -/
structure OwnKeys where
  /-- The identity keys. -/
  deviceKeys : Opaque
  /-- Whether the server has the identity keys. -/
  shared : Bool
  /-- The one-time keys that the server does not have. -/
  oneTimeKeys : SortedMap KeyId Opaque
  /-- The fallback keys that the server does not have. -/
  fallbackKeys : SortedMap KeyId Opaque
  /-- How many one-time keys the server has, by algorithm, as it last said. -/
  oneTimeKeyCounts : SortedMap Algorithm UInt64

namespace OwnKeys

/-- The keys of a device of which the server knows nothing. -/
def new (deviceKeys : Opaque) : OwnKeys := ⟨deviceKeys, false, ∅, ∅, ∅⟩

/-- Notes that the server has the identity keys. -/
def markAsShared (k : OwnKeys) : OwnKeys := { k with shared := true }

/-- Adds one-time keys, over those with the same names. -/
def addOneTimeKeys (k : OwnKeys) (keys : SortedMap KeyId Opaque) : OwnKeys :=
  { k with oneTimeKeys := k.oneTimeKeys.insertMany keys.toList }

/-- Adds fallback keys, over those with the same names. -/
def addFallbackKeys (k : OwnKeys) (keys : SortedMap KeyId Opaque) : OwnKeys :=
  { k with fallbackKeys := k.fallbackKeys.insertMany keys.toList }

/-- Whether there are keys that the server does not have. -/
def needsUpload (k : OwnKeys) : Bool :=
  !k.shared || !k.oneTimeKeys.isEmpty || !k.fallbackKeys.isEmpty

/-- The upload of all keys that the server does not have, if there are any. -/
def upload? (k : OwnKeys) : Option KeysUpload :=
  let deviceKeys := if k.shared then none else some k.deviceKeys
  (KeysUpload.ofKeys deviceKeys k.oneTimeKeys k.fallbackKeys).toOption

/-- The keys that are left when those that were published with the value they have are taken out. -/
def withoutPublished (keys published : SortedMap KeyId Opaque) : SortedMap KeyId Opaque :=
  keys.filter fun id key => !(published.get? id).any (· == key)

/-- Takes note of a successful upload. -/
def receiveUpload (k : OwnKeys) (request : KeysUpload) (response : KeysUploadResponse) : OwnKeys where
  deviceKeys := k.deviceKeys
  shared := k.shared || request.deviceKeys.isSome
  oneTimeKeys := withoutPublished k.oneTimeKeys request.oneTimeKeys
  fallbackKeys := withoutPublished k.fallbackKeys request.fallbackKeys
  oneTimeKeyCounts := response.oneTimeKeyCounts

end OwnKeys
end Outbox
