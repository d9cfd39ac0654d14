/-
# The texts of responses, failures and settings

A response is an object with a member for each of its parts. Most parts are maps that are empty when
the member is missing; of those, all but the main one are left out when they are written empty. A
failure and the settings are written in the same way. Members with other names are passed over.

Key definitions: `Response.toJson`, `Response.decoder`, `Response.parse`, `Failure.toJson`,
`Failure.decoder`, `Settings.toJson`, `Settings.decoder`, `HostError`.
-/
import Outbox.Json.Decoder
import Outbox.Request.Response
import Outbox.Settings
import Outbox.Wire.Body

namespace Outbox

namespace Decoder

/-- An identifier. -/
def ident {form : String → Bool} : Decoder (Ident form) := fun depth n =>
  text depth n >>= Ident.parse?

/-- A map from texts to values that are kept as they are. -/
def opaqueMap : Decoder (SortedMap String Opaque) := mapOf some opaqueValue

/-- A map from identifiers. -/
def identMap {form : String → Bool} (d : Decoder α) : Decoder (SortedMap (Ident form) α) :=
  mapOf Ident.parse? d

/-- A length of time: its seconds and nanoseconds. Whole seconds among the nanoseconds are carried
over. -/
def duration : Decoder Duration := fun depth n => do
  let r ← record ["secs", "nanos"] true depth n
  let seconds ← r.get "secs" uint64
  let nanos ← r.get "nanos" uint64
  if nanos.toNat < UInt32.size then Duration.ofParts? seconds.toNat nanos.toNat else none

end Decoder

/-- A length of time as an object. -/
def Duration.toJson (d : Duration) : Json :=
  .obj [("secs", .ofNat d.seconds), ("nanos", .ofNat d.subsecNanos)]

/-- A map from texts to values that are kept as they are, as an object. -/
def Json.ofOpaqueMap (m : SortedMap String Opaque) : Json := .ofMap id Opaque.value m

namespace KeysUploadResponse

/-- The response as a value. -/
def toJson (r : KeysUploadResponse) : Json :=
  .obj [("one_time_key_counts", .ofMap id (fun n => .ofNat n.toNat) r.oneTimeKeyCounts)]

/-- Reads a response. -/
def decoder : Decoder KeysUploadResponse := fun depth n => do
  let r ← Decoder.record ["one_time_key_counts"] false depth n
  return ⟨← r.getD "one_time_key_counts" (.mapOf some .uint64) ∅⟩

end KeysUploadResponse

namespace KeysQueryResponse

/-- The response as a value. -/
def toJson (r : KeysQueryResponse) : Json :=
  .obj <| Json.nonemptyMember "failures" id Opaque.value r.failures
    ++ ("device_keys", Json.ofMap Ident.text Json.ofOpaqueMap r.deviceKeys)
    :: Json.nonemptyMember "master_keys" Ident.text Opaque.value r.masterKeys
    ++ Json.nonemptyMember "self_signing_keys" Ident.text Opaque.value r.selfSigningKeys
    ++ Json.nonemptyMember "user_signing_keys" Ident.text Opaque.value r.userSigningKeys

/-- Reads a response. -/
def decoder : Decoder KeysQueryResponse := fun depth n => do
  let r ← Decoder.record
    ["failures", "device_keys", "master_keys", "self_signing_keys", "user_signing_keys"]
    false depth n
  return {
    failures := ← r.getD "failures" .opaqueMap ∅
    deviceKeys := ← r.getD "device_keys" (.identMap .opaqueMap) ∅
    masterKeys := ← r.getD "master_keys" (.identMap .opaqueValue) ∅
    selfSigningKeys := ← r.getD "self_signing_keys" (.identMap .opaqueValue) ∅
    userSigningKeys := ← r.getD "user_signing_keys" (.identMap .opaqueValue) ∅ }

end KeysQueryResponse

namespace KeysClaimResponse

/-- The response as a value. -/
def toJson (r : KeysClaimResponse) : Json :=
  .obj <| Json.nonemptyMember "failures" id Opaque.value r.failures
    ++ [("one_time_keys", Json.ofMap Ident.text (Json.ofMap id Json.ofOpaqueMap) r.oneTimeKeys)]

/-- Reads a response. -/
def decoder : Decoder KeysClaimResponse := fun depth n => do
  let r ← Decoder.record ["failures", "one_time_keys"] false depth n
  return {
    failures := ← r.getD "failures" .opaqueMap ∅
    oneTimeKeys := ← r.getD "one_time_keys" (.identMap (.mapOf some .opaqueMap)) ∅ }

end KeysClaimResponse

namespace ToDeviceResponse

/-- The response as a value. -/
def toJson (_ : ToDeviceResponse) : Json := .obj []

/-- Reads a response. -/
def decoder : Decoder ToDeviceResponse := fun depth n =>
  (Decoder.record [] false depth n).map fun _ => ⟨⟩

end ToDeviceResponse

namespace SignatureUploadResponse

/-- The response as a value. -/
def toJson (r : SignatureUploadResponse) : Json :=
  .obj (Json.nonemptyMember "failures" Ident.text Json.ofOpaqueMap r.failures)

/-- Reads a response. -/
def decoder : Decoder SignatureUploadResponse := fun depth n => do
  let r ← Decoder.record ["failures"] false depth n
  return ⟨← r.getD "failures" (.identMap .opaqueMap) ∅⟩

end SignatureUploadResponse

namespace RoomMessageResponse

/-- The response as a value. -/
def toJson (r : RoomMessageResponse) : Json := .obj [("event_id", .str r.eventId.text)]

/-- Reads a response. -/
def decoder : Decoder RoomMessageResponse := fun depth n => do
  let r ← Decoder.record ["event_id"] false depth n
  return ⟨← r.get "event_id" .ident⟩

end RoomMessageResponse

namespace KeysBackupResponse

/-- The response as a value. -/
def toJson (r : KeysBackupResponse) : Json :=
  .obj [("etag", .str r.etag), ("count", .ofNat r.count.toNat)]

/-- Reads a response. -/
def decoder : Decoder KeysBackupResponse := fun depth n => do
  let r ← Decoder.record ["etag", "count"] false depth n
  return ⟨← r.get "etag" .text, ← r.get "count" .uint64⟩

end KeysBackupResponse

/-- Why a host was not understood. -/
inductive HostError where
  /-- The text is not a response of its kind. -/
  | malformedText
  /-- No kind of request has the number. -/
  | unknownRequestType (number : UInt8)
deriving DecidableEq, Repr

namespace HostError

/-- The wording of an error. -/
def message : HostError → String
  | malformedText => "the text can't be read"
  | unknownRequestType number => s!"unknown request type {number.toNat}"

end HostError

namespace Response

/-- The response as a value. -/
def toJson : Response → Json
  | keysUpload r => r.toJson
  | keysQuery r => r.toJson
  | keysClaim r => r.toJson
  | toDevice r => r.toJson
  | signatureUpload r => r.toJson
  | roomMessage r => r.toJson
  | keysBackup r => r.toJson

/-- Reads a response to a request of the given kind. -/
def decoder : RequestKind → Decoder Response
  | .keysUpload => fun depth n => (KeysUploadResponse.decoder depth n).map keysUpload
  | .keysQuery => fun depth n => (KeysQueryResponse.decoder depth n).map keysQuery
  | .keysClaim => fun depth n => (KeysClaimResponse.decoder depth n).map keysClaim
  | .toDevice => fun depth n => (ToDeviceResponse.decoder depth n).map toDevice
  | .signatureUpload => fun depth n => (SignatureUploadResponse.decoder depth n).map signatureUpload
  | .roomMessage => fun depth n => (RoomMessageResponse.decoder depth n).map roomMessage
  | .keysBackup => fun depth n => (KeysBackupResponse.decoder depth n).map keysBackup

/-- Reads the text of a response to a request whose kind has the given number. -/
def parse (number : UInt8) (body : String) : Except HostError Response :=
  match RequestKind.ofNumber? number with
  | none => .error (.unknownRequestType number)
  | some kind =>
    match (decoder kind).decode? body with
    | some r => .ok r
    | none => .error .malformedText

end Response

namespace FailureClass

/-- The name of the class. -/
def name : FailureClass → String
  | transient => "transient"
  | permanent => "permanent"

/-- The class with the given name, if there is one. -/
def ofName? (s : String) : Option FailureClass :=
  if s = transient.name then some transient
  else if s = permanent.name then some permanent
  else none

/-- Reads a class: its name, or an object with its name and `null`. -/
def decoder : Decoder FailureClass
  | _, .str name => name >>= ofName?
  | _ + 1, .obj [(name, .null)] => name >>= ofName?
  | _, _ => none

end FailureClass

namespace Failure

/-- The failure as a value. -/
def toJson (f : Failure) : Json :=
  .obj [("class", .str f.failureClass.name), ("reason", .str f.reason)]

/-- Reads a failure. -/
def decoder : Decoder Failure := fun depth n => do
  let r ← Decoder.record ["class", "reason"] false depth n
  return ⟨← r.get "class" FailureClass.decoder, ← r.get "reason" .text⟩

end Failure

namespace Settings

/-- The settings as a value. -/
def toJson (s : Settings) : Json :=
  .obj [
    ("max_queued_requests", (s.maxQueuedRequests.map fun n => Json.ofNat n.toNat).getD .null),
    ("key_query_timeout", s.keyQueryTimeout.toJson),
    ("key_claim_timeout", s.keyClaimTimeout.toJson),
    ("key_query_batch_size", .ofNat s.keyQueryBatchSize.toNat),
    ("backup_batch_size", .ofNat s.backupBatchSize.toNat)]

/-- Reads settings. A missing member leaves its setting at the default. -/
def decoder : Decoder Settings := fun depth n => do
  let r ← Decoder.record
    ["max_queued_requests", "key_query_timeout", "key_claim_timeout", "key_query_batch_size",
      "backup_batch_size"]
    false depth n
  return {
    maxQueuedRequests :=
      ← r.getD "max_queued_requests" (.nullable .uint64) default.maxQueuedRequests
    keyQueryTimeout := ← r.getD "key_query_timeout" .duration default.keyQueryTimeout
    keyClaimTimeout := ← r.getD "key_claim_timeout" .duration default.keyClaimTimeout
    keyQueryBatchSize := ← r.getD "key_query_batch_size" .uint64 default.keyQueryBatchSize
    backupBatchSize := ← r.getD "backup_batch_size" .uint64 default.backupBatchSize }

end Settings
end Outbox
