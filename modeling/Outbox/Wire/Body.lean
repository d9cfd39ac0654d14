/-
# The bodies of requests

The body of a request is a JSON text. Names of members and their order are fixed; maps are written
by increasing key. What a request carries besides its body (the version of a backup, the room of a
message, names and types of messages) is not part of the body.

Key definitions: `Payload.toJson`, `Payload.body`.
-/
import Outbox.Json.Printer
import Outbox.Request.Payload

namespace Outbox

namespace Json

/-- The object with an entry for each entry of a map. -/
def ofMap [Ord κ] (key : κ → String) (value : α → Json) (m : SortedMap κ α) : Json :=
  obj (m.toList.map fun e => (key e.1, value e.2))

/-- A natural number. -/
def ofNat (n : Nat) : Json := int n

/-- The member with the given name, if there is a value for it. -/
def optionalMember (name : String) (value : Option Json) : List (String × Json) :=
  (value.map fun v => (name, v)).toList

/-- The member with the given name, unless the map for it is empty. -/
def nonemptyMember [Ord κ] (name : String) (key : κ → String) (value : α → Json)
    (m : SortedMap κ α) : List (String × Json) :=
  if m.isEmpty then [] else [(name, ofMap key value m)]

end Json

/-- A waiting time, in milliseconds. -/
def Duration.toMillisJson (d : Duration) : Json := .ofNat d.cappedMillis

/-- The rows of a table as an object of objects. -/
def Table.toJson [Ord γ] [Std.TransOrd γ] [Std.LawfulEqOrd γ] {form : String → Bool}
    (column : γ → String) (value : α → Json) (t : Table (Ident form) γ α) : Json :=
  .ofMap Ident.text (Json.ofMap column value) t.rows

namespace Payload

/-- The body of a request, as a value. -/
def toJson : Payload → Json
  | keysUpload r =>
    .obj <| Json.optionalMember "device_keys" (r.deviceKeys.map Opaque.value)
      ++ Json.nonemptyMember "one_time_keys" id Opaque.value r.oneTimeKeys
      ++ Json.nonemptyMember "fallback_keys" id Opaque.value r.fallbackKeys
  | keysQuery r =>
    .obj <| Json.optionalMember "timeout" (r.timeout.map Duration.toMillisJson)
      ++ ("device_keys", Json.ofMap Ident.text (fun _ => .arr []) r.users)
      :: Json.optionalMember "token" (r.token.map Json.str)
  | keysClaim r =>
    .obj <| Json.optionalMember "timeout" (r.timeout.map Duration.toMillisJson)
      ++ [("one_time_keys", Table.toJson id Json.str r.oneTimeKeys)]
  | toDevice r => .obj [("messages", Table.toJson DeviceTarget.text Opaque.value r.messages)]
  | signatureUpload r => Table.toJson id Opaque.value r.signedKeys
  | roomMessage r => r.content.value
  | keysBackup r =>
    let room := fun sessions => Json.obj [("sessions", Json.ofMap id Opaque.value sessions)]
    .obj [("rooms", Json.ofMap Ident.text room r.rooms.rows)]

/-- The body of a request. -/
def body (p : Payload) : String := p.toJson.render

end Payload
end Outbox
