/-
# What is written is read back

Responses, failures and settings are read back from their texts. They are read as well from texts that say less
or more: a member that says what is taken for it when it is missing can be left out, and members that are not
known are passed over.

Each member is read by itself, by the decoder for its values and with its own default, and a type only puts its
members together. What matters for a member that is not written when it is empty is that its default is to be
empty (`Decoder.HasMap`).

The values that a response keeps as they are have to be plain, and its text must not be nested too deeply to be
read. Nothing else is needed.

Key definitions: `Decoder.HasMap`, `Response.names`, `Response.defaults`, `Response.opaques`.
Key theorems: `Response.decoder_variant`, `Failure.decoder_variant`, `Settings.decoder_variant`,
`values_read_back`.
-/
import Outbox.Proofs.HostLoop
import Outbox.Proofs.ReadValues

namespace Outbox

/-! ### Members -/

namespace Json

variable {κ α : Type} [Ord κ] {key : κ → String} {value : α → Json} {m : SortedMap κ α} {name name' : String}
  {j : Json}

/-- The members of an object. -/
def members : Json → List (String × Json)
  | obj ms => ms
  | _ => []

theorem sublist_nonemptyMember (name : String) (key : κ → String) (value : α → Json) (m : SortedMap κ α) :
    ((nonemptyMember name key value m).map Prod.fst).Sublist [name] := by
  unfold nonemptyMember
  cases m.isEmpty with
  | true => exact List.nil_sublist _
  | false => exact List.Sublist.refl _

@[simp] theorem mem_nonemptyMember : (name', j) ∈ nonemptyMember name key value m ↔
    name' = name ∧ m.isEmpty = false ∧ j = ofMap key value m := by
  unfold nonemptyMember
  cases m.isEmpty with
  | true => simp
  | false => simp

end Json

namespace Duration

@[simp] theorem members_toJson (t : Duration) :
    t.toJson.members = [("secs", .ofNat t.seconds), ("nanos", .ofNat t.subsecNanos)] := rfl

theorem seconds_lt (t : Duration) : t.seconds < UInt64.size :=
  Nat.div_lt_of_lt_mul (Nat.mul_comm _ _ ▸ t.bounded)

theorem subsecNanos_lt (t : Duration) : t.subsecNanos < UInt32.size :=
  (Nat.mod_lt _ (by decide)).trans (by decide)

end Duration

namespace Decoder

variable {κ α : Type} [Ord κ] [Std.TransOrd κ] [Std.LawfulEqOrd κ] {key : κ → String} {key? : String → Option κ}
  {value : α → Json} {m : SortedMap κ α} {d : Decoder α} {form : String → Bool} {name : String}
  {defaults ms : List (String × Json)}

theorem readsBack_opaqueMap {m : SortedMap String Opaque} (h : ∀ v ∈ m.values, v.value.IsPlain) :
    opaqueMap.ReadsBack (Json.ofOpaqueMap m) m :=
  readsBack_mapOf (fun _ => rfl) fun v hv => readsBack_opaqueValue (h v hv)

theorem readsBack_uint64_ofNat {n : Nat} (h : n < UInt64.size) :
    uint64.ReadsBack (.ofNat n) (UInt64.ofNat n) := by
  have hread := readsBack_uint64 (UInt64.ofNat n)
  rwa [UInt64.toNat_ofNat_of_lt' h] at hread

theorem duration_of_record {t : Duration} {depth : Nat} {n : Node} {r : Record}
    (hrecord : record ["secs", "nanos"] true depth n = some r)
    (hseconds : r.get "secs" uint64 = some (UInt64.ofNat t.seconds))
    (hnanos : r.get "nanos" uint64 = some (UInt64.ofNat t.subsecNanos)) : duration depth n = some t := by
  have hsmall := t.subsecNanos_lt
  have hsize : t.subsecNanos < UInt64.size := hsmall.trans (by decide)
  unfold duration
  simp only [hrecord, hseconds, hnanos, Option.bind_eq_bind, Option.bind_some]
  rw [UInt64.toNat_ofNat_of_lt' t.seconds_lt, UInt64.toNat_ofNat_of_lt' hsize, if_pos hsmall]
  exact t.ofParts?_seconds_subsecNanos

theorem readsBack_duration (t : Duration) : duration.ReadsBack t.toJson t := by
  intro depth hheight
  cases depth with
  | zero => exact absurd hheight (Nat.not_succ_le_zero _)
  | succ depth =>
    have hsize : t.subsecNanos < UInt64.size := t.subsecNanos_lt.trans (by decide)
    have hv : Json.Variant ["secs", "nanos"] [] t.toJson.members t.toJson.members := .refl (by simp)
    have hrecord : record ["secs", "nanos"] true (depth + 1) t.toJson.toNode = some _ :=
      record_toNode hv.once (by simp)
    exact duration_of_record hrecord
      (hv.get_eq "secs" hheight (by decide) (by simp) nofun (readsBack_uint64_ofNat t.seconds_lt))
      (hv.get_eq "nanos" hheight (by decide) (by simp) nofun (readsBack_uint64_ofNat hsize))

/-- A member of a record is a map, which is written at least if it is not empty. If the member may be missing,
the map is taken to be empty then. -/
structure HasMap (name : String) (key : κ → String) (value : α → Json) (m : SortedMap κ α)
    (defaults ms : List (String × Json)) : Prop where
  /-- What is written is the map. -/
  eq : ∀ j, (name, j) ∈ ms → j = .ofMap key value m
  /-- A map with entries is written. -/
  written : m.isEmpty = false → (name, .ofMap key value m) ∈ ms
  /-- Only an empty map may be left out. -/
  default : ∀ j, (name, j) ∈ defaults → j = .obj []

theorem readsMember_mapOf (h : HasMap name key value m defaults ms) (hkey : ∀ k, key? (key k) = some k)
    (hvalue : ∀ v ∈ m.values, d.ReadsBack (value v) v) : (mapOf key? d).ReadsMember name defaults ms ∅ m where
  written j hj := h.eq j hj ▸ readsBack_mapOf hkey hvalue
  absent hnone := SortedMap.isEmpty_iff.1 <| by_contra fun hm =>
    hnone _ (h.written (Bool.eq_false_of_not_eq_true hm))
  missing j hj := by
    have hempty : Json.ofMap key value ∅ = .obj [] := rfl
    rw [h.default j hj, ← hempty]
    exact readsBack_mapOf hkey nofun

theorem readsMember_opaqueMap {m : SortedMap String Opaque} (h : HasMap name id Opaque.value m defaults ms)
    (hplain : ∀ v ∈ m.values, v.value.IsPlain) : opaqueMap.ReadsMember name defaults ms ∅ m :=
  readsMember_mapOf h (fun _ => rfl) fun v hv => readsBack_opaqueValue (hplain v hv)

theorem readsMember_identMap {m : SortedMap (Ident form) α} (h : HasMap name Ident.text value m defaults ms)
    (hvalue : ∀ v ∈ m.values, d.ReadsBack (value v) v) : (identMap d).ReadsMember name defaults ms ∅ m :=
  readsMember_mapOf h Ident.parse?_text hvalue

/-- A member that is always written. -/
theorem readsMember_of_written (default a : α) (w : α → Json) (hread : ∀ b, d.ReadsBack (w b) b)
    (hms : ∀ j, (name, j) ∈ ms ↔ j = w a) (hdefaults : ∀ j, (name, j) ∈ defaults → j = w default) :
    d.ReadsMember name defaults ms default a where
  written j hj := (hms j).1 hj ▸ hread a
  absent h := absurd ((hms _).2 rfl) (h _)
  missing j hj := hdefaults j hj ▸ hread default

/-- What is read from what is written of a value is read from its text. -/
theorem decode?_render {a : α} {j : Json} (h : d maxNesting j.toNode = some a) : d.decode? j.render = some a := by
  rw [decode?, Node.parse?_render]
  exact h

end Decoder

/-! ### Responses -/

namespace Response

/-- The names of the members of a response. -/
def names : RequestKind → List String
  | .keysUpload => ["one_time_key_counts"]
  | .keysQuery => ["failures", "device_keys", "master_keys", "self_signing_keys", "user_signing_keys"]
  | .keysClaim => ["failures", "one_time_keys"]
  | .toDevice => []
  | .signatureUpload => ["failures"]
  | .roomMessage => ["event_id"]
  | .keysBackup => ["etag", "count"]

/-- The members of a response that may be missing, as they are written if they say what is taken for them
then. -/
def defaults : RequestKind → List (String × Json)
  | .roomMessage | .keysBackup => []
  | kind => (names kind).map fun name => (name, .obj [])

/-- The values in a response that are kept as they are. -/
def opaques : Response → List Opaque
  | keysQuery r =>
    r.failures.values ++ r.deviceKeys.values.flatMap (·.values) ++ r.masterKeys.values
      ++ r.selfSigningKeys.values ++ r.userSigningKeys.values
  | keysClaim r =>
    r.failures.values ++ r.oneTimeKeys.values.flatMap fun keys => keys.values.flatMap (·.values)
  | signatureUpload r => r.failures.values.flatMap (·.values)
  | _ => []

variable {kind : RequestKind} {name : String} {j : Json} {depth : Nat} {ms : List (String × Json)}

theorem eq_of_mem_defaults (h : (name, j) ∈ defaults kind) : j = .obj [] := by
  unfold defaults at h
  split at h
  · cases h
  · cases h
  · obtain ⟨_, _, h⟩ := List.mem_map.1 h
    exact (Prod.mk.inj h).2.symm

end Response

section Responses

variable {depth : Nat} {ms : List (String × Json)}

open Decoder Response

namespace KeysUploadResponse

@[simp] theorem members_toJson (r : KeysUploadResponse) : r.toJson.members =
    [("one_time_key_counts", .ofMap id (fun n => .ofNat n.toNat) r.oneTimeKeyCounts)] := rfl

theorem decoder_variant {r : KeysUploadResponse} (hheight : r.toJson.toNode.height ≤ depth + 1)
    (hv : Json.Variant (names .keysUpload) (defaults .keysUpload) r.toJson.members ms) :
    decoder (depth + 1) (Json.obj ms).toNode = some r := by
  have hmap : HasMap "one_time_key_counts" id (fun n => .ofNat n.toNat) r.oneTimeKeyCounts
      (defaults .keysUpload) r.toJson.members := ⟨by simp, by simp, fun _ => eq_of_mem_defaults⟩
  have hcounts := hv.getD_eq "one_time_key_counts" hheight (by decide)
    (readsMember_mapOf hmap (fun _ => rfl) fun n _ => readsBack_uint64 n)
  exact Option.bind_eq_some_iff.2 ⟨_, hv.record_eq depth, Option.bind_eq_some_iff.2 ⟨_, hcounts, rfl⟩⟩

end KeysUploadResponse

namespace KeysQueryResponse

@[simp] theorem members_toJson (r : KeysQueryResponse) : r.toJson.members =
    Json.nonemptyMember "failures" id Opaque.value r.failures
      ++ ("device_keys", Json.ofMap Ident.text Json.ofOpaqueMap r.deviceKeys)
      :: Json.nonemptyMember "master_keys" Ident.text Opaque.value r.masterKeys
      ++ Json.nonemptyMember "self_signing_keys" Ident.text Opaque.value r.selfSigningKeys
      ++ Json.nonemptyMember "user_signing_keys" Ident.text Opaque.value r.userSigningKeys := rfl

theorem decoder_variant {r : KeysQueryResponse} (hplain : ∀ v ∈ opaques (.keysQuery r), v.value.IsPlain)
    (hheight : r.toJson.toNode.height ≤ depth + 1)
    (hv : Json.Variant (names .keysQuery) (defaults .keysQuery) r.toJson.members ms) :
    decoder (depth + 1) (Json.obj ms).toNode = some r := by
  simp only [opaques, List.mem_append, List.mem_flatMap, or_imp, forall_and] at hplain
  obtain ⟨⟨⟨⟨hfailures, hdevices⟩, hmasters⟩, hselfs⟩, husers⟩ := hplain
  have hfailures := hv.getD_eq "failures" hheight (by decide)
    (readsMember_opaqueMap ⟨by simp, by simp, fun _ => eq_of_mem_defaults⟩ hfailures)
  have hdevices := hv.getD_eq "device_keys" hheight (by decide)
    (readsMember_identMap ⟨by simp, by simp, fun _ => eq_of_mem_defaults⟩ fun keys hkeys =>
      readsBack_opaqueMap fun v hv => hdevices v ⟨keys, hkeys, hv⟩)
  have hmasters := hv.getD_eq "master_keys" hheight (by decide)
    (readsMember_identMap ⟨by simp, by simp, fun _ => eq_of_mem_defaults⟩ fun v hv =>
      readsBack_opaqueValue (hmasters v hv))
  have hselfs := hv.getD_eq "self_signing_keys" hheight (by decide)
    (readsMember_identMap ⟨by simp, by simp, fun _ => eq_of_mem_defaults⟩ fun v hv =>
      readsBack_opaqueValue (hselfs v hv))
  have husers := hv.getD_eq "user_signing_keys" hheight (by decide)
    (readsMember_identMap ⟨by simp, by simp, fun _ => eq_of_mem_defaults⟩ fun v hv =>
      readsBack_opaqueValue (husers v hv))
  refine Option.bind_eq_some_iff.2 ⟨_, hv.record_eq depth, ?_⟩
  simp only [hfailures, hdevices, hmasters, hselfs, husers, Option.bind_eq_bind, Option.bind_some]
  rfl

end KeysQueryResponse

namespace KeysClaimResponse

@[simp] theorem members_toJson (r : KeysClaimResponse) : r.toJson.members =
    Json.nonemptyMember "failures" id Opaque.value r.failures
      ++ [("one_time_keys", Json.ofMap Ident.text (Json.ofMap id Json.ofOpaqueMap) r.oneTimeKeys)] := rfl

theorem decoder_variant {r : KeysClaimResponse} (hplain : ∀ v ∈ opaques (.keysClaim r), v.value.IsPlain)
    (hheight : r.toJson.toNode.height ≤ depth + 1)
    (hv : Json.Variant (names .keysClaim) (defaults .keysClaim) r.toJson.members ms) :
    decoder (depth + 1) (Json.obj ms).toNode = some r := by
  simp only [opaques, List.mem_append, List.mem_flatMap, or_imp, forall_and] at hplain
  obtain ⟨hfailures, hkeys⟩ := hplain
  have hfailures := hv.getD_eq "failures" hheight (by decide)
    (readsMember_opaqueMap ⟨by simp, by simp, fun _ => eq_of_mem_defaults⟩ hfailures)
  have hdevices : ∀ m ∈ r.oneTimeKeys.values,
      (mapOf some opaqueMap).ReadsBack (.ofMap id Json.ofOpaqueMap m) m := fun m hm =>
    readsBack_mapOf (fun _ => rfl) fun keys hmem => readsBack_opaqueMap fun v hv =>
      hkeys v ⟨m, hm, keys, hmem, hv⟩
  have hkeys := hv.getD_eq "one_time_keys" hheight (by decide)
    (readsMember_identMap ⟨by simp, by simp, fun _ => eq_of_mem_defaults⟩ hdevices)
  refine Option.bind_eq_some_iff.2 ⟨_, hv.record_eq depth, ?_⟩
  simp only [hfailures, hkeys, Option.bind_eq_bind, Option.bind_some]
  rfl

end KeysClaimResponse

namespace SignatureUploadResponse

@[simp] theorem members_toJson (r : SignatureUploadResponse) : r.toJson.members =
    Json.nonemptyMember "failures" Ident.text Json.ofOpaqueMap r.failures := rfl

theorem decoder_variant {r : SignatureUploadResponse}
    (hplain : ∀ v ∈ opaques (.signatureUpload r), v.value.IsPlain)
    (hheight : r.toJson.toNode.height ≤ depth + 1)
    (hv : Json.Variant (names .signatureUpload) (defaults .signatureUpload) r.toJson.members ms) :
    decoder (depth + 1) (Json.obj ms).toNode = some r := by
  simp only [opaques, List.mem_flatMap] at hplain
  have hfailures := hv.getD_eq "failures" hheight (by decide)
    (readsMember_identMap ⟨by simp, by simp, fun _ => eq_of_mem_defaults⟩ fun keys hkeys =>
      readsBack_opaqueMap fun v hv => hplain v ⟨keys, hkeys, hv⟩)
  exact Option.bind_eq_some_iff.2 ⟨_, hv.record_eq depth, Option.bind_eq_some_iff.2 ⟨_, hfailures, rfl⟩⟩

end SignatureUploadResponse

namespace RoomMessageResponse

@[simp] theorem members_toJson (r : RoomMessageResponse) :
    r.toJson.members = [("event_id", .str r.eventId.text)] := rfl

theorem decoder_variant {r : RoomMessageResponse} (hheight : r.toJson.toNode.height ≤ depth + 1)
    (hv : Json.Variant (names .roomMessage) (defaults .roomMessage) r.toJson.members ms) :
    decoder (depth + 1) (Json.obj ms).toNode = some r := by
  have hevent := hv.get_eq "event_id" hheight (by decide) (by simp) nofun (readsBack_ident r.eventId)
  exact Option.bind_eq_some_iff.2 ⟨_, hv.record_eq depth, Option.bind_eq_some_iff.2 ⟨_, hevent, rfl⟩⟩

end RoomMessageResponse

namespace KeysBackupResponse

@[simp] theorem members_toJson (r : KeysBackupResponse) :
    r.toJson.members = [("etag", .str r.etag), ("count", .ofNat r.count.toNat)] := rfl

theorem decoder_variant {r : KeysBackupResponse} (hheight : r.toJson.toNode.height ≤ depth + 1)
    (hv : Json.Variant (names .keysBackup) (defaults .keysBackup) r.toJson.members ms) :
    decoder (depth + 1) (Json.obj ms).toNode = some r := by
  have hetag := hv.get_eq "etag" hheight (by decide) (by simp) nofun (readsBack_text r.etag)
  have hcount := hv.get_eq "count" hheight (by decide) (by simp) nofun (readsBack_uint64 r.count)
  refine Option.bind_eq_some_iff.2 ⟨_, hv.record_eq depth, ?_⟩
  simp only [hetag, hcount, Option.bind_eq_bind, Option.bind_some]
  rfl

end KeysBackupResponse

/-- **A response is read from what is written of it**, with more or fewer members. -/
theorem Response.decoder_variant {r : Response} (hplain : ∀ v ∈ r.opaques, v.value.IsPlain)
    (hheight : r.toJson.toNode.height ≤ depth + 1)
    (hv : Json.Variant (names r.kind) (defaults r.kind) r.toJson.members ms) :
    decoder r.kind (depth + 1) (Json.obj ms).toNode = some r := by
  cases r with
  | keysUpload r => exact congrArg (Option.map _) (KeysUploadResponse.decoder_variant hheight hv)
  | keysQuery r => exact congrArg (Option.map _) (KeysQueryResponse.decoder_variant hplain hheight hv)
  | keysClaim r => exact congrArg (Option.map _) (KeysClaimResponse.decoder_variant hplain hheight hv)
  | toDevice r => exact congrArg (Option.map _) (congrArg (Option.map _) (hv.record_eq depth))
  | signatureUpload r => exact congrArg (Option.map _) (SignatureUploadResponse.decoder_variant hplain hheight hv)
  | roomMessage r => exact congrArg (Option.map _) (RoomMessageResponse.decoder_variant hheight hv)
  | keysBackup r => exact congrArg (Option.map _) (KeysBackupResponse.decoder_variant hheight hv)

theorem Response.parse_variant {r : Response} (hplain : ∀ v ∈ r.opaques, v.value.IsPlain)
    (hheight : r.toJson.toNode.height ≤ maxNesting)
    (hv : Json.Variant (names r.kind) (defaults r.kind) r.toJson.members ms) :
    (decoder r.kind).decode? (Json.obj ms).render = some r ∧ parse r.kind.number (Json.obj ms).render = .ok r := by
  have hread := decode?_render (Response.decoder_variant hplain hheight hv)
  exact ⟨hread, Response.parse_eq_ok_iff.2 ⟨rfl, hread⟩⟩

/-- The members that are written of a response are among those that it can have, each once. -/
theorem Response.sublist_members (r : Response) : (r.toJson.members.map Prod.fst).Sublist (names r.kind) := by
  cases r with
  | keysUpload r => exact List.Sublist.refl _
  | keysQuery r =>
    simp only [toJson, KeysQueryResponse.members_toJson, List.map_append, List.map_cons]
    exact (((Json.sublist_nonemptyMember _ _ _ _).append
      ((Json.sublist_nonemptyMember _ _ _ _).cons_cons "device_keys")).append
      (Json.sublist_nonemptyMember _ _ _ _)).append (Json.sublist_nonemptyMember _ _ _ _)
  | keysClaim r =>
    simp only [toJson, KeysClaimResponse.members_toJson, List.map_append, List.map_cons]
    exact (Json.sublist_nonemptyMember _ _ _ _).append (List.Sublist.refl _)
  | toDevice r => exact List.Sublist.refl _
  | signatureUpload r => exact Json.sublist_nonemptyMember _ _ _ _
  | roomMessage r => exact List.Sublist.refl _
  | keysBackup r => exact List.Sublist.refl _

theorem Response.obj_members (r : Response) : Json.obj r.toJson.members = r.toJson := by
  cases r with
  | _ => rfl

theorem Response.nodup_members (r : Response) : (r.toJson.members.map Prod.fst).Nodup := by
  have hnames : (names r.kind).Nodup := by
    cases r.kind with
    | _ => decide
  exact hnames.sublist r.sublist_members

end Responses

/-! ### Failures -/

namespace FailureClass

theorem readsBack_name (c : FailureClass) : decoder.ReadsBack (.str c.name) c := by
  intro depth _
  cases c with
  | transient => rfl
  | permanent => rfl

end FailureClass

namespace Failure

variable {f : Failure} {depth : Nat} {ms : List (String × Json)}

/-- The names of the members of a failure. -/
def names : List String := ["class", "reason"]

@[simp] theorem members_toJson (f : Failure) :
    f.toJson.members = [("class", .str f.failureClass.name), ("reason", .str f.reason)] := rfl

theorem height_toJson (f : Failure) : f.toJson.toNode.height = 1 := rfl

/-- **A failure is read from what is written of it**, with more members. -/
theorem decoder_variant (hheight : f.toJson.toNode.height ≤ depth + 1)
    (hv : Json.Variant names [] f.toJson.members ms) : decoder (depth + 1) (Json.obj ms).toNode = some f := by
  have hclass := hv.get_eq "class" hheight (by decide) (by simp) nofun f.failureClass.readsBack_name
  have hreason := hv.get_eq "reason" hheight (by decide) (by simp) nofun (Decoder.readsBack_text f.reason)
  refine Option.bind_eq_some_iff.2 ⟨_, hv.record_eq depth, ?_⟩
  simp only [hclass, hreason, Option.bind_eq_bind, Option.bind_some]
  rfl

theorem decode?_variant (hv : Json.Variant names [] f.toJson.members ms) :
    decoder.decode? (Json.obj ms).render = some f :=
  Decoder.decode?_render (decoder_variant (f.height_toJson.le.trans (by decide)) hv)

end Failure

/-! ### Settings -/

namespace Settings

open Decoder

variable {s : Settings} {depth : Nat} {ms : List (String × Json)}

/-- The names of the members of settings. -/
def names : List String :=
  ["max_queued_requests", "key_query_timeout", "key_claim_timeout", "key_query_batch_size", "backup_batch_size"]

/-- A bound that may be missing, as a value. -/
def boundToJson (bound : Option UInt64) : Json := (bound.map fun n => Json.ofNat n.toNat).getD .null

@[simp] theorem members_toJson (s : Settings) : s.toJson.members =
    [("max_queued_requests", boundToJson s.maxQueuedRequests),
      ("key_query_timeout", s.keyQueryTimeout.toJson),
      ("key_claim_timeout", s.keyClaimTimeout.toJson),
      ("key_query_batch_size", .ofNat s.keyQueryBatchSize.toNat),
      ("backup_batch_size", .ofNat s.backupBatchSize.toNat)] := rfl

theorem readsBack_boundToJson (bound : Option UInt64) :
    (nullable uint64).ReadsBack (boundToJson bound) bound := by
  cases bound with
  | none => exact readsBack_nullable_none
  | some n => exact readsBack_nullable_some nofun (readsBack_uint64 n)

theorem height_toJson (s : Settings) : s.toJson.toNode.height = 2 := by
  obtain ⟨bound, _, _, _, _⟩ := s
  cases bound with
  | none => rfl
  | some n => rfl

/-- **Settings are read from what is written of them**, with more or fewer members. -/
theorem decoder_variant (hheight : s.toJson.toNode.height ≤ depth + 1)
    (hv : Json.Variant names default.toJson.members s.toJson.members ms) :
    decoder (depth + 1) (Json.obj ms).toNode = some s := by
  have hbound := hv.getD_eq "max_queued_requests" hheight (by decide)
    (readsMember_of_written default.maxQueuedRequests s.maxQueuedRequests boundToJson readsBack_boundToJson
      (by simp) (by simp))
  have hquery := hv.getD_eq "key_query_timeout" hheight (by decide)
    (readsMember_of_written default.keyQueryTimeout s.keyQueryTimeout Duration.toJson readsBack_duration
      (by simp) (by simp))
  have hclaim := hv.getD_eq "key_claim_timeout" hheight (by decide)
    (readsMember_of_written default.keyClaimTimeout s.keyClaimTimeout Duration.toJson readsBack_duration
      (by simp) (by simp))
  have husers := hv.getD_eq "key_query_batch_size" hheight (by decide)
    (readsMember_of_written default.keyQueryBatchSize s.keyQueryBatchSize _ readsBack_uint64
      (by simp) (by simp))
  have hkeys := hv.getD_eq "backup_batch_size" hheight (by decide)
    (readsMember_of_written default.backupBatchSize s.backupBatchSize _ readsBack_uint64
      (by simp) (by simp))
  refine Option.bind_eq_some_iff.2 ⟨_, hv.record_eq depth, ?_⟩
  simp only [hbound, hquery, hclaim, husers, hkeys, Option.bind_eq_bind, Option.bind_some]
  rfl

theorem decode?_variant (hv : Json.Variant names default.toJson.members s.toJson.members ms) :
    decoder.decode? (Json.obj ms).render = some s :=
  decode?_render (decoder_variant (s.height_toJson.le.trans (by decide)) hv)

end Settings

/-! ### Texts -/

/-- **What is written is read back.** The text of a response, of a failure and of settings is read as the value
that it was written of, a response by the number of its kind. The same goes for the text of an object that lacks
members that say what is taken for them then, or has members that are not known.

A response must not be nested more deeply than a text may be, and the values in it that are kept as they are
have to be plain: a floating point number can be read as one next to it, and an object that bears the mark of a
text is read as what that text says. -/
theorem values_read_back :
    (∀ r : Response, (∀ v ∈ r.opaques, v.value.IsPlain) → r.toJson.toNode.height ≤ maxNesting →
      ((Response.decoder r.kind).decode? r.toJson.render = some r ∧
        Response.parse r.kind.number r.toJson.render = .ok r) ∧
      ∀ ms, Json.Variant (Response.names r.kind) (Response.defaults r.kind) r.toJson.members ms →
        (Response.decoder r.kind).decode? (Json.obj ms).render = some r ∧
          Response.parse r.kind.number (Json.obj ms).render = .ok r) ∧
    (∀ f : Failure, Failure.decoder.decode? f.toJson.render = some f ∧
      ∀ ms, Json.Variant Failure.names [] f.toJson.members ms →
        Failure.decoder.decode? (Json.obj ms).render = some f) ∧
    ∀ s : Settings, Settings.decoder.decode? s.toJson.render = some s ∧
      ∀ ms, Json.Variant Settings.names Settings.default.toJson.members s.toJson.members ms →
        Settings.decoder.decode? (Json.obj ms).render = some s := by
  refine ⟨fun r hplain hheight => ⟨?_, fun ms hv => Response.parse_variant hplain hheight hv⟩,
    fun f => ⟨Failure.decode?_variant (.refl (by simp)), fun ms hv => Failure.decode?_variant hv⟩,
    fun s => ⟨Settings.decode?_variant (.refl (by simp)), fun ms hv => Settings.decode?_variant hv⟩⟩
  rw [← r.obj_members]
  exact Response.parse_variant hplain hheight (.refl r.nodup_members)

/-- A response that says that a server is down. -/
def Sample.serverDown : KeysQueryResponse :=
  ⟨SortedMap.insert ∅ "elsewhere.org" ⟨.str "down", trivial⟩, ∅, ∅, ∅, ∅⟩

/-- A response is read without the devices, which are written although there are none, and with a note. Nothing
needs to be said in settings. -/
theorem values_read_back_server_down :
    Response.parse 1 (Json.obj [("note", .null), ("failures", .ofOpaqueMap Sample.serverDown.failures)]).render =
      .ok (.keysQuery Sample.serverDown) ∧
    Settings.decoder.decode? (Json.obj []).render = some .default := by
  have hplain : ∀ v ∈ (Response.keysQuery Sample.serverDown).opaques, v.value.IsPlain := by
    intro v hv
    obtain rfl : v = ⟨.str "down", trivial⟩ := List.mem_singleton.1 hv
    trivial
  have hheight : (Response.keysQuery Sample.serverDown).toJson.toNode.height ≤ maxNesting := by decide
  obtain ⟨hresponse, -, hsettings⟩ := values_read_back
  refine ⟨((hresponse _ hplain hheight).2 _ ?_).2, (hsettings .default).2 _ ?_⟩
  · have hdropped : ∀ m ∈ (Response.keysQuery Sample.serverDown).toJson.members,
        (m.1 != "device_keys") = false → m = ("device_keys", .obj []) := by
      intro m hm hname
      rcases List.mem_pair.1 hm with rfl | rfl
      · cases hname
      · rfl
    have hdefault : ("device_keys", Json.obj []) ∈ Response.defaults .keysQuery :=
      List.mem_map.2 ⟨"device_keys", by decide, rfl⟩
    exact .of_perm (fun m => m.1 != "device_keys") [("note", .null)] (Response.nodup_members _)
      (fun m hm hname => hdropped m hm hname ▸ hdefault) (by simp [Response.names, Response.kind])
      (List.Perm.swap _ _ _)
  · exact .of_perm (fun _ => false) [] (by simp) (fun m hm _ => hm) (by simp) (by simp)

end Outbox
