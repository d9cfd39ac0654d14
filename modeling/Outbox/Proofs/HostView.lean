/-
# Nothing is lost in the view of a host

A host sees a request as texts, and two requests that it sees alike are alike but for two things that a body
does not say: a time is written in whole milliseconds, up to the largest number of 64 bits, and a device that
is named by an asterisk is written as all devices are.

Since a value is told by its text, this is about values. A map is told by the object for it if the keys
are told by how they are written, a table by its rows, and a record by its members, also where one
is left out because there is nothing to say.

Key definitions: `Payload.Alike`, `Payload.Unambiguous`.
Key theorems: `Json.eq_of_ofMap_eq`, `Table.eq_of_toJson_eq`, `HostRequest.alike_of_ofRequest_eq`,
`HostRequest.ofRequest_eq_iff`.
-/
import Outbox.Host
import Outbox.Proofs.ReadTexts
import Outbox.SortedMap.Lemmas

namespace Outbox

/-! ### Maps and members -/

namespace Json

variable {κ α : Type} [Ord κ] {key : κ → String} {value : α → Json} {m n : SortedMap κ α}
  {members members' : List (String × Json)} {name : String} {v v' : Option Json}

theorem eq_of_map_eq {ε δ : Type} {f : ε → δ} :
    ∀ {l l' : List ε}, (∀ e ∈ l, ∀ e' ∈ l', f e = f e' → e = e') → l.map f = l'.map f → l = l'
  | [], [], _, _ => rfl
  | e :: l, e' :: l', hf, h => by
    obtain ⟨he, hl⟩ := List.cons.inj h
    rw [hf e List.mem_cons_self e' List.mem_cons_self he, eq_of_map_eq (fun d hd d' hd' =>
      hf d (List.mem_cons_of_mem _ hd) d' (List.mem_cons_of_mem _ hd')) hl]

/-- A map is told by the object for it, if its keys and its values are told by how they are written. -/
theorem eq_of_ofMap_eq (hkey : ∀ k ∈ m.keys, ∀ l ∈ n.keys, key k = key l → k = l)
    (hvalue : ∀ e ∈ m.toList, ∀ e' ∈ n.toList, value e.2 = value e'.2 → e.2 = e'.2)
    (h : ofMap key value m = ofMap key value n) : m = n := by
  refine SortedMap.eq_of_toList_eq (eq_of_map_eq (fun e he e' he' heq => ?_) (obj.inj h))
  obtain ⟨hk, hv⟩ := Prod.mk.inj heq
  exact Prod.ext (hkey _ (List.mem_map_of_mem he) _ (List.mem_map_of_mem he') hk)
    (hvalue _ he _ he' hv)

/-- A member that may be left out is told from the ones after it, which have other names. -/
theorem optionalMember_append_cancel (hname : name ∉ members.map Prod.fst)
    (hname' : name ∉ members'.map Prod.fst)
    (h : optionalMember name v ++ members = optionalMember name v' ++ members') :
    v = v' ∧ members = members' := by
  cases v with
  | none =>
    cases v' with
    | none => exact ⟨rfl, h⟩
    | some w' =>
      have h : members = (name, w') :: members' := h
      exact (hname (h ▸ List.mem_cons_self)).elim
  | some w =>
    cases v' with
    | none =>
      have h : (name, w) :: members = members' := h
      exact (hname' (h ▸ List.mem_cons_self)).elim
    | some w' =>
      obtain ⟨hw, hmembers⟩ := List.cons.inj h
      exact ⟨congrArg some (Prod.mk.inj hw).2, hmembers⟩

theorem optionalMember_cancel (h : optionalMember name v = optionalMember name v') : v = v' :=
  (optionalMember_append_cancel List.not_mem_nil List.not_mem_nil (congrArg (· ++ []) h)).1

@[simp] theorem mem_optionalMember {w : Json} {name' : String} :
    (name', w) ∈ optionalMember name v ↔ name' = name ∧ v = some w := by
  rw [optionalMember, Option.mem_toList, Option.map_eq_some_iff]
  constructor
  · rintro ⟨w, rfl, ⟨⟩⟩
    exact ⟨rfl, rfl⟩
  · rintro ⟨rfl, rfl⟩
    exact ⟨w, rfl, rfl⟩

/-- What is written of a map that is left out when it is empty. -/
def ofNonempty (key : κ → String) (value : α → Json) (m : SortedMap κ α) : Option Json :=
  if m.isEmpty then none else some (ofMap key value m)

theorem nonemptyMember_eq (name : String) (key : κ → String) (value : α → Json) (m : SortedMap κ α) :
    nonemptyMember name key value m = optionalMember name (ofNonempty key value m) := by
  unfold nonemptyMember ofNonempty
  split
  · rfl
  · rfl

/-- A map is also told by the object that is left out when there is nothing in it. -/
theorem eq_of_ofNonempty_eq (hkey : ∀ k l, key k = key l → k = l)
    (hvalue : ∀ a b, value a = value b → a = b) (h : ofNonempty key value m = ofNonempty key value n) :
    m = n := by
  unfold ofNonempty at h
  split at h
  · next hm =>
    split at h
    · next hn => rw [SortedMap.isEmpty_iff.1 hm, SortedMap.isEmpty_iff.1 hn]
    · cases h
  · split at h
    · cases h
    · exact eq_of_ofMap_eq (fun k _ l _ => hkey k l) (fun e _ e' _ => hvalue e.2 e'.2)
        (Option.some.inj h)

end Json

/-! ### Tables -/

namespace Table

variable {ρ γ α : Type} [Ord ρ] [Ord γ] [Std.TransOrd ρ] [Std.LawfulEqOrd ρ] {t u : Table ρ γ α}

/-- A row that is shown is the row of the table. -/
theorem eq_row_of_mem_rows [DecidableEq ρ] {r : ρ} {m : SortedMap γ α} (h : (r, m) ∈ t.rows.toList) :
    m = t.row r := by
  rw [SortedMap.mem_toList, rows, SortedMap.get?_mapValues, Option.map_eq_some_iff] at h
  obtain ⟨-, -, rfl⟩ := h
  rfl

variable [Std.TransOrd γ] [Std.LawfulEqOrd γ]

theorem mem_rowKeys_of_mem {r : ρ} {c : γ} (h : ⟨r, c⟩ ∈ t) : r ∈ t.rowKeys :=
  SortedSet.mem_ofKeys.2 (List.mem_map.2 ⟨⟨r, c⟩, SortedMap.mem_keys.2 h, rfl⟩)

variable [DecidableEq ρ]

/-- The values of a row are those in its cells. -/
theorem get?_row (t : Table ρ γ α) (r : ρ) (c : γ) : (t.row r).get? c = t.get? ⟨r, c⟩ := by
  refine Option.ext fun v => ?_
  rw [← SortedMap.mem_toList, ← SortedMap.mem_toList, row, List.mem_filterMap]
  constructor
  · rintro ⟨⟨⟨r', c'⟩, v'⟩, he, h⟩
    rw [Option.ite_none_right_eq_some, Option.some.injEq, Prod.mk.injEq] at h
    obtain ⟨rfl, rfl, rfl⟩ := h
    exact he
  · intro he
    exact ⟨_, he, if_pos rfl⟩

theorem bind_get?_rows (t : Table ρ γ α) (r : ρ) (c : γ) :
    (t.rows.get? r).bind (·.get? c) = t.get? ⟨r, c⟩ := by
  rw [rows, SortedMap.get?_mapValues]
  cases hkey : t.rowKeys.get? r with
  | some _ => exact get?_row t r c
  | none =>
    cases hcell : t.get? ⟨r, c⟩ with
    | none => rfl
    | some v =>
      obtain ⟨_, hr⟩ := SortedMap.mem_iff.1 (mem_rowKeys_of_mem (SortedMap.mem_iff.2 ⟨v, hcell⟩))
      cases hkey.symm.trans hr

/-- A table is told by its rows. -/
theorem eq_of_rows_eq (h : t.rows = u.rows) : t = u :=
  SortedMap.ext fun ⟨r, c⟩ => by rw [← bind_get?_rows, h, bind_get?_rows]

variable {form : String → Bool} {t u : Table (Ident form) γ α} {column : γ → String} {value : α → Json}

/-- A table is told by the object for its rows, if these are told by how they are written. -/
theorem eq_of_ofMap_rows_eq {row : SortedMap γ α → Json}
    (hrow : ∀ r r', row (t.row r) = row (u.row r') → t.row r = u.row r')
    (h : Json.ofMap Ident.text row t.rows = Json.ofMap Ident.text row u.rows) : t = u := by
  refine eq_of_rows_eq (Json.eq_of_ofMap_eq (fun r _ r' _ => Ident.eq_of_text_eq) ?_ h)
  rintro ⟨r, m⟩ hm ⟨r', m'⟩ hm' heq
  obtain rfl := eq_row_of_mem_rows hm
  obtain rfl := eq_row_of_mem_rows hm'
  exact hrow r r' heq

/-- A table is told by the object of objects for it. -/
theorem eq_of_toJson_eq
    (hcolumn : ∀ a ∈ t, ∀ b ∈ u, column a.column = column b.column → a.column = b.column)
    (hvalue : ∀ a b, value a = value b → a = b) (h : t.toJson column value = u.toJson column value) :
    t = u := by
  have hcell : ∀ (t : Table (Ident form) γ α) r c, c ∈ (t.row r).keys → (⟨r, c⟩ : Cell _ _) ∈ t := by
    intro t r c hc
    obtain ⟨v, hv⟩ := SortedMap.mem_iff.1 (SortedMap.mem_keys.1 hc)
    exact SortedMap.mem_iff.2 ⟨v, (get?_row t r c).symm.trans hv⟩
  refine eq_of_ofMap_rows_eq (fun r r' => ?_) h
  exact Json.eq_of_ofMap_eq (fun c hc c' hc' => hcolumn _ (hcell t r c hc) _ (hcell u r' c' hc'))
    fun e _ e' _ => hvalue e.2 e'.2

end Table

/-! ### Payloads -/

/-- Of a time that may be missing, the capped whole milliseconds are written. -/
theorem Duration.map_toMillisJson_eq_iff {d e : Option Duration} :
    d.map Duration.toMillisJson = e.map Duration.toMillisJson ↔
      d.map Duration.cappedMillis = e.map Duration.cappedMillis := by
  have hinj : Function.Injective Json.ofNat := fun _ _ hn => Int.ofNat_inj.1 (Json.int.inj hn)
  have hcomp : Duration.toMillisJson = Json.ofNat ∘ Duration.cappedMillis := rfl
  rw [hcomp, ← Option.map_map, ← Option.map_map, (Option.map_injective hinj).eq_iff]

theorem DeviceTarget.eq_of_text_eq {a b : DeviceTarget} (ha : a ≠ device "*") (hb : b ≠ device "*")
    (h : a.text = b.text) : a = b := by
  cases a with
  | device id =>
    cases b with
    | device id' => exact congrArg device h
    | all => exact (ha (congrArg device h)).elim
  | all =>
    cases b with
    | device id' => exact (hb (congrArg device h.symm)).elim
    | all => rfl

namespace Payload

/-- Whether two payloads carry the same, but for the part of a time that is not written. -/
def Alike : Payload → Payload → Prop
  | keysQuery r, keysQuery s =>
    r.timeout.map Duration.cappedMillis = s.timeout.map Duration.cappedMillis ∧
      r.users = s.users ∧ r.token = s.token
  | keysClaim r, keysClaim s =>
    r.timeout.map Duration.cappedMillis = s.timeout.map Duration.cappedMillis ∧
      r.oneTimeKeys = s.oneTimeKeys
  | p, q => p = q

/-- No device is named as all devices are written. -/
def Unambiguous : Payload → Prop
  | toDevice r => ∀ user, ⟨user, .device "*"⟩ ∉ r.messages
  | _ => True

theorem eq_of_toJson_keysUpload {r s : KeysUpload} (h : (keysUpload r).toJson = (keysUpload s).toJson) :
    r = s := by
  have hvalue : ∀ a b : Opaque, a.value = b.value → a = b := fun _ _ => Opaque.eq_of_value_eq
  have hmembers := Json.obj.inj h
  simp only [Json.nonemptyMember_eq, List.append_assoc] at hmembers
  obtain ⟨hdevice, hmembers⟩ := Json.optionalMember_append_cancel (by simp) (by simp) hmembers
  obtain ⟨honeTime, hmembers⟩ := Json.optionalMember_append_cancel (by simp) (by simp) hmembers
  have hfallback := Json.optionalMember_cancel hmembers
  obtain ⟨deviceKeys, oneTimeKeys, fallbackKeys, _⟩ := r
  obtain ⟨deviceKeys', oneTimeKeys', fallbackKeys', _⟩ := s
  obtain rfl : deviceKeys = deviceKeys' := Option.map_injective hvalue hdevice
  obtain rfl : oneTimeKeys = oneTimeKeys' := Json.eq_of_ofNonempty_eq (fun _ _ hk => hk) hvalue honeTime
  obtain rfl : fallbackKeys = fallbackKeys' :=
    Json.eq_of_ofNonempty_eq (fun _ _ hk => hk) hvalue hfallback
  rfl

theorem alike_of_toJson_keysQuery {r s : KeysQuery} (h : (keysQuery r).toJson = (keysQuery s).toJson) :
    (keysQuery r).Alike (keysQuery s) := by
  obtain ⟨htimeout, hmembers⟩ :=
    Json.optionalMember_append_cancel (by simp) (by simp) (Json.obj.inj h)
  obtain ⟨husers, htoken⟩ := List.cons.inj hmembers
  refine ⟨Duration.map_toMillisJson_eq_iff.1 htimeout, ?_, ?_⟩
  · exact Json.eq_of_ofMap_eq (fun _ _ _ _ => Ident.eq_of_text_eq) (fun _ _ _ _ _ => rfl)
      (Prod.mk.inj husers).2
  · exact Option.map_injective (fun _ _ => Json.str.inj) (Json.optionalMember_cancel htoken)

theorem alike_of_toJson_keysClaim {r s : KeysClaim} (h : (keysClaim r).toJson = (keysClaim s).toJson) :
    (keysClaim r).Alike (keysClaim s) := by
  obtain ⟨htimeout, hmembers⟩ :=
    Json.optionalMember_append_cancel (by simp) (by simp) (Json.obj.inj h)
  refine ⟨Duration.map_toMillisJson_eq_iff.1 htimeout, ?_⟩
  exact Table.eq_of_toJson_eq (fun _ _ _ _ hc => hc) (fun _ _ => Json.str.inj)
    (Prod.mk.inj (List.cons.inj hmembers).1).2

theorem messages_of_toJson_toDevice {r s : ToDevice} (hr : (toDevice r).Unambiguous)
    (hs : (toDevice s).Unambiguous) (h : (toDevice r).toJson = (toDevice s).toJson) :
    r.messages = s.messages := by
  have hne : ∀ {r : ToDevice}, (toDevice r).Unambiguous → ∀ c ∈ r.messages, c.column ≠ .device "*" := by
    rintro r hr ⟨user, target⟩ hc rfl
    exact hr user hc
  refine Table.eq_of_toJson_eq (fun a ha b hb => ?_) (fun _ _ => Opaque.eq_of_value_eq)
    (Prod.mk.inj (List.cons.inj (Json.obj.inj h)).1).2
  exact DeviceTarget.eq_of_text_eq (hne hr a ha) (hne hs b hb)

theorem eq_of_toJson_signatureUpload {r s : SignatureUpload}
    (h : (signatureUpload r).toJson = (signatureUpload s).toJson) : r = s := by
  obtain ⟨signedKeys, _⟩ := r
  obtain ⟨signedKeys', _⟩ := s
  obtain rfl : signedKeys = signedKeys' :=
    Table.eq_of_toJson_eq (fun _ _ _ _ hc => hc) (fun _ _ => Opaque.eq_of_value_eq) h
  rfl

theorem content_of_toJson_roomMessage {r s : RoomMessage}
    (h : (roomMessage r).toJson = (roomMessage s).toJson) : r.content = s.content :=
  Opaque.eq_of_value_eq h

theorem rooms_of_toJson_keysBackup {r s : KeysBackup}
    (h : (keysBackup r).toJson = (keysBackup s).toJson) : r.rooms = s.rooms := by
  refine Table.eq_of_ofMap_rows_eq (fun r r' hrow => ?_) (Prod.mk.inj (List.cons.inj (Json.obj.inj h)).1).2
  have hsessions := (Prod.mk.inj (List.cons.inj (Json.obj.inj hrow)).1).2
  exact Json.eq_of_ofMap_eq (fun _ _ _ _ hk => hk) (fun _ _ _ _ => Opaque.eq_of_value_eq) hsessions

/-- Payloads that are alike have the same body. -/
theorem toJson_eq_of_alike {p q : Payload} (h : p.Alike q) : p.toJson = q.toJson := by
  unfold Alike at h
  split at h
  · obtain ⟨htimeout, husers, htoken⟩ := h
    rw [toJson, toJson, Duration.map_toMillisJson_eq_iff.2 htimeout, husers, htoken]
  · obtain ⟨htimeout, hkeys⟩ := h
    rw [toJson, toJson, Duration.map_toMillisJson_eq_iff.2 htimeout, hkeys]
  · rw [h]

end Payload

/-! ### Requests -/

namespace HostRequest

variable {a b : OutgoingRequest}

theorem kind_ofRequest (r : OutgoingRequest) : (ofRequest r).kind = r.kind := by
  obtain ⟨id, payload⟩ := r
  cases payload <;> rfl

theorem id_ofRequest (r : OutgoingRequest) : (ofRequest r).id = r.id := by
  obtain ⟨id, payload⟩ := r
  cases payload <;> rfl

theorem body_ofRequest (r : OutgoingRequest) : (ofRequest r).body = r.payload.body := by
  obtain ⟨id, payload⟩ := r
  cases payload <;> rfl

theorem kind_eq_of_ofRequest_eq (h : ofRequest a = ofRequest b) : a.kind = b.kind := by
  rw [← kind_ofRequest, h, kind_ofRequest]

/-- What is seen alike is alike. -/
theorem alike_of_ofRequest_eq (ha : a.payload.Unambiguous) (hb : b.payload.Unambiguous)
    (h : ofRequest a = ofRequest b) : a.payload.Alike b.payload := by
  have hkind := kind_eq_of_ofRequest_eq h
  have hbody : a.payload.body = b.payload.body := by rw [← body_ofRequest, h, body_ofRequest]
  have hjson : a.payload.toJson = b.payload.toJson := Json.render_injective hbody
  obtain ⟨id, p⟩ := a
  obtain ⟨id', q⟩ := b
  cases p with
  | keysUpload r =>
    cases q with
    | keysUpload s => exact congrArg Payload.keysUpload (Payload.eq_of_toJson_keysUpload hjson)
    | _ => cases hkind
  | keysQuery r =>
    cases q with
    | keysQuery s => exact Payload.alike_of_toJson_keysQuery hjson
    | _ => cases hkind
  | keysClaim r =>
    cases q with
    | keysClaim s => exact Payload.alike_of_toJson_keysClaim hjson
    | _ => cases hkind
  | toDevice r =>
    cases q with
    | toDevice s =>
      obtain ⟨-, htype, htxn, -⟩ := toDevice.inj h
      have hmessages := Payload.messages_of_toJson_toDevice ha hb hjson
      obtain ⟨eventType, txnId, messages, _, _, _⟩ := r
      obtain ⟨eventType', txnId', messages', _, _, _⟩ := s
      obtain rfl : eventType = eventType' := htype
      obtain rfl : txnId = txnId' := htxn
      obtain rfl : messages = messages' := hmessages
      rfl
    | _ => cases hkind
  | signatureUpload r =>
    cases q with
    | signatureUpload s =>
      exact congrArg Payload.signatureUpload (Payload.eq_of_toJson_signatureUpload hjson)
    | _ => cases hkind
  | roomMessage r =>
    cases q with
    | roomMessage s =>
      obtain ⟨-, hroom, htxn, htype, -⟩ := roomMessage.inj h
      have hcontent := Payload.content_of_toJson_roomMessage hjson
      obtain ⟨roomId, txnId, eventType, content, _, _, _⟩ := r
      obtain ⟨roomId', txnId', eventType', content', _, _, _⟩ := s
      obtain rfl : roomId = roomId' := Ident.eq_of_text_eq hroom
      obtain rfl : txnId = txnId' := htxn
      obtain rfl : eventType = eventType' := htype
      obtain rfl : content = content' := hcontent
      rfl
    | _ => cases hkind
  | keysBackup r =>
    cases q with
    | keysBackup s =>
      obtain ⟨-, hversion, -⟩ := keysBackup.inj h
      have hrooms := Payload.rooms_of_toJson_keysBackup hjson
      obtain ⟨version, rooms, _, _⟩ := r
      obtain ⟨version', rooms', _, _⟩ := s
      obtain rfl : version = version' := hversion
      obtain rfl : rooms = rooms' := hrooms
      rfl
    | _ => cases hkind

/-- What is alike is seen alike. -/
theorem ofRequest_eq_of_alike (hid : a.id = b.id) (h : a.payload.Alike b.payload) :
    ofRequest a = ofRequest b := by
  obtain ⟨id, p⟩ := a
  obtain ⟨id', q⟩ := b
  obtain rfl : id = id' := hid
  have h : p.Alike q := h
  have hbody : p.body = q.body := congrArg Json.render (Payload.toJson_eq_of_alike h)
  unfold Payload.Alike at h
  split at h
  · exact congrArg (HostRequest.keysQuery id) hbody
  · exact congrArg (HostRequest.keysClaim id) hbody
  · rw [h]

/-- **The view of a host loses nothing.** If no device is named by an asterisk, requests are seen alike
exactly if they have the same name and kind and carry the same, where of the time in a query or in a claim
only the whole milliseconds count, up to the largest number of 64 bits. -/
theorem ofRequest_eq_iff (ha : a.payload.Unambiguous) (hb : b.payload.Unambiguous) :
    ofRequest a = ofRequest b ↔ a.id = b.id ∧ a.kind = b.kind ∧ a.payload.Alike b.payload := by
  constructor
  · intro h
    have hid : a.id = b.id := by rw [← id_ofRequest, h, id_ofRequest]
    exact ⟨hid, kind_eq_of_ofRequest_eq h, alike_of_ofRequest_eq ha hb h⟩
  · rintro ⟨hid, -, halike⟩
    exact ofRequest_eq_of_alike hid halike

/-- A note to one target of a user. -/
def Sample.note (target : DeviceTarget) : ToDevice where
  eventType := "m.note"
  txnId := "note"
  messages := SortedMap.insert ∅ ⟨⟨"@dana:example.org", by decide +kernel⟩, target⟩ .null
  eventType_ne := ne_of_beq_false rfl
  txnId_ne := ne_of_beq_false rfl
  nonempty := rfl

/-- A note to one device is seen otherwise than one to all devices, unless the device is named by an
asterisk. -/
theorem ofRequest_eq_iff_note :
    let request := fun target => (⟨"request", .toDevice (Sample.note target)⟩ : OutgoingRequest)
    ofRequest (request (.device "PHONE")) ≠ ofRequest (request .all) ∧
      ofRequest (request (.device "*")) = ofRequest (request .all) := by
  intro request
  have hunambiguous : ∀ target, target ≠ .device "*" → (request target).payload.Unambiguous := by
    intro target hne user hmem
    rcases SortedMap.mem_insert.1 hmem with heq | hmem
    · exact hne (congrArg Cell.column heq).symm
    · cases hmem
  refine ⟨fun h => ?_, rfl⟩
  obtain ⟨-, -, halike⟩ := (ofRequest_eq_iff (hunambiguous _ (by decide)) (hunambiguous _ (by decide))).1 h
  have hmessages := congrArg ToDevice.messages (Payload.toDevice.inj halike)
  exact absurd (congrArg (fun messages => messages.keys.map Cell.column) hmessages) (by decide)

end HostRequest
end Outbox
