/-
# Work that is never hidden

The stores of a machine can be kept row by row: the devices and signatures user by user, the room keys room
by room. Something is then done to one row after the other, a row is made for its first value, and it has to
go with its last one. For a request that is built of rows is refused if one of them is empty, and so is a
backup without a version; a refusal looks as if nothing was needed. A single empty row would hide the work of
all others, for as long as the machine runs.

That never happens, since what calls do to the rows is what they do to the tables.

Key definitions: `SessionRows`, `BackupRows`, `Stores`, `Stores.after`, `Machine.stores`.
Key theorems: `Sessions.foldl_settle`, `Machine.stores_turn`, `Machine.Reached.stores`,
`Machine.no_work_hidden`.
-/
import Outbox.Proofs.BackupRounds
import Outbox.Proofs.SessionHistory
import Outbox.Proofs.SignatureHistory
import Outbox.Proofs.Tasks

namespace Outbox

/-- To erase all keys of a map is to keep the other ones. -/
theorem SortedMap.foldl_erase_keys {κ α β : Type} [Ord κ] [Std.TransOrd κ] [Std.LawfulEqOrd κ] [DecidableEq κ]
    (m : SortedMap κ α) (n : SortedMap κ β) :
    n.keys.foldl erase m = m.filter fun k _ => !n.contains k := by
  have hfold : ∀ (l : List κ) (m : SortedMap κ α) (k : κ),
      (l.foldl erase m).get? k = if k ∈ l then none else m.get? k := by
    intro l
    induction l with
    | nil => simp
    | cons k₀ l ih =>
      intro m k
      rw [List.foldl_cons, ih, get?_erase]
      by_cases hl : k ∈ l <;> by_cases hk : k = k₀ <;> simp [hl, hk]
  refine ext fun k => ?_
  rw [hfold, get?_filter]
  by_cases hk : k ∈ n
  · have hcontains : n.contains k = true := hk
    simp [mem_keys.2 hk, hcontains]
  · have hcontains : n.contains k = false := Bool.eq_false_iff.2 hk
    rw [if_neg (mt mem_keys.1 hk), hcontains]
    cases m.get? k <;> rfl

/-! ### Sessions -/

/-- The sessions with devices, user by user. -/
structure SessionRows where
  /-- The devices that need a one-time key. -/
  missing : Rows UserId DeviceId Unit
  /-- The key that the session with a device started with. -/
  established : Rows UserId DeviceId Opaque
  /-- The devices of which no key could be claimed. -/
  failed : Rows UserId DeviceId Unit

namespace SessionRows

/-- Notes that the session with a device is missing. -/
def markDeviceMissing (s : SessionRows) (device : Cell UserId DeviceId) : SessionRows :=
  { s with failed := s.failed.remove device, missing := s.missing.put device () }

/-- Notes that the sessions with devices of a user are missing. -/
def markMissing (s : SessionRows) (user : UserId) (devices : List DeviceId) : SessionRows :=
  devices.foldl (fun s device => s.markDeviceMissing ⟨user, device⟩) s

/-- Takes note that the claim of a device is over, with a key of it or without one. -/
def settle (s : SessionRows) (device : Cell UserId DeviceId) : Option Opaque → SessionRows
  | some key => { s with missing := s.missing.remove device, established := s.established.put device key }
  | none => { s with missing := s.missing.remove device, failed := s.failed.put device () }

/-- Takes note that a claim is over, one user after the other and one device after the other. -/
def settleAll (s : SessionRows) (request : KeysClaim) (key? : Cell UserId DeviceId → Option Opaque) :
    SessionRows :=
  request.oneTimeKeys.rows.toList.foldl (fun s (user, devices) =>
    devices.toList.foldl (fun s (device, _) => s.settle ⟨user, device⟩ (key? ⟨user, device⟩)) s) s

/-- The claim of a key of every device whose session is missing. One that cannot be built is none. -/
def claim? (s : SessionRows) (settings : Settings) : Option KeysClaim :=
  (KeysClaim.ofRows (s.missing.mapCells fun _ _ => Sessions.claimedAlgorithm)
    (some settings.keyClaimTimeout)).toOption

end SessionRows

namespace Sessions

/-- The sessions as they are kept user by user. -/
def rows (s : Sessions) : SessionRows := ⟨Table.rows s.missing, Table.rows s.established, Table.rows s.failed⟩

variable {s : Sessions} {settings : Settings} {claim : KeysClaim}

theorem rows_markMissing (s : Sessions) (user : UserId) (devices : List DeviceId) :
    (s.markMissing user devices).rows = s.rows.markMissing user devices := by
  rw [markMissing, List.foldl_map]
  refine (List.foldl_hom rows fun s device => ?_).symm
  simp only [SessionRows.markDeviceMissing, markDeviceMissing, rows, Table.rows_insert, Table.rows_erase]

theorem rows_settle_some (s : Sessions) (device : Cell UserId DeviceId) (key : Opaque) :
    s.rows.settle device (some key) =
      rows { s with missing := s.missing.erase device, established := s.established.insert device key } := by
  simp only [SessionRows.settle, rows, Table.rows_insert, Table.rows_erase]

theorem rows_settle_none (s : Sessions) (device : Cell UserId DeviceId) :
    s.rows.settle device none =
      rows { s with missing := s.missing.erase device, failed := s.failed.insert device () } := by
  simp only [SessionRows.settle, rows, Table.rows_insert, Table.rows_erase]

/-- What becomes of the sessions when the claims of devices are over, one after the other. -/
theorem foldl_settle (key? : Cell UserId DeviceId → Option Opaque) (devices : List (Cell UserId DeviceId))
    (s : Sessions) : devices.foldl (fun rows device => rows.settle device (key? device)) s.rows = rows
      { missing := devices.foldl SortedMap.erase s.missing
        established := s.established.insertMany <|
          devices.filterMap fun device => (key? device).map fun key => (device, key)
        failed := s.failed.insertMany <|
          devices.filterMap fun device => if (key? device).isNone then some (device, ()) else none } := by
  induction devices generalizing s with
  | nil => rfl
  | cons device devices ih =>
    rw [List.foldl_cons, List.filterMap_cons, List.filterMap_cons]
    cases key? device with
    | none =>
      rw [rows_settle_none, ih]
      rfl
    | some key =>
      rw [rows_settle_some, ih]
      rfl

/-- The devices of a claim come user by user. -/
theorem settleAll_eq_foldl (rows : SessionRows) (request : KeysClaim)
    (key? : Cell UserId DeviceId → Option Opaque) :
    rows.settleAll request key? =
      request.oneTimeKeys.keys.foldl (fun rows device => rows.settle device (key? device)) rows := by
  have hkeys : request.oneTimeKeys.keys = (Rows.entries request.oneTimeKeys.rows).map Prod.fst := by
    rw [Table.entries_rows]
    rfl
  rw [hkeys, Rows.entries, List.foldl_map, List.foldl_flatMap]
  simp only [List.foldl_map]
  rfl

/-- The response to a claim is taken note of for one device after the other. -/
theorem rows_receiveClaim (s : Sessions) (request : KeysClaim) (response : KeysClaimResponse) :
    (s.receiveClaim request response).rows = s.rows.settleAll request response.key? := by
  rw [settleAll_eq_foldl, foldl_settle, SortedMap.foldl_erase_keys]
  rfl

/-- A claim that failed for good ends without a key of each of its devices. -/
theorem rows_failClaim (s : Sessions) (request : KeysClaim) :
    (s.failClaim request).rows = s.rows.settleAll request fun _ => none := by
  rw [settleAll_eq_foldl, foldl_settle, SortedMap.foldl_erase_keys]
  simp [failClaim, withoutMissing]

/-- The claim has exactly the devices whose session is missing. -/
theorem claim?_eq_some_iff : s.claim? settings = some claim ↔
    claim.oneTimeKeys = s.missing.mapValues (fun _ _ => claimedAlgorithm) ∧
      claim.timeout = some settings.keyClaimTimeout := by
  rw [claim?, toOption_eq_some_iff, KeysClaim.ofTable]
  split
  · rw [Except.ok.injEq]
    constructor
    · rintro rfl
      exact ⟨rfl, rfl⟩
    · obtain ⟨timeout, oneTimeKeys, nonempty⟩ := claim
      rintro ⟨rfl, rfl⟩
      rfl
  · next hempty =>
    refine iff_of_false (by simp) ?_
    rintro ⟨hkeys, -⟩
    exact hempty (hkeys ▸ claim.nonempty)

/-- There is no claim exactly if no session is missing. -/
theorem claim?_eq_none_iff : s.claim? settings = none ↔ s.missing.isEmpty = true := by
  constructor
  · intro hnone
    refine SortedMap.isEmpty_iff_get?.2 fun device => ?_
    by_contra hdevice
    obtain ⟨v, hv⟩ := Option.ne_none_iff_exists'.1 hdevice
    obtain ⟨claim, hclaim⟩ := exists_claim? (SortedMap.mem_iff.2 ⟨v, hv⟩) settings
    rw [hnone] at hclaim
    cases hclaim
  · intro hempty
    refine Option.eq_none_iff_forall_ne_some.2 fun claim hclaim => ?_
    have hkeys := (claim?_eq_some_iff.1 hclaim).1
    have hne := claim.nonempty
    rw [hkeys, SortedMap.isEmpty_iff.1 hempty] at hne
    cases hne

/-- The claim is the one that is built user by user. -/
theorem claim?_rows (s : Sessions) (settings : Settings) : s.rows.claim? settings = s.claim? settings := by
  rw [SessionRows.claim?, rows, ← Table.rows_mapValues, KeysClaim.ofRows, Table.ofRows?_rows]
  rfl

end Sessions

/-! ### Room keys -/

/-- The active version and the room keys, room by room. -/
structure BackupRows where
  /-- The version of the active backup, if there is one. -/
  version : Option String
  /-- The room keys. -/
  roomKeys : Rows RoomId SessionId BackupEntry

namespace BackupRows

/-- Forgets which keys are backed up. -/
def reset (b : BackupRows) : BackupRows :=
  { b with roomKeys := b.roomKeys.mapCells fun _ e => { e with backedUp := false } }

/-- Makes a version the active one. Another version than the active one starts from nothing. -/
def enable (b : BackupRows) (version : String) : BackupRows :=
  if b.version = some version then b else { b.reset with version := some version }

/-- Stops to back up keys. -/
def disable (b : BackupRows) : BackupRows := { b.reset with version := none }

/-- Adds a room key, or replaces one. -/
def addRoomKey (b : BackupRows) (key : Cell RoomId SessionId) (data : Opaque) : BackupRows :=
  { b with roomKeys := b.roomKeys.put key ⟨data, false⟩ }

/-- Takes note that a request was answered. -/
def markSent (b : BackupRows) (request : KeysBackup) : BackupRows :=
  match b.version with
  | some version => { b with roomKeys := Backup.markByRoom version b.roomKeys request }
  | none => b

/-- The request for the first keys that are not backed up. One that cannot be built is none. -/
def request? (b : BackupRows) (batchSize : Nat) : Option KeysBackup :=
  b.version.bind fun version => Backup.requestByRoom? version b.roomKeys batchSize

end BackupRows

namespace Backup

variable {b : Backup}

/-- The room keys as they are kept room by room. -/
def rows (b : Backup) : BackupRows := ⟨b.version, Table.rows b.roomKeys⟩

theorem rows_reset (b : Backup) : b.reset.rows = b.rows.reset := by
  rw [rows, reset, Table.rows_mapValues]
  rfl

theorem rows_enable (b : Backup) (version : String) : (b.enable version).rows = b.rows.enable version := by
  rw [enable, BackupRows.enable, ← rows_reset]
  show rows (if _ then _ else _) = if b.version = some version then _ else _
  split <;> rfl

theorem rows_disable (b : Backup) : b.disable.rows = b.rows.disable := by
  rw [BackupRows.disable, ← rows_reset]
  rfl

theorem rows_addRoomKey (b : Backup) (key : Cell RoomId SessionId) (data : Opaque) :
    (b.addRoomKey key data).rows = b.rows.addRoomKey key data := by
  rw [rows, addRoomKey, Table.rows_insert]
  rfl

/-- To mark keys leaves no room without keys. -/
theorem tidy_markByRoom {rooms : Rows RoomId SessionId BackupEntry} (h : rooms.Tidy) (version : String)
    (request : KeysBackup) : (markByRoom version rooms request).Tidy := by
  unfold markByRoom
  split
  · refine List.foldlRecOn _ _ h fun rooms h room _ => h.modify (fun sessions hs => ?_) room.1
    refine List.foldlRecOn (motive := fun sessions => SortedMap.isEmpty sessions = false) _ _ hs
      fun sessions hs key _ => ?_
    simpa [SortedMap.modify, SortedMap.mapValues, SortedMap.isEmpty] using hs
  · exact h

theorem rows_markSent (b : Backup) (request : KeysBackup) :
    (b.markSent request).rows = b.rows.markSent request := by
  obtain ⟨version, roomKeys⟩ := b
  cases version with
  | none => rw [markSent, if_neg (Option.some_ne_none _).symm, BackupRows.markSent, rows]
  | some version =>
    have hmark := ofRows_markByRoom version roomKeys.rows request
    rw [Table.ofRows_rows] at hmark
    rw [← hmark, rows, Table.rows_ofRows (tidy_markByRoom (Table.tidy_rows roomKeys) version request)]
    rfl

/-- The request is the one that is built room by room. -/
theorem request?_rows (b : Backup) (batchSize : Nat) : b.rows.request? batchSize = b.request? batchSize := by
  obtain ⟨version, roomKeys⟩ := b
  cases version with
  | none => rfl
  | some version =>
    refine (requestByRoom?_eq version roomKeys.rows batchSize).trans ?_
    rw [Table.ofRows_rows]

end Backup

/-! ### Builders that give nothing -/

/-- There is no upload of keys exactly if none is needed. -/
theorem OwnKeys.upload?_eq_none_iff {k : OwnKeys} : k.upload? = none ↔ k.needsUpload = false := by
  constructor
  · intro hnone
    refine Bool.eq_false_iff.2 fun hneed => ?_
    obtain ⟨request, hrequest⟩ := exists_upload? hneed
    rw [hnone] at hrequest
    cases hrequest
  · intro hneed
    refine Option.eq_none_iff_forall_ne_some.2 fun request hrequest => ?_
    rw [needsUpload_of_upload? hrequest] at hneed
    cases hneed

/-- The upload of signatures is the one that is built user by user. -/
theorem Messages.toOption_ofRows (s : Messages) :
    (SignatureUpload.ofRows (Table.rows s.signatures)).toOption = s.signatureUpload? := by
  rw [SignatureUpload.ofRows, Table.ofRows?_rows]
  rfl

/-- No key remains exactly if all are backed up. -/
theorem Backup.isEmpty_remaining_iff {b : Backup} :
    b.remaining.isEmpty = true ↔ ∀ key e, b.roomKeys.get? key = some e → e.backedUp = true := by
  rw [SortedMap.isEmpty_iff_get?]
  refine forall_congr' fun key => ?_
  rw [Option.eq_none_iff_forall_ne_some]
  simp only [ne_eq, get?_remaining_eq_some_iff]
  constructor
  · rintro hall ⟨data, backedUp⟩ he
    refine Bool.eq_true_of_not_eq_false fun hb => ?_
    have hb : backedUp = false := hb
    subst hb
    exact hall data he
  · intro hup data he
    cases hup _ he

/-! ### All stores -/

/-- What a machine keeps user by user and room by room. -/
structure Stores where
  /-- The sessions with devices. -/
  sessions : SessionRows
  /-- The signatures. -/
  signatures : Rows UserId KeyId Opaque
  /-- The backup of room keys. -/
  backup : BackupRows

namespace Stores

/-- Nothing is kept. -/
def empty : Stores := ⟨⟨∅, ∅, ∅⟩, ∅, ⟨none, ∅⟩⟩

/-- What the end of a request does to the rows. -/
def receiveOutcome (s : Stores) (r : OutgoingRequest) (outcome : Outcome) : Stores :=
  match r.payload, outcome with
  | .keysClaim request, .success (.keysClaim response) =>
    { s with sessions := s.sessions.settleAll request response.key? }
  | .keysClaim request, .failure failure =>
    if failure.isPermanent then { s with sessions := s.sessions.settleAll request fun _ => none } else s
  | .signatureUpload request, .success (.signatureUpload response) =>
    { s with signatures := SignatureEvent.applyRows s.signatures (.answer request response) }
  | .keysBackup request, .success (.keysBackup _) => { s with backup := s.backup.markSent request }
  | _, _ => s

/-- What a turn does to the rows. -/
def after (s : Stores) (t : Turn) : Stores :=
  match t.call, t.answer with
  | .markAsSent id outcome, .done =>
    match t.before.inFlightRequests.find? fun r => r.id = id with
    | some r => s.receiveOutcome r outcome
    | none => s
  | .markSessionsMissing user devices, .done => { s with sessions := s.sessions.markMissing user devices }
  | .queueSignatures signedKeys, .done =>
    { s with signatures := SignatureEvent.applyRows s.signatures (.queue signedKeys) }
  | .enableBackup version, .done => { s with backup := s.backup.enable version }
  | .disableBackup, .done => { s with backup := s.backup.disable }
  | .addRoomKey key data, .done => { s with backup := s.backup.addRoomKey key data }
  | _, _ => s

theorem after_markAsSent {s : Stores} {m m' : Machine} {now : Instant} {r : OutgoingRequest} {outcome : Outcome}
    (inFlight : r ∈ m.queue.inFlight) :
    s.after ⟨m, now, .markAsSent r.id outcome, .done, m'⟩ = s.receiveOutcome r outcome := by
  have hfind : m.inFlightRequests.find? (fun x => x.id = r.id) = some r := Queue.find?_inFlight inFlight
  simp only [after, hfind]

end Stores

namespace Machine

variable {m : Machine} {h : List Turn} {r : OutgoingRequest} {outcome : Outcome}

/-- The stores of the machine as they are kept row by row. -/
def stores (m : Machine) : Stores := ⟨m.sessions.rows, Table.rows m.messages.signatures, m.backup.rows⟩

theorem stores_addAll (m : Machine) (payloads : List Payload) : (m.addAll payloads).stores = m.stores := by
  rw [stores, addAll_sessions, addAll_messages, addAll_backup]
  rfl

theorem stores_withOutcome (m : Machine) (now : Instant) (fits : outcome.mismatch? r.kind = none) :
    (m.withOutcome now r outcome).stores = m.stores.receiveOutcome r outcome := by
  obtain ⟨id, payload⟩ := r
  cases outcome with
  | success response =>
    have hk : response.kind = payload.kind := Outcome.mismatch?_success_eq_none_iff.1 fits
    cases payload <;> cases response <;> cases hk
    case keysClaim.keysClaim.refl request response =>
      exact congrArg (Stores.mk · _ _) (m.sessions.rows_receiveClaim request response)
    case signatureUpload.signatureUpload.refl request response =>
      exact congrArg (Stores.mk _ · _) (m.messages.rows_after (.answer request response))
    case keysBackup.keysBackup.refl request response =>
      exact congrArg (Stores.mk _ _) (m.backup.rows_markSent request)
    all_goals rfl
  | failure failure =>
    cases payload with
    | keysClaim request =>
      show stores (if failure.isPermanent = true then _ else _) = if failure.isPermanent = true then _ else _
      split
      · exact congrArg (Stores.mk · _ _) (m.sessions.rows_failClaim request)
      · rfl
    | toDevice | roomMessage =>
      show stores (if failure.isPermanent = true then _ else _) = m.stores
      split <;> rfl
    | _ => rfl

/-- A turn does to the rows what it does to the tables. -/
theorem stores_turn (m : Machine) (now : Instant) (call : Call) :
    (m.step now call).2.stores = m.stores.after (m.turn now call) := by
  have ht := transition_step m now call
  unfold turn
  generalize (m.step now call).1 = answer at ht
  generalize (m.step now call).2 = m' at ht
  cases ht with
  | handOut => exact m.stores_addAll (m.wanted now)
  | complete r outcome inFlight fits =>
    rw [Stores.after_markAsSent inFlight, decisionPass, stores_addAll, stores_withOutcome m now fits]
  | missing user devices => exact congrArg (Stores.mk · _ _) (m.sessions.rows_markMissing user devices)
  | acceptToDevice eventType rows s accepted =>
    obtain ⟨_, -, rfl⟩ := Messages.addToDevice_eq_ok accepted
    rfl
  | acceptSignatures rows s accepted =>
    have hafter : m.messages.after (.queue rows) = s := by rw [Messages.after, accepted]
    exact congrArg (Stores.mk _ · _) (hafter ▸ m.messages.rows_after (.queue rows))
  | acceptRoomMessage room eventType content s accepted =>
    obtain ⟨_, -, rfl⟩ := Messages.addRoomMessage_eq_ok accepted
    rfl
  | enable version nonempty => exact congrArg (Stores.mk _ _) (m.backup.rows_enable version)
  | disable => exact congrArg (Stores.mk _ _) m.backup.rows_disable
  | addRoomKey key data => exact congrArg (Stores.mk _ _) (m.backup.rows_addRoomKey key data)
  | refuse call reason refusable => cases call <;> rfl
  | _ => rfl

/-- The stores of a machine are what its history made of the rows. -/
theorem Reached.stores (hm : Reached h m) : m.stores = h.foldl Stores.after .empty := by
  induction hm with
  | new => rfl
  | step now call hm ih => rw [List.foldl_append, ← ih, List.foldl_cons, List.foldl_nil, stores_turn]

/-- **No work is hidden**, whatever calls were made to a new machine. What the calls made of the rows are the rows
of its tables: no user is left without missing devices, without failed ones or without signatures, and no room
without keys. The version of the active backup is not empty. So each builder gives nothing exactly if nothing is
needed: there is no upload of keys exactly if none has to be uploaded, no claim exactly if no session is missing, no
upload of signatures exactly if there are none, and no backup exactly if none is active or all keys are backed up.
A claim that is built names the missing devices and no others. To build requests row by row makes no difference. -/
theorem no_work_hidden (userId : UserId) (deviceId : DeviceId) (deviceKeys : Opaque) (settings : Settings)
    (ids : IdSource) (calls : List (Instant × Call)) :
    let h := (new userId deviceId deviceKeys settings ids).turns calls
    let m := ((new userId deviceId deviceKeys settings ids).run calls).2
    let s := h.foldl Stores.after .empty
    s = m.stores ∧
    (s.sessions.missing.Tidy ∧ s.sessions.failed.Tidy ∧ s.signatures.Tidy ∧ s.backup.roomKeys.Tidy) ∧
    (s.backup.version = m.backupVersion? ∧ m.backupVersion? ≠ some "") ∧
    (m.ownKeys.upload? = none ↔ m.needsKeysUpload = false) ∧
    (∀ settings', s.sessions.claim? settings' = m.sessions.claim? settings' ∧
      (s.sessions.claim? settings' = none ↔ s.sessions.missing.isEmpty = true) ∧
      ∀ claim, s.sessions.claim? settings' = some claim →
        (∀ device, device ∈ claim.oneTimeKeys ↔ device ∈ m.devicesForKeyClaim) ∧
        claim.oneTimeKeys.rows = s.sessions.missing.mapCells (fun _ _ => Sessions.claimedAlgorithm) ∧
        claim.timeout = some settings'.keyClaimTimeout) ∧
    ((SignatureUpload.ofRows s.signatures).toOption = m.messages.signatureUpload? ∧
      (m.messages.signatureUpload? = none ↔ m.messages.hasSignatures = false) ∧
      m.messages.hasSignatures = !s.signatures.isEmpty) ∧
    ∀ batchSize, s.backup.request? batchSize = m.backup.request? batchSize ∧
      (m.backup.request? batchSize = none ↔
        m.backupVersion? = none ∨ ∀ key e, s.backup.roomKeys.cell? key = some e → e.backedUp = true) := by
  intro h m s
  have hm : Reached h m := (Reached.new userId deviceId deviceKeys settings ids).run calls
  have hs : s = m.stores := hm.stores.symm
  have hversion : m.backup.version ≠ some "" := hm.coherent.version_ne
  have hclaim : ∀ settings', s.sessions.claim? settings' = m.sessions.claim? settings' := fun settings' => by
    rw [hs]
    exact m.sessions.claim?_rows settings'
  have hrows : (SignatureUpload.ofRows s.signatures).toOption = m.messages.signatureUpload? := by
    rw [hs]
    exact m.messages.toOption_ofRows
  have hsignatures : m.messages.hasSignatures = !s.signatures.isEmpty := by
    rw [hs]
    exact congrArg Bool.not (Table.isEmpty_rows m.messages.signatures).symm
  refine ⟨hs, ?_, ?_, OwnKeys.upload?_eq_none_iff, ?_, ⟨hrows, ?_, hsignatures⟩, ?_⟩
  · rw [hs]
    exact ⟨Table.tidy_rows _, Table.tidy_rows _, Table.tidy_rows _, Table.tidy_rows _⟩
  · rw [hs]
    exact ⟨rfl, hversion⟩
  · intro settings'
    rw [hclaim settings', hs]
    refine ⟨rfl, ?_, fun claim hsome => ?_⟩
    · rw [Sessions.claim?_eq_none_iff]
      exact (Bool.eq_iff_iff.1 (Table.isEmpty_rows m.sessions.missing)).symm
    · obtain ⟨hkeys, htimeout⟩ := Sessions.claim?_eq_some_iff.1 hsome
      refine ⟨fun device => ?_, ?_, htimeout⟩
      · rw [hkeys]
        exact SortedMap.mem_mapValues
      · rw [hkeys, Table.rows_mapValues]
        rfl
  · rw [Messages.signatureUpload?_eq_none_iff, Messages.hasSignatures, Bool.not_eq_false',
      SortedMap.isEmpty_iff_get?]
  · intro batchSize
    rw [hs]
    refine ⟨m.backup.request?_rows batchSize, ?_⟩
    rw [Backup.request?_eq_none_iff hversion, Backup.isEmpty_remaining_iff]
    refine or_congr_right (forall₂_congr fun key e => ?_)
    rw [← Table.cell?_rows]
    exact Iff.rfl

/-- The only user of whom sessions were missing is gone once a claim was answered, with a key of one device and
without one of the other, so that there is no claim. Then a session with another user is missing, and is claimed. -/
theorem no_work_hidden_after_claim :
    let calls : List (Instant × Call) :=
      [(0, .markSessionsMissing Sample.alice ["PHONE", "TABLET"]), (0, .outgoingRequests),
        (0, .markAsSent "r-2" (.success (.keysClaim Sample.handover)))]
    let again : Instant × Call := (0, .markSessionsMissing Sample.bob ["TABLET"])
    let m := (Sample.machine.run calls).2
    let m' := (Sample.machine.run (calls ++ [again])).2
    Table.rows m.devicesForKeyClaim = ∅ ∧ m.sessions.claim? .default = none ∧
      m.ownKeys.upload? ≠ none ∧ m.messages.signatureUpload? = none ∧ m.backup.request? 1 = none ∧
      ∃ claim, m'.sessions.claim? .default = some claim ∧ ⟨Sample.bob, "TABLET"⟩ ∈ claim.oneTimeKeys := by
  intro calls again m m'
  obtain ⟨hs, -, -, hkeys, hclaims, ⟨-, hsignatures, -⟩, hbackups⟩ :=
    no_work_hidden Sample.alice "DEVICE" .null .default (.counting "r") calls
  obtain ⟨-, -, -, -, hclaims', -, -⟩ :=
    no_work_hidden Sample.alice "DEVICE" .null .default (.counting "r") (calls ++ [again])
  obtain ⟨hsame, hnone, -⟩ := hclaims .default
  obtain ⟨hsame', -, hnamed⟩ := hclaims' .default
  rw [hs] at hsame hnone
  have hempty : SortedMap.isEmpty (Table.rows m.sessions.missing) = true := by decide +kernel
  have hneeds : m.needsKeysUpload = true := by decide +kernel
  have hmissing : ⟨Sample.bob, "TABLET"⟩ ∈ m'.devicesForKeyClaim := by decide +kernel
  obtain ⟨claim, hclaim⟩ := Sessions.exists_claim? hmissing .default
  refine ⟨SortedMap.isEmpty_iff.1 hempty, hsame.symm.trans (hnone.2 hempty), ?_, hsignatures.2 (by decide +kernel),
    (hbackups 1).2.2 (.inl (by decide +kernel)), claim, hclaim, ?_⟩
  · exact fun hupload => absurd (hneeds.symm.trans (hkeys.1 hupload)) (by decide)
  · exact ((hnamed claim (hsame'.trans hclaim)).1 _).2 hmissing

end Machine
end Outbox
