/-
# What there is to do

What a machine may have to do comes in tasks. The success of a request settles the tasks for which it has
all that there is to send: the machine does not face them afterwards. To queue requests and to be told of
their end gives a machine nothing more to do, and takes no request out of its task.

Key definitions: `SortedMap.Carries`, `Task`, `Machine.Faces`, `Machine.Settles`, `Machine.Eases`,
`Response.IsComplete`.
Key theorems: `Machine.Eases.faces`, `Machine.Eases.settles`, `Machine.Eases.withOutcome`,
`Machine.Settles.overlaps`, `Machine.Settles.not_faces`, `Machine.exists_task_of_mem_decided`.
-/
import Outbox.Proofs.BackupHistory
import Outbox.Proofs.NoDuplicates
import Outbox.Proofs.SessionHistory

namespace Outbox

/-! ### Values that were sent -/

namespace SortedMap

variable {κ : Type} [Ord κ] {sent held held' : SortedMap κ Opaque} {k : κ} {v : Opaque}

/-- What was sent has all that is held, with the values that it has. -/
def Carries (sent held : SortedMap κ Opaque) : Prop :=
  ∀ k v, held.get? k = some v → (sent.get? k).any (· == v) = true

theorem carries_self (m : SortedMap κ Opaque) : m.Carries m := by
  intro k v hv
  rw [hv, Option.any_some]
  exact beq_self_eq_true v

theorem Carries.mono (h : sent.Carries held)
    (hle : ∀ k v, held'.get? k = some v → held.get? k = some v) : sent.Carries held' :=
  fun k v hv => h k v (hle k v hv)

variable [Std.TransOrd κ] [Std.LawfulEqOrd κ]

/-- What is left of what is held, once all that was sent is taken out of it. -/
theorem get?_filter_unsent :
    (held.filter fun k v => !(sent.get? k).any (· == v)).get? k = some v ↔
      held.get? k = some v ∧ (sent.get? k).any (· == v) = false := by
  rw [get?_filter, Option.filter_eq_some_iff, Bool.not_eq_true']

theorem Carries.not_left (h : sent.Carries held) :
    ¬ (held.filter fun k v => !(sent.get? k).any (· == v)).get? k = some v := by
  rw [get?_filter_unsent, not_and, Bool.not_eq_false]
  exact h k v

theorem isEmpty_eq_false_iff {α : Type} {m : SortedMap κ α} :
    m.isEmpty = false ↔ ∃ k v, m.get? k = some v := by
  refine ⟨exists_get?_of_isEmpty, ?_⟩
  rintro ⟨k, v, hv⟩
  exact isEmpty_eq_false_of_mem (mem_iff.2 ⟨v, hv⟩)

end SortedMap

/-! ### Parts with nothing new to do -/

namespace OwnKeys

variable {k : OwnKeys}

theorem needsUpload_iff : k.needsUpload = true ↔ k.shared = false ∨
    (∃ id v, k.oneTimeKeys.get? id = some v) ∨ ∃ id v, k.fallbackKeys.get? id = some v := by
  simp only [needsUpload, Bool.or_eq_true, Bool.not_eq_true', SortedMap.isEmpty_eq_false_iff, or_assoc]

/-- All that is to be uploaded of the second keys is to be uploaded of the first ones. -/
structure Eases (k k' : OwnKeys) : Prop where
  shared : k.shared = true → k'.shared = true
  oneTimeKeys : ∀ id v, k'.oneTimeKeys.get? id = some v → k.oneTimeKeys.get? id = some v
  fallbackKeys : ∀ id v, k'.fallbackKeys.get? id = some v → k.fallbackKeys.get? id = some v

theorem Eases.refl (k : OwnKeys) : k.Eases k := ⟨id, fun _ _ => id, fun _ _ => id⟩

theorem eases_receiveUpload (k : OwnKeys) (request : KeysUpload) (response : KeysUploadResponse) :
    k.Eases (k.receiveUpload request response) where
  shared hs := by rw [receiveUpload, hs, Bool.true_or]
  oneTimeKeys _ _ hv := (SortedMap.get?_filter_unsent.1 hv).1
  fallbackKeys _ _ hv := (SortedMap.get?_filter_unsent.1 hv).1

/-- Nothing is left to upload once everything was. -/
theorem needsUpload_receiveUpload {request : KeysUpload} {response : KeysUploadResponse}
    (hs : k.shared = true ∨ request.deviceKeys.isSome = true)
    (ho : request.oneTimeKeys.Carries k.oneTimeKeys) (hf : request.fallbackKeys.Carries k.fallbackKeys) :
    (k.receiveUpload request response).needsUpload = false := by
  have hshared : (k.receiveUpload request response).shared = true := by
    simpa [receiveUpload] using hs
  rw [Bool.eq_false_iff, ne_eq, needsUpload_iff, hshared]
  rintro (hn | ⟨id, v, hv⟩ | ⟨id, v, hv⟩)
  · cases hn
  · exact ho.not_left hv
  · exact hf.not_left hv

theorem needsUpload_of_upload? {request : KeysUpload} (h : k.upload? = some request) :
    k.needsUpload = true := by
  obtain ⟨hd, ho, hf⟩ := keys_of_upload? h
  have hnonempty := request.nonempty
  rw [hd, ho, hf] at hnonempty
  unfold needsUpload
  cases hs : k.shared
  · rfl
  · simpa [hs] using hnonempty

theorem Eases.needsUpload {k' : OwnKeys} (he : k.Eases k') (h : k'.needsUpload = true) :
    k.needsUpload = true := by
  have hneed := needsUpload_iff.1 h
  apply needsUpload_iff.2
  rcases hneed with hs | ⟨id, v, hv⟩ | ⟨id, v, hv⟩
  · exact .inl (Bool.eq_false_iff.2 fun hs' => Bool.eq_false_iff.1 hs (he.shared hs'))
  · exact .inr (.inl ⟨id, v, he.oneTimeKeys id v hv⟩)
  · exact .inr (.inr ⟨id, v, he.fallbackKeys id v hv⟩)

end OwnKeys

namespace DeviceLists

/-- All users that are outdated in the second lists are so in the first ones, and nobody was invalidated
meanwhile. -/
structure Eases (d d' : DeviceLists) : Prop where
  outdated : ∀ u ∈ d'.outdatedUsers, u ∈ d.outdatedUsers
  tracked : ∀ u t, d.tracked.get? u = some t →
    ∃ t', d'.tracked.get? u = some t' ∧ t'.invalidatedAt = t.invalidatedAt

theorem Eases.of_tracked_eq {d d' : DeviceLists} (h : d'.tracked = d.tracked) : d.Eases d' where
  outdated u hu := by
    rw [outdatedUsers, h] at hu
    exact hu
  tracked u t ht := ⟨t, by rw [h]; exact ht, rfl⟩

theorem eases_receiveQuery (d : DeviceLists) (now : Instant) (id : RequestId)
    (response : KeysQueryResponse) : d.Eases (d.receiveQuery now id response) where
  outdated u hu := by
    obtain ⟨n, ht⟩ := mem_outdatedUsers.1 hu
    rw [get?_tracked_receiveQuery, Option.map_eq_some_iff] at ht
    obtain ⟨t, ht, hout⟩ := ht
    split at hout
    · cases hout
    · rw [hout] at ht
      exact mem_outdatedUsers.2 ⟨n, ht⟩
  tracked u t ht := by
    rw [get?_tracked_receiveQuery, ht]
    refine ⟨_, rfl, ?_⟩
    dsimp only
    split <;> rfl

theorem notMem_outdatedUsers_receiveQuery {d : DeviceLists} {id : RequestId} {details : QueryDetails}
    {response : KeysQueryResponse} {u : UserId} {t : TrackedUser}
    (hg : d.queriesInFlight.get? id = some details) (ht : d.tracked.get? u = some t)
    (hb : d.bringsUpToDate details response u t = true) (now : Instant) :
    u ∉ (d.receiveQuery now id response).outdatedUsers := by
  intro hu
  obtain ⟨n, hn⟩ := mem_outdatedUsers.1 hu
  rw [get?_tracked_receiveQuery, ht, hg, Option.map_some, Option.any_some, if_pos hb] at hn
  cases hn

end DeviceLists

namespace Messages

variable {s : Messages}

theorem hasSignatures_iff : s.hasSignatures = true ↔ ∃ key v, s.signatures.get? key = some v := by
  rw [hasSignatures, Bool.not_eq_true', SortedMap.isEmpty_eq_false_iff]

/-- All that the second messages hold the first ones hold. -/
structure Eases (s s' : Messages) : Prop where
  held : ∀ message, s'.Holds message → s.Holds message
  signatures : ∀ key v, s'.signatures.get? key = some v → s.signatures.get? key = some v

theorem Eases.refl (s : Messages) : s.Eases s := ⟨fun _ => id, fun _ _ => id⟩

theorem eases_removeToDevice (s : Messages) (txnId : TransactionId) :
    s.Eases (s.removeToDevice txnId) where
  held message hm := by
    obtain ⟨kind, t⟩ := message
    cases kind with
    | toDevice => exact (InsertionMap.mem_erase.1 hm).2
    | _ => exact hm
  signatures _ _ := id

theorem eases_removeRoomMessage (s : Messages) (txnId : TransactionId) :
    s.Eases (s.removeRoomMessage txnId) where
  held message hm := by
    obtain ⟨kind, t⟩ := message
    cases kind with
    | roomMessage => exact (InsertionMap.mem_erase.1 hm).2
    | _ => exact hm
  signatures _ _ := id

theorem eases_receiveSignatureUpload (s : Messages) (request : SignatureUpload) :
    s.Eases (s.receiveSignatureUpload request) where
  held message hm := by
    obtain ⟨kind, t⟩ := message
    cases kind <;> exact hm
  signatures _ _ hv := (SortedMap.get?_filter_unsent.1 hv).1

/-- Nothing is left to sign once all signatures were uploaded. -/
theorem hasSignatures_receiveSignatureUpload {request : SignatureUpload}
    (h : request.signedKeys.Carries s.signatures) :
    (s.receiveSignatureUpload request).hasSignatures = false := by
  rw [Bool.eq_false_iff, ne_eq, hasSignatures_iff]
  rintro ⟨key, v, hv⟩
  exact h.not_left hv

end Messages

namespace Backup

variable {b : Backup} {key : Cell RoomId SessionId} {data : Opaque}

theorem get?_remaining_eq_some_iff :
    b.remaining.get? key = some data ↔ b.roomKeys.get? key = some ⟨data, false⟩ := by
  simp only [remaining, SortedMap.get?_mapValues, SortedMap.get?_filter, Option.map_eq_some_iff,
    Option.filter_eq_some_iff, Bool.not_eq_true']
  constructor
  · rintro ⟨⟨data, backedUp⟩, ⟨he, rfl⟩, rfl⟩
    exact he
  · intro he
    exact ⟨_, ⟨he, rfl⟩, rfl⟩

/-- The answer to a backup of the active version leaves the keys that have other data in it. -/
theorem mem_remaining_markSent {request : KeysBackup} :
    key ∈ (b.markSent request).remaining ↔ ∃ data, b.roomKeys.get? key = some ⟨data, false⟩ ∧
      ¬ (b.version = some request.version ∧ (request.rooms.get? key).any (· == data) = true) := by
  simp only [SortedMap.mem_iff, get?_remaining_eq_some_iff]
  unfold markSent
  by_cases hv : b.version = some request.version
  · rw [if_pos hv]
    simp only [SortedMap.get?_mapValues, Option.map_eq_some_iff]
    constructor
    · rintro ⟨data, ⟨d, backedUp⟩, he, hsent⟩
      split at hsent
      · cases hsent
      · next hany =>
        cases hsent
        exact ⟨_, he, fun h => hany h.2⟩
    · rintro ⟨data, he, hno⟩
      exact ⟨data, ⟨data, false⟩, he, if_neg fun hany => hno ⟨hv, hany⟩⟩
  · rw [if_neg hv]
    simp [hv]

/-- The second backup is of the same version and has the same data, and all that is to be backed up in it
is so in the first one. -/
structure Eases (b b' : Backup) : Prop where
  version : b'.version = b.version
  roomKeys : ∀ key e, b.roomKeys.get? key = some e →
    ∃ e', b'.roomKeys.get? key = some e' ∧ e'.data = e.data
  remaining : ∀ key ∈ b'.remaining, key ∈ b.remaining

theorem Eases.refl (b : Backup) : b.Eases b := ⟨rfl, fun _ e he => ⟨e, he, rfl⟩, fun _ => id⟩

theorem eases_markSent (b : Backup) (request : KeysBackup) : b.Eases (b.markSent request) where
  version := b.version_markSent request
  roomKeys key e he := by
    have hdata : ((b.markSent request).roomKeys.get? key).map BackupEntry.data = some e.data := by
      rw [data_markSent, he, Option.map_some]
    exact Option.map_eq_some_iff.1 hdata
  remaining key hk := by
    obtain ⟨data, hg, -⟩ := mem_remaining_markSent.1 hk
    exact SortedMap.mem_iff.2 ⟨data, get?_remaining_eq_some_iff.2 hg⟩

end Backup

/-! ### Tasks -/

/-- Something that a machine may have to do. -/
inductive Task where
  /-- To upload keys of the device. -/
  | uploadKeys
  /-- To query the devices of a user. -/
  | queryDevices (user : UserId)
  /-- To claim keys of devices. -/
  | claimKeys
  /-- To send a message. -/
  | send (message : RequestKind × TransactionId)
  /-- To upload signatures. -/
  | uploadSignatures
  /-- To back up a room key. -/
  | backUp (key : Cell RoomId SessionId)
deriving DecidableEq, Inhabited

/-- A response to a query lists the devices of all its users, and all servers answered. A response to
another request may say anything. -/
def Response.IsComplete (response : Response) (p : Payload) : Prop :=
  ∀ q answer, p = .keysQuery q → response = .keysQuery answer →
    answer.failures = ∅ ∧ ∀ u ∈ q.users, u ∈ answer.deviceKeys

namespace Machine

/-- The machine has something to do that belongs to the task. -/
def Faces (m : Machine) : Task → Prop
  | .uploadKeys => m.needsKeysUpload = true
  | .queryDevices user => user ∈ m.usersForKeyQuery
  | .claimKeys => ∃ device, device ∈ m.devicesForKeyClaim
  | .send message => m.messages.Holds message
  | .uploadSignatures => m.messages.hasSignatures = true
  | .backUp key => key ∈ m.backup.remaining

/-- After the success of the request the machine would not face the task. A query has to be noted, and
decided on since its user was invalidated; what else is sent has to be as it is now. -/
def Settles (m : Machine) (r : OutgoingRequest) : Task → Prop
  | .uploadKeys => ∃ x, r.payload = .keysUpload x ∧
      (m.ownKeys.shared = true ∨ x.deviceKeys.isSome = true) ∧
      x.oneTimeKeys.Carries m.ownKeys.oneTimeKeys ∧ x.fallbackKeys.Carries m.ownKeys.fallbackKeys
  | .queryDevices user => ∃ details t, m.deviceLists.queriesInFlight.get? r.id = some details ∧
      user ∈ details.users ∧ m.deviceLists.tracked.get? user = some t ∧
      t.invalidatedAt ≤ details.decidedAt
  | .claimKeys => ∃ x, r.payload = .keysClaim x ∧
      ∀ device, device ∈ m.devicesForKeyClaim → device ∈ x.oneTimeKeys
  | .send message => r.payload.message? = some message
  | .uploadSignatures => ∃ x, r.payload = .signatureUpload x ∧
      x.signedKeys.Carries m.messages.signatures
  | .backUp key => ∃ x e, r.payload = .keysBackup x ∧ m.backup.version = some x.version ∧
      m.backup.roomKeys.get? key = some e ∧ (x.rooms.get? key).any (· == e.data) = true

variable {m m' : Machine} {r s : OutgoingRequest} {outcome : Outcome} {task : Task} {now : Instant}
  {decided : List OutgoingRequest}

/-! ### Nothing new to do -/

/-- The second machine has nothing to do that the first one does not have. -/
structure Eases (m m' : Machine) : Prop where
  ownKeys : m.ownKeys.Eases m'.ownKeys
  deviceLists : m.deviceLists.Eases m'.deviceLists
  missing : ∀ device, device ∈ m'.devicesForKeyClaim → device ∈ m.devicesForKeyClaim
  messages : m.messages.Eases m'.messages
  backup : m.backup.Eases m'.backup

namespace Eases

theorem faces (he : m.Eases m') (hf : m'.Faces task) : m.Faces task := by
  cases task with
  | uploadKeys => exact he.ownKeys.needsUpload hf
  | queryDevices user => exact he.deviceLists.outdated user hf
  | claimKeys =>
    obtain ⟨device, hd⟩ := hf
    exact ⟨device, he.missing device hd⟩
  | send message => exact he.messages.held message hf
  | uploadSignatures =>
    obtain ⟨key, v, hv⟩ := Messages.hasSignatures_iff.1 hf
    exact Messages.hasSignatures_iff.2 ⟨key, v, he.messages.signatures key v hv⟩
  | backUp key => exact he.backup.remaining key hf

/-- A request goes on to settle what it settles, as long as it keeps its note. -/
theorem settles (he : m.Eases m') (hs : m.Settles r task)
    (hnote : m'.deviceLists.queriesInFlight.get? r.id = m.deviceLists.queriesInFlight.get? r.id) :
    m'.Settles r task := by
  cases task with
  | uploadKeys =>
    obtain ⟨x, hp, hshared, ho, hf⟩ := hs
    exact ⟨x, hp, hshared.imp_left he.ownKeys.shared, ho.mono he.ownKeys.oneTimeKeys,
      hf.mono he.ownKeys.fallbackKeys⟩
  | queryDevices user =>
    obtain ⟨details, t, hg, hu, ht, hle⟩ := hs
    obtain ⟨t', ht', hsame⟩ := he.deviceLists.tracked user t ht
    exact ⟨details, t', hnote.trans hg, hu, ht', hsame ▸ hle⟩
  | claimKeys =>
    obtain ⟨x, hp, hall⟩ := hs
    exact ⟨x, hp, fun device hd => hall device (he.missing device hd)⟩
  | send message => exact hs
  | uploadSignatures =>
    obtain ⟨x, hp, hall⟩ := hs
    exact ⟨x, hp, hall.mono he.messages.signatures⟩
  | backUp key =>
    obtain ⟨x, e, hp, hv, hg, hany⟩ := hs
    obtain ⟨e', hg', hdata⟩ := he.backup.roomKeys key e hg
    exact ⟨x, e', hp, he.backup.version.trans hv, hg', by rw [hdata]; exact hany⟩

/-- To queue requests changes nothing that there is to do. -/
theorem addAll (m : Machine) (ps : List Payload) : m.Eases (m.addAll ps) where
  ownKeys := by
    rw [addAll_ownKeys]
    exact .refl _
  deviceLists := .of_tracked_eq (m.addAll_tracked ps)
  missing device hd := by
    rw [devicesForKeyClaim, addAll_sessions] at hd
    exact hd
  messages := by
    rw [addAll_messages]
    exact .refl _
  backup := by
    rw [addAll_backup]
    exact .refl _

/-- The end of a request leaves nothing to do that there was not before. -/
theorem withOutcome (m : Machine) (now : Instant) (fits : outcome.mismatch? r.kind = none) :
    m.Eases (m.withOutcome now r outcome) where
  ownKeys := by
    rcases withOutcome_ownKeys m now fits with ⟨x, response, -, -, he⟩ | ⟨-, he⟩
    · rw [he]
      exact m.ownKeys.eases_receiveUpload x response
    · rw [he]
      exact .refl _
  deviceLists := by
    rcases withOutcome_deviceLists m now fits with ⟨-, he⟩ | ⟨q, response, -, -, he⟩ |
      ⟨q, failure, -, -, he⟩
    · rw [he]
      exact .of_tracked_eq rfl
    · rw [he]
      exact m.deviceLists.eases_receiveQuery now r.id response
    · rw [he]
      exact .of_tracked_eq rfl
  missing device hd := by
    rw [devicesForKeyClaim] at hd
    rcases withOutcome_sessions m now fits with ⟨-, he⟩ | ⟨x, response, -, -, he⟩ | ⟨x, failure, -, -, he⟩
    · rw [he] at hd
      exact hd
    · rw [he] at hd
      exact ((m.sessions.mem_withoutMissing x).1 hd).2
    · rw [he] at hd
      split at hd
      · exact ((m.sessions.mem_withoutMissing x).1 hd).2
      · exact hd
  messages := by
    constructor
    · intro message hm
      rcases withOutcome_messages m now fits with ⟨x, -, -, he⟩ | ⟨x, -, -, he⟩ | ⟨-, he⟩
      · rw [he] at hm
        exact (m.messages.eases_removeToDevice x.txnId).held message hm
      · rw [he] at hm
        exact (m.messages.eases_removeRoomMessage x.txnId).held message hm
      · rw [he] at hm
        obtain ⟨kind, t⟩ := message
        cases kind <;> exact hm
    · intro key v hv
      rcases withOutcome_signatures m now fits with ⟨x, response, -, -, he⟩ | ⟨-, he⟩
      · rw [he] at hv
        exact (m.messages.eases_receiveSignatureUpload x).signatures key v hv
      · rw [he] at hv
        exact hv
  backup := by
    rcases withOutcome_backup m now fits with ⟨x, response, -, -, he⟩ | ⟨-, he⟩
    · rw [he]
      exact m.backup.eases_markSent x
    · rw [he]
      exact .refl _

end Eases

/-! ### What requests settle -/

/-- A noted query has the users of its note. -/
theorem NotesQueries.payload_eq (hn : m.NotesQueries decided) (hr : r ∈ m.queue.contents)
    {details : QueryDetails} (hg : m.deviceLists.queriesInFlight.get? r.id = some details) :
    ∃ q, r.payload = .keysQuery q ∧ details.users = q.users := by
  obtain ⟨q, hq, -, hu⟩ := hn.queued hg
  have he : r = ⟨r.id, .keysQuery q⟩ := Queue.eq_of_id_eq hr hq rfl
  exact ⟨q, congrArg OutgoingRequest.payload he, hu⟩

/-- Two queued requests that settle the same task do the same work. -/
theorem Settles.overlaps (hn : m.NotesQueries decided) (hr : r ∈ m.queue.contents)
    (hs : s ∈ m.queue.contents) (hrt : m.Settles r task) (hst : m.Settles s task) :
    r.payload.Overlaps s.payload := by
  cases task with
  | uploadKeys =>
    obtain ⟨x, hx, -⟩ := hrt
    obtain ⟨y, hy, -⟩ := hst
    rw [hx, hy]
    trivial
  | queryDevices user =>
    obtain ⟨details, t, hg, hu, -⟩ := hrt
    obtain ⟨details', t', hg', hu', -⟩ := hst
    obtain ⟨q, hq, hus⟩ := hn.payload_eq hr hg
    obtain ⟨q', hq', hus'⟩ := hn.payload_eq hs hg'
    rw [hq, hq']
    exact ⟨user, hus ▸ hu, hus' ▸ hu'⟩
  | claimKeys =>
    obtain ⟨x, hx, -⟩ := hrt
    obtain ⟨y, hy, -⟩ := hst
    rw [hx, hy]
    trivial
  | send message =>
    exact Payload.overlaps_of_message? hrt hst
  | uploadSignatures =>
    obtain ⟨x, hx, -⟩ := hrt
    obtain ⟨y, hy, -⟩ := hst
    rw [hx, hy]
    trivial
  | backUp key =>
    obtain ⟨x, e, hx, hv, -⟩ := hrt
    obtain ⟨y, e', hy, hv', -⟩ := hst
    rw [hx, hy]
    exact Option.some.inj (hv.symm.trans hv')

/-- A request that settles a task and is a query is noted with all its users. -/
theorem Settles.isBeingQueried (hn : m.NotesQueries decided) (hr : r ∈ m.queue.contents)
    (hrt : m.Settles r task) {q : KeysQuery} (hq : r.payload = .keysQuery q) :
    ∀ u ∈ q.users, m.deviceLists.isBeingQueried u = true := by
  cases task with
  | queryDevices user =>
    obtain ⟨details, t, hg, -⟩ := hrt
    obtain ⟨q', hq', hus⟩ := hn.payload_eq hr hg
    rw [hq] at hq'
    cases hq'
    intro u hu
    exact DeviceLists.isBeingQueried_iff.2 ⟨r.id, details, hg, by rw [hus]; exact hu⟩
  | send message =>
    rw [Settles, hq] at hrt
    cases hrt
  | uploadKeys | claimKeys | uploadSignatures =>
    obtain ⟨x, hx, -⟩ := hrt
    rw [hq] at hx
    cases hx
  | backUp key =>
    obtain ⟨x, e, hx, -⟩ := hrt
    rw [hq] at hx
    cases hx

/-- **After the success of a request the machine does not face the tasks that the request settled.** -/
theorem Settles.not_faces (hn : m.NotesQueries decided) (hr : r ∈ m.queue.contents)
    {response : Response} (fits : (Outcome.success response).mismatch? r.kind = none)
    (hc : response.IsComplete r.payload) (hs : m.Settles r task) :
    ¬ (m.withOutcome now r (.success response)).Faces task := by
  intro hface
  cases task with
  | uploadKeys =>
    obtain ⟨x, hp, hshared, ho, hf⟩ := hs
    rcases withOutcome_ownKeys m now fits with ⟨y, answer, hp', -, he⟩ | ⟨hno, -⟩
    · cases hp.symm.trans hp'
      rw [Faces, needsKeysUpload, he, OwnKeys.needsUpload_receiveUpload hshared ho hf] at hface
      cases hface
    · exact hno (congrArg Payload.kind hp) response rfl
  | queryDevices user =>
    obtain ⟨details, t, hg, hu, ht, hle⟩ := hs
    obtain ⟨q, hq, hus⟩ := hn.payload_eq hr hg
    rcases withOutcome_deviceLists m now fits with ⟨hne, -⟩ | ⟨q', answer, -, hanswer, he⟩ |
      ⟨q', failure, -, hfailure, -⟩
    · exact hne (congrArg Payload.kind hq)
    · obtain ⟨hfailures, hall⟩ := hc q answer hq (Outcome.success.inj hanswer)
      have hlists : DeviceLists.Lists m.deviceLists.ownUser answer user :=
        ⟨hall user (hus ▸ hu), .inr (by rw [hfailures]; exact Bool.false_ne_true)⟩
      have hbrings := DeviceLists.bringsUpToDate_iff.2 ⟨hu, hlists, hle⟩
      rw [Faces, usersForKeyQuery, he] at hface
      exact DeviceLists.notMem_outdatedUsers_receiveQuery hg ht hbrings now hface
    · cases hfailure
  | claimKeys =>
    obtain ⟨x, hp, hall⟩ := hs
    obtain ⟨device, hd⟩ := hface
    rw [devicesForKeyClaim] at hd
    rcases withOutcome_sessions m now fits with ⟨hne, -⟩ | ⟨y, answer, hp', -, he⟩ |
      ⟨y, failure, -, hfailure, -⟩
    · exact hne (congrArg Payload.kind hp)
    · cases hp.symm.trans hp'
      rw [he] at hd
      obtain ⟨hno, hmissing⟩ := (m.sessions.mem_withoutMissing x).1 hd
      exact hno (hall device hmissing)
    · cases hfailure
  | send message =>
    rcases withOutcome_messages m now fits with ⟨x, hp, -, he⟩ | ⟨x, hp, -, he⟩ | ⟨hno, -⟩
    · rw [Settles, hp] at hs
      cases hs
      rw [Faces, he] at hface
      exact (InsertionMap.mem_erase.1 hface).1 rfl
    · rw [Settles, hp] at hs
      cases hs
      rw [Faces, he] at hface
      exact (InsertionMap.mem_erase.1 hface).1 rfl
    · rcases hno with hnone | hfinal
      · rw [Settles, hnone] at hs
        cases hs
      · cases hfinal
  | uploadSignatures =>
    obtain ⟨x, hp, hall⟩ := hs
    rcases withOutcome_signatures m now fits with ⟨y, answer, hp', -, he⟩ | ⟨hno, -⟩
    · cases hp.symm.trans hp'
      rw [Faces, he, Messages.hasSignatures_receiveSignatureUpload hall] at hface
      cases hface
    · exact hno (congrArg Payload.kind hp) response rfl
  | backUp key =>
    obtain ⟨x, e, hp, hv, hg, hany⟩ := hs
    rcases withOutcome_backup m now fits with ⟨y, answer, hp', -, he⟩ | ⟨hno, -⟩
    · cases hp.symm.trans hp'
      rw [Faces, he] at hface
      obtain ⟨data, hg', hno⟩ := Backup.mem_remaining_markSent.1 hface
      cases hg.symm.trans hg'
      exact hno ⟨hv, hany⟩
    · exact hno (congrArg Payload.kind hp) response rfl

/-! ### What a decision pass settles -/

/-- **A request that a decision pass queues settles something that the machine faces.** -/
theorem exists_task_of_mem_decided (hk : m.messages.Keyed)
    (hd : ∀ {u t}, m.deviceLists.tracked.get? u = some t → t.invalidatedAt ≤ m.deviceLists.invalidations)
    (hr : r ∈ m.decided now) : ∃ task, m.Faces task ∧ (m.decisionPass now).Settles r task := by
  have hnote := get?_addAll_of_mem hr
  obtain ⟨id, payload⟩ := r
  rcases mem_wanted.1 (payload_mem_of_mem_added hr) with hp | hp | hp | hp | hp | hp | hp
  -- An upload has all keys of the device that are to be uploaded.
  · obtain ⟨x, hx, rfl⟩ := Option.map_eq_some_iff.1 (mem_onePerKind.1 hp).2
    obtain ⟨hkeys, ho, hf⟩ := OwnKeys.keys_of_upload? hx
    refine ⟨.uploadKeys, OwnKeys.needsUpload_of_upload? hx, x, rfl, ?_, ?_, ?_⟩
    · rw [decisionPass, addAll_ownKeys, hkeys]
      cases m.ownKeys.shared
      · exact .inr rfl
      · exact .inl rfl
    · rw [decisionPass, addAll_ownKeys, ho]
      exact SortedMap.carries_self _
    · rw [decisionPass, addAll_ownKeys, hf]
      exact SortedMap.carries_self _
  -- A query is noted with all its users, who were not invalidated since.
  · obtain ⟨q, rfl, hel⟩ := mem_wantedKeysQueries hp
    obtain ⟨u, ⟨⟩, hu⟩ := SortedMap.exists_get?_of_isEmpty q.nonempty
    have hu : u ∈ q.users := SortedMap.mem_iff.2 ⟨_, hu⟩
    have hout := (DeviceLists.mem_eligibleUsers.1 (hel u hu)).1
    obtain ⟨n, ht⟩ := DeviceLists.mem_outdatedUsers.1 hout
    refine ⟨.queryDevices u, hout, _, ⟨true, n⟩, hnote, hu, ?_, hd ht⟩
    rw [decisionPass, addAll_tracked]
    exact ht
  -- A claim has all devices that are missing.
  · obtain ⟨x, hx, rfl⟩ := Option.map_eq_some_iff.1 (mem_onePerKind.1 hp).2
    have htable := KeysClaim.oneTimeKeys_of_ofTable (toOption_eq_some_iff.1 hx)
    have hall : ∀ device, device ∈ x.oneTimeKeys ↔ device ∈ m.sessions.missing := by
      intro device
      rw [htable, SortedMap.mem_mapValues]
    obtain ⟨device, v, hdev⟩ := SortedMap.exists_get?_of_isEmpty x.nonempty
    refine ⟨.claimKeys, ⟨device, (hall device).1 (SortedMap.mem_iff.2 ⟨v, hdev⟩)⟩, x, rfl, ?_⟩
    intro device hmissing
    rw [devicesForKeyClaim, decisionPass, addAll_sessions] at hmissing
    exact (hall device).2 hmissing
  -- A message is sent under the name that it is held by.
  · obtain ⟨x, hx, rfl, -⟩ := mem_wantedToDevice.1 hp
    obtain ⟨t, ht⟩ := InsertionMap.mem_values.1 hx
    cases hk.toDevice ht
    exact ⟨.send (.toDevice, x.txnId), InsertionMap.mem_iff_get?.2 ⟨x, ht⟩, rfl⟩
  -- An upload of signatures has all that wait.
  · obtain ⟨x, hx, rfl⟩ := Option.map_eq_some_iff.1 (mem_wantedSignatureUpload.1 hp).2.2
    have htable := SignatureUpload.signedKeys_of_ofTable (toOption_eq_some_iff.1 hx)
    obtain ⟨key, v, hv⟩ := SortedMap.exists_get?_of_isEmpty x.nonempty
    rw [htable] at hv
    refine ⟨.uploadSignatures, Messages.hasSignatures_iff.2 ⟨key, v, hv⟩, x, rfl, ?_⟩
    rw [decisionPass, addAll_messages, htable]
    exact SortedMap.carries_self _
  · obtain ⟨x, hx, rfl, -⟩ := mem_wantedRoomMessages.1 hp
    obtain ⟨t, ht⟩ := InsertionMap.mem_values.1 hx
    cases hk.roomMessages ht
    exact ⟨.send (.roomMessage, x.txnId), InsertionMap.mem_iff_get?.2 ⟨x, ht⟩, rfl⟩
  -- A backup is of the active version, and has room keys that are not backed up in it.
  · obtain ⟨-, x, rfl, hx⟩ := request?_of_mem_wantedKeysBackup hp
    obtain ⟨hv, hrooms⟩ := Backup.rooms_of_request? hx
    obtain ⟨key, data, hkey⟩ := SortedMap.exists_get?_of_isEmpty x.nonempty
    have hrest : m.backup.remaining.get? key = some data :=
      SortedMap.get?_of_get?_take (hrooms ▸ hkey)
    refine ⟨.backUp key, SortedMap.mem_iff.2 ⟨data, hrest⟩, x, ⟨data, false⟩, rfl, ?_, ?_, ?_⟩
    · rw [decisionPass, addAll_backup]
      exact hv
    · rw [decisionPass, addAll_backup]
      exact Backup.get?_remaining_eq_some_iff.1 hrest
    · rw [hkey, Option.any_some]
      exact beq_self_eq_true data

end Machine
end Outbox
