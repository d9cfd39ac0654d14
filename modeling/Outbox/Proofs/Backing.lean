/-
# What queued requests rest on

A request is queued because parts of the machine ask for it, and they go on to ask for it until it
ended. Calls only add to what a machine asks for (`Keeps`). The end of a request takes away what the
request asked for, and no other queued request that was decided on does the same work; so what is still
queued is still asked for.

Key definitions: `Machine.Backs`, `Machine.Keeps`, `Machine.Backed`.
Key theorems: `Machine.backs_of_mem_wanted`, `Machine.Backs.withOutcome`, `Machine.Transition.keeps`,
`Machine.Reached.backed`, `Machine.queued_requests_backed`.
-/
import Outbox.Proofs.NoDuplicates

namespace Outbox

/-- To ask for sessions with devices takes back none that was asked for. -/
theorem Sessions.mem_missing_markMissing {s : Sessions} {device : Cell UserId DeviceId}
    (h : device ∈ s.missing) (user : UserId) (devices : List DeviceId) :
    device ∈ (s.markMissing user devices).missing := by
  unfold markMissing
  induction devices generalizing s with
  | nil => exact h
  | cons x devices ih =>
    have hx : device ∈ (s.markDeviceMissing ⟨user, x⟩).missing := SortedMap.mem_insert.2 (.inr h)
    exact ih hx

theorem Backup.mem_roomKeys_of_remaining (b : Backup) {key : Cell RoomId SessionId}
    (h : key ∈ b.remaining) : key ∈ b.roomKeys := by
  rw [remaining, SortedMap.mem_mapValues, SortedMap.mem_iff] at h
  obtain ⟨e, he⟩ := h
  rw [SortedMap.get?_filter, Option.filter_eq_some_iff] at he
  exact SortedMap.mem_iff.2 ⟨e, he.1⟩

theorem Backup.mem_roomKeys_enable (b : Backup) (version : String) {key : Cell RoomId SessionId} :
    key ∈ (b.enable version).roomKeys ↔ key ∈ b.roomKeys := by
  unfold enable
  split
  · exact .rfl
  · exact SortedMap.mem_mapValues

theorem Backup.mem_roomKeys_markSent (b : Backup) (request : KeysBackup)
    {key : Cell RoomId SessionId} : key ∈ (b.markSent request).roomKeys ↔ key ∈ b.roomKeys := by
  unfold markSent
  split
  · exact SortedMap.mem_mapValues
  · exact .rfl

/-- To accept signatures takes back none that was accepted before. -/
theorem Messages.mem_signatures_addSignatures {s s' : Messages} {rows : Rows UserId KeyId Opaque}
    {key : Cell UserId KeyId} (h : s.addSignatures rows = .ok s') (hk : key ∈ s.signatures) :
    key ∈ s'.signatures := by
  unfold addSignatures at h
  cases hr : SignatureUpload.ofRows rows with
  | error e =>
    rw [hr] at h
    cases h
  | ok r =>
    rw [hr] at h
    cases h
    exact SortedMap.mem_insertMany.2 (.inr hk)

namespace Machine

variable {m m' : Machine} {l : Ledger} {h : List Turn} {decided : List OutgoingRequest} {now : Instant}
  {call : Call} {answer : Answer} {r : OutgoingRequest} {outcome : Outcome} {p : Payload}

/-! ### What is asked for -/

/-- The machine still asks for what the payload carries. A query is for users that are to be queried, a
message is held as it is, and all keys and signatures are still to be sent. The keys of the device are
in an upload as long as the server does not have them. -/
def Backs (m : Machine) : Payload → Prop
  | .keysUpload x =>
    (x.deviceKeys = if m.ownKeys.shared then none else some m.ownKeys.deviceKeys) ∧
      (∀ id ∈ x.oneTimeKeys, id ∈ m.ownKeys.oneTimeKeys) ∧
      ∀ id ∈ x.fallbackKeys, id ∈ m.ownKeys.fallbackKeys
  | .keysQuery x => ∀ u ∈ x.users, u ∈ m.usersForKeyQuery
  | .keysClaim x => ∀ device ∈ x.oneTimeKeys, device ∈ m.devicesForKeyClaim
  | .toDevice x => m.messages.toDevice.get? x.txnId = some x
  | .signatureUpload x => ∀ key ∈ x.signedKeys, key ∈ m.messages.signatures
  | .roomMessage x => m.messages.roomMessages.get? x.txnId = some x
  | .keysBackup x => ∀ key ∈ x.rooms, key ∈ m.backup.roomKeys

/-- A machine asks for what it wants. -/
theorem backs_of_mem_wanted (hk : m.messages.Keyed) (hp : p ∈ m.wanted now) : m.Backs p := by
  rcases mem_wanted.1 hp with hp | hp | hp | hp | hp | hp | hp
  · obtain ⟨x, hx, rfl⟩ := Option.map_eq_some_iff.1 (mem_onePerKind.1 hp).2
    obtain ⟨hd, ho, hf⟩ := OwnKeys.keys_of_upload? hx
    refine ⟨hd, fun id hid => ?_, fun id hid => ?_⟩
    · rwa [ho] at hid
    · rwa [hf] at hid
  · obtain ⟨x, rfl, hel⟩ := mem_wantedKeysQueries hp
    exact fun u hu => (DeviceLists.mem_eligibleUsers.1 (hel u hu)).1
  · obtain ⟨x, hx, rfl⟩ := Option.map_eq_some_iff.1 (mem_onePerKind.1 hp).2
    have ht := KeysClaim.oneTimeKeys_of_ofTable (toOption_eq_some_iff.1 hx)
    intro device hdev
    rw [ht] at hdev
    exact SortedMap.mem_mapValues.1 hdev
  · obtain ⟨x, hx, rfl, -⟩ := mem_wantedToDevice.1 hp
    obtain ⟨t, ht⟩ := InsertionMap.mem_values.1 hx
    show m.messages.toDevice.get? x.txnId = some x
    rw [hk.toDevice ht]
    exact ht
  · obtain ⟨x, hx, rfl⟩ := Option.map_eq_some_iff.1 (mem_wantedSignatureUpload.1 hp).2.2
    have ht := SignatureUpload.signedKeys_of_ofTable (toOption_eq_some_iff.1 hx)
    intro key hkey
    rwa [ht] at hkey
  · obtain ⟨x, hx, rfl, -⟩ := mem_wantedRoomMessages.1 hp
    obtain ⟨t, ht⟩ := InsertionMap.mem_values.1 hx
    show m.messages.roomMessages.get? x.txnId = some x
    rw [hk.roomMessages ht]
    exact ht
  · obtain ⟨x, rfl, -, hrest, -⟩ := mem_wantedKeysBackup hp
    exact fun key hkey => m.backup.mem_roomKeys_of_remaining (hrest key hkey)

/-- The second machine asks for all that the first one asks for. -/
structure Keeps (m m' : Machine) : Prop where
  deviceKeys : m'.ownKeys.deviceKeys = m.ownKeys.deviceKeys
  shared : m'.ownKeys.shared = m.ownKeys.shared
  oneTimeKeys : ∀ id ∈ m.ownKeys.oneTimeKeys, id ∈ m'.ownKeys.oneTimeKeys
  fallbackKeys : ∀ id ∈ m.ownKeys.fallbackKeys, id ∈ m'.ownKeys.fallbackKeys
  outdated : ∀ u ∈ m.usersForKeyQuery, u ∈ m'.usersForKeyQuery
  missing : ∀ device ∈ m.devicesForKeyClaim, device ∈ m'.devicesForKeyClaim
  toDevice : ∀ {t x}, m.messages.toDevice.get? t = some x → m'.messages.toDevice.get? t = some x
  roomMessages : ∀ {t x}, m.messages.roomMessages.get? t = some x →
    m'.messages.roomMessages.get? t = some x
  signatures : ∀ key ∈ m.messages.signatures, key ∈ m'.messages.signatures
  roomKeys : ∀ key ∈ m.backup.roomKeys, key ∈ m'.backup.roomKeys

theorem Backs.keeps (hp : m.Backs p) (hk : m.Keeps m') : m'.Backs p := by
  cases p with
  | keysUpload x =>
    obtain ⟨hd, ho, hf⟩ := hp
    refine ⟨?_, fun id hid => hk.oneTimeKeys id (ho id hid),
      fun id hid => hk.fallbackKeys id (hf id hid)⟩
    rw [hk.shared, hk.deviceKeys]
    exact hd
  | keysQuery x => exact fun u hu => hk.outdated u (hp u hu)
  | keysClaim x => exact fun device hdev => hk.missing device (hp device hdev)
  | toDevice x => exact hk.toDevice hp
  | signatureUpload x => exact fun key hkey => hk.signatures key (hp key hkey)
  | roomMessage x => exact hk.roomMessages hp
  | keysBackup x => exact fun key hkey => hk.roomKeys key (hp key hkey)

namespace Keeps

theorem refl (m : Machine) : m.Keeps m where
  deviceKeys := rfl
  shared := rfl
  oneTimeKeys _ hid := hid
  fallbackKeys _ hid := hid
  outdated _ hu := hu
  missing _ hdev := hdev
  toDevice ht := ht
  roomMessages ht := ht
  signatures _ hkey := hkey
  roomKeys _ hkey := hkey

/-- The queue is not asked for anything. -/
theorem of_queue_eq (hk : m.Keeps m') (queue : Queue) : m.Keeps { m' with queue } :=
  { hk with }

/-- To queue requests changes nothing that is asked for. -/
theorem addAll (m : Machine) (ps : List Payload) : m.Keeps (m.addAll ps) := by
  have hd : (m.addAll ps).usersForKeyQuery = m.usersForKeyQuery := by
    simp only [usersForKeyQuery, DeviceLists.outdatedUsers, addAll_tracked]
  refine { deviceKeys := ?_, shared := ?_, oneTimeKeys := ?_, fallbackKeys := ?_, outdated := ?_,
           missing := ?_, toDevice := ?_, roomMessages := ?_, signatures := ?_, roomKeys := ?_ }
  all_goals simp [hd, devicesForKeyClaim]

end Keeps

/-- No call but the end of a request takes back anything that is asked for. A new message takes the
place of none, since its name was not used. -/
theorem Transition.keeps (ht : m.Transition now call answer m')
    (hmark : Turn.marked? ⟨m, now, call, answer, m'⟩ = none)
    (hheld : ∀ message, m.messages.Holds message → m.Minted message.2) : m.Keeps m' := by
  have hsame := Keeps.refl m
  cases ht with
  | handOut => exact (Keeps.addAll m (m.wanted now)).of_queue_eq _
  | complete => cases hmark
  | addOneTimeKeys keys =>
    exact { hsame with oneTimeKeys := fun id hid => SortedMap.mem_insertMany.2 (.inr hid) }
  | addFallbackKeys keys =>
    exact { hsame with fallbackKeys := fun id hid => SortedMap.mem_insertMany.2 (.inr hid) }
  | track users =>
    exact { hsame with outdated := fun u hu => (m.deviceLists.invalidates_track users).outdated hu }
  | change users token =>
    exact { hsame with
      outdated := fun u hu => (m.deviceLists.invalidates_receiveChanges users token).outdated hu }
  | missing user devices =>
    exact { hsame with
      missing := fun device hdev => Sessions.mem_missing_markMissing hdev user devices }
  | acceptToDevice eventType rows s accepted =>
    obtain ⟨x, -, rfl⟩ := Messages.addToDevice_eq_ok accepted
    refine { hsame with toDevice := fun {t y} hg => ?_ }
    have hne : t ≠ m.nextId :=
      (hheld (.toDevice, t) (InsertionMap.mem_iff_get?.2 ⟨y, hg⟩)).ne_nextId
    rw [InsertionMap.get?_insert, if_neg hne]
    exact hg
  | acceptSignatures rows s accepted =>
    have hs := Messages.addSignatures_eq_ok accepted
    refine { hsame with toDevice := ?_, roomMessages := ?_, signatures := ?_ }
    · rw [hs]
      exact id
    · rw [hs]
      exact id
    · exact fun key hkey => Messages.mem_signatures_addSignatures accepted hkey
  | acceptRoomMessage room eventType content s accepted =>
    obtain ⟨x, -, rfl⟩ := Messages.addRoomMessage_eq_ok accepted
    refine { hsame with roomMessages := fun {t y} hg => ?_ }
    have hne : t ≠ m.nextId :=
      (hheld (.roomMessage, t) (InsertionMap.mem_iff_get?.2 ⟨y, hg⟩)).ne_nextId
    rw [InsertionMap.get?_insert, if_neg hne]
    exact hg
  | enable version nonempty =>
    exact { hsame with roomKeys := fun key hkey => (m.backup.mem_roomKeys_enable version).2 hkey }
  | disable => exact { hsame with roomKeys := fun key hkey => SortedMap.mem_mapValues.2 hkey }
  | addRoomKey key data =>
    exact { hsame with roomKeys := fun x hx => SortedMap.mem_insert.2 (.inr hx) }
  | query | refuse => exact { hsame with }

/-! ### The end of a request -/

/-- The end of a request takes back nothing that a request asks for that does other work. A query that
was made for a caller does no work that counts. -/
theorem Backs.withOutcome (hp : m.Backs p) (now : Instant) (fits : outcome.mismatch? r.kind = none)
    (hother : r.kind ≠ .keysQuery → ¬ r.payload.Overlaps p)
    (hquery : ∀ q, p = .keysQuery q → ∀ details,
      m.deviceLists.queriesInFlight.get? r.id = some details → ∀ u ∈ q.users, u ∉ details.users) :
    (m.withOutcome now r outcome).Backs p := by
  have hdisjoint : ∀ q, r.payload = q → q.kind ≠ .keysQuery → ¬ q.Overlaps p := by
    rintro q rfl
    exact hother
  -- A request of the kind of an upload or a claim would do the same work.
  have hkind : p.kind = .keysUpload ∨ p.kind = .keysClaim ∨ p.kind = .signatureUpload →
      r.payload.kind ≠ p.kind := by
    intro hk he
    refine hdisjoint r.payload rfl (fun hr => ?_) (Payload.overlaps_of_kind hk he rfl)
    rw [show p.kind = .keysQuery from he.symm.trans hr] at hk
    simp at hk
  cases p with
  | keysUpload x =>
    rcases withOutcome_ownKeys m now fits with ⟨u, response, hr, -⟩ | ⟨-, he⟩
    · exact absurd (congrArg Payload.kind hr) (hkind (.inl rfl))
    · unfold Backs
      rw [he]
      exact hp
  | keysQuery x =>
    intro u hu
    have hout : u ∈ m.deviceLists.outdatedUsers := hp u hu
    show u ∈ (m.withOutcome now r outcome).deviceLists.outdatedUsers
    rcases withOutcome_deviceLists m now fits with ⟨-, he⟩ | ⟨q, response, -, -, he⟩ |
      ⟨q, failure, -, -, he⟩
    · rwa [he]
    · rw [he]
      apply DeviceLists.mem_outdatedUsers_receiveQuery hout
      exact fun details hg => hquery x rfl details hg u hu
    · rw [he]
      exact hout
  | keysClaim x =>
    have hne : r.kind ≠ .keysClaim := hkind (.inr (.inl rfl))
    rcases withOutcome_sessions m now fits with ⟨-, he⟩ | ⟨c, response, hr, -⟩ | ⟨c, failure, hr, -⟩
    · unfold Backs devicesForKeyClaim
      rw [he]
      exact hp
    · exact absurd (congrArg Payload.kind hr) hne
    · exact absurd (congrArg Payload.kind hr) hne
  | toDevice x =>
    show (m.withOutcome now r outcome).messages.toDevice.get? x.txnId = some x
    rcases withOutcome_messages m now fits with ⟨y, hr, -, he⟩ | ⟨y, hr, -, he⟩ | ⟨-, he⟩
    · have hne : x.txnId ≠ y.txnId := fun ht => hdisjoint _ hr (fun hk => by cases hk) ht.symm
      rw [he, Messages.removeToDevice, InsertionMap.get?_erase, if_neg hne]
      exact hp
    · rw [he]
      exact hp
    · rw [he]
      exact hp
  | signatureUpload x =>
    rcases withOutcome_signatures m now fits with ⟨s, response, hr, -⟩ | ⟨-, he⟩
    · exact absurd (congrArg Payload.kind hr) (hkind (.inr (.inr rfl)))
    · unfold Backs
      rw [he]
      exact hp
  | roomMessage x =>
    show (m.withOutcome now r outcome).messages.roomMessages.get? x.txnId = some x
    rcases withOutcome_messages m now fits with ⟨y, hr, -, he⟩ | ⟨y, hr, -, he⟩ | ⟨-, he⟩
    · rw [he]
      exact hp
    · have hne : x.txnId ≠ y.txnId := fun ht => hdisjoint _ hr (fun hk => by cases hk) ht.symm
      rw [he, Messages.removeRoomMessage, InsertionMap.get?_erase, if_neg hne]
      exact hp
    · rw [he]
      exact hp
  | keysBackup x =>
    intro key hkey
    have hmem : key ∈ m.backup.roomKeys := hp key hkey
    rcases withOutcome_backup m now fits with ⟨b, response, -, -, he⟩ | ⟨-, he⟩
    · rw [he]
      exact (m.backup.mem_roomKeys_markSent b).2 hmem
    · rwa [he]

/-! ### Queued requests -/

/-- All queued requests that were decided on are backed. -/
def Backed (m : Machine) (decided : List OutgoingRequest) : Prop :=
  ∀ r ∈ m.queue.contents, r ∈ decided → m.Backs r.payload

namespace Backed

/-- A call that queues nothing keeps requests backed if it takes back nothing. -/
theorem keeps (hb : m.Backed decided) (hk : m.Keeps m')
    (hc : ∀ r ∈ m'.queue.contents, r ∈ decided → r ∈ m.queue.contents) : m'.Backed decided :=
  fun r hr hd => (hb r (hc r hr hd) hd).keeps hk

/-- A decision pass queues requests that are backed. -/
theorem pass (hb : m.Backed decided) (hn : m.Named) (hk : m.messages.Keyed) (now : Instant) :
    (m.decisionPass now).Backed (decided ++ m.decided now) := by
  intro r hr hd
  apply Backs.keeps _ (Keeps.addAll m (m.wanted now))
  rcases (mem_contents_addAll hn).1 hr with hr | hr
  · exact hb r hr (mem_of_mem_append_added hn hr hd)
  · exact backs_of_mem_wanted hk (payload_mem_of_mem_added hr)

/-- The end of a request leaves the others backed. -/
theorem complete (hb : m.Backed l.decided) (ha : l.Agrees m) (hn : m.NotesQueries l.decided)
    (hw : m.WorksOnce l.decided) (hr : r ∈ m.queue.inFlight) (now : Instant)
    (fits : outcome.mismatch? r.kind = none) : (m.withOutcome now r outcome).Backed l.decided := by
  have hrc : r ∈ m.queue.contents := Queue.mem_contents_iff.2 (.inr hr)
  intro s hs hd
  rw [withOutcome_queue, Queue.mem_contents_withoutRequest] at hs
  obtain ⟨hs, hne⟩ := hs
  have hother : r ∈ l.decided → ¬ r.payload.Overlaps s.payload := fun hrd =>
    hw.not_overlaps hrc hs (fun he => hne (he ▸ rfl)) hrd hd
  refine (hb s hs hd).withOutcome now fits (fun hk => hother (ha.mem_decided hrc hk)) ?_
  intro q hq details hg u hu hu'
  obtain ⟨q', hq', hd', husers⟩ := hn.queued hg
  have he : r = ⟨r.id, .keysQuery q'⟩ := Queue.eq_of_id_eq hrc hq' rfl
  have hpay : r.payload = .keysQuery q' := congrArg OutgoingRequest.payload he
  have hrd : r ∈ l.decided := by
    rw [he]
    exact hd'
  apply hother hrd
  rw [hpay, hq]
  exact ⟨u, husers ▸ hu', hu⟩

/-- Every turn keeps requests backed. -/
theorem turn (hm : Reached h m) (hb : m.Backed (h.flatMap Turn.decided))
    (ht : m.Transition now call answer m') :
    m'.Backed ((ledger h).add ⟨m, now, call, answer, m'⟩).decided := by
  have ha := hm.agrees
  have hheld : ∀ message, m.messages.Holds message → m.Minted message.2 := fun message =>
    hm.minted_of_holds
  -- A call that decides nothing and takes back nothing.
  have quiet : Turn.marked? ⟨m, now, call, answer, m'⟩ = none →
      Turn.decided ⟨m, now, call, answer, m'⟩ = [] →
      (∀ r ∈ m'.queue.contents, r ∈ h.flatMap Turn.decided → r ∈ m.queue.contents) →
      m'.Backed ((ledger h).add ⟨m, now, call, answer, m'⟩).decided := by
    intro hmark hd hc
    rw [Ledger.add, hd, List.append_nil]
    exact hb.keeps (ht.keeps hmark hheld) hc
  cases ht with
  | handOut =>
    apply (hb.pass ha.named hm.keyed now).keeps ((Keeps.refl _).of_queue_eq _)
    intro r hr _
    rw [Queue.contents_drainPending] at hr
    exact hr
  | complete r outcome inFlight fits =>
    rw [Ledger.add, Turn.decided_markAsSent inFlight fits]
    apply pass _ (ha.complete inFlight now outcome).named (keyed_withOutcome hm.keyed now fits)
    exact hb.complete ha hm.notesQueries hm.worksOnce inFlight now fits
  | query users q queue built inserted =>
    refine quiet rfl rfl fun r hr hd => ?_
    have hcont := Queue.contents_insert ha.named.ne_nextId inserted
    rw [hcont, List.mem_append, List.mem_singleton] at hr
    rcases hr with hr | rfl
    · exact hr
    · exact absurd rfl (ha.minted_decided _ hd).ne_nextId
  | enable version nonempty =>
    exact quiet rfl rfl fun r hr _ => (m.queue.contents_retainPending_sublist _).subset hr
  | disable => exact quiet rfl rfl fun r hr _ => (m.queue.contents_retainPending_sublist _).subset hr
  | refuse call reason refusable =>
    exact quiet (by cases call <;> rfl) (by cases call <;> rfl) fun r hr _ => hr
  | addOneTimeKeys | addFallbackKeys | track | change | missing | acceptToDevice | acceptSignatures
  | acceptRoomMessage | addRoomKey => exact quiet rfl rfl fun r hr _ => hr

end Backed

/-- The queued requests of a machine are backed at every time. -/
theorem Reached.backed (hm : Reached h m) : m.Backed (h.flatMap Turn.decided) := by
  induction hm with
  | new => exact fun r hr => nomatch hr
  | step now call hm ih =>
    have ht := Backed.turn hm ih (transition_step _ now call)
    rw [← ledger_snoc] at ht
    exact ht

/-- **Queued requests are backed**, whatever calls were made to a new machine. The queries on their way
are noted with their users, all of whom are tracked and outdated: those are exactly the queued queries
that decision passes made. And all queued requests but queries for callers carry what the machine still
asks for. -/
theorem queued_requests_backed (userId : UserId) (deviceId : DeviceId) (deviceKeys : Opaque)
    (settings : Settings) (ids : IdSource) (calls : List (Instant × Call)) :
    let h := (new userId deviceId deviceKeys settings ids).turns calls
    let m := ((new userId deviceId deviceKeys settings ids).run calls).2
    (∀ id users, (m.deviceLists.queriesInFlight.get? id).map QueryDetails.users = some users ↔
      ∃ q, ⟨id, .keysQuery q⟩ ∈ m.queue.contents ∧ ⟨id, .keysQuery q⟩ ∈ h.flatMap Turn.decided ∧
        q.users = users) ∧
    (∀ id details, m.deviceLists.queriesInFlight.get? id = some details →
      ∀ u ∈ details.users, u ∈ m.trackedUsers ∧ u ∈ m.usersForKeyQuery) ∧
    ∀ r ∈ m.queue.contents, (r.kind = .keysQuery → r ∈ h.flatMap Turn.decided) →
      m.Backs r.payload := by
  intro h m
  have hm : Reached h m := (Reached.new userId deviceId deviceKeys settings ids).run calls
  have hn : m.NotesQueries (h.flatMap Turn.decided) := hm.notesQueries
  have hb : m.Backed (h.flatMap Turn.decided) := hm.backed
  refine ⟨fun id users => ⟨fun hu => ?_, ?_⟩, fun id details hg u hu => ?_, fun r hr hd => ?_⟩
  · obtain ⟨details, hg, rfl⟩ := Option.map_eq_some_iff.1 hu
    obtain ⟨q, hq, hd, he⟩ := hn.queued hg
    exact ⟨q, hq, hd, he.symm⟩
  · rintro ⟨q, hq, hd, rfl⟩
    obtain ⟨details, hg, he⟩ := hn.exists_note hq hd
    rw [hg, Option.map_some, he]
  · obtain ⟨q, hq, hd, he⟩ := hn.queued hg
    have hout : u ∈ m.usersForKeyQuery := hb _ hq hd u (he ▸ hu)
    exact ⟨DeviceLists.mem_trackedUsers_of_outdated hout, hout⟩
  · by_cases hk : r.kind = .keysQuery
    · exact hb r hr (hd hk)
    · exact hb r hr (hm.agrees.mem_decided hr hk)

/-- While keys of a device are claimed and its user is asked about, the session is missing and the user
is outdated. -/
theorem queued_requests_backed_bob :
    let calls : List (Instant × Call) :=
      [(0, .trackUsers [Sample.bob]), (0, .markSessionsMissing Sample.bob ["B"]), (0, .outgoingRequests)]
    let m := (Sample.machine.run calls).2
    ∃ query claim q c details, query ∈ m.queue.contents ∧ query.payload = .keysQuery q ∧
      claim ∈ m.queue.contents ∧ claim.payload = .keysClaim c ∧
      m.deviceLists.queriesInFlight.get? query.id = some details ∧ details.users = q.users ∧
      Sample.bob ∈ details.users ∧ Sample.bob ∈ m.usersForKeyQuery ∧
      ⟨Sample.bob, "B"⟩ ∈ c.oneTimeKeys ∧ ⟨Sample.bob, "B"⟩ ∈ m.devicesForKeyClaim := by
  intro calls m
  obtain ⟨hnotes, houtdated, hbacked⟩ := queued_requests_backed Sample.alice "DEVICE" .null .default
    (.counting "r") calls
  have hrun : ∃ upload query claim q c details, m.queue.contents = [upload, query, claim] ∧
      query.payload = .keysQuery q ∧ claim.payload = .keysClaim c ∧
      m.deviceLists.queriesInFlight.get? query.id = some details ∧ details.users = q.users ∧
      Sample.bob ∈ details.users ∧ ⟨Sample.bob, "B"⟩ ∈ c.oneTimeKeys :=
    ⟨_, _, _, _, _, _, rfl, rfl, rfl, rfl, rfl, rfl, rfl⟩
  obtain ⟨upload, query, claim, q, c, details, hc, hq, hp, hg, hu, hbob, hdev⟩ := hrun
  have hclaim : claim ∈ m.queue.contents := by simp [hc]
  have hkind : claim.kind = .keysClaim := congrArg Payload.kind hp
  have hask := hbacked claim hclaim fun hk => nomatch hkind.symm.trans hk
  rw [hp] at hask
  exact ⟨query, claim, q, c, details, by simp [hc], hq, hclaim, hp, hg, hu, hbob,
    (houtdated _ details hg _ hbob).2, hdev, hask _ hdev⟩

end Machine
end Outbox
