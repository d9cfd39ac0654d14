/-
# No need is lost

After a decision pass the queue is full, or everything that the machine needs is carried by a queued
request. Each guard against doing work twice only holds while a request that does the work is queued,
and what a need asks for can always be built.

Key definitions: `Machine.NeedsMet`.
Key theorems: `OwnKeys.exists_upload?`, `Sessions.exists_claim?`, `Messages.exists_signatureUpload?`,
`Backup.exists_request?`, `Machine.isFull_or_needsMet`, `Machine.needs_met`.
-/
import Outbox.Proofs.Coherence
import Outbox.Proofs.HeldMessages
import Outbox.Proofs.QueryNotes

namespace Outbox

/-! ### Needs give requests -/

theorem OwnKeys.exists_upload? {k : OwnKeys} (h : k.needsUpload = true) :
    ∃ r, k.upload? = some r := by
  have hok : (if k.shared then none else some k.deviceKeys).isSome = true ∨
      k.oneTimeKeys.isEmpty = false ∨ k.fallbackKeys.isEmpty = false := by
    simp only [needsUpload, Bool.or_eq_true, Bool.not_eq_true'] at h
    rcases h with (h | h) | h
    · exact .inl (by simp [h])
    · exact .inr (.inl h)
    · exact .inr (.inr h)
  exact ⟨_, toOption_eq_some_iff.2 (dif_pos hok)⟩

theorem Sessions.exists_claim? {s : Sessions} {device : Cell UserId DeviceId} (h : device ∈ s.missing)
    (settings : Settings) : ∃ r, s.claim? settings = some r :=
  ⟨_, toOption_eq_some_iff.2
    (dif_pos (SortedMap.isEmpty_eq_false_of_mem (SortedMap.mem_mapValues.2 h)))⟩

theorem Messages.exists_signatureUpload? {s : Messages} (h : s.hasSignatures = true) :
    ∃ r, s.signatureUpload? = some r :=
  ⟨_, toOption_eq_some_iff.2 (dif_pos (by simpa [hasSignatures] using h))⟩

/-- A key that is not backed up gives a request for the active version. -/
theorem Backup.exists_request? {b : Backup} {version : String} {key : Cell RoomId SessionId}
    (hv : b.version = some version) (hne : version ≠ "") (hk : key ∈ b.roomKeys)
    (hb : b.isBackedUp key = false) (batchSize : Nat) :
    ∃ r, b.request? batchSize = some r ∧ r.version = version := by
  have hrest : key ∈ b.remaining := by
    obtain ⟨e, he⟩ := SortedMap.mem_iff.1 hk
    rw [isBackedUp, he, Option.any_some] at hb
    rw [remaining, SortedMap.mem_mapValues, SortedMap.mem_iff, SortedMap.get?_filter, he]
    exact ⟨e, by simp [hb]⟩
  have htake : (b.remaining.take (max batchSize 1)).isEmpty = false :=
    SortedMap.isEmpty_take (SortedMap.isEmpty_eq_false_of_mem hrest) (by omega)
  have hok : KeysBackup.ofTable version (b.remaining.take (max batchSize 1)) =
      .ok ⟨version, b.remaining.take (max batchSize 1), hne, htake⟩ := by
    unfold KeysBackup.ofTable
    rw [dif_neg hne, dif_pos htake]
  refine ⟨⟨version, _, hne, htake⟩, ?_, rfl⟩
  rw [request?, hv, Option.bind_some, hok]
  rfl

namespace Machine

/-- Every need of the machine, which has the given history, is met by one of the requests. -/
structure NeedsMet (m : Machine) (h : List Turn) (now : Instant) (requests : List OutgoingRequest) :
    Prop where
  keysUpload : m.needsKeysUpload = true → ∃ r ∈ requests, r.kind = .keysUpload
  keysQuery : ∀ u ∈ m.usersForKeyQuery,
    (∃ r ∈ requests, r ∈ h.flatMap Turn.decided ∧ ∃ q, r.payload = .keysQuery q ∧ u ∈ q.users) ∨
      (m.deviceLists.failures.contains now u.server = true ∧ u.server ≠ m.userId.server)
  keysClaim : ∀ device, device ∈ m.devicesForKeyClaim → ∃ r ∈ requests, r.kind = .keysClaim
  messages : ∀ message, Unresolved h message → ∃ r ∈ requests, r.payload.message? = some message
  signatureUpload : m.ownKeys.shared = true → m.messages.hasSignatures = true →
    ∃ r ∈ requests, r.kind = .signatureUpload
  keysBackup : ∀ version key, m.backupVersion? = some version → key ∈ m.backup.roomKeys →
    m.isRoomKeyBackedUp key = false →
      ∃ r ∈ requests, ∃ b, r.payload = .keysBackup b ∧ b.version = version

variable {m m' : Machine} {l : Ledger} {h : List Turn} {now : Instant}
  {decided requests : List OutgoingRequest}

/-- The requests have all that is queued and all that is wanted, and the wanted ones are decided on. -/
structure Covered (m : Machine) (now : Instant) (decided requests : List OutgoingRequest) : Prop where
  queued : ∀ r ∈ m.queue.contents, r ∈ requests
  wanted : ∀ p ∈ m.wanted now, ∃ r ∈ requests, r ∈ decided ∧ r.payload = p

namespace Covered

/-- A guard that is set by a queued request of its kind stalls nothing. -/
theorem exists_ofKind (hc : m.Covered now decided requests) (p : Payload)
    (hp : m.queue.containsKind p.kind = false → p ∈ m.wanted now) :
    ∃ r ∈ requests, r.kind = p.kind := by
  cases hq : m.queue.containsKind p.kind with
  | true =>
    obtain ⟨r, hr, hkind⟩ := Queue.containsKind_iff.1 hq
    exact ⟨r, hc.queued r hr, hkind⟩
  | false =>
    obtain ⟨r, hr, -, he⟩ := hc.wanted p (hp hq)
    exact ⟨r, hr, congrArg Payload.kind he⟩

theorem keysUpload (hc : m.Covered now decided requests) (hneed : m.needsKeysUpload = true) :
    ∃ r ∈ requests, r.kind = .keysUpload := by
  obtain ⟨x, hx⟩ := OwnKeys.exists_upload? hneed
  refine hc.exists_ofKind (.keysUpload x) fun hfree =>
    mem_wanted.2 (.inl (mem_onePerKind.2 ⟨hfree, ?_⟩))
  rw [hx, Option.map_some]

/-- An outdated user is being queried, or belongs to a server that is left alone, or is asked about. -/
theorem keysQuery (hc : m.Covered now decided requests) {earlier : List OutgoingRequest}
    (hn : m.NotesQueries earlier) (hsub : ∀ r ∈ earlier, r ∈ decided) (hcoh : m.Coherent) {u : UserId}
    (hu : u ∈ m.usersForKeyQuery) :
    (∃ r ∈ requests, r ∈ decided ∧ ∃ q, r.payload = .keysQuery q ∧ u ∈ q.users) ∨
      (m.deviceLists.failures.contains now u.server = true ∧ u.server ≠ m.userId.server) := by
  cases hq : m.deviceLists.isBeingQueried u with
  | true =>
    obtain ⟨r, hr, hd, q, hq, hus⟩ := hn.isBeingQueried_iff.1 hq
    exact .inl ⟨r, hc.queued _ hr, hsub _ hd, q, hq, hus⟩
  | false =>
    cases hf : m.deviceLists.failures.contains now u.server with
    | true =>
      refine .inr ⟨rfl, fun he => ?_⟩
      rw [he, Backoff.contains_of_get?_eq_none hcoh.ownServer] at hf
      cases hf
    | false =>
      obtain ⟨q, hq, hus⟩ := exists_wantedKeysQuery (DeviceLists.mem_eligibleUsers.2 ⟨hu, hq, hf⟩)
      obtain ⟨r, hr, hd, he⟩ := hc.wanted _ (mem_wanted.2 (.inr (.inl hq)))
      exact .inl ⟨r, hr, hd, q, he, hus⟩

theorem keysClaim (hc : m.Covered now decided requests) {device : Cell UserId DeviceId}
    (hd : device ∈ m.devicesForKeyClaim) : ∃ r ∈ requests, r.kind = .keysClaim := by
  obtain ⟨x, hx⟩ := Sessions.exists_claim? hd m.settings
  refine hc.exists_ofKind (.keysClaim x) fun hfree =>
    mem_wanted.2 (.inr (.inr (.inl (mem_onePerKind.2 ⟨hfree, ?_⟩))))
  rw [hx, Option.map_some]

/-- A message that is held is queued, or wanted under its transaction ID. -/
theorem message (hc : m.Covered now decided requests) (hk : m.messages.Keyed)
    {message : RequestKind × TransactionId} (hheld : m.messages.Holds message) :
    ∃ r ∈ requests, r.payload.message? = some message := by
  by_cases hq : ∃ x ∈ m.queue.contents, x.payload.message? = some message
  · obtain ⟨x, hx, he⟩ := hq
    exact ⟨x, hc.queued x hx, he⟩
  have hfree : ∀ x ∈ m.queue.contents, x.payload.message? ≠ some message :=
    fun x hx he => hq ⟨x, hx, he⟩
  suffices hw : ∃ p ∈ m.wanted now, p.message? = some message by
    obtain ⟨p, hp, he⟩ := hw
    obtain ⟨r, hr, -, rfl⟩ := hc.wanted p hp
    exact ⟨r, hr, he⟩
  obtain ⟨kind, txnId⟩ := message
  cases kind with
  | toDevice =>
    obtain ⟨x, hx⟩ := InsertionMap.mem_iff_get?.1 hheld
    cases hk.toDevice hx
    have hw := mem_wantedToDevice.2 ⟨x, InsertionMap.mem_values.2 ⟨_, hx⟩, rfl, hfree⟩
    exact ⟨_, mem_wanted.2 (.inr (.inr (.inr (.inl hw)))), rfl⟩
  | roomMessage =>
    obtain ⟨x, hx⟩ := InsertionMap.mem_iff_get?.1 hheld
    cases hk.roomMessages hx
    have hw := mem_wantedRoomMessages.2 ⟨x, InsertionMap.mem_values.2 ⟨_, hx⟩, rfl, hfree⟩
    exact ⟨_, mem_wanted.2 (.inr (.inr (.inr (.inr (.inr (.inl hw)))))), rfl⟩
  | _ => exact hheld.elim

theorem signatureUpload (hc : m.Covered now decided requests) (hshared : m.ownKeys.shared = true)
    (hsig : m.messages.hasSignatures = true) : ∃ r ∈ requests, r.kind = .signatureUpload := by
  obtain ⟨x, hx⟩ := Messages.exists_signatureUpload? hsig
  refine hc.exists_ofKind (.signatureUpload x) fun hfree => mem_wanted.2 (.inr (.inr (.inr (.inr (.inl
    (mem_wantedSignatureUpload.2 ⟨hshared, hfree, ?_⟩))))))
  rw [hx, Option.map_some]

theorem keysBackup (hc : m.Covered now decided requests) (hcoh : m.Coherent) {version : String}
    {key : Cell RoomId SessionId} (hv : m.backup.version = some version) (hkey : key ∈ m.backup.roomKeys)
    (hb : m.backup.isBackedUp key = false) :
    ∃ r ∈ requests, ∃ b, r.payload = .keysBackup b ∧ b.version = version := by
  cases hq : m.isBackupQueued with
  | true =>
    obtain ⟨x, hx, hxb⟩ := (isBackupQueued_iff hv).1 hq
    exact ⟨x, hc.queued x hx, hxb⟩
  | false =>
    have hne : version ≠ "" := fun he => hcoh.version_ne (by rw [hv, he])
    obtain ⟨b, hreq, hver⟩ := Backup.exists_request? hv hne hkey hb m.settings.backupBatchSize.toNat
    have hw : .keysBackup b ∈ m.wantedKeysBackup := by
      unfold wantedKeysBackup
      rw [hq, hreq]
      exact List.mem_cons_self
    obtain ⟨r, hr, -, he⟩ := hc.wanted _ (mem_wanted.2 (.inr (.inr (.inr (.inr (.inr (.inr hw)))))))
    exact ⟨r, hr, b, he, hver⟩

end Covered

/-- After a decision pass the queue is full, or it meets all needs. -/
theorem isFull_or_needsMet (ha : l.Agrees m) (hn : m.NotesQueries l.decided) (hcoh : m.Coherent)
    (hk : m.messages.Keyed) (hmsg : ∀ message, Unresolved h message → m.messages.Holds message)
    (hdec : h.flatMap Turn.decided = l.decided ++ m.decided now) :
    (m.decisionPass now).queue.isFull = true ∨
      (m.decisionPass now).NeedsMet h now (m.decisionPass now).queue.contents := by
  rcases m.isFull_or_payloads_added (m.wanted now) with hf | hall
  · exact .inl hf
  right
  have hcont : (m.decisionPass now).queue.contents = m.queue.contents ++ m.decided now :=
    contents_addAll ha.named _
  have hc : m.Covered now (h.flatMap Turn.decided) (m.decisionPass now).queue.contents := by
    rw [hcont, hdec]
    refine ⟨fun r hr => List.mem_append_left _ hr, fun p hp => ?_⟩
    rw [← hall] at hp
    obtain ⟨r, hr, rfl⟩ := List.mem_map.1 hp
    exact ⟨r, List.mem_append_right _ hr, List.mem_append_right _ hr, rfl⟩
  have hsub : ∀ r ∈ l.decided, r ∈ h.flatMap Turn.decided := fun r hr => by
    rw [hdec]
    exact List.mem_append_left _ hr
  -- The pass changed nothing that a need depends on.
  constructor
  · intro hneed
    rw [needsKeysUpload, decisionPass, addAll_ownKeys] at hneed
    exact hc.keysUpload hneed
  · intro u hu
    rw [usersForKeyQuery, DeviceLists.mem_outdatedUsers, decisionPass, addAll_tracked,
      ← DeviceLists.mem_outdatedUsers] at hu
    rw [decisionPass, addAll_failures, addAll_userId]
    exact hc.keysQuery hn hsub hcoh hu
  · intro device hd
    rw [devicesForKeyClaim, decisionPass, addAll_sessions] at hd
    exact hc.keysClaim hd
  · exact fun message hu => hc.message hk (hmsg message hu)
  · intro hshared hsig
    rw [decisionPass, addAll_ownKeys] at hshared
    rw [decisionPass, addAll_messages] at hsig
    exact hc.signatureUpload hshared hsig
  · intro version key hv hkey hb
    rw [backupVersion?, decisionPass, addAll_backup] at hv
    rw [decisionPass, addAll_backup] at hkey
    rw [isRoomKeyBackedUp, decisionPass, addAll_backup] at hb
    exact hc.keysBackup hcoh hv hkey hb

/-- Needs are not about the queue. -/
theorem NeedsMet.with_queue (hn : m.NeedsMet h now requests) (queue : Queue) :
    NeedsMet { m with queue } h now requests where
  keysUpload := hn.keysUpload
  keysQuery := hn.keysQuery
  keysClaim := hn.keysClaim
  messages := hn.messages
  signatureUpload := hn.signatureUpload
  keysBackup := hn.keysBackup

/-- After a turn with a decision pass the queue is full, or it meets all needs. When requests were
handed out, the requests in flight meet them. -/
theorem Reached.needsMet (hm : Reached h m) {h' : List Turn} (hm' : Reached h' m') {call : Call}
    {answer : Answer} (he : h' = h ++ [⟨m, now, call, answer, m'⟩])
    (ht : m.Transition now call answer m')
    (hcall : call = .outgoingRequests ∨ (Turn.mk m now call answer m').marked?.isSome = true) :
    m'.queue.isFull = true ∨ m'.NeedsMet h' now m'.queue.contents ∧
      (call = .outgoingRequests → m'.NeedsMet h' now m'.inFlightRequests) := by
  have hdec : h'.flatMap Turn.decided =
      (ledger h).decided ++ Turn.decided ⟨m, now, call, answer, m'⟩ := by
    rw [he, List.flatMap_append, List.flatMap_singleton]
    rfl
  have hmsg : ∀ message, Unresolved h' message → m'.messages.Holds message := fun _ => hm'.holds_iff.2
  clear hm' he
  cases ht with
  | handOut =>
    have hmsg' : ∀ message, Unresolved h' message → m.messages.Holds message := fun message hu => by
      have hheld : (m.decisionPass now).messages.Holds message := hmsg message hu
      rw [decisionPass, addAll_messages] at hheld
      exact hheld
    have hfull := Queue.isFull_drainPending (m.decisionPass now).queue
    have hcont := Queue.contents_drainPending (m.decisionPass now).queue
    have hflight := Queue.inFlight_drainPending (m.decisionPass now).queue
    rcases isFull_or_needsMet hm.agrees hm.notesQueries hm.coherent hm.keyed hmsg' hdec with hf | hn
    · exact .inl (hfull.trans hf)
    · refine .inr ⟨?_, fun _ => ?_⟩
      · rw [hcont]
        exact hn.with_queue _
      · rw [inFlightRequests, hflight]
        exact hn.with_queue _
  | complete r outcome inFlight fits =>
    rw [Turn.decided_markAsSent inFlight fits] at hdec
    have hmsg' : ∀ message, Unresolved h' message →
        (m.withOutcome now r outcome).messages.Holds message := fun message hu => by
      have hheld := hmsg message hu
      rw [decisionPass, addAll_messages] at hheld
      exact hheld
    rcases isFull_or_needsMet (l := { ledger h with marked := (ledger h).marked ++ [r.id] })
      (hm.agrees.complete inFlight now outcome) (hm.notesQueries.complete inFlight now fits)
      (hm.coherent.withOutcome now fits) (keyed_withOutcome hm.keyed now fits) hmsg' hdec with hf | hn
    · exact .inl hf
    · exact .inr ⟨hn, fun hcall => by cases hcall⟩
  | refuse call reason refusable =>
    rcases hcall with rfl | hmark
    · exact absurd rfl refusable
    · cases call <;> cases hmark
  | _ =>
    rcases hcall with hcall | hmark
    · cases hcall
    · cases hmark

/-- **No need is ever lost or stuck.** Whatever calls were made to a new machine, when it handed out
requests or accepted the end of one, then the queue is at its capacity, or each need is met by a queued
request; and by one in flight when it handed out requests. -/
theorem needs_met (userId : UserId) (deviceId : DeviceId) (deviceKeys : Opaque) (settings : Settings)
    (ids : IdSource) (calls : List (Instant × Call)) (now : Instant) (call : Call) :
    let m := ((new userId deviceId deviceKeys settings ids).run calls).2
    let t := m.turn now call
    let h := (new userId deviceId deviceKeys settings ids).turns calls ++ [t]
    call = .outgoingRequests ∨ t.marked?.isSome = true →
      (∃ c, settings.maxQueuedRequests = some c ∧ c.toNat ≤ t.after.queue.size) ∨
      t.after.NeedsMet h now t.after.queue.contents ∧
        (call = .outgoingRequests → t.after.NeedsMet h now t.after.inFlightRequests) := by
  intro m t h hcall
  have hm : Reached _ m := (Reached.new userId deviceId deviceKeys settings ids).run calls
  have hm' : Reached h t.after := hm.step now call
  rcases hm.needsMet hm' rfl (transition_step m now call) hcall with hf | hn
  · obtain ⟨c, hc, hle⟩ := Queue.isFull_iff.1 hf
    have hset : t.after.settings = settings :=
      (m.transition_step now call).settings_eq.trans (settings_run _ calls)
    have hcap := hm'.coherent.capacity
    rw [hset, show t.after.queue.capacity = some c from hc, eq_comm, Option.map_eq_some_iff] at hcap
    obtain ⟨n, hn, rfl⟩ := hcap
    exact .inl ⟨n, hn, by rw [Queue.size_eq]; exact hle⟩
  · exact .inr hn

/-- A new machine without a capacity, told about a user and a device, hands out all that it needs. -/
theorem needs_met_unlimited :
    let calls : List (Instant × Call) :=
      [(0, .trackUsers [Sample.bob]), (0, .markSessionsMissing Sample.alice ["PHONE"])]
    let t := (Sample.machine.run calls).2.turn 0 .outgoingRequests
    (∃ r ∈ t.after.inFlightRequests, r.kind = .keysUpload) ∧
    (∃ r ∈ t.after.inFlightRequests, ∃ q, r.payload = .keysQuery q ∧ Sample.bob ∈ q.users) ∧
    ∃ r ∈ t.after.inFlightRequests, r.kind = .keysClaim := by
  intro calls t
  rcases needs_met Sample.alice "DEVICE" .null .default (.counting "r") calls 0 .outgoingRequests
    (.inl rfl) with ⟨c, hc, -⟩ | ⟨-, hn⟩
  · cases hc
  have hmet : t.after.NeedsMet _ 0 t.after.inFlightRequests := hn rfl
  have hupload : t.after.needsKeysUpload = true := by decide +kernel
  have houtdated : Sample.bob ∈ t.after.usersForKeyQuery := by decide +kernel
  have hmissing : ⟨Sample.alice, "PHONE"⟩ ∈ t.after.devicesForKeyClaim := by decide +kernel
  have htried : t.after.deviceLists.failures.contains 0 Sample.bob.server = false := by decide +kernel
  refine ⟨hmet.keysUpload hupload, ?_, hmet.keysClaim _ hmissing⟩
  rcases hmet.keysQuery Sample.bob houtdated with ⟨r, hr, -, hq⟩ | ⟨hfailing, -⟩
  · exact ⟨r, hr, hq⟩
  · rw [htried] at hfailing
    cases hfailing

end Machine
end Outbox
