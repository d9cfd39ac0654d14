/-
# What a failure gives up

A request that failed is made again, so its failure leaves all that asked for it. Only what would fail again is
given up: a message that cannot be sent is dropped, and devices of which no key can be claimed count as failed.
All else is spared, by the end of the request as by the decision pass that follows it (`Machine.Spares`).

A queued message is held and a claimed device is missing (`Machine.Reached.backed`), so what is given up was
there until then.

Key definitions: `Failure.dropped?`, `Failure.abandoned`, `Machine.Spares`.
Key theorems: `Machine.spares_withOutcome_failure`, `Machine.messages_withOutcome_failure`,
`Machine.Reached.payload?_dropped`, `Machine.Reached.device_withOutcome_failure`, `Machine.failure_policy`.
-/
import Outbox.Proofs.Atomicity
import Outbox.Proofs.Delivery
import Outbox.Proofs.SessionHistory

namespace Outbox

/-! ### What is given up -/

/-- The devices of which a payload claims a key. -/
def Payload.claimed : Payload → List (Cell UserId DeviceId)
  | keysClaim c => c.oneTimeKeys.keys
  | _ => []

namespace Failure

/-- The message that is dropped after the failure of a request. -/
def dropped? (failure : Failure) (p : Payload) : Option (RequestKind × TransactionId) :=
  if failure.isPermanent then p.message? else none

/-- The devices that count as failed after the failure of a request. -/
def abandoned (failure : Failure) (p : Payload) : List (Cell UserId DeviceId) :=
  if failure.isPermanent then p.claimed else []

end Failure

/-- To remove a message leaves all others, in order. -/
theorem InsertionMap.toList_erase_eq {α : Type} (map : InsertionMap TransactionId α) (kind : RequestKind)
    (txnId : TransactionId) :
    (map.erase txnId).toList = map.toList.filter fun e => some (kind, txnId) ≠ some (kind, e.1) := by
  unfold erase filter
  refine List.filter_congr fun e _ => ?_
  by_cases h : e.1 = txnId
  · simp [h]
  · simp [h, Ne.symm h]

/-- A failure fits every request. -/
theorem Outcome.mismatch?_failure (expected : RequestKind) (failure : Failure) :
    (Outcome.failure failure).mismatch? expected = none := rfl

namespace Machine

variable {m m' m'' : Machine} {h : List Turn} {r : OutgoingRequest} {failure : Failure} {now : Instant}
  {device : Cell UserId DeviceId} {message : RequestKind × TransactionId}

/-! ### What is spared -/

/-- From one machine to the next, nothing changed but the queue, the names that were used, the notes on
queries, the messages and the sessions. -/
structure Spares (m m' : Machine) : Prop where
  userId : m'.userId = m.userId
  deviceId : m'.deviceId = m.deviceId
  settings : m'.settings = m.settings
  ids : m'.ids = m.ids
  ownKeys : m'.ownKeys = m.ownKeys
  deviceLists : ∃ notes, m'.deviceLists = { m.deviceLists with queriesInFlight := notes }
  signatures : m'.messages.signatures = m.messages.signatures
  backup : m'.backup = m.backup

theorem Spares.trans (h₁ : m.Spares m') (h₂ : m'.Spares m'') : m.Spares m'' where
  userId := h₂.userId.trans h₁.userId
  deviceId := h₂.deviceId.trans h₁.deviceId
  settings := h₂.settings.trans h₁.settings
  ids := h₂.ids.trans h₁.ids
  ownKeys := h₂.ownKeys.trans h₁.ownKeys
  deviceLists := by
    obtain ⟨notes, he⟩ := h₁.deviceLists
    obtain ⟨notes', he'⟩ := h₂.deviceLists
    refine ⟨notes', ?_⟩
    rw [he', he]
  signatures := h₂.signatures.trans h₁.signatures
  backup := h₂.backup.trans h₁.backup

/-- A decision pass spares what it decides on. -/
theorem spares_decisionPass (m : Machine) (now : Instant) : m.Spares (m.decisionPass now) where
  userId := addAll_userId _ _
  deviceId := by
    rw [decisionPass, addAll_eq]
  settings := addAll_settings _ _
  ids := addAll_ids _ _
  ownKeys := addAll_ownKeys _ _
  deviceLists := ⟨_, addAll_queriesInFlight _ _⟩
  signatures := by
    rw [decisionPass, addAll_messages]
  backup := addAll_backup _ _

/-- So does the failure of a request. -/
theorem spares_withOutcome_failure (m : Machine) (now : Instant) (r : OutgoingRequest)
    (failure : Failure) : m.Spares (m.withOutcome now r (.failure failure)) := by
  obtain ⟨hkeys, hsignatures, hbackup⟩ :=
    receiveFailure_frame { m with queue := m.queue.withoutRequest r.id } r.id r.payload failure
  have hlists : ∃ notes, (m.withOutcome now r (.failure failure)).deviceLists =
      { m.deviceLists with queriesInFlight := notes } := by
    rcases withOutcome_deviceLists m now (Outcome.mismatch?_failure r.kind failure) with ⟨-, he⟩ |
      ⟨q, response, -, hout, -⟩ | ⟨q, f, -, -, he⟩
    · exact ⟨_, he⟩
    · cases hout
    · exact ⟨_, he⟩
  exact {
    userId := withOutcome_userId _ _ _ _
    deviceId := by rw [withOutcome_eq]
    settings := withOutcome_settings _ _ _ _
    ids := withOutcome_ids _ _ _ _
    ownKeys := hkeys
    deviceLists := hlists
    signatures := hsignatures
    backup := hbackup }

/-! ### Messages -/

/-- The failure of a request drops the message that cannot be sent, and leaves the others in order. -/
theorem messages_withOutcome_failure (m : Machine) (now : Instant) (r : OutgoingRequest)
    (failure : Failure) :
    (m.withOutcome now r (.failure failure)).messages.toDevice.toList =
        (m.messages.toDevice.toList.filter fun e =>
          failure.dropped? r.payload ≠ some (.toDevice, e.1)) ∧
      (m.withOutcome now r (.failure failure)).messages.roomMessages.toList =
        m.messages.roomMessages.toList.filter fun e =>
          failure.dropped? r.payload ≠ some (.roomMessage, e.1) := by
  have hdropped : ∀ {p}, r.payload = p → failure.isPermanent = true →
      failure.dropped? r.payload = p.message? := by
    rintro p rfl hf
    simp [Failure.dropped?, hf]
  rcases withOutcome_messages m now (Outcome.mismatch?_failure r.kind failure) with
    ⟨x, hp, hf, he⟩ | ⟨x, hp, hf, he⟩ | ⟨hn, he⟩
  · have hdrop : failure.dropped? r.payload = some (.toDevice, x.txnId) := hdropped hp hf
    rw [he, hdrop]
    constructor
    · exact InsertionMap.toList_erase_eq _ _ _
    · simp [Messages.removeToDevice]
  · have hdrop : failure.dropped? r.payload = some (.roomMessage, x.txnId) := hdropped hp hf
    rw [he, hdrop]
    constructor
    · simp [Messages.removeRoomMessage]
    · exact InsertionMap.toList_erase_eq _ _ _
  · have hdrop : failure.dropped? r.payload = none := by
      rcases hn with hn | hn
      · simp [Failure.dropped?, hn]
      · have hf : failure.isPermanent = false := hn
        simp [Failure.dropped?, hf]
    rw [he, hdrop]
    simp

/-- The message that is dropped was held until then, as the request carries it. -/
theorem Reached.payload?_dropped (hm : Reached h m) (hr : r ∈ m.inFlightRequests)
    (hd : failure.dropped? r.payload = some message) : m.messages.payload? message = some r.payload := by
  unfold Failure.dropped? at hd
  split at hd
  · exact hm.held_of_queued (Queue.mem_contents_iff.2 (.inr hr)) hd
  · cases hd

/-! ### Sessions -/

/-- After a failure something happened to the devices that are given up, and to no other. -/
theorem sessionEvent?_failure (r : OutgoingRequest) (failure : Failure) (device : Cell UserId DeviceId) :
    r.sessionEvent? (.failure failure) device =
      if device ∈ failure.abandoned r.payload then some .failed else none := by
  obtain ⟨id, payload⟩ := r
  unfold OutgoingRequest.sessionEvent? Failure.abandoned Payload.claimed
  cases payload with
  | keysClaim c =>
    by_cases hf : failure.isPermanent = true
    · simp [hf, Outcome.sessionEvent?, SortedMap.mem_keys]
    · simp [hf, Outcome.sessionEvent?]
  | _ => simp

/-- The sessions that there are stay. If no device is given up, all is as it was. -/
theorem sessions_withOutcome_failure (m : Machine) (now : Instant) (r : OutgoingRequest)
    (failure : Failure) :
    (m.withOutcome now r (.failure failure)).sessions.established = m.sessions.established ∧
      (failure.abandoned r.payload = [] →
        (m.withOutcome now r (.failure failure)).sessions = m.sessions) := by
  rcases withOutcome_sessions m now (Outcome.mismatch?_failure r.kind failure) with ⟨-, he⟩ |
    ⟨c, response, -, hout, -⟩ | ⟨c, f, hp, hout, he⟩
  · rw [he]
    exact ⟨rfl, fun _ => rfl⟩
  · cases hout
  · cases hout
    by_cases hf : failure.isPermanent = true
    · rw [he, if_pos hf]
      refine ⟨rfl, fun hnone => ?_⟩
      have hkeys : c.oneTimeKeys.keys = [] := by simpa [Failure.abandoned, hf, hp, Payload.claimed] using hnone
      obtain ⟨device, v, hv⟩ := SortedMap.exists_get?_of_isEmpty c.nonempty
      have hmem : device ∈ c.oneTimeKeys.keys := SortedMap.mem_keys.2 (SortedMap.mem_iff.2 ⟨v, hv⟩)
      simp [hkeys] at hmem
    · rw [he, if_neg hf]
      exact ⟨rfl, fun _ => rfl⟩

/-- A device that is given up was missing and had not failed; it is not missing any more and failed. The
other devices are as they were. -/
theorem Reached.device_withOutcome_failure (hm : Reached h m) (hr : r ∈ m.inFlightRequests)
    (now : Instant) (failure : Failure) (device : Cell UserId DeviceId) :
    let s := (m.withOutcome now r (.failure failure)).sessions
    (device ∈ failure.abandoned r.payload →
      (device ∈ m.sessions.missing ∧ device ∉ m.sessions.failed) ∧ device ∉ s.missing ∧ device ∈ s.failed) ∧
    (device ∉ failure.abandoned r.payload →
      (device ∈ s.missing ↔ device ∈ m.sessions.missing) ∧
        (device ∈ s.failed ↔ device ∈ m.sessions.failed)) := by
  intro s
  have hfollows := m.follows_withOutcome now (Outcome.mismatch?_failure r.kind failure) device
  have hevent := sessionEvent?_failure r failure device
  rw [hevent] at hfollows
  constructor
  · intro hgiven
    have hsome : r.sessionEvent? (.failure failure) device ≠ none := by simp [hevent, hgiven]
    have hmissing := hm.missing_of_sessionEvent? (Queue.mem_contents_iff.2 (.inr hr)) hsome
    have hnot : device ∉ m.sessions.failed := by
      intro hfailed
      have hlast := (hm.records device).missing_iff.1 hmissing
      rw [(hm.records device).failed_iff.1 hfailed] at hlast
      cases hlast
    rw [if_pos hgiven] at hfollows
    exact ⟨⟨hmissing, hnot⟩, by simp [s, hfollows.missing], by simp [s, hfollows.failed]⟩
  · intro hkept
    rw [if_neg hkept] at hfollows
    exact ⟨by simp [s, hfollows.missing], by simp [s, hfollows.failed]⟩

/-! ### The policy -/

/-- **A failure gives up what would fail again and nothing else**, by any machine that calls made of a new
one. The failure of a request in flight is always taken note of. The message of a request that failed for
good is dropped, which was held as the request carried it, and all other messages stay in order. The devices
of a claim that failed for good, which were missing until then, are not missing any more and failed; the
others are as they were. All else is spared: the keys of the device, the tracked users with what is outdated,
the device lists, the servers that failed, signatures, sessions and the backup. -/
theorem failure_policy (userId : UserId) (deviceId : DeviceId) (deviceKeys : Opaque) (settings : Settings)
    (ids : IdSource) (calls : List (Instant × Call)) (now : Instant) (r : OutgoingRequest)
    (failure : Failure) :
    let m := ((new userId deviceId deviceKeys settings ids).run calls).2
    let result := m.inPlace now (.markAsSent r.id (.failure failure))
    let m' := result.2
    r ∈ m.inFlightRequests → result.1 = .done ∧ m.Spares m' ∧
    (m'.messages.toDevice.toList = (m.messages.toDevice.toList.filter fun e =>
        failure.dropped? r.payload ≠ some (.toDevice, e.1)) ∧
      m'.messages.roomMessages.toList = (m.messages.roomMessages.toList.filter fun e =>
        failure.dropped? r.payload ≠ some (.roomMessage, e.1)) ∧
      ∀ message, failure.dropped? r.payload = some message →
        m.messages.payload? message = some r.payload) ∧
    m'.sessions.established = m.sessions.established ∧
    (failure.abandoned r.payload = [] → m'.sessions = m.sessions) ∧
    ∀ device,
      (device ∈ failure.abandoned r.payload →
        (device ∈ m.devicesForKeyClaim ∧ m.isSessionFailed device = false) ∧
          device ∉ m'.devicesForKeyClaim ∧ m'.isSessionFailed device = true) ∧
      (device ∉ failure.abandoned r.payload →
        (device ∈ m'.devicesForKeyClaim ↔ device ∈ m.devicesForKeyClaim) ∧
          m'.isSessionFailed device = m.isSessionFailed device) := by
  intro m result m' hr
  have hm : Reached ((new userId deviceId deviceKeys settings ids).turns calls) m :=
    (Reached.new userId deviceId deviceKeys settings ids).run calls
  let ended : Machine := m.withOutcome now r (.failure failure)
  have hresult : result = (.done, ended.decisionPass now) :=
    (inPlace_eq_step m now _).trans (step_markAsSent_eq hr (Outcome.mismatch?_failure _ _) now)
  have hm' : m' = ended.decisionPass now := congrArg Prod.snd hresult
  have hspares : m.Spares m' := by
    rw [hm']
    exact (spares_withOutcome_failure m now r failure).trans (spares_decisionPass ended now)
  -- the pass that follows only adds to the queue and notes queries
  have hmessages : m'.messages = ended.messages := by rw [hm', decisionPass, addAll_messages]
  have hsessions : m'.sessions = ended.sessions := by rw [hm', decisionPass, addAll_sessions]
  obtain ⟨htoDevice, hroom⟩ := messages_withOutcome_failure m now r failure
  obtain ⟨hestablished, hnone⟩ := sessions_withOutcome_failure m now r failure
  refine ⟨congrArg Prod.fst hresult, hspares, ⟨?_, ?_, fun _ hd => hm.payload?_dropped hr hd⟩, ?_, ?_, ?_⟩
  · rw [hmessages, htoDevice]
  · rw [hmessages, hroom]
  · rw [hsessions, hestablished]
  · rw [hsessions]
    exact hnone
  · intro device
    obtain ⟨hgiven, hkept⟩ := hm.device_withOutcome_failure hr now failure device
    unfold devicesForKeyClaim isSessionFailed Sessions.isFailed
    rw [hsessions]
    constructor
    · intro h
      obtain ⟨⟨hmissing, hfailed⟩, hmissing', hfailed'⟩ := hgiven h
      exact ⟨⟨hmissing, Bool.eq_false_iff.2 hfailed⟩, hmissing', hfailed'⟩
    · intro h
      obtain ⟨hmissing, hfailed⟩ := hkept h
      exact ⟨hmissing, Bool.eq_iff_iff.2 hfailed⟩

/-- A claim and a message are in flight. When the claim fails for good, its device counts as failed and the
message stays; when the message fails for good, it is dropped and the device is still missing. -/
theorem failure_policy_claim_and_message :
    let phone : Cell UserId DeviceId := ⟨Sample.alice, "PHONE"⟩
    let calls : List (Instant × Call) := [(0, .markSessionsMissing Sample.alice ["PHONE"]),
      (0, .queueToDevice "m.test" Sample.toBob), (0, .outgoingRequests)]
    let never : Failure := .permanent "never"
    let m := (Sample.machine.run calls).2
    ∃ claim ∈ m.inFlightRequests, ∃ message ∈ m.inFlightRequests,
      let m₁ := (m.inPlace 1 (.markAsSent claim.id (.failure never))).2
      let m₂ := (m.inPlace 1 (.markAsSent message.id (.failure never))).2
      (phone ∈ m.devicesForKeyClaim ∧ phone ∉ m₁.devicesForKeyClaim ∧ m₁.isSessionFailed phone = true ∧
        m₁.messages.toDevice.toList.map Prod.fst = ["r-0"]) ∧
      phone ∈ m₂.devicesForKeyClaim ∧ m₂.messages.toDevice.toList = [] := by
  intro phone calls never m
  have hrun : ∃ upload query claim message, m.inFlightRequests = [upload, query, claim, message] ∧
      claim.payload.claimed = [phone] ∧ never.dropped? claim.payload = none ∧
      message.payload.claimed = [] ∧ never.dropped? message.payload = some (.toDevice, "r-0") ∧
      m.messages.toDevice.toList.map Prod.fst = ["r-0"] :=
    ⟨_, _, _, _, rfl, by decide +kernel, by decide +kernel, rfl, by decide +kernel, by decide +kernel⟩
  obtain ⟨upload, query, claim, message, hin, hclaimed, hkept, hnone, hdropped, hheld⟩ := hrun
  have hclaim : claim ∈ m.inFlightRequests := by simp [hin]
  have hmessage : message ∈ m.inFlightRequests := by simp [hin]
  have hm : ((new Sample.alice "DEVICE" .null .default (.counting "r")).run calls).2 = m := rfl
  have hnever : never.isPermanent = true := by decide
  have hgiven : phone ∈ never.abandoned claim.payload := by simp [Failure.abandoned, hnever, hclaimed]
  have hnot : phone ∉ never.abandoned message.payload := by simp [Failure.abandoned, hnone]
  obtain ⟨-, -, ⟨hmessages, -, -⟩, -, -, hdevices⟩ := failure_policy Sample.alice "DEVICE" .null .default
    (.counting "r") calls 1 claim never hclaim
  obtain ⟨-, -, ⟨hmessages', -, -⟩, -, -, hdevices'⟩ := failure_policy Sample.alice "DEVICE" .null .default
    (.counting "r") calls 1 message never hmessage
  obtain ⟨⟨hmissing, -⟩, hleft, hfailed⟩ := (hdevices phone).1 hgiven
  refine ⟨claim, hclaim, message, hmessage, ⟨hmissing, hleft, hfailed, ?_⟩, ?_, ?_⟩
  · refine (congrArg (List.map Prod.fst) hmessages).trans ?_
    rw [hm, hkept]
    simpa using hheld
  · exact ((hdevices' phone).2 hnot).1.2 hmissing
  · refine hmessages'.trans ?_
    rw [hm, hdropped]
    have hall : ∀ e ∈ m.messages.toDevice.toList, e.1 = "r-0" := by
      intro e he
      have hfst : e.1 ∈ m.messages.toDevice.toList.map Prod.fst := List.mem_map_of_mem he
      simpa [hheld] using hfst
    simpa [List.filter_eq_nil_iff] using fun a b h => (hall (a, b) h).symm

end Machine
end Outbox
