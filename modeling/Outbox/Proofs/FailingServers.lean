/-
# Servers that do not answer

A server that a response lists among those that failed is on record from then on, and left alone for 15
seconds at least. No decision pass asks about the users of a server that is left alone. But a response
that also has devices of users of the server, even of users that nobody asked about, takes the server off
the record again, whereas the users that were asked about stay outdated, since they belong to a server
that failed: the next pass asks about them at once.

Key definitions: `Turn.Asks`.
Key theorems: `DeviceLists.exists_failure_receiveQuery`, `DeviceLists.get?_failures_receiveQuery`,
`Machine.Reached.isBeingQueried_withOutcome`, `Machine.failing_server_left_alone`.
-/
import Outbox.Proofs.Backing
import Outbox.Proofs.Coherence
import Outbox.Proofs.Needs

namespace Outbox

/-! ### What a response says of servers -/

namespace DeviceLists

variable {d : DeviceLists} {response : KeysQueryResponse} {s : ServerName} {u : UserId} {now now' : Instant}
  {id : RequestId}

theorem mem_failedServers (hs : s ≠ d.ownUser.server) (hf : s.text ∈ response.failures) :
    s ∈ d.failedServers response := by
  unfold failedServers
  rw [List.mem_filter]
  refine ⟨List.mem_filterMap.2 ⟨s.text, SortedMap.mem_keys.2 hf, Ident.parse?_text s⟩, ?_⟩
  rw [decide_eq_true_eq]
  exact hs

/-- A server that a response lists as failed, without devices of its users, is on record since then. -/
theorem exists_failure_receiveQuery (hs : s ≠ d.ownUser.server) (hf : s.text ∈ response.failures)
    (hnone : ∀ v ∈ response.deviceKeys, v.server ≠ s) (now : Instant) (id : RequestId) :
    ∃ i, (d.receiveQuery now id response).failures.items.get? s = some i ∧ i.since = now := by
  have hnot : s ∉ response.deviceKeys.keys.map UserId.server := by
    rw [List.mem_map]
    rintro ⟨v, hv, he⟩
    exact hnone v (SortedMap.mem_keys.1 hv) he
  obtain ⟨i, hi, hsince⟩ := Backoff.exists_get?_extend (b := d.failures) (mem_failedServers hs hf)
  exact ⟨i, (Backoff.get?_remove_of_notMem hnot).trans hi, hsince⟩

/-- A server of whose users a response has devices is taken off the record, even if it is listed as
failed. -/
theorem get?_failures_receiveQuery (hu : u ∈ response.deviceKeys) (now : Instant) (id : RequestId) :
    (d.receiveQuery now id response).failures.items.get? u.server = none :=
  Backoff.get?_remove_of_mem (List.mem_map_of_mem (SortedMap.mem_keys.2 hu))

/-- A user whose devices a response does not list stays outdated. -/
theorem mem_outdatedUsers_receiveQuery_of_not_lists (hu : u ∈ d.outdatedUsers)
    (hn : ¬ Lists d.ownUser response u) : u ∈ (d.receiveQuery now id response).outdatedUsers := by
  obtain ⟨n, ht⟩ := mem_outdatedUsers.1 hu
  have hsame : (d.queriesInFlight.get? id).any (d.bringsUpToDate · response u ⟨true, n⟩) = false := by
    rw [Option.any_eq_false]
    exact fun details _ => Bool.eq_false_iff.2 fun hb => hn (bringsUpToDate_iff.1 hb).2.1
  refine mem_outdatedUsers.2 ⟨n, ?_⟩
  rw [get?_tracked_receiveQuery, ht, Option.map_some, hsame]
  rfl

end DeviceLists

/-! ### What a pass asks about -/

/-- The decision pass of the turn queued a query for the user. -/
def Turn.Asks (t : Turn) (u : UserId) : Prop :=
  ∃ r ∈ t.decided, ∃ q, r.payload = .keysQuery q ∧ u ∈ q.users

namespace Machine

variable {m m' : Machine} {h : List Turn} {r : OutgoingRequest} {q : KeysQuery} {u : UserId}
  {s : ServerName} {outcome : Outcome} {response : KeysQueryResponse} {now now' : Instant}

/-- A pass only asks about users that are to be queried. -/
theorem eligible_of_mem_decided (hr : r ∈ m.decided now) (hq : r.payload = .keysQuery q)
    (hu : u ∈ q.users) : u ∈ m.deviceLists.eligibleUsers now := by
  have hneeds := needs_of_mem_wanted (payload_mem_of_mem_added hr)
  rw [hq] at hneeds
  exact mem_eligibleUsers_of_mem_queries hneeds hu

/-- A pass asks about all users that are to be queried, unless the queue is full. -/
theorem isFull_or_asks (hu : u ∈ m.deviceLists.eligibleUsers now) :
    (m.decisionPass now).queue.isFull = true ∨
      ∃ r ∈ m.decided now, ∃ q, r.payload = .keysQuery q ∧ u ∈ q.users := by
  rcases m.isFull_or_payloads_added (m.wanted now) with hfull | hall
  · exact .inl hfull
  · obtain ⟨q, hq, hu⟩ := exists_wantedKeysQuery hu
    have hw : .keysQuery q ∈ m.wanted now := mem_wanted.2 (.inr (.inl hq))
    rw [← hall] at hw
    obtain ⟨r, hr, he⟩ := List.mem_map.1 hw
    exact .inr ⟨r, hr, q, he, hu⟩

/-- No other query asks about the users of a query: once it ended, they are not being queried. -/
theorem Reached.isBeingQueried_withOutcome (hm : Reached h m) (hr : r ∈ m.queue.inFlight)
    (hd : r ∈ h.flatMap Turn.decided) (hq : r.payload = .keysQuery q) (hu : u ∈ q.users)
    (fits : outcome.mismatch? r.kind = none) (now : Instant) :
    (m.withOutcome now r outcome).deviceLists.isBeingQueried u = false := by
  rw [Bool.eq_false_iff]
  intro hbusy
  obtain ⟨x, hx, hdx, q', hq', hu'⟩ := (hm.notesQueries.complete hr now fits).isBeingQueried_iff.1 hbusy
  rw [withOutcome_queue, Queue.mem_contents_withoutRequest] at hx
  have hne : r ≠ x := fun h => hx.2 (congrArg OutgoingRequest.id h.symm)
  refine hm.worksOnce.not_overlaps (Queue.mem_contents_iff.2 (.inr hr)) hx.1 hne hd hdx ?_
  rw [hq, hq']
  exact ⟨u, hu, hu'⟩

/-- The device lists when a query was answered. -/
theorem deviceLists_withOutcome_keysQuery (hk : r.kind = .keysQuery) :
    (m.withOutcome now r (.success (.keysQuery response))).deviceLists =
      m.deviceLists.receiveQuery now r.id response := by
  obtain ⟨id, payload⟩ := r
  cases payload <;> cases hk
  rfl

/-! ### A response that lists a failed server -/

/-- The turn in which a query is answered. -/
def answerTurn (m : Machine) (now : Instant) (r : OutgoingRequest) (response : KeysQueryResponse) : Turn :=
  m.turn now (.markAsSent r.id (.success (.keysQuery response)))

theorem fits_keysQuery (hk : r.kind = .keysQuery) (response : KeysQueryResponse) :
    (Outcome.success (.keysQuery response)).mismatch? r.kind = none :=
  Outcome.mismatch?_success_eq_none_iff.2 hk.symm

theorem decided_answerTurn (hr : r ∈ m.queue.inFlight) (hk : r.kind = .keysQuery) :
    (m.answerTurn now r response).decided =
      (m.withOutcome now r (.success (.keysQuery response))).decided now := by
  have fits := fits_keysQuery hk response
  rw [answerTurn, turn_markAsSent_eq hr fits, Turn.decided_markAsSent hr fits]

theorem after_answerTurn (hr : r ∈ m.queue.inFlight) (hk : r.kind = .keysQuery) :
    (m.answerTurn now r response).after =
      (m.withOutcome now r (.success (.keysQuery response))).decisionPass now := by
  rw [answerTurn, turn_markAsSent_eq hr (fits_keysQuery hk response)]

theorem failures_answerTurn (hr : r ∈ m.queue.inFlight) (hk : r.kind = .keysQuery) :
    (m.answerTurn now r response).after.deviceLists.failures =
      (m.deviceLists.receiveQuery now r.id response).failures := by
  rw [after_answerTurn hr hk, decisionPass, addAll_failures, deviceLists_withOutcome_keysQuery hk]

/-- Nobody of a server is asked about while the server is left alone. -/
theorem not_asks_outgoingRequests (halone : m.deviceLists.failures.contains now u.server = true) :
    ¬ (m.turn now .outgoingRequests).Asks u := by
  rintro ⟨x, hx, q, hq, hu⟩
  have hdecided : x ∈ m.decided now := hx
  have hel := eligible_of_mem_decided hdecided hq hu
  rw [(DeviceLists.mem_eligibleUsers.1 hel).2.2] at halone
  cases halone

/-- The pass after a response asks about nobody of a server that the response put on record. -/
theorem not_asks_answerTurn (hr : r ∈ m.queue.inFlight) (hk : r.kind = .keysQuery)
    (halone : (m.deviceLists.receiveQuery now r.id response).failures.contains now u.server = true) :
    ¬ (m.answerTurn now r response).Asks u := by
  rintro ⟨x, hx, q, hq, hu⟩
  rw [decided_answerTurn hr hk] at hx
  have hel := eligible_of_mem_decided hx hq hu
  have hnot := (DeviceLists.mem_eligibleUsers.1 hel).2.2
  rw [deviceLists_withOutcome_keysQuery hk, halone] at hnot
  cases hnot

/-- A user that was asked about, of a server that failed and yet was taken off the record, is asked about
again at once, unless the queue is full. -/
theorem Reached.asks_answerTurn (hm : Reached h m) (hr : r ∈ m.queue.inFlight)
    (hd : r ∈ h.flatMap Turn.decided) (hq : r.payload = .keysQuery q) (hu : u ∈ q.users)
    (hs : u.server ≠ m.userId.server) (hf : u.server.text ∈ response.failures)
    (hoff : (m.deviceLists.receiveQuery now r.id response).failures.items.get? u.server = none) :
    (m.answerTurn now r response).after.queue.isFull = true ∨ (m.answerTurn now r response).Asks u := by
  have hk : r.kind = .keysQuery := congrArg Payload.kind hq
  have houtdated : u ∈ m.deviceLists.outdatedUsers := by
    have hback := hm.backed r (Queue.mem_contents_iff.2 (.inr hr)) hd
    rw [hq] at hback
    exact hback u hu
  have hnot : ¬ DeviceLists.Lists m.deviceLists.ownUser response u := by
    rintro ⟨-, hown | hnone⟩
    · exact hs (by rw [hown, hm.coherent.ownUser])
    · exact hnone hf
  have hel : u ∈ (m.withOutcome now r (.success (.keysQuery response))).deviceLists.eligibleUsers now := by
    have hfree := hm.isBeingQueried_withOutcome hr hd hq hu (fits_keysQuery hk response) now
    rw [deviceLists_withOutcome_keysQuery hk] at hfree ⊢
    exact DeviceLists.mem_eligibleUsers.2
      ⟨DeviceLists.mem_outdatedUsers_receiveQuery_of_not_lists houtdated hnot, hfree,
        Backoff.contains_of_get?_eq_none hoff now⟩
  rw [Turn.Asks, decided_answerTurn hr hk, after_answerTurn hr hk]
  exact isFull_or_asks hel

/-- **A server that failed is left alone**, whatever calls were made to a new machine, if the response
that lists it as failed has no devices of its users: neither the decision pass after the response nor one
at a time when the wait of the server lasts asks about its users, and the wait lasts for 15 seconds at
least. If the response has devices of any of its users, the server is not left alone at any time, and the
users of the server that the query was about are asked about again by the pass after the response, unless
the queue is full. -/
theorem failing_server_left_alone (userId : UserId) (deviceId : DeviceId) (deviceKeys : Opaque)
    (settings : Settings) (ids : IdSource) (calls : List (Instant × Call)) (now : Instant)
    (r : OutgoingRequest) (response : KeysQueryResponse) (s : ServerName) :
    let h := (new userId deviceId deviceKeys settings ids).turns calls
    let m := ((new userId deviceId deviceKeys settings ids).run calls).2
    let t := m.answerTurn now r response
    r ∈ m.inFlightRequests → r.kind = .keysQuery → s ≠ userId.server → s.text ∈ response.failures →
    ((∀ v ∈ response.deviceKeys, v.server ≠ s) →
      (∀ now' < now + Backoff.firstDelaySeconds * nanosPerSecond,
        t.after.deviceLists.failures.contains now' s = true) ∧
      ∀ u : UserId, u.server = s → ¬ t.Asks u ∧
        ∀ now', t.after.deviceLists.failures.contains now' s = true →
          ¬ (t.after.turn now' .outgoingRequests).Asks u) ∧
    ((∃ v ∈ response.deviceKeys, v.server = s) →
      (∀ now', t.after.deviceLists.failures.contains now' s = false) ∧
      ∀ u q, r.payload = .keysQuery q → r ∈ h.flatMap Turn.decided → u ∈ q.users → u.server = s →
        t.after.queue.isFull = true ∨ t.Asks u) := by
  intro h m t hr hk hs hf
  have hm : Reached h m := (Reached.new userId deviceId deviceKeys settings ids).run calls
  have huser : m.userId = userId := userId_run _ calls
  have hown : s ≠ m.deviceLists.ownUser.server := by
    rw [hm.coherent.ownUser, huser]
    exact hs
  have hfail : t.after.deviceLists.failures = (m.deviceLists.receiveQuery now r.id response).failures :=
    failures_answerTurn hr hk
  constructor
  · intro hnone
    obtain ⟨i, hi, hsince⟩ := DeviceLists.exists_failure_receiveQuery hown hf hnone now r.id
    have hwait : ∀ now' < now + Backoff.firstDelaySeconds * nanosPerSecond,
        (m.deviceLists.receiveQuery now r.id response).failures.contains now' s = true := fun now' hlt =>
      Backoff.contains_of_record hi (by rw [hsince]; exact hlt)
    rw [hfail]
    refine ⟨hwait, ?_⟩
    rintro u rfl
    refine ⟨not_asks_answerTurn hr hk (hwait now ?_), fun now' halone => ?_⟩
    · exact Nat.lt_add_of_pos_right (by decide)
    · exact not_asks_outgoingRequests (by rw [hfail]; exact halone)
  · rintro ⟨v, hv, rfl⟩
    have hoff := m.deviceLists.get?_failures_receiveQuery hv now r.id
    refine ⟨fun now' => ?_, fun u q hq hd hu hus => ?_⟩
    · rw [hfail]
      exact Backoff.contains_of_get?_eq_none hoff now'
    · rw [← hus] at hs hf hoff
      exact hm.asks_answerTurn hr hd hq hu (by rw [huser]; exact hs) hf hoff

end Machine

namespace Sample

/-- A user of the server of another one. -/
def carol : UserId := ⟨"@carol:elsewhere.org", by decide +kernel⟩

/-- A response that lists our own user, and a server that failed. -/
def unreachable : KeysQueryResponse :=
  ⟨SortedMap.insert ∅ bob.server.text .null, SortedMap.insert ∅ alice ∅, ∅, ∅, ∅⟩

/-- A response that lists the server as failed and has devices of another user of it all the same. -/
def halfReachable : KeysQueryResponse :=
  { unreachable with deviceKeys := unreachable.deviceKeys.insert carol ∅ }

end Sample

namespace Machine

/-- A user whose server failed stays outdated, and is not asked about ten seconds later either. -/
theorem failing_server_left_alone_bob :
    let m := (Sample.machine.run [(0, .trackUsers [Sample.bob]), (0, .outgoingRequests)]).2
    ∃ r ∈ m.inFlightRequests, ¬ (m.answerTurn 0 r Sample.unreachable).Asks Sample.bob ∧
      Sample.bob ∈ (m.answerTurn 0 r Sample.unreachable).after.usersForKeyQuery ∧
      ¬ ((m.answerTurn 0 r Sample.unreachable).after.turn (10 * nanosPerSecond) .outgoingRequests).Asks
        Sample.bob := by
  intro m
  have hin : ∃ upload query, m.inFlightRequests = [upload, query] ∧ query.id = "r-1" ∧
      query.kind = .keysQuery := ⟨_, _, rfl, rfl, rfl⟩
  obtain ⟨upload, query, hin, hid, hk⟩ := hin
  have hr : query ∈ m.inFlightRequests := by simp [hin]
  have hnone : ∀ v ∈ Sample.unreachable.deviceKeys, v.server ≠ Sample.bob.server := by
    intro v hv
    rcases SortedMap.mem_insert.1 hv with rfl | hv
    · decide +kernel
    · cases hv
  obtain ⟨hwait, hquiet⟩ := (failing_server_left_alone Sample.alice "DEVICE" .null .default
    (.counting "r") [(0, .trackUsers [Sample.bob]), (0, .outgoingRequests)] 0 query Sample.unreachable
    Sample.bob.server hr hk (by decide +kernel) (by decide +kernel)).1 hnone
  obtain ⟨hmark, hlater⟩ := hquiet Sample.bob rfl
  refine ⟨query, hr, hmark, ?_, hlater _ (hwait _ (by decide))⟩
  rw [answerTurn, hid]
  decide +kernel

/-- A server that failed is not always left alone: the user is asked about again by the pass after the
response. -/
theorem failing_server_asked_again :
    let m := (Sample.machine.run [(0, .trackUsers [Sample.bob]), (0, .outgoingRequests)]).2
    ∃ r ∈ m.inFlightRequests, r.kind = .keysQuery ∧ Sample.bob.server ≠ m.userId.server ∧
      Sample.bob.server.text ∈ Sample.halfReachable.failures ∧
      (m.answerTurn 0 r Sample.halfReachable).Asks Sample.bob := by
  intro m
  have hrun : (m.inFlightRequests.any fun r => r.kind == .keysQuery &&
      (m.answerTurn 0 r Sample.halfReachable).decided.any fun x =>
        x.payload.keysQuery?.any fun q => q.users.contains Sample.bob) = true := by decide +kernel
  simp only [List.any_eq_true, Bool.and_eq_true, beq_iff_eq] at hrun
  obtain ⟨r, hr, hk, x, hx, hq⟩ := hrun
  obtain ⟨q, hq, hu⟩ := (Option.any_eq_true _ _).1 hq
  have hpay : x.payload = .keysQuery q := Payload.keysQuery?_eq_some_iff.1 hq
  exact ⟨r, hr, hk, by decide +kernel, by decide +kernel, x, hx, q, hpay, hu⟩

end Machine
end Outbox
