/-
# Failed requests are made again

A failure after which a request is made again changes nothing that the machine decides on but the note on
a query. So the pass after the failure finds what the last one found, with all requests of that one still
queued but the failed one. Besides queries it wants the failed request and no other. Queries are made for the
users of the failed one, and since the passes may be some time apart, for those whose server was left alone
in the first and no longer is. If there is no such server, the users of the failed query fill one batch, as
they did before.

Key definitions: `Failure.Retries`, `Machine.batchedQueries`, `Machine.afterFailure`.
Key theorems: `Machine.batchedQueries_eq_singleton`, `Machine.afterFailure_eq`,
`Machine.Reached.isBeingQueried_afterFailure`, `Machine.Reached.mem_eligibleUsers_afterFailure`,
`Machine.Reached.wanted_afterFailure_perm`, `Machine.failed_request_rederived`.
-/
import Outbox.Proofs.BoundedPass
import Outbox.Proofs.Commutation
import Outbox.Proofs.FailingServers

namespace Outbox

/-- A request of the kind is made again after the failure: sending it again may help, or the kind is one
that is not given up. -/
def Failure.Retries (failure : Failure) (kind : RequestKind) : Prop :=
  failure.isPermanent = true →
    kind = .keysUpload ∨ kind = .keysQuery ∨ kind = .signatureUpload ∨ kind = .keysBackup

namespace Machine

variable {m m' : Machine} {h : List Turn} {r : OutgoingRequest} {p : Payload} {q : KeysQuery} {u : UserId}
  {failure : Failure} {now now' : Instant}

/-! ### Queries for users -/

/-- The queries for users, with as many of them in each as fit. -/
def batchedQueries (m : Machine) (users : List UserId) : List KeysQuery :=
  (batches m.settings.keyQueryBatchSize.toNat users).filterMap fun users =>
    (KeysQuery.ofUsers (.ofKeys users) (some m.settings.keyQueryTimeout) m.deviceLists.syncToken).toOption

/-- The queries that a machine wants are those for the users who are to be queried. -/
theorem wantedKeysQueries_eq (m : Machine) (now : Instant) :
    m.wantedKeysQueries now = (m.batchedQueries (m.deviceLists.eligibleUsers now)).map .keysQuery := rfl

/-- A query is made again as it was for the same users. -/
theorem batchedQueries_eq_singleton {users : List UserId} (hq : q ∈ m.deviceLists.queries m.settings now)
    (hnodup : users.Nodup) (husers : ∀ u, u ∈ users ↔ u ∈ q.users) : m.batchedQueries users = [q] := by
  obtain ⟨b, hb, hok⟩ := DeviceLists.mem_queries.1 hq
  have hmem : ∀ u, u ∈ users ↔ u ∈ b := fun u => by
    rw [husers, KeysQuery.users_of_ofUsers hok, SortedSet.mem_ofKeys]
  have hlen : users.length ≤ b.length := (List.subperm_of_subset hnodup fun u => (hmem u).1).length_le
  have hne : users ≠ [] := by
    obtain ⟨u, hu⟩ := List.exists_mem_of_ne_nil b (ne_nil_of_mem_batchesFrom hb)
    exact List.ne_nil_of_mem ((hmem u).2 hu)
  have hset : SortedSet.ofKeys users = SortedSet.ofKeys b :=
    SortedSet.eq_of_mem_iff fun u => by rw [SortedSet.mem_ofKeys, SortedSet.mem_ofKeys, hmem]
  rw [batchedQueries, batches_of_length_le hb hne hlen, List.filterMap_cons, hset, hok]
  rfl

/-! ### The failure -/

/-- The machine after a request was handed out and failed, before it decides what else is needed. -/
def afterFailure (m : Machine) (now now' : Instant) (r : OutgoingRequest) (failure : Failure) : Machine :=
  (m.step now .outgoingRequests).2.withOutcome now' r (.failure failure)

/-- A failure after which a request is made again only touches the queue and the note on the request. -/
theorem withOutcome_failure_eq (m : Machine) (now : Instant) (hf : failure.Retries r.kind) :
    ∃ notes, m.withOutcome now r (.failure failure) = { m with
      deviceLists := { m.deviceLists with queriesInFlight := notes }
      queue := m.queue.withoutRequest r.id } := by
  obtain ⟨name, payload⟩ := r
  cases payload with
  | keysQuery q => exact ⟨_, rfl⟩
  | keysClaim | toDevice | roomMessage =>
    have hp : failure.isPermanent = false := by
      rw [Bool.eq_false_iff]
      intro hp
      obtain hk | hk | hk | hk := hf hp <;> cases hk
    refine ⟨m.deviceLists.queriesInFlight, ?_⟩
    simp [withOutcome, receiveOutcome, receiveFailure, hp]
  | _ => exact ⟨_, rfl⟩

theorem afterFailure_eq (m : Machine) (now now' : Instant) (hf : failure.Retries r.kind) :
    ∃ notes, m.afterFailure now now' r failure = { m with
      minted := m.minted + (m.decided now).length
      deviceLists := { m.deviceLists with queriesInFlight := notes }
      queue := (m.decisionPass now).queue.drainPending.2.withoutRequest r.id } := by
  obtain ⟨notes, he⟩ := withOutcome_failure_eq (m.step now .outgoingRequests).2 now' hf
  refine ⟨notes, ?_⟩
  rw [afterFailure, he]
  simp only [step, outgoingRequests, decisionPass]
  rw [addAll_eq, foldl_noteDecision_eq]
  rfl

theorem queue_outgoingRequests (m : Machine) (now : Instant) :
    (m.step now .outgoingRequests).2.queue = (m.decisionPass now).queue.drainPending.2 := rfl

/-- The requests that wait are handed out, and those of the pass after them. -/
theorem handedOut_outgoingRequests (hm : m.Named) (now : Instant) :
    (m.turn now .outgoingRequests).handedOut = m.queue.pending ++ m.decided now := by
  simp only [turn, step, outgoingRequests, Queue.drainPending, Turn.handedOut]
  rw [decisionPass, pending_addAll hm, decided]

/-- What is queued once the requests of the pass were handed out. -/
theorem mem_contents_outgoingRequests (hm : m.Named) {x : OutgoingRequest} :
    x ∈ (m.step now .outgoingRequests).2.queue.contents ↔
      x ∈ m.queue.contents ∨ x ∈ m.decided now := by
  rw [queue_outgoingRequests, Queue.contents_drainPending]
  exact mem_contents_addAll hm

/-- What was decided once the requests of the pass were handed out. -/
theorem flatMap_decided_outgoingRequests (h : List Turn) (m : Machine) (now : Instant) :
    (h ++ [m.turn now .outgoingRequests]).flatMap Turn.decided = h.flatMap Turn.decided ++ m.decided now := by
  rw [List.flatMap_append, List.flatMap_singleton]
  rfl

/-- The requests of a pass are in flight once they were handed out. -/
theorem mem_inFlight_outgoingRequests (hm : m.Named) (hr : r ∈ m.decided now) :
    r ∈ (m.step now .outgoingRequests).2.queue.inFlight := by
  rw [queue_outgoingRequests, Queue.inFlight_drainPending]
  exact (mem_contents_addAll hm).2 (.inr hr)

/-- What is queued after the failure. -/
theorem mem_contents_afterFailure (hm : m.Named) {x : OutgoingRequest} :
    x ∈ (m.afterFailure now now' r failure).queue.contents ↔
      (x ∈ m.queue.contents ∨ x ∈ m.decided now) ∧ x.id ≠ r.id := by
  rw [afterFailure, withOutcome_queue, Queue.mem_contents_withoutRequest, mem_contents_outgoingRequests hm]

section

variable (hm : Reached h m) (hcap : m.queue.capacity = none) (hr : r ∈ m.decided now)
  (hf : failure.Retries r.kind)

include hm hr in
/-- What was queued before the pass still is after the failure. -/
theorem Reached.mem_contents_afterFailure {x : OutgoingRequest} (hx : x ∈ m.queue.contents) :
    x ∈ (m.afterFailure now now' r failure).queue.contents :=
  (Machine.mem_contents_afterFailure hm.agrees.named).2
    ⟨.inl hx, fun he => not_minted_of_mem_added hr (he ▸ hm.agrees.named x hx)⟩

include hm hr in
/-- All other requests of the pass still are queued after the failure. -/
theorem Reached.eq_or_mem_contents_afterFailure {x : OutgoingRequest} (hx : x ∈ m.decided now) :
    x = r ∨ x ∈ (m.afterFailure now now' r failure).queue.contents := by
  by_cases hid : x.id = r.id
  · exact .inl (List.inj_on_of_nodup_map (m.nodup_ids_added _) hx hr hid)
  · exact .inr ((Machine.mem_contents_afterFailure hm.agrees.named).2 ⟨.inr hx, hid⟩)

include hm hcap hr hf in
/-- Besides queries, the failed request is wanted after the failure and nothing else. -/
theorem Reached.mem_wanted_afterFailure_of_kind (hk : p.kind ≠ .keysQuery) :
    p ∈ (m.afterFailure now now' r failure).wanted now' ↔ p = r.payload := by
  obtain ⟨notes, he⟩ := m.afterFailure_eq now now' hf
  have hneeds : (m.afterFailure now now' r failure).Needs now' p ↔ m.Needs now p := by
    refine needs_congr hk ?_ ?_ ?_ ?_ ?_ <;> rw [he]
  constructor
  · intro hp
    have hfree : ∀ x ∈ (m.afterFailure now now' r failure).queue.contents, ¬ x.payload.Overlaps p :=
      fun x => not_overlaps_of_mem_wanted_of_kind hp hk
    -- The pass wanted it as well and queued it. All that it queued still is, but the failed request.
    have hwanted : p ∈ m.wanted now := mem_wanted_of_needs (hneeds.1 (needs_of_mem_wanted hp))
      fun x hx => hfree x (hm.mem_contents_afterFailure hr hx)
    rw [← payloads_added_of_unlimited hcap (m.wanted now)] at hwanted
    obtain ⟨x, hx, rfl⟩ := List.mem_map.1 hwanted
    rcases hm.eq_or_mem_contents_afterFailure hr hx with rfl | hx
    · rfl
    · exact absurd x.payload.overlaps_self (hfree x hx)
  · rintro rfl
    refine mem_wanted_of_needs (hneeds.2 (needs_of_mem_wanted (payload_mem_of_mem_added hr))) ?_
    intro x hx
    obtain ⟨hx, hid⟩ := (Machine.mem_contents_afterFailure hm.agrees.named).1 hx
    exact (hm.step now .outgoingRequests).not_overlaps
      ((mem_contents_outgoingRequests hm.agrees.named).2 hx)
      ((mem_contents_outgoingRequests hm.agrees.named).2 (.inr hr))
      (fun he => hid (congrArg OutgoingRequest.id he)) (.inr hk)

/-! ### Who is to be queried -/

include hm hr in
/-- After the failure those are being queried who were before the pass, and the users of its other queries. -/
theorem Reached.isBeingQueried_afterFailure :
    (m.afterFailure now now' r failure).deviceLists.isBeingQueried u = true ↔
      m.deviceLists.isBeingQueried u = true ∨
        ∃ x ∈ m.decided now, x.id ≠ r.id ∧ ∃ q, x.payload = .keysQuery q ∧ u ∈ q.users := by
  have hnamed := hm.agrees.named
  have hnotes : (m.afterFailure now now' r failure).NotesQueries (h.flatMap Turn.decided ++ m.decided now) := by
    rw [← flatMap_decided_outgoingRequests]
    exact (hm.step now .outgoingRequests).notesQueries.complete (mem_inFlight_outgoingRequests hnamed hr)
      now' rfl
  rw [hnotes.isBeingQueried_iff, hm.notesQueries.isBeingQueried_iff]
  constructor
  · rintro ⟨x, hx, hd, hq⟩
    obtain ⟨hx, hid⟩ := (Machine.mem_contents_afterFailure hnamed).1 hx
    rcases hx with hx | hx
    · exact .inl ⟨x, hx, mem_of_mem_append_added hnamed hx hd, hq⟩
    · exact .inr ⟨x, hx, hid, hq⟩
  · rintro (⟨x, hx, hd, hq⟩ | ⟨x, hx, hid, hq⟩)
    · exact ⟨x, hm.mem_contents_afterFailure hr hx, List.mem_append_left _ hd, hq⟩
    · exact ⟨x, (Machine.mem_contents_afterFailure hnamed).2 ⟨.inr hx, hid⟩, List.mem_append_right _ hx, hq⟩

include hm hr in
/-- No other query of the pass has a user of the failed one. -/
theorem Reached.notMem_users_of_mem_decided {x : OutgoingRequest} {q' : KeysQuery} (hx : x ∈ m.decided now)
    (hid : x.id ≠ r.id) (hq : r.payload = .keysQuery q) (hu : u ∈ q.users) (hq' : x.payload = .keysQuery q') :
    u ∉ q'.users := by
  intro hu'
  have hmem : ∀ y ∈ m.decided now, y ∈ (m.step now .outgoingRequests).2.queue.contents := fun y hy =>
    (mem_contents_outgoingRequests hm.agrees.named).2 (.inr hy)
  have hdecided : ∀ y ∈ m.decided now,
      y ∈ (h ++ [m.turn now .outgoingRequests]).flatMap Turn.decided := fun y hy => by
    rw [flatMap_decided_outgoingRequests]
    exact List.mem_append_right _ hy
  refine (hm.step now .outgoingRequests).worksOnce.not_overlaps (hmem r hr) (hmem x hx)
    (fun he => hid (congrArg OutgoingRequest.id he.symm)) (hdecided r hr) (hdecided x hx) ?_
  rw [hq, hq']
  exact ⟨u, hu, hu'⟩

include hm hcap hr hf in
/-- **Who is to be queried after the failure**: the users of the failed request, and those who would have been
asked about if their server had not been left alone at the time of the pass. -/
theorem Reached.mem_eligibleUsers_afterFailure (hle : now ≤ now') :
    u ∈ (m.afterFailure now now' r failure).deviceLists.eligibleUsers now' ↔
      (∃ q, r.payload = .keysQuery q ∧ u ∈ q.users) ∨
        (u ∈ m.deviceLists.outdatedUsers ∧ m.deviceLists.isBeingQueried u = false ∧
          m.deviceLists.failures.RanOut now now' u.server) := by
  obtain ⟨notes, he⟩ := m.afterFailure_eq now now' hf
  have houtdated : (m.afterFailure now now' r failure).deviceLists.outdatedUsers =
      m.deviceLists.outdatedUsers := by rw [he]; rfl
  have hfailures : (m.afterFailure now now' r failure).deviceLists.failures = m.deviceLists.failures := by
    rw [he]
  have hfree : (m.afterFailure now now' r failure).deviceLists.isBeingQueried u = false ↔
      m.deviceLists.isBeingQueried u = false ∧
        ∀ x ∈ m.decided now, x.id ≠ r.id → ∀ q, x.payload = .keysQuery q → u ∉ q.users := by
    simp only [Bool.eq_false_iff, ne_eq, hm.isBeingQueried_afterFailure hr, not_or, not_exists, not_and]
  rw [DeviceLists.mem_eligibleUsers, houtdated, hfailures, hfree]
  constructor
  · rintro ⟨hout, ⟨hbefore, hothers⟩, hopen⟩
    cases halone : m.deviceLists.failures.contains now u.server with
    | true => exact .inr ⟨hout, hbefore, halone, hopen⟩
    | false =>
      -- The pass made a query for the user, which can only be the failed one.
      have hel : u ∈ m.deviceLists.eligibleUsers now :=
        DeviceLists.mem_eligibleUsers.2 ⟨hout, hbefore, halone⟩
      obtain ⟨x, hx, q, hq, hu⟩ := (isFull_or_asks hel).resolve_left (isFull_addAll_of_unlimited hcap _)
      have hid : x.id = r.id := by
        by_contra hid
        exact hothers x hx hid q hq hu
      have hxr : x = r := List.inj_on_of_nodup_map (m.nodup_ids_added _) hx hr hid
      exact .inl ⟨q, hxr ▸ hq, hu⟩
  · rintro (⟨q, hq, hu⟩ | ⟨hout, hbefore, halone, hopen⟩)
    · obtain ⟨hout, hbefore, hopen⟩ := DeviceLists.mem_eligibleUsers.1 (eligible_of_mem_decided hr hq hu)
      refine ⟨hout, ⟨hbefore, fun x hx hid q' hq' => hm.notMem_users_of_mem_decided hr hx hid hq hu hq'⟩, ?_⟩
      rw [Bool.eq_false_iff] at hopen ⊢
      exact fun halone => hopen (Backoff.contains_mono hle halone)
    · refine ⟨hout, ⟨hbefore, fun x hx _ q hq hu => ?_⟩, hopen⟩
      rw [(DeviceLists.mem_eligibleUsers.1 (eligible_of_mem_decided hx hq hu)).2.2] at halone
      cases halone

/-! ### What is wanted -/

theorem nodup_of_not_overlaps {l : List Payload} (hl : l.Pairwise fun p q => ¬ p.Overlaps q) : l.Nodup :=
  hl.imp fun {p q} ho he => ho (by rw [he]; exact q.overlaps_self)

include hf in
/-- After the failure queries are made as before. -/
theorem batchedQueries_afterFailure (now now' : Instant) (users : List UserId) :
    (m.afterFailure now now' r failure).batchedQueries users = m.batchedQueries users := by
  obtain ⟨notes, he⟩ := m.afterFailure_eq now now' hf
  rw [he]
  rfl

include hm hcap hr hf in
/-- **What is wanted after the failure** is the failed request, if it is not a query, and the queries for those
who are to be queried then. -/
theorem Reached.wanted_afterFailure_perm :
    ((m.afterFailure now now' r failure).wanted now').Perm ((if r.kind = .keysQuery then [] else [r.payload]) ++
      (m.batchedQueries ((m.afterFailure now now' r failure).deviceLists.eligibleUsers now')).map
        .keysQuery) := by
  have hkeyed : (m.afterFailure now now' r failure).messages.Keyed := by
    obtain ⟨notes, he⟩ := m.afterFailure_eq now now' hf
    rw [he]
    exact hm.keyed
  have hretried : ∀ p, p ∈ (if r.kind = .keysQuery then [] else [r.payload]) ↔
      r.kind ≠ .keysQuery ∧ p = r.payload := by
    intro p
    split <;> simp [*]
  rw [← batchedQueries_afterFailure hf now now', ← wantedKeysQueries_eq]
  refine (List.perm_ext_iff_of_nodup (nodup_of_not_overlaps (pairwise_wanted hkeyed now')) ?_).2 fun p => ?_
  · refine List.Nodup.append ?_ (nodup_of_not_overlaps (pairwise_wantedKeysQueries _ now')) fun p hp hq => ?_
    · split <;> simp
    · obtain ⟨hne, rfl⟩ := (hretried p).1 hp
      exact hne (kind_of_mem_wantedKeysQueries hq)
  · rw [List.mem_append, hretried]
    by_cases hk : p.kind = .keysQuery
    · have hother : ¬ (r.kind ≠ .keysQuery ∧ p = r.payload) := by
        rintro ⟨hne, rfl⟩
        exact hne hk
      rw [or_iff_right hother, mem_wanted_iff_needs, and_iff_left (.inl hk)]
      cases p <;> cases hk
      exact (List.mem_map_of_injective fun _ _ => Payload.keysQuery.inj).symm
    · have hquery : p ∉ (m.afterFailure now now' r failure).wantedKeysQueries now' := fun hp =>
        hk (kind_of_mem_wantedKeysQueries hp)
      rw [or_iff_left hquery, hm.mem_wanted_afterFailure_of_kind hcap hr hf hk]
      refine (and_iff_right_of_imp ?_).symm
      rintro rfl
      exact hk

include hm hcap hr hf in
/-- If no wait ran out, the failed request is wanted after the failure and nothing else. -/
theorem Reached.wanted_afterFailure (hle : now ≤ now')
    (hwait : ∀ s, ¬ m.deviceLists.failures.RanOut now now' s) :
    (m.afterFailure now now' r failure).wanted now' = [r.payload] := by
  have husers : ∀ u, u ∈ (m.afterFailure now now' r failure).deviceLists.eligibleUsers now' ↔
      ∃ q, r.payload = .keysQuery q ∧ u ∈ q.users := fun u =>
    (hm.mem_eligibleUsers_afterFailure hcap hr hf hle).trans (or_iff_left fun hran => hwait _ hran.2.2)
  have hperm : ((m.afterFailure now now' r failure).wanted now').Perm _ :=
    hm.wanted_afterFailure_perm hcap hr hf
  by_cases hk : r.kind = .keysQuery
  · have hneeds := needs_of_mem_wanted (payload_mem_of_mem_added hr)
    obtain ⟨q, hq⟩ : ∃ q, r.payload = .keysQuery q := by
      obtain ⟨id, payload⟩ := r
      cases payload <;> cases hk
      exact ⟨_, rfl⟩
    rw [hq] at hneeds
    have hnodup : ((m.afterFailure now now' r failure).deviceLists.eligibleUsers now').Nodup :=
      SortedMap.nodup_keys _
    have hone := batchedQueries_eq_singleton hneeds hnodup fun u => by
      rw [husers, hq]
      exact ⟨fun ⟨q', hq', hu⟩ => Payload.keysQuery.inj hq' ▸ hu, fun hu => ⟨q, rfl, hu⟩⟩
    rw [if_pos hk, hone, List.nil_append, List.map_singleton, ← hq] at hperm
    exact List.perm_singleton.1 hperm
  · have hnobody : (m.afterFailure now now' r failure).deviceLists.eligibleUsers now' = [] := by
      refine List.eq_nil_iff_forall_not_mem.2 fun u hu => ?_
      obtain ⟨q, hq, -⟩ := (husers u).1 hu
      exact hk (congrArg Payload.kind hq)
    rw [if_neg hk, hnobody] at hperm
    exact List.perm_singleton.1 hperm

/-! ### The pass after the failure -/

include hm hr hf in
/-- The requests that wait after the failure are those of the pass then. -/
theorem Reached.pending_afterFailure :
    ((m.afterFailure now now' r failure).decisionPass now').queue.pending =
      (m.afterFailure now now' r failure).decided now' := by
  have hnamed : (m.afterFailure now now' r failure).Named :=
    ((hm.step now .outgoingRequests).agrees.complete (mem_inFlight_outgoingRequests hm.agrees.named hr)
      now' (.failure failure)).named
  have hpending : (m.afterFailure now now' r failure).queue.pending = [] := by
    obtain ⟨notes, he⟩ := m.afterFailure_eq now now' hf
    rw [he, Queue.pending_withoutRequest, Queue.pending_drainPending, List.filter_nil]
  rw [decisionPass, pending_addAll hnamed, hpending, List.nil_append, decided]

include hcap in
/-- The pass after the failure queues all that is wanted. -/
theorem payloads_decided_afterFailure (now now' : Instant) (r : OutgoingRequest) (failure : Failure) :
    ((m.afterFailure now now' r failure).decided now').map OutgoingRequest.payload =
      (m.afterFailure now now' r failure).wanted now' := by
  have hcap' : (m.afterFailure now now' r failure).queue.capacity = none := by
    rw [afterFailure, withOutcome_queue, queue_outgoingRequests, Queue.withoutRequest,
      Queue.capacity_drainPending, decisionPass, capacity_addAll, hcap]
  exact payloads_added_of_unlimited hcap' _

end

/-- **A failed request is made again**, whatever calls were made to a new machine without a capacity. Let
the machine hand out requests when none is waiting, and let one of them fail, now or later, in a way after
which it is made again. If no server's wait runs out between the hand-out and the failure, then exactly one
request is waiting after the failure, with the payload of the failed one and a name that was never used. In
any case names are new, and what is waiting is the failed request, if it is not a query, and queries: for
exactly the users of the failed one, and the outdated users who were not being queried and whose server was
left alone at the hand-out and no longer is at the failure. -/
theorem failed_request_rederived (userId : UserId) (deviceId : DeviceId) (deviceKeys : Opaque)
    (settings : Settings) (ids : IdSource) (calls : List (Instant × Call)) (now now' : Instant)
    (r : OutgoingRequest) (failure : Failure) :
    let m := ((new userId deviceId deviceKeys settings ids).run calls).2
    let handOut := m.turn now .outgoingRequests
    let fail := handOut.after.turn now' (.markAsSent r.id (.failure failure))
    let ranOut := m.deviceLists.failures.RanOut now now'
    settings.maxQueuedRequests = none → m.pendingRequests = [] → r ∈ handOut.handedOut → now ≤ now' →
    failure.Retries r.kind →
    fail.answer = .done ∧
    ((∀ s, ¬ ranOut s) →
      ∃ id, ¬ handOut.after.Minted id ∧ fail.after.pendingRequests = [⟨id, r.payload⟩]) ∧
    (∀ x ∈ fail.after.pendingRequests, ¬ handOut.after.Minted x.id) ∧
    ∃ users : List UserId, users.Pairwise (fun u v => compare u v = .lt) ∧
      (∀ u, u ∈ users ↔ (∃ q, r.payload = .keysQuery q ∧ u ∈ q.users) ∨
        (u ∈ m.deviceLists.outdatedUsers ∧ m.deviceLists.isBeingQueried u = false ∧ ranOut u.server)) ∧
      (fail.after.pendingRequests.map OutgoingRequest.payload).Perm
        ((if r.kind = .keysQuery then [] else [r.payload]) ++ (m.batchedQueries users).map .keysQuery) := by
  intro m handOut fail ranOut hnone hpending hr hle hf
  have hm : Reached _ m := (Reached.new userId deviceId deviceKeys settings ids).run calls
  have hcap : m.queue.capacity = none := by
    rw [hm.coherent.capacity, settings_run]
    exact congrArg _ hnone
  have hd : r ∈ m.decided now := by
    have hpend : m.queue.pending = [] := hpending
    rw [handedOut_outgoingRequests hm.agrees.named, hpend, List.nil_append] at hr
    exact hr
  have hr₁ : r ∈ handOut.after.queue.inFlight := mem_inFlight_outgoingRequests hm.agrees.named hd
  have hfail : fail = ⟨handOut.after, now', .markAsSent r.id (.failure failure), .done,
      (m.afterFailure now now' r failure).decisionPass now'⟩ := turn_markAsSent_eq hr₁ rfl now'
  have hwaiting : fail.after.pendingRequests = (m.afterFailure now now' r failure).decided now' := by
    rw [hfail]
    exact hm.pending_afterFailure hd hf
  have hpayloads := payloads_decided_afterFailure hcap now now' r failure
  rw [← hwaiting] at hpayloads
  have hnew : ∀ x ∈ fail.after.pendingRequests, ¬ handOut.after.Minted x.id := by
    intro x hx hminted
    rw [hwaiting] at hx
    exact not_minted_of_mem_added hx
      (hminted.mono (withOutcome_ids _ _ _ _) (Nat.le_of_eq (withOutcome_minted _ _ _ _).symm))
  refine ⟨congrArg Turn.answer hfail, fun hwait => ?_, hnew, _, DeviceLists.eligibleUsers_pairwise _ _,
    fun u => hm.mem_eligibleUsers_afterFailure hcap hd hf hle, ?_⟩
  · rw [hm.wanted_afterFailure hcap hd hf hle hwait] at hpayloads
    obtain ⟨x, hx, hp⟩ := List.map_eq_singleton_iff.1 hpayloads
    exact ⟨x.id, hnew x (hx ▸ List.mem_singleton_self x), by rw [hx, ← hp]⟩
  · rw [hpayloads]
    exact hm.wanted_afterFailure_perm hcap hd hf

end Machine

namespace Sample

/-- A user of our own server. -/
def dave : UserId := ⟨"@dave:example.org", by decide +kernel⟩

/-- A server did not answer about one of its users. Somebody wants to know about another one, and a user of
our own server is tracked. -/
def waiting : List (Instant × Call) :=
  [(0, .trackUsers [bob]), (0, .outgoingRequests), (0, .markAsSent "r-1" (.success (.keysQuery unreachable))),
    (0, .queryKeysFor [carol]), (0, .trackUsers [dave])]

/-- A response that lists the other user of the server, without devices. -/
def reachable : KeysQueryResponse := ⟨∅, SortedMap.insert ∅ carol ∅, ∅, ∅, ∅⟩

end Sample

namespace Machine

/-- A query that fails while the server of another user is left alone is made again as it was after 14 seconds.
After 15 seconds the wait of the server is over, and the other user is asked about as well. -/
theorem failed_request_rederived_waiting :
    let m := (Sample.machine.run Sample.waiting).2
    let handOut := m.turn 0 .outgoingRequests
    ∃ r ∈ handOut.handedOut, ∃ q, r.payload = .keysQuery q ∧ q.users.keys = [Sample.dave] ∧
      (∃ id, ¬ handOut.after.Minted id ∧
        (handOut.after.turn (14 * nanosPerSecond)
          (.markAsSent r.id (.failure (.permanent "gone")))).after.pendingRequests = [⟨id, r.payload⟩]) ∧
      ∃ users, Sample.bob ∈ users ∧ Sample.dave ∈ users ∧
        ((handOut.after.turn (15 * nanosPerSecond)
          (.markAsSent r.id (.failure (.permanent "gone")))).after.pendingRequests.map
            OutgoingRequest.payload).Perm ((m.batchedQueries users).map .keysQuery) := by
  intro m handOut
  have hrun : (handOut.handedOut.any fun r => r.payload.keysQuery?.any fun q =>
      decide (q.users.keys = [Sample.dave])) = true := by decide +kernel
  simp only [List.any_eq_true, Option.any_eq_true, decide_eq_true_eq] at hrun
  obtain ⟨r, hr, q, hq, husers⟩ := hrun
  have hpay : r.payload = .keysQuery q := Payload.keysQuery?_eq_some_iff.1 hq
  have hk : r.kind = .keysQuery := congrArg Payload.kind hpay
  have hretried := fun now' => failed_request_rederived Sample.alice "DEVICE" .null .default (.counting "r")
    Sample.waiting 0 now' r (.permanent "gone") rfl (by decide +kernel) hr (Nat.zero_le now')
    fun _ => .inr (.inl hk)
  have hsince : ∀ e ∈ m.deviceLists.failures.items.toList, e.2.since = 0 := by decide +kernel
  obtain ⟨-, honce, -⟩ := hretried (14 * nanosPerSecond)
  obtain ⟨-, -, -, users, -, hmem, hperm⟩ := hretried (15 * nanosPerSecond)
  refine ⟨r, hr, q, hpay, husers, honce fun s hran => ?_, users, (hmem _).2 (.inr ?_), (hmem _).2 (.inl ?_), ?_⟩
  · obtain ⟨i, hi, -⟩ := (Option.any_eq_true _ _).1 hran.1
    have hactive : m.deviceLists.failures.contains (14 * nanosPerSecond) s = true :=
      Backoff.contains_of_record hi (by rw [hsince _ (SortedMap.mem_toList.2 hi)]; decide)
    exact Bool.false_ne_true (hran.2.symm.trans hactive)
  · exact ⟨by decide +kernel, by decide +kernel, by decide +kernel, by decide +kernel⟩
  · exact ⟨q, hpay, SortedMap.mem_keys.1 (husers ▸ List.mem_singleton_self _)⟩
  · rwa [if_pos hk] at hperm

/-- The users of each query that waits. -/
def waitingUsers (m : Machine) : List (List UserId) :=
  m.pendingRequests.filterMap fun x => x.payload.keysQuery?.map fun q => q.users.keys

/-- A failed query is not always made again as it was. If the wait of a server runs out between the hand-out and
the failure, the query that is made again has a user of that server besides. If a response puts an end to the
wait instead, there is a query for that user already, and two queries are waiting after the failure. -/
theorem failed_request_widened :
    let m := (Sample.machine.run Sample.waiting).2
    let handOut := m.turn 0 .outgoingRequests
    m.queue.capacity = none ∧ m.pendingRequests = [] ∧
    ∃ r ∈ handOut.handedOut, Failure.Retries (.transient "offline") r.kind ∧
      let late := handOut.after.turn (15 * nanosPerSecond) (.markAsSent r.id (.failure (.transient "offline")))
      let answered := handOut.after.turn 0 (.markAsSent "r-2" (.success (.keysQuery Sample.reachable)))
      let after := answered.after.turn 0 (.markAsSent r.id (.failure (.transient "offline")))
      (late.after.waitingUsers = [[Sample.bob, Sample.dave]] ∧
        ∀ id, late.after.pendingRequests ≠ [⟨id, r.payload⟩]) ∧
      after.after.waitingUsers = [[Sample.bob], [Sample.dave]] ∧
        ∀ id, after.after.pendingRequests ≠ [⟨id, r.payload⟩] := by
  intro m handOut
  have hrun : (handOut.handedOut.any fun r =>
      decide (r.payload.keysQuery?.map (fun q => q.users.keys) = some [Sample.dave]) &&
      decide ((handOut.after.turn (15 * nanosPerSecond)
        (.markAsSent r.id (.failure (.transient "offline")))).after.waitingUsers =
          [[Sample.bob, Sample.dave]]) &&
      decide (((handOut.after.turn 0 (.markAsSent "r-2" (.success (.keysQuery Sample.reachable)))).after.turn 0
        (.markAsSent r.id (.failure (.transient "offline")))).after.waitingUsers =
          [[Sample.bob], [Sample.dave]])) = true := by decide +kernel
  simp only [List.any_eq_true, Bool.and_eq_true, decide_eq_true_eq] at hrun
  obtain ⟨r, hr, ⟨hdave, hlate⟩, hafter⟩ := hrun
  have hone : ∀ {m' : Machine} {id}, m'.pendingRequests = [⟨id, r.payload⟩] →
      m'.waitingUsers = [[Sample.dave]] := by
    intro m' id h
    simp [waitingUsers, h, hdave]
  refine ⟨rfl, by decide +kernel, r, hr, fun hp => absurd hp (by decide), ⟨hlate, fun id h => ?_⟩, hafter,
    fun id h => ?_⟩
  · exact absurd ((hone h).symm.trans hlate) (by decide +kernel)
  · exact absurd ((hone h).symm.trans hafter) (by decide +kernel)

end Machine
end Outbox
