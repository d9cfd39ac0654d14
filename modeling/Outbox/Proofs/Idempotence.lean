/-
# A decision pass leaves nothing to decide

After a pass the queue is full, or all that was wanted is queued. What is wanted is up to the parts of the
machine and to the queue, and of the parts a pass touches only the notes on queries; so a second pass could
only want what the queue or a note stands against. Time matters in one way: the wait of a failing server may
run out between the two passes. Unless it does, the second pass changes nothing at all.

Key definitions: `Machine.Settled`.
Key theorems: `Machine.settled_decisionPass`, `Machine.Settled.decisionPass_eq`,
`Machine.Settled.drain`, `Machine.hand_out_idempotent`.
-/
import Outbox.Proofs.BoundedPass
import Outbox.Proofs.FailingServers

namespace Outbox

/-- What was handed out is not handed out again. -/
theorem Queue.drainPending_drainPending (q : Queue) :
    q.drainPending.2.drainPending = ([], q.drainPending.2) := by
  refine Prod.ext q.pending_drainPending ?_
  simp [drainPending, InsertionMap.mapValues]

/-- The ledger is not about the settings and the capacity of the queue. -/
theorem Ledger.Agrees.reconfigure {l : Ledger} {m : Machine} (ha : l.Agrees m) (settings : Settings)
    (capacity : Option Nat) : l.Agrees { m with settings, queue.capacity := capacity } :=
  { ha with }

namespace Machine

variable {m : Machine} {decided : List OutgoingRequest} {r : OutgoingRequest} {p : Payload} {u : UserId}
  {now now' : Instant}

/-- The notes are not about the settings and the capacity of the queue either. -/
theorem NotesQueries.reconfigure (hn : m.NotesQueries decided) (settings : Settings)
    (capacity : Option Nat) :
    NotesQueries { m with settings, queue.capacity := capacity } decided :=
  { hn with }

/-- A decision pass would queue nothing. -/
def Settled (m : Machine) (now : Instant) : Prop := m.queue.isFull = true ∨ m.wanted now = []

namespace Settled

/-- A pass on a settled machine changes nothing. -/
theorem decisionPass_eq (hs : m.Settled now) : m.decisionPass now = m := by
  rcases hs with hfull | hnothing
  · exact addAll_of_isFull hfull _
  · rw [decisionPass, hnothing]
    rfl

/-- When nothing waits either, nothing is handed out. -/
theorem step_outgoingRequests (hs : m.Settled now) (hq : m.queue.drainPending = ([], m.queue)) :
    m.step now .outgoingRequests = (.handedOut [], m) := by
  simp only [step, outgoingRequests, hs.decisionPass_eq, hq]

/-- To hand out requests leaves nothing more to decide. -/
theorem drain (hs : m.Settled now) : Settled { m with queue := m.queue.drainPending.2 } now := by
  refine hs.imp (fun hfull => ?_) fun hnothing => List.eq_nil_iff_forall_not_mem.2 fun p hp => ?_
  · exact m.queue.isFull_drainPending.trans hfull
  · obtain ⟨hneeds, hfree⟩ := mem_wanted_iff_needs.1 hp
    rw [Queue.contents_drainPending] at hfree
    have hw : p ∈ m.wanted now := mem_wanted_iff_needs.2 ⟨hneeds, hfree⟩
    rw [hnothing] at hw
    cases hw

end Settled

/-- A user who is to be queried after a pass was to be queried before it, unless the wait of the server
ran out. -/
theorem mem_eligibleUsers_of_decisionPass (hm : m.Named) (hn : m.NotesQueries decided)
    (hwait : ¬ m.deviceLists.failures.RanOut now now' u.server)
    (hu : u ∈ (m.decisionPass now).deviceLists.eligibleUsers now') :
    u ∈ m.deviceLists.eligibleUsers now := by
  obtain ⟨houtdated, hfree, hopen⟩ := DeviceLists.mem_eligibleUsers.1 hu
  rw [decisionPass, DeviceLists.outdatedUsers, addAll_tracked] at houtdated
  rw [decisionPass, addAll_failures] at hopen
  refine DeviceLists.mem_eligibleUsers.2 ⟨houtdated, Bool.eq_false_iff.2 fun hbusy => ?_,
    Bool.eq_false_iff.2 fun halone => hwait ⟨halone, hopen⟩⟩
  rw [decisionPass, (hn.isBeingQueried_addAll_iff hm).2 (.inl hbusy)] at hfree
  cases hfree

/-- A pass queues all queries that are needed, unless the queue is full. -/
theorem not_mem_eligibleUsers_decisionPass (hm : m.Named) (hn : m.NotesQueries decided)
    (hroom : (m.decisionPass now).queue.isFull ≠ true)
    (hwait : ¬ m.deviceLists.failures.RanOut now now' u.server) :
    u ∉ (m.decisionPass now).deviceLists.eligibleUsers now' := by
  intro hu
  obtain ⟨r, hr, q, hq, huq⟩ :=
    (isFull_or_asks (mem_eligibleUsers_of_decisionPass hm hn hwait hu)).resolve_left hroom
  have hbusy : (m.decisionPass now).deviceLists.isBeingQueried u = true :=
    (hn.isBeingQueried_addAll_iff hm).2 (.inr ⟨r, hr, q, hq, huq⟩)
  rw [(DeviceLists.mem_eligibleUsers.1 hu).2.1] at hbusy
  cases hbusy

/-- A pass queues all that is needed besides queries, unless the queue is full. -/
theorem not_mem_wanted_decisionPass (hm : m.Named) (hroom : (m.decisionPass now).queue.isFull ≠ true)
    (hk : p.kind ≠ .keysQuery) : p ∉ (m.decisionPass now).wanted now' := by
  intro hp
  have hfree : ∀ r ∈ (m.decisionPass now).queue.contents, ¬ r.payload.Overlaps p := fun r hr =>
    not_overlaps_of_mem_wanted_of_kind hp hk hr
  have hneeds : m.Needs now p := (needs_congr hk (by simp [decisionPass]) (by simp [decisionPass])
    (by simp [decisionPass]) (by simp [decisionPass]) (by simp [decisionPass])).1 (needs_of_mem_wanted hp)
  have hw : p ∈ m.wanted now := mem_wanted_of_needs hneeds fun r hr =>
    hfree r ((mem_contents_addAll hm).2 (.inl hr))
  rw [← (m.isFull_or_payloads_added (m.wanted now)).resolve_left hroom] at hw
  obtain ⟨r, hr, rfl⟩ := List.mem_map.1 hw
  exact hfree r ((mem_contents_addAll hm).2 (.inr hr)) r.payload.overlaps_self

/-- **A pass leaves nothing to decide**, unless the wait of a failing server runs out. -/
theorem settled_decisionPass (hm : m.Named) (hn : m.NotesQueries decided)
    (hwait : ∀ s, ¬ m.deviceLists.failures.RanOut now now' s) : (m.decisionPass now).Settled now' := by
  by_cases hfull : (m.decisionPass now).queue.isFull = true
  · exact .inl hfull
  · refine .inr (List.eq_nil_iff_forall_not_mem.2 fun p hp => ?_)
    by_cases hk : p.kind = .keysQuery
    · have hneeds := needs_of_mem_wanted hp
      cases p <;> cases hk
      next q =>
      obtain ⟨u, hu⟩ := q.exists_mem_users
      exact not_mem_eligibleUsers_decisionPass hm hn hfull (hwait u.server)
        (mem_eligibleUsers_of_mem_queries hneeds hu)
    · exact not_mem_wanted_decisionPass hm hfull hk hp

/-- A second pass changes nothing. -/
theorem decisionPass_decisionPass (hm : m.Named) (hn : m.NotesQueries decided)
    (hwait : ∀ s, ¬ m.deviceLists.failures.RanOut now now' s) :
    (m.decisionPass now).decisionPass now' = m.decisionPass now :=
  (settled_decisionPass hm hn hwait).decisionPass_eq

/-- **To hand out requests twice is to hand them out once.** Take a machine after any calls, and give it any
settings and any capacity. If it hands out what is needed, and is asked again before the wait of a failing
server runs out, then it hands out nothing and is the same machine as before. In the same way a second
decision pass changes nothing, whether the first ran for itself or when the end of a request was accepted. -/
theorem hand_out_idempotent (userId : UserId) (deviceId : DeviceId) (deviceKeys : Opaque)
    (settings : Settings) (ids : IdSource) (calls : List (Instant × Call)) (other : Settings)
    (capacity : Option Nat) (now now' : Instant) :
    let m := { ((Machine.new userId deviceId deviceKeys settings ids).run calls).2 with
      settings := other, queue.capacity := capacity }
    ((∀ s, ¬ m.deviceLists.failures.RanOut now now' s) →
      (m.step now .outgoingRequests).2.step now' .outgoingRequests =
        (.handedOut [], (m.step now .outgoingRequests).2) ∧
      (m.decisionPass now).decisionPass now' = m.decisionPass now) ∧
    ∀ id outcome after, m.step now (.markAsSent id outcome) = (.done, after) →
      (∀ s, ¬ after.deviceLists.failures.RanOut now now' s) → after.decisionPass now' = after := by
  intro m
  have hm : Reached _ _ := (Reached.new userId deviceId deviceKeys settings ids).run calls
  have ha : Ledger.Agrees _ m := hm.agrees.reconfigure other capacity
  have hn : m.NotesQueries _ := hm.notesQueries.reconfigure other capacity
  refine ⟨fun hwait => ⟨?_, decisionPass_decisionPass ha.named hn hwait⟩,
    fun id outcome after hstep hwait => ?_⟩
  · have hs : Settled (m.step now .outgoingRequests).2 now' := (settled_decisionPass ha.named hn hwait).drain
    exact hs.step_outgoingRequests (Queue.drainPending_drainPending _)
  · have ht := m.transition_step now (.markAsSent id outcome)
    rw [hstep] at ht
    cases ht with
    | complete r _ inFlight fits =>
      refine decisionPass_decisionPass (ha.complete inFlight now outcome).named
        (hn.complete inFlight now fits) fun s => ?_
      rw [← addAll_failures _ ((m.withOutcome now r outcome).wanted now)]
      exact hwait s

/-- With room for two requests, a machine that wants an upload and two queries hands out the upload and one
query. Asked again, it hands out nothing, though it still wants the other query. -/
theorem hand_out_idempotent_cut_short :
    let calls : List (Instant × Call) := [(0, .trackUsers [Sample.bob])]
    let m := { (Sample.machine.run calls).2 with
      settings := { Settings.default with keyQueryBatchSize := 1 }, queue.capacity := some 2 }
    let after := (m.step 0 .outgoingRequests).2
    after.inFlightRequests.map OutgoingRequest.kind = [.keysUpload, .keysQuery] ∧
      (after.wanted 1).map Payload.kind = [.keysQuery] ∧
      after.step 1 .outgoingRequests = (.handedOut [], after) := by
  intro calls m after
  obtain ⟨hfirst, -⟩ := hand_out_idempotent Sample.alice "DEVICE" .null .default (.counting "r") calls
    { Settings.default with keyQueryBatchSize := 1 } (some 2) 0 1
  obtain ⟨hagain, -⟩ := hfirst fun s hs => nomatch hs.1
  exact ⟨by decide +kernel, by decide +kernel, hagain⟩

end Machine
end Outbox
