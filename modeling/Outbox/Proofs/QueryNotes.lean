/-
# The notes on queries

The device lists keep a note for each query that a decision pass queued, with the users of the query,
from when it was queued until its end is known. Queries that were made for a caller have no note.

Key definitions: `Machine.NotesQueries`.
Key theorems: `Machine.NotesQueries.exists_note`, `Machine.NotesQueries.turn`,
`Machine.Reached.notesQueries`.
-/
import Outbox.Proofs.DeviceTracking
import Outbox.Proofs.Lifecycle

namespace Outbox
namespace Machine

/-- The notes of the machine are about the queued queries among those that were decided on. -/
structure NotesQueries (m : Machine) (decided : List OutgoingRequest) : Prop where
  queued : ∀ {id details}, m.deviceLists.queriesInFlight.get? id = some details →
    ∃ q, ⟨id, .keysQuery q⟩ ∈ m.queue.contents ∧ ⟨id, .keysQuery q⟩ ∈ decided ∧ details.users = q.users
  noted : ∀ {id q}, ⟨id, .keysQuery q⟩ ∈ m.queue.contents → ⟨id, .keysQuery q⟩ ∈ decided →
    id ∈ m.deviceLists.queriesInFlight

namespace NotesQueries

variable {m m' : Machine} {l : Ledger} {decided : List OutgoingRequest} {now : Instant} {call : Call}
  {answer : Answer} {r : OutgoingRequest} {outcome : Outcome} {id : RequestId} {q : KeysQuery}

/-- A queued query that was decided on has a note with its users. -/
theorem exists_note (hn : m.NotesQueries decided) (hq : ⟨id, .keysQuery q⟩ ∈ m.queue.contents)
    (hd : ⟨id, .keysQuery q⟩ ∈ decided) :
    ∃ details, m.deviceLists.queriesInFlight.get? id = some details ∧ details.users = q.users := by
  obtain ⟨details, hg⟩ := SortedMap.mem_iff.1 (hn.noted hq hd)
  obtain ⟨q', hq', -, hu⟩ := hn.queued hg
  cases Queue.eq_of_id_eq hq hq' rfl
  exact ⟨details, hg, hu⟩

theorem minted_of_note (hn : m.NotesQueries decided) (hm : m.Named) {details : QueryDetails}
    (hg : m.deviceLists.queriesInFlight.get? id = some details) : m.Minted id := by
  obtain ⟨q, hq, -⟩ := hn.queued hg
  exact hm _ hq

/-- A user is being queried if a queued query that was decided on names the user. -/
theorem isBeingQueried_iff (hn : m.NotesQueries decided) {u : UserId} :
    m.deviceLists.isBeingQueried u = true ↔
      ∃ x ∈ m.queue.contents, x ∈ decided ∧ ∃ q, x.payload = .keysQuery q ∧ u ∈ q.users := by
  rw [DeviceLists.isBeingQueried_iff]
  constructor
  · rintro ⟨id, details, hg, hu⟩
    obtain ⟨q, hq, hd, he⟩ := hn.queued hg
    exact ⟨_, hq, hd, q, rfl, he ▸ hu⟩
  · rintro ⟨⟨id, payload⟩, hx, hd, q, rfl, hu⟩
    obtain ⟨details, hg, he⟩ := hn.exists_note hx hd
    exact ⟨id, details, hg, he ▸ hu⟩

/-! ### Steps -/

/-- Only the queued queries matter, and the notes. -/
theorem of_queries_eq (hn : m.NotesQueries decided)
    (hc : ∀ id q, ⟨id, .keysQuery q⟩ ∈ m'.queue.contents ↔ ⟨id, .keysQuery q⟩ ∈ m.queue.contents)
    (hq : m'.deviceLists.queriesInFlight = m.deviceLists.queriesInFlight) :
    m'.NotesQueries decided where
  queued hg := by
    rw [hq] at hg
    obtain ⟨q, hq, hd⟩ := hn.queued hg
    exact ⟨q, (hc _ _).2 hq, hd⟩
  noted hx hd := by
    rw [hq]
    exact hn.noted ((hc _ _).1 hx) hd

/-- After requests were added there are the notes from before and those of the added queries. -/
theorem get?_addAll_eq_some_iff (hn : m.NotesQueries decided) (hm : m.Named) {ps : List Payload}
    {details : QueryDetails} :
    (m.addAll ps).deviceLists.queriesInFlight.get? id = some details ↔
      m.deviceLists.queriesInFlight.get? id = some details ∨
      ∃ q, ⟨id, .keysQuery q⟩ ∈ m.added ps ∧ details = ⟨m.deviceLists.invalidations, q.users⟩ := by
  constructor
  · intro hg
    by_cases hid : ∃ r ∈ m.added ps, r.id = id
    · obtain ⟨⟨id', payload⟩, hr, he⟩ := hid
      cases (he : id' = id)
      have hnone : m.deviceLists.queriesInFlight.get? id' = none := by
        rw [Option.eq_none_iff_forall_ne_some]
        intro details hg
        exact not_minted_of_mem_added hr (hn.minted_of_note hm hg)
      rw [get?_addAll_of_mem hr, hnone, Option.or_none, Option.map_eq_some_iff] at hg
      obtain ⟨q, hq, rfl⟩ := hg
      cases payload <;> cases hq
      exact .inr ⟨q, hr, rfl⟩
    · rw [addAll_deviceLists, get?_foldl_noteDecision_of_notMem _ fun r hr he => hid ⟨r, hr, he⟩] at hg
      exact .inl hg
  · rintro (hg | ⟨q, hq, rfl⟩)
    · rw [get?_addAll_of_minted (hn.minted_of_note hm hg)]
      exact hg
    · exact get?_addAll_of_mem hq

/-- After requests were added those are being queried who were before, and the users of the added queries. -/
theorem isBeingQueried_addAll_iff (hn : m.NotesQueries decided) (hm : m.Named) {ps : List Payload} {u : UserId} :
    (m.addAll ps).deviceLists.isBeingQueried u = true ↔
      m.deviceLists.isBeingQueried u = true ∨
        ∃ x ∈ m.added ps, ∃ q, x.payload = .keysQuery q ∧ u ∈ q.users := by
  simp only [DeviceLists.isBeingQueried_iff, hn.get?_addAll_eq_some_iff hm]
  constructor
  · rintro ⟨id, details, hg | ⟨q, hq, rfl⟩, hu⟩
    · exact .inl ⟨id, details, hg, hu⟩
    · exact .inr ⟨_, hq, q, rfl, hu⟩
  · rintro (⟨id, details, hg, hu⟩ | ⟨⟨id, payload⟩, hx, q, rfl, hu⟩)
    · exact ⟨id, details, .inl hg, hu⟩
    · exact ⟨id, _, .inr ⟨q, hx, rfl⟩, hu⟩

/-- A decision pass makes notes of the queries that it queues. -/
theorem pass (hn : m.NotesQueries l.decided) (ha : l.Agrees m) (ps : List Payload) :
    (m.addAll ps).NotesQueries (l.decided ++ m.added ps) := by
  have hcont := contents_addAll ha.named ps
  constructor
  · intro id details hg
    rw [hcont]
    rcases (hn.get?_addAll_eq_some_iff ha.named).1 hg with hg | ⟨q, hq, rfl⟩
    · obtain ⟨q, hq, hd, hu⟩ := hn.queued hg
      exact ⟨q, List.mem_append_left _ hq, List.mem_append_left _ hd, hu⟩
    · exact ⟨q, List.mem_append_right _ hq, List.mem_append_right _ hq, rfl⟩
  · intro id q hq hd
    rw [SortedMap.mem_iff]
    by_cases hx : ⟨id, .keysQuery q⟩ ∈ m.added ps
    · exact ⟨_, get?_addAll_of_mem hx⟩
    · rw [hcont] at hq
      have hq := (List.mem_append.1 hq).resolve_right hx
      have hd := (List.mem_append.1 hd).resolve_right hx
      rw [get?_addAll_of_minted (ha.named _ hq), ← SortedMap.mem_iff]
      exact hn.noted hq hd

/-- The note of a query goes when the query ends. -/
theorem complete (hn : m.NotesQueries decided) (hr : r ∈ m.queue.inFlight) (now : Instant)
    (fits : outcome.mismatch? r.kind = none) : (m.withOutcome now r outcome).NotesQueries decided := by
  have hc : r ∈ m.queue.contents := Queue.mem_contents_iff.2 (.inr hr)
  have hrest : ∀ x, x ∈ (m.withOutcome now r outcome).queue.contents ↔
      x ∈ m.queue.contents ∧ x.id ≠ r.id := fun x => by
    rw [withOutcome_queue, Queue.mem_contents_withoutRequest]
  have hend : r.kind = .keysQuery → (m.withOutcome now r outcome).deviceLists.queriesInFlight =
      m.deviceLists.queriesInFlight.erase r.id := fun hk => by
    rcases withOutcome_deviceLists m now fits with ⟨hne, -⟩ | ⟨_, _, -, -, he⟩ |
      ⟨_, _, -, -, he⟩
    · exact absurd hk hne
    · rw [he]
      rfl
    · rw [he]
      rfl
  by_cases hk : r.kind = .keysQuery
  · constructor
    · intro id details hg
      rw [hend hk, SortedMap.get?_erase_eq_some_iff] at hg
      obtain ⟨q, hq, hd⟩ := hn.queued hg.2
      exact ⟨q, (hrest _).2 ⟨hq, hg.1⟩, hd⟩
    · intro id q hq hd
      obtain ⟨hq, hne⟩ := (hrest _).1 hq
      rw [hend hk, SortedMap.mem_iff, SortedMap.get?_erase_of_ne _ hne, ← SortedMap.mem_iff]
      exact hn.noted hq hd
  · have hsame : (m.withOutcome now r outcome).deviceLists = m.deviceLists := by
      rcases withOutcome_deviceLists m now fits with ⟨-, he⟩ | ⟨q, _, hp, -⟩ |
        ⟨q, _, hp, -⟩
      · exact he
      all_goals exact absurd (congrArg Payload.kind hp) hk
    refine hn.of_queries_eq (fun id q => ?_) (by rw [hsame])
    rw [hrest]
    refine ⟨fun h => h.1, fun h => ⟨h, fun he => hk ?_⟩⟩
    rw [← Queue.eq_of_id_eq h hc he]
    rfl

/-- A query for a caller gets no note. -/
theorem query (hn : m.NotesQueries l.decided) (ha : l.Agrees m) {queue : Queue}
    (hq : m.queue.insert ⟨m.nextId, .keysQuery q⟩ .inFlight = .ok queue) :
    NotesQueries { m with minted := m.minted + 1, queue } l.decided := by
  have hcont := Queue.contents_insert ha.named.ne_nextId hq
  constructor
  · intro id details hg
    obtain ⟨q, hq, hd⟩ := hn.queued hg
    refine ⟨q, ?_, hd⟩
    rw [hcont]
    exact List.mem_append_left _ hq
  · intro id q' hq' hd
    rw [hcont, List.mem_append, List.mem_singleton] at hq'
    rcases hq' with hq' | he
    · exact hn.noted hq' hd
    · exact absurd (congrArg OutgoingRequest.id he) (ha.minted_decided _ hd).ne_nextId

/-- Dropping backups that wait touches no query. -/
theorem retain (hn : m.NotesQueries decided) {keep : Payload → Bool}
    (hkeep : ∀ q, keep (.keysQuery q) = true) (b : Backup) :
    NotesQueries { m with backup := b, queue := m.queue.retainPending keep } decided := by
  refine hn.of_queries_eq (fun id q => ?_) rfl
  simp only [Queue.mem_contents_iff, Queue.pending_retainPending, Queue.inFlight_retainPending,
    List.mem_filter, hkeep, and_true]

/-- Every turn keeps the notes right. -/
theorem turn (hn : m.NotesQueries l.decided) (ha : l.Agrees m)
    (ht : m.Transition now call answer m') :
    m'.NotesQueries (l.add ⟨m, now, call, answer, m'⟩).decided := by
  -- A call that touches neither the queue nor the notes decides nothing.
  have quiet : ∀ {call answer m'}, Turn.decided ⟨m, now, call, answer, m'⟩ = [] →
      m'.queue = m.queue → m'.deviceLists.queriesInFlight = m.deviceLists.queriesInFlight →
      m'.NotesQueries (l.add ⟨m, now, call, answer, m'⟩).decided := fun hd hq hi => by
    rw [Ledger.add, hd, List.append_nil]
    exact hn.of_queries_eq (fun id q => by rw [hq]) hi
  cases ht with
  | handOut =>
    refine (hn.pass ha (m.wanted now)).of_queries_eq (fun id q => ?_) rfl
    rw [Queue.contents_drainPending]
    rfl
  | complete r outcome inFlight fits =>
    have hp := pass (l := { l with marked := l.marked ++ [r.id] }) (hn.complete inFlight now fits)
      (ha.complete inFlight now outcome) ((m.withOutcome now r outcome).wanted now)
    rw [Ledger.add, Turn.decided_markAsSent inFlight fits]
    exact hp
  | query users q queue built inserted =>
    simp only [Ledger.add, Turn.decided, List.append_nil]
    exact hn.query ha inserted
  | track users => exact quiet rfl rfl (m.deviceLists.invalidates_track users).queriesInFlight
  | change users token =>
    exact quiet rfl rfl (m.deviceLists.invalidates_receiveChanges users token).queriesInFlight
  | enable version nonempty =>
    simp only [Ledger.add, Turn.decided, List.append_nil]
    exact hn.retain (fun q => rfl) _
  | disable =>
    simp only [Ledger.add, Turn.decided, List.append_nil]
    exact hn.retain (fun q => rfl) _
  | refuse call reason refusable => exact quiet (by cases call <;> rfl) rfl rfl
  | addOneTimeKeys | addFallbackKeys | missing | acceptToDevice | acceptSignatures | acceptRoomMessage
  | addRoomKey => exact quiet rfl rfl rfl

end NotesQueries

/-- The notes of a machine are right at every time. -/
theorem Reached.notesQueries {h : List Turn} {m : Machine} (hm : Reached h m) :
    m.NotesQueries (h.flatMap Turn.decided) := by
  induction hm with
  | new userId => exact ⟨fun hg => (nomatch hg), fun hq => (nomatch hq)⟩
  | step now call hm ih =>
    have ht := ih.turn (l := ledger _) hm.agrees (transition_step _ now call)
    rw [← ledger_snoc] at ht
    exact ht

end Machine
end Outbox
