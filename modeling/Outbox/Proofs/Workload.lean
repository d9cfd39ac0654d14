/-
# How much is left to do

A task is open if the machine faces it and the success of no queued request would settle it; the workload
of a machine counts its queued requests and its open tasks. A decision pass adds nothing to the workload:
each request that it queues settles a task that was open, and no two settle the same. The success of a
request opens no task, and takes the request off the queue.

Key definitions: `Machine.Open`, `Machine.workload`, `Machine.tasks`.
Key theorems: `Machine.workload_le`, `Machine.Open.of_decisionPass`, `Machine.Open.of_withOutcome`,
`Machine.workload_decisionPass_le`, `Machine.workload_withOutcome_lt`.
-/
import Mathlib.Data.Set.Card
import Outbox.Proofs.Tasks

namespace Outbox
namespace Machine

/-- The machine faces the task, and no queued request would settle it. -/
def Open (m : Machine) (task : Task) : Prop :=
  m.Faces task ∧ ∀ r ∈ m.queue.contents, ¬ m.Settles r task

/-- The requests that are queued, and the tasks that are open. -/
noncomputable def workload (m : Machine) : Nat :=
  m.queue.size + { task | m.Open task }.ncard

variable {m : Machine} {r : OutgoingRequest} {outcome : Outcome} {task : Task} {now : Instant}
  {decided : List OutgoingRequest}

/-! ### The tasks of a machine -/

/-- All tasks that the machine faces, and perhaps more of those that there are once. -/
def tasks (m : Machine) : List Task :=
  [.uploadKeys, .claimKeys, .uploadSignatures] ++ m.usersForKeyQuery.map .queryDevices ++
    m.messages.toDevice.keys.map (fun t => .send (.toDevice, t)) ++
    m.messages.roomMessages.keys.map (fun t => .send (.roomMessage, t)) ++
    m.backup.remaining.keys.map .backUp

theorem Faces.mem_tasks (h : m.Faces task) : task ∈ m.tasks := by
  unfold tasks
  cases task with
  | uploadKeys | claimKeys | uploadSignatures => simp
  | queryDevices user =>
    have hu : user ∈ m.usersForKeyQuery := h
    simp [hu]
  | send message =>
    obtain ⟨kind, t⟩ := message
    cases kind with
    | toDevice =>
      have ht : t ∈ m.messages.toDevice.keys := h
      simp [ht]
    | roomMessage =>
      have ht : t ∈ m.messages.roomMessages.keys := h
      simp [ht]
    | _ => exact h.elim
  | backUp key =>
    have hk : key ∈ m.backup.remaining.keys := SortedMap.mem_keys.2 h
    simp [hk]

theorem length_tasks (m : Machine) : m.tasks.length = m.usersForKeyQuery.length +
    m.messages.toDevice.size + m.messages.roomMessages.size + m.backup.remaining.size + 3 := by
  simp only [tasks, List.length_append, List.length_map, List.length_cons, List.length_nil,
    InsertionMap.keys, InsertionMap.size, SortedMap.keys, SortedMap.size]
  omega

theorem open_subset_tasks (m : Machine) : { task | m.Open task } ⊆ (m.tasks.toFinset : Set Task) := by
  intro task h
  rw [List.coe_toFinset]
  exact h.1.mem_tasks

theorem finite_open (m : Machine) : { task | m.Open task }.Finite :=
  m.tasks.toFinset.finite_toSet.subset m.open_subset_tasks

/-- The workload is bounded by what the machine holds. -/
theorem workload_le (m : Machine) : m.workload ≤ m.queue.size + m.tasks.length := by
  have hopen := Set.ncard_le_ncard m.open_subset_tasks m.tasks.toFinset.finite_toSet
  rw [Set.ncard_coe_finset] at hopen
  have htasks := m.tasks.toFinset_card_le
  unfold workload
  omega

/-! ### The workload never grows -/

/-- To hand out requests changes nothing of the workload. -/
theorem workload_drainPending (m : Machine) :
    workload { m with queue := m.queue.drainPending.2 } = m.workload := by
  have hopen : { task | Open { m with queue := m.queue.drainPending.2 } task } = { task | m.Open task } := by
    ext task
    show _ ∧ (∀ r ∈ m.queue.drainPending.2.contents, _) ↔ _
    rw [Queue.contents_drainPending]
    rfl
  unfold workload
  rw [hopen, Queue.size_eq, Queue.contents_drainPending, ← Queue.size_eq]

/-- A queued request goes on to settle what it settles when more requests are queued. -/
theorem Settles.decisionPass (hm : m.Named) (hr : r ∈ m.queue.contents) (hrt : m.Settles r task) :
    (m.decisionPass now).Settles r task :=
  (Eases.addAll m (m.wanted now)).settles hrt (get?_addAll_of_minted (hm r hr) _)

/-- A decision pass opens no task. -/
theorem Open.of_decisionPass (hm : m.Named) (h : (m.decisionPass now).Open task) : m.Open task :=
  ⟨(Eases.addAll m (m.wanted now)).faces h.1, fun s hs hst =>
    h.2 s ((mem_contents_addAll hm).2 (.inl hs)) (hst.decisionPass hm hs)⟩

/-- What a request settles that a decision pass queues was open before, if the machine faced it: no request
that was queued before does the same work. -/
theorem open_of_mem_decided {l : Ledger} (ha : l.Agrees m) (hn : m.NotesQueries l.decided)
    (hr : r ∈ m.decided now) (hrt : (m.decisionPass now).Settles r task) (hf : m.Faces task) :
    m.Open task := by
  refine ⟨hf, fun s hs hst => ?_⟩
  have hst' : (m.decisionPass now).Settles s task := hst.decisionPass ha.named hs
  have hover : s.payload.Overlaps r.payload := hst'.overlaps (hn.pass ha (m.wanted now))
    ((mem_contents_addAll ha.named).2 (.inl hs)) ((mem_contents_addAll ha.named).2 (.inr hr)) hrt
  exact not_overlaps_of_mem_wanted hs (fun q hq => hst.isBeingQueried hn hs hq)
    (payload_mem_of_mem_added hr) hover

/-- No two requests that a decision pass queues settle the same task. -/
theorem pairwise_not_settles {l : Ledger} (ha : l.Agrees m) (hn : m.NotesQueries l.decided)
    (hk : m.messages.Keyed) (now : Instant) : (m.decided now).Pairwise fun r s =>
      ∀ task, (m.decisionPass now).Settles r task → ¬ (m.decisionPass now).Settles s task := by
  have hpair := (pairwise_wanted hk now).sublist (m.payloads_added_prefix (m.wanted now)).sublist
  refine (List.pairwise_map.1 hpair).imp_of_mem fun {r s} hr hs hrs task hrt hst => hrs ?_
  exact hrt.overlaps (hn.pass ha (m.wanted now)) ((mem_contents_addAll ha.named).2 (.inr hr))
    ((mem_contents_addAll ha.named).2 (.inr hs)) hst

/-- **A decision pass adds nothing to the workload.** -/
theorem workload_decisionPass_le {l : Ledger} (ha : l.Agrees m) (hn : m.NotesQueries l.decided)
    (hk : m.messages.Keyed)
    (hd : ∀ {u t}, m.deviceLists.tracked.get? u = some t → t.invalidatedAt ≤ m.deviceLists.invalidations)
    (now : Instant) : (m.decisionPass now).workload ≤ m.workload := by
  have htasks : ∀ r ∈ m.decided now, ∃ task, m.Faces task ∧ (m.decisionPass now).Settles r task :=
    fun r hr => exists_task_of_mem_decided hk hd hr
  choose! task hface hsettles using htasks
  have hnodup : ((m.decided now).map task).Nodup :=
    List.pairwise_map.2 <| (pairwise_not_settles ha hn hk now).imp_of_mem fun {r s} hr hs hrs he =>
      hrs _ (hsettles r hr) (he ▸ hsettles s hs)
  -- The tasks of the new requests are not open any more, and they were.
  have hdisjoint : Disjoint { t | (m.decisionPass now).Open t }
      (((m.decided now).map task).toFinset : Set Task) := by
    rw [Set.disjoint_left]
    intro t ht ht'
    rw [List.coe_toFinset] at ht'
    obtain ⟨r, hr, rfl⟩ := List.mem_map.1 ht'
    exact ht.2 r ((mem_contents_addAll ha.named).2 (.inr hr)) (hsettles r hr)
  have hsub : { t | (m.decisionPass now).Open t } ∪ (((m.decided now).map task).toFinset : Set Task) ⊆
      { t | m.Open t } := by
    rintro t (ht | ht)
    · exact Open.of_decisionPass ha.named ht
    · rw [List.coe_toFinset] at ht
      obtain ⟨r, hr, rfl⟩ := List.mem_map.1 ht
      exact open_of_mem_decided ha hn hr (hsettles r hr) (hface r hr)
  have hcard := Set.ncard_le_ncard hsub m.finite_open
  rw [Set.ncard_union_eq hdisjoint (m.decisionPass now).finite_open (Finset.finite_toSet _),
    Set.ncard_coe_finset, List.toFinset_card_of_nodup hnodup, List.length_map] at hcard
  have hsize : (m.decisionPass now).queue.size = m.queue.size + (m.decided now).length := by
    rw [Queue.size_eq, decisionPass, contents_addAll ha.named, List.length_append, ← Queue.size_eq]
    rfl
  unfold workload
  omega

/-- The end of a request takes away no note but its own. -/
theorem note_withOutcome (m : Machine) (now : Instant) (fits : outcome.mismatch? r.kind = none)
    {id : RequestId} (hne : id ≠ r.id) :
    (m.withOutcome now r outcome).deviceLists.queriesInFlight.get? id =
      m.deviceLists.queriesInFlight.get? id := by
  rcases withOutcome_deviceLists m now fits with ⟨-, he⟩ | ⟨q, response, -, -, he⟩ |
    ⟨q, failure, -, -, he⟩
  · rw [he]
  · rw [he]
    exact SortedMap.get?_erase_of_ne _ hne
  · rw [he]
    exact SortedMap.get?_erase_of_ne _ hne

/-- The success of a request opens no task: if the request would have settled it, the machine does not face
it any more, and another request would still settle it. -/
theorem Open.of_withOutcome (hn : m.NotesQueries decided) (hr : r ∈ m.queue.contents)
    {response : Response} (fits : (Outcome.success response).mismatch? r.kind = none)
    (hc : response.IsComplete r.payload) (h : (m.withOutcome now r (.success response)).Open task) :
    m.Open task := by
  have heases := Eases.withOutcome m now fits
  refine ⟨heases.faces h.1, fun s hs hst => ?_⟩
  by_cases he : s.id = r.id
  · cases Queue.eq_of_id_eq hs hr he
    exact hst.not_faces hn hr fits hc h.1
  · have hs' : s ∈ (m.withOutcome now r (.success response)).queue.contents := by
      rw [withOutcome_queue, Queue.mem_contents_withoutRequest]
      exact ⟨hs, he⟩
    exact h.2 s hs' (heases.settles hst (note_withOutcome m now fits he))

/-- **The success of a request takes something off the workload.** -/
theorem workload_withOutcome_lt (hn : m.NotesQueries decided) (hr : r ∈ m.queue.inFlight)
    {response : Response} (fits : (Outcome.success response).mismatch? r.kind = none)
    (hc : response.IsComplete r.payload) (now : Instant) :
    (m.withOutcome now r (.success response)).workload < m.workload := by
  have hrc : r ∈ m.queue.contents := Queue.mem_contents_iff.2 (.inr hr)
  have hsub : { t | (m.withOutcome now r (.success response)).Open t } ⊆ { t | m.Open t } :=
    fun task h => Open.of_withOutcome hn hrc fits hc h
  have hcard := Set.ncard_le_ncard hsub m.finite_open
  have hsize := Queue.size_withoutRequest_lt hrc
  unfold workload
  rw [withOutcome_queue]
  omega

end Machine
end Outbox
