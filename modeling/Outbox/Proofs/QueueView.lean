/-
# The queue as a list of requests

What each operation on the queue does to the list of queued requests. A new request comes last, handing
out changes states only, and requests are only taken away by name (`resolve`) or by a test on those that
were not handed out (`retainPending`). Names are unique, so a request is found by its name exactly if it
is in the list.

Key definitions: `Queue.contents`.
Key theorems: `Queue.get?_eq_some_iff`, `Queue.toList_insert`, `Queue.toList_drainPending`,
`Queue.resolve_eq_ok_iff`, `Queue.toList_withoutRequest`, `Queue.toList_retainPending`.
-/
import Outbox.InsertionMap.Lemmas
import Outbox.Queue

namespace Outbox

namespace Queue

/-- The queued requests, in order, whatever their state. -/
def contents (q : Queue) : List OutgoingRequest := q.toList.map Prod.fst

theorem map_id_contents (q : Queue) : q.contents.map OutgoingRequest.id = q.requests.keys := by
  simp [contents, toList, InsertionMap.keys, Function.comp_def]

/-- No two queued requests have the same name. -/
theorem nodup_ids (q : Queue) : (q.contents.map OutgoingRequest.id).Nodup := by
  rw [map_id_contents]
  exact q.requests.nodup

theorem mem_contents {q : Queue} {r : OutgoingRequest} : r ∈ q.contents ↔ ∃ s, (r, s) ∈ q.toList := by
  simp [contents]

/-- Queued requests of the same name are the same request. -/
theorem eq_of_id_eq {q : Queue} {r s : OutgoingRequest} (hr : r ∈ q.contents) (hs : s ∈ q.contents)
    (h : r.id = s.id) : r = s := by
  obtain ⟨sr, hr⟩ := mem_contents.1 hr
  obtain ⟨ss, hs⟩ := mem_contents.1 hs
  simp only [toList, List.mem_map, Prod.exists, Prod.mk.injEq] at hr hs
  obtain ⟨k, v, hk, rfl, -⟩ := hr
  obtain ⟨k', v', hk', rfl, -⟩ := hs
  cases h
  rw [InsertionMap.mem_toList_iff] at hk hk'
  rw [hk] at hk'
  cases hk'
  rfl

theorem size_eq (q : Queue) : q.size = q.contents.length := by
  simp [size, InsertionMap.size, contents, toList]

theorem isFull_iff {q : Queue} :
    q.isFull = true ↔ ∃ c, q.capacity = some c ∧ c ≤ q.contents.length := by
  rw [isFull, full?, ← size_eq]
  cases q.capacity with
  | none => simp
  | some c => by_cases hc : c ≤ q.size <;> simp [hc]

/-! ### Reading -/

theorem mem_inState {q : Queue} {r : OutgoingRequest} {s : RequestState} :
    r ∈ q.inState s ↔ (r, s) ∈ q.toList := by
  simp [inState]

theorem mem_pending {q : Queue} {r : OutgoingRequest} : r ∈ q.pending ↔ (r, .pending) ∈ q.toList :=
  mem_inState

theorem mem_inFlight {q : Queue} {r : OutgoingRequest} : r ∈ q.inFlight ↔ (r, .inFlight) ∈ q.toList :=
  mem_inState

/-- A queued request waits or was handed out. -/
theorem mem_contents_iff {q : Queue} {r : OutgoingRequest} :
    r ∈ q.contents ↔ r ∈ q.pending ∨ r ∈ q.inFlight := by
  rw [mem_contents, mem_pending, mem_inFlight]
  constructor
  · rintro ⟨s, h⟩
    cases s with
    | pending => exact .inl h
    | inFlight => exact .inr h
  · rintro (h | h)
    · exact ⟨_, h⟩
    · exact ⟨_, h⟩

/-- A look-up finds a request in its state exactly if the list has it. -/
theorem get?_eq_some_iff {q : Queue} {id : RequestId} {r : OutgoingRequest} {s : RequestState} :
    q.get? id = some (r, s) ↔ (r, s) ∈ q.toList ∧ r.id = id := by
  simp only [get?, Option.map_eq_some_iff, Prod.mk.injEq, toList, List.mem_map, Prod.exists]
  constructor
  · rintro ⟨v, hv, rfl, rfl⟩
    exact ⟨⟨id, v, InsertionMap.mem_toList_iff.2 hv, rfl, rfl⟩, rfl⟩
  · rintro ⟨⟨k, v, hk, rfl, rfl⟩, rfl⟩
    exact ⟨v, InsertionMap.mem_toList_iff.1 hk, rfl, rfl⟩

theorem get?_eq_none_iff {q : Queue} {id : RequestId} :
    q.get? id = none ↔ ∀ r ∈ q.contents, r.id ≠ id := by
  rw [get?, Option.map_eq_none_iff, InsertionMap.get?_eq_none_iff, InsertionMap.mem_iff,
    ← map_id_contents]
  simp

theorem mem_ofKind {q : Queue} {kind : RequestKind} {r : OutgoingRequest} :
    r ∈ q.ofKind kind ↔ r ∈ q.contents ∧ r.kind = kind := by
  simp [ofKind, contents]

theorem containsKind_iff {q : Queue} {kind : RequestKind} :
    q.containsKind kind = true ↔ ∃ r ∈ q.contents, r.kind = kind := by
  simp only [containsKind, Bool.not_eq_true', List.isEmpty_eq_false_iff_exists_mem, mem_ofKind]

/-! ### Writing -/

theorem isFull_of_insert_eq_error {q : Queue} {r : OutgoingRequest} {s : RequestState} {e : QueueFull}
    (h : q.insert r s = .error e) : q.isFull = true := by
  unfold insert at h
  split at h
  · next hf => simp [isFull, hf]
  · cases h

theorem capacity_insert {q q' : Queue} {r : OutgoingRequest} {s : RequestState}
    (h : q.insert r s = .ok q') : q'.capacity = q.capacity := by
  unfold insert at h
  split at h
  · cases h
  · cases h
    rfl

/-- A request of a new name comes last. -/
theorem toList_insert {q q' : Queue} {r : OutgoingRequest} {s : RequestState}
    (hr : ∀ x ∈ q.contents, x.id ≠ r.id) (h : q.insert r s = .ok q') :
    q'.toList = q.toList ++ [(r, s)] := by
  have hn : r.id ∉ q.requests := by
    rw [InsertionMap.mem_iff, ← map_id_contents, List.mem_map]
    rintro ⟨x, hx, he⟩
    exact hr x hx he
  unfold insert at h
  split at h
  · cases h
  · cases h
    simp [toList, InsertionMap.insert, hn, InsertionMap.push]

theorem contents_insert {q q' : Queue} {r : OutgoingRequest} {s : RequestState}
    (hr : ∀ x ∈ q.contents, x.id ≠ r.id) (h : q.insert r s = .ok q') :
    q'.contents = q.contents ++ [r] := by
  rw [contents, toList_insert hr h, List.map_append]
  rfl

/-- A request that is on its way from the start never waits. -/
theorem pending_insert_inFlight {q q' : Queue} {r : OutgoingRequest}
    (hr : ∀ x ∈ q.contents, x.id ≠ r.id) (h : q.insert r .inFlight = .ok q') : q'.pending = q.pending := by
  simp [pending, inState, toList_insert hr h]

theorem inFlight_insert_inFlight {q q' : Queue} {r : OutgoingRequest}
    (hr : ∀ x ∈ q.contents, x.id ≠ r.id) (h : q.insert r .inFlight = .ok q') :
    q'.inFlight = q.inFlight ++ [r] := by
  simp [inFlight, inState, toList_insert hr h]

/-- Handing out changes the states of requests and nothing else. -/
theorem toList_drainPending (q : Queue) :
    q.drainPending.2.toList = q.toList.map fun e => (e.1, .inFlight) := by
  simp [drainPending, toList, InsertionMap.mapValues]

theorem contents_drainPending (q : Queue) : q.drainPending.2.contents = q.contents := by
  simp [contents, toList_drainPending]

theorem capacity_drainPending (q : Queue) : q.drainPending.2.capacity = q.capacity := rfl

theorem isFull_drainPending (q : Queue) : q.drainPending.2.isFull = q.isFull := by
  rw [Bool.eq_iff_iff, isFull_iff, isFull_iff, contents_drainPending, capacity_drainPending]

theorem pending_drainPending (q : Queue) : q.drainPending.2.pending = [] := by
  rw [pending, inState, toList_drainPending, List.filter_map]
  simp [Function.comp_def]

theorem inFlight_drainPending (q : Queue) : q.drainPending.2.inFlight = q.contents := by
  have h : ∀ e ∈ q.drainPending.2.toList, decide (e.2 = .inFlight) = true := by
    rw [toList_drainPending]
    intro e he
    obtain ⟨x, -, rfl⟩ := List.mem_map.1 he
    rfl
  rw [inFlight, inState, List.filter_eq_self.2 h, ← contents, contents_drainPending]

/-- The queue without the request of a name. -/
def withoutRequest (q : Queue) (id : RequestId) : Queue := { q with requests := q.requests.erase id }

theorem toList_withoutRequest (q : Queue) (id : RequestId) :
    (q.withoutRequest id).toList = q.toList.filter fun e => e.1.id != id := by
  simp [withoutRequest, toList, InsertionMap.erase, InsertionMap.filter, List.filter_map,
    Function.comp_def]

theorem contents_withoutRequest_sublist (q : Queue) (id : RequestId) :
    (q.withoutRequest id).contents.Sublist q.contents := by
  rw [contents, toList_withoutRequest]
  exact List.filter_sublist.map _

theorem mem_contents_withoutRequest {q : Queue} {id : RequestId} {r : OutgoingRequest} :
    r ∈ (q.withoutRequest id).contents ↔ r ∈ q.contents ∧ r.id ≠ id := by
  simp [mem_contents, toList_withoutRequest]

theorem size_withoutRequest_lt {q : Queue} {r : OutgoingRequest} (hr : r ∈ q.contents) :
    (q.withoutRequest r.id).size < q.size := by
  have hsub := q.contents_withoutRequest_sublist r.id
  have hne : (q.withoutRequest r.id).contents.length ≠ q.contents.length := fun he => by
    rw [← hsub.eq_of_length he, mem_contents_withoutRequest] at hr
    exact hr.2 rfl
  have hle := hsub.length_le
  rw [size_eq, size_eq]
  omega

theorem pending_withoutRequest (q : Queue) (id : RequestId) :
    (q.withoutRequest id).pending = q.pending.filter fun r => r.id != id := by
  rw [pending, inState, toList_withoutRequest, pending, inState, List.filter_map, List.filter_filter,
    List.filter_filter]
  congr 1
  exact List.filter_congr fun e _ => Bool.and_comm _ _

theorem mem_inFlight_withoutRequest {q : Queue} {id : RequestId} {r : OutgoingRequest} :
    r ∈ (q.withoutRequest id).inFlight ↔ r ∈ q.inFlight ∧ r.id ≠ id := by
  simp [mem_inFlight, toList_withoutRequest]

/-- An outcome is accepted exactly if the request is in flight and the outcome can be one of its kind.
The request is then taken off the queue. -/
theorem resolve_eq_ok_iff {q q' : Queue} {id : RequestId} {outcome : Outcome} {r : OutgoingRequest} :
    q.resolve id outcome = .ok (r, q') ↔
      r ∈ q.inFlight ∧ r.id = id ∧ outcome.mismatch? r.kind = none ∧ q' = q.withoutRequest id := by
  rw [mem_inFlight]
  unfold resolve removeInFlight
  constructor
  · intro h
    split at h
    · cases h
    · next x q₁ hx =>
      split at hx
      · next y hy =>
        cases hx
        obtain ⟨hm, hid⟩ := get?_eq_some_iff.1 hy
        split at h
        · cases h
        · next hk =>
          cases h
          exact ⟨hm, hid, hk, rfl⟩
      · cases hx
  · rintro ⟨hm, hid, hk, rfl⟩
    rw [get?_eq_some_iff.2 ⟨hm, hid⟩]
    simp only [hk, withoutRequest]

/-- A request that is in flight is compared with the outcome. -/
theorem resolve_of_mem {q : Queue} {r : OutgoingRequest} (hr : r ∈ q.inFlight) (outcome : Outcome) :
    q.resolve r.id outcome = match outcome.mismatch? r.kind with
      | some got => .error (.mismatchedResponse r.id r.kind got)
      | none => .ok (r, q.withoutRequest r.id) := by
  unfold resolve removeInFlight
  rw [get?_eq_some_iff.2 ⟨mem_inFlight.1 hr, rfl⟩]
  rfl

theorem resolve_of_forall_ne {q : Queue} {id : RequestId} (h : ∀ r ∈ q.inFlight, r.id ≠ id)
    (outcome : Outcome) : q.resolve id outcome = .error (.unknownRequest id) := by
  unfold resolve removeInFlight
  split
  · rfl
  · next x q₁ hx =>
    split at hx
    · next r hr =>
      obtain ⟨hm, hid⟩ := get?_eq_some_iff.1 hr
      exact absurd hid (h r (mem_inFlight.2 hm))
    · cases hx

/-- The pending requests that fail the test are dropped, and the others stay in order. -/
theorem toList_retainPending (q : Queue) (keep : Payload → Bool) :
    (q.retainPending keep).toList = q.toList.filter fun e => e.2 = .inFlight || keep e.1.payload := by
  simp [retainPending, toList, InsertionMap.filter, List.filter_map, Function.comp_def]

theorem contents_retainPending_sublist (q : Queue) (keep : Payload → Bool) :
    (q.retainPending keep).contents.Sublist q.contents := by
  rw [contents, toList_retainPending]
  exact List.filter_sublist.map _

theorem pending_retainPending (q : Queue) (keep : Payload → Bool) :
    (q.retainPending keep).pending = q.pending.filter fun r => keep r.payload := by
  rw [pending, inState, toList_retainPending, pending, inState, List.filter_map, List.filter_filter,
    List.filter_filter]
  congr 1
  refine List.filter_congr fun e _ => ?_
  cases e.2 <;> simp

theorem inFlight_retainPending (q : Queue) (keep : Payload → Bool) :
    (q.retainPending keep).inFlight = q.inFlight := by
  rw [inFlight, inState, toList_retainPending, inFlight, inState, List.filter_filter]
  congr 1
  refine List.filter_congr fun e _ => ?_
  cases e.2 <;> simp

end Queue
end Outbox
