/-
# What a decision pass does to a machine

A pass queues requests under names that were never used, in the order of what is wanted, and stops early
only at a full queue. Apart from the queue and the counter of names it touches one thing: queries for
devices are noted to be on their way. So everything that a pass reads is the same after it.

Key definitions: `Machine.Minted`, `Machine.Named`, `Machine.added`, `Machine.decided`.
Key theorems: `Machine.addAll_eq`, `Machine.ids_added`, `Machine.toList_addAll`,
`Machine.isFull_or_payloads_added`, `Machine.get?_addAll_of_minted`, `Machine.get?_addAll_of_mem`.
-/
import Outbox.Machine.Decision
import Outbox.Proofs.QueueView
import Outbox.SortedMap.Lemmas

namespace Outbox
namespace Machine

variable {m m' : Machine} {p : Payload} {ps : List Payload} {r : OutgoingRequest} {name : String}

/-! ### Names -/

/-- A name that was used. -/
def Minted (m : Machine) (name : String) : Prop := ∃ i < m.minted, m.ids.mint i = name

/-- All queued requests have names that were used. -/
def Named (m : Machine) : Prop := ∀ r ∈ m.queue.contents, m.Minted r.id

theorem not_minted_nextId (m : Machine) : ¬ m.Minted m.nextId := by
  rintro ⟨i, hi, he⟩
  exact m.ids.mint_ne_of_lt hi he

/-- A name that was used stays used. -/
theorem Minted.mono (h : m.Minted name) (hids : m'.ids = m.ids) (hle : m.minted ≤ m'.minted) :
    m'.Minted name := by
  obtain ⟨i, hi, he⟩ := h
  exact ⟨i, by omega, by rw [hids]; exact he⟩

theorem Minted.ne_nextId (h : m.Minted name) : name ≠ m.nextId := fun he =>
  m.not_minted_nextId (he ▸ h)

/-- The next name is not that of a queued request. -/
theorem Named.ne_nextId (hm : m.Named) : ∀ r ∈ m.queue.contents, r.id ≠ m.nextId :=
  fun r hr => (hm r hr).ne_nextId

/-! ### One request -/

/-- A request is added under the next name, unless the queue is full. -/
theorem add_eq_ok (h : m.add p = .ok m') :
    ∃ queue, m.queue.insert ⟨m.nextId, p⟩ .pending = .ok queue ∧
      m' = { m with
        minted := m.minted + 1
        deviceLists := noteDecision m.deviceLists ⟨m.nextId, p⟩
        queue } := by
  unfold add Queue.enqueue at h
  cases hq : m.queue.insert ⟨m.nextId, p⟩ .pending with
  | error e => simp [hq, Except.map] at h
  | ok queue =>
    simp only [hq, Except.map, Except.ok.injEq] at h
    exact ⟨queue, rfl, h.symm⟩

theorem isFull_of_add_eq_error {e : QueueFull} (h : m.add p = .error e) : m.queue.isFull = true := by
  unfold add Queue.enqueue at h
  cases hq : m.queue.insert ⟨m.nextId, p⟩ .pending with
  | error e => exact Queue.isFull_of_insert_eq_error hq
  | ok queue => simp [hq, Except.map] at h

theorem toList_of_add_eq_ok (hm : m.Named) (h : m.add p = .ok m') :
    m'.queue.toList = m.queue.toList ++ [(⟨m.nextId, p⟩, .pending)] := by
  obtain ⟨queue, hq, rfl⟩ := add_eq_ok h
  exact Queue.toList_insert hm.ne_nextId hq

theorem Named.add (hm : m.Named) (h : m.add p = .ok m') : m'.Named := by
  obtain ⟨queue, hq, rfl⟩ := add_eq_ok h
  intro x hx
  rw [Queue.contents_insert hm.ne_nextId hq, List.mem_append, List.mem_singleton] at hx
  rcases hx with hx | rfl
  · exact (hm x hx).mono rfl (Nat.le_succ _)
  · exact ⟨m.minted, Nat.lt_succ_self _, rfl⟩

/-! ### Many requests -/

/-- The requests that are queued when payloads are added one after the other. -/
def added (m : Machine) : List Payload → List OutgoingRequest
  | [] => []
  | p :: ps =>
    match m.add p with
    | .ok m' => ⟨m.nextId, p⟩ :: m'.added ps
    | .error _ => []

/-- The requests that a decision pass queues, in the order in which it does. -/
def decided (m : Machine) (now : Instant) : List OutgoingRequest := m.added (m.wanted now)

/-- Adding requests uses up a name for each, notes the queries, and changes the queue. -/
theorem addAll_eq (m : Machine) (ps : List Payload) : m.addAll ps = { m with
    minted := m.minted + (m.added ps).length
    deviceLists := (m.added ps).foldl noteDecision m.deviceLists
    queue := (m.addAll ps).queue } := by
  induction ps generalizing m with
  | nil => rfl
  | cons p ps ih =>
    unfold addAll added
    cases h : m.add p with
    | error e => rfl
    | ok m' =>
      obtain ⟨queue, -, rfl⟩ := add_eq_ok h
      simp only [List.length_cons, List.foldl_cons]
      rw [ih]
      simp only [Nat.add_assoc, Nat.add_comm 1]

@[simp] theorem addAll_userId (m : Machine) (ps : List Payload) :
    (m.addAll ps).userId = m.userId := by rw [addAll_eq]

@[simp] theorem addAll_settings (m : Machine) (ps : List Payload) :
    (m.addAll ps).settings = m.settings := by rw [addAll_eq]

@[simp] theorem addAll_ids (m : Machine) (ps : List Payload) :
    (m.addAll ps).ids = m.ids := by rw [addAll_eq]

@[simp] theorem addAll_ownKeys (m : Machine) (ps : List Payload) :
    (m.addAll ps).ownKeys = m.ownKeys := by rw [addAll_eq]

@[simp] theorem addAll_sessions (m : Machine) (ps : List Payload) :
    (m.addAll ps).sessions = m.sessions := by rw [addAll_eq]

@[simp] theorem addAll_messages (m : Machine) (ps : List Payload) :
    (m.addAll ps).messages = m.messages := by rw [addAll_eq]

@[simp] theorem addAll_backup (m : Machine) (ps : List Payload) :
    (m.addAll ps).backup = m.backup := by rw [addAll_eq]

theorem addAll_minted (m : Machine) (ps : List Payload) :
    (m.addAll ps).minted = m.minted + (m.added ps).length := by rw [addAll_eq]

theorem addAll_deviceLists (m : Machine) (ps : List Payload) :
    (m.addAll ps).deviceLists = (m.added ps).foldl noteDecision m.deviceLists := by rw [addAll_eq]

theorem Minted.addAll (h : m.Minted name) (ps : List Payload) : (m.addAll ps).Minted name :=
  h.mono (m.addAll_ids ps) (by rw [addAll_minted]; omega)

theorem capacity_addAll (m : Machine) (ps : List Payload) :
    (m.addAll ps).queue.capacity = m.queue.capacity := by
  induction ps generalizing m with
  | nil => rfl
  | cons p ps ih =>
    unfold Machine.addAll
    cases h : m.add p with
    | error e => rfl
    | ok m' =>
      obtain ⟨queue, hq, rfl⟩ := add_eq_ok h
      exact (ih _).trans (Queue.capacity_insert hq)

/-- The added requests have the next names, in order. -/
theorem ids_added (m : Machine) (ps : List Payload) : (m.added ps).map OutgoingRequest.id =
    (List.range' m.minted (m.added ps).length).map m.ids.mint := by
  induction ps generalizing m with
  | nil => rfl
  | cons p ps ih =>
    unfold added
    cases h : m.add p with
    | error e => rfl
    | ok m' =>
      obtain ⟨queue, -, rfl⟩ := add_eq_ok h
      simp only [List.map_cons, List.length_cons, List.range'_succ]
      rw [ih]
      rfl

theorem exists_mint_of_mem_added (h : r ∈ m.added ps) :
    ∃ i, m.minted ≤ i ∧ i < m.minted + (m.added ps).length ∧ m.ids.mint i = r.id := by
  have hi : r.id ∈ (m.added ps).map OutgoingRequest.id := List.mem_map_of_mem h
  rw [ids_added, List.mem_map] at hi
  obtain ⟨i, hr, he⟩ := hi
  rw [List.mem_range'_1] at hr
  exact ⟨i, hr.1, hr.2, he⟩

/-- An added request has a name that was not used before, and that is used after. -/
theorem not_minted_of_mem_added (h : r ∈ m.added ps) : ¬ m.Minted r.id := by
  obtain ⟨i, hi, -, he⟩ := exists_mint_of_mem_added h
  rintro ⟨j, hj, hje⟩
  exact m.ids.mint_ne_of_lt (by omega : j < i) (hje.trans he.symm)

theorem minted_of_mem_added (h : r ∈ m.added ps) : (m.addAll ps).Minted r.id := by
  obtain ⟨i, -, hi, he⟩ := exists_mint_of_mem_added h
  exact ⟨i, by rw [addAll_minted]; omega, by rw [addAll_ids]; exact he⟩

/-- What was queued before requests were added is not one of them. -/
theorem mem_of_mem_append_added {decided : List OutgoingRequest} (hm : m.Named)
    (hr : r ∈ m.queue.contents) (hd : r ∈ decided ++ m.added ps) : r ∈ decided :=
  (List.mem_append.1 hd).resolve_right fun hd => not_minted_of_mem_added hd (hm r hr)

theorem nodup_ids_added (m : Machine) (ps : List Payload) :
    ((m.added ps).map OutgoingRequest.id).Nodup := by
  have hn : (List.range' m.minted (m.added ps).length).Nodup := List.nodup_range'
  rw [ids_added]
  exact List.pairwise_map.2 (hn.imp fun hne he => hne (m.ids.mint_injective he))

/-- The added requests come last, in order, and wait to be handed out. -/
theorem toList_addAll (hm : m.Named) (ps : List Payload) : (m.addAll ps).queue.toList =
    m.queue.toList ++ (m.added ps).map fun r => (r, .pending) := by
  induction ps generalizing m with
  | nil => simp [addAll, added]
  | cons p ps ih =>
    unfold addAll added
    cases h : m.add p with
    | error e => simp
    | ok m' =>
      simp only [ih (hm.add h), toList_of_add_eq_ok hm h, List.map_cons, List.append_assoc,
        List.singleton_append]

theorem contents_addAll (hm : m.Named) (ps : List Payload) :
    (m.addAll ps).queue.contents = m.queue.contents ++ m.added ps := by
  rw [Queue.contents, toList_addAll hm, List.map_append, List.map_map]
  simp [Queue.contents, Function.comp_def]

theorem mem_contents_addAll (hm : m.Named) {ps : List Payload} {r : OutgoingRequest} :
    r ∈ (m.addAll ps).queue.contents ↔ r ∈ m.queue.contents ∨ r ∈ m.added ps := by
  rw [contents_addAll hm, List.mem_append]

theorem pending_addAll (hm : m.Named) (ps : List Payload) :
    (m.addAll ps).queue.pending = m.queue.pending ++ m.added ps := by
  simp [Queue.pending, Queue.inState, toList_addAll hm, List.filter_map, Function.comp_def]

theorem inFlight_addAll (hm : m.Named) (ps : List Payload) :
    (m.addAll ps).queue.inFlight = m.queue.inFlight := by
  simp [Queue.inFlight, Queue.inState, toList_addAll hm, List.filter_map, Function.comp_def]

theorem Named.addAll (hm : m.Named) (ps : List Payload) : (m.addAll ps).Named := by
  intro x hx
  rcases (mem_contents_addAll hm).1 hx with hx | hx
  · exact (hm x hx).addAll ps
  · exact minted_of_mem_added hx

/-- Requests are added from the front of the list. -/
theorem payloads_added_prefix (m : Machine) (ps : List Payload) :
    (m.added ps).map OutgoingRequest.payload <+: ps := by
  induction ps generalizing m with
  | nil => exact List.nil_prefix
  | cons p ps ih =>
    unfold added
    cases h : m.add p with
    | error e => exact List.nil_prefix
    | ok m' => exact List.cons_prefix_cons.2 ⟨rfl, ih m'⟩

theorem payload_mem_of_mem_added (h : r ∈ m.added ps) : r.payload ∈ ps :=
  (m.payloads_added_prefix ps).subset (List.mem_map_of_mem h)

/-- Only a full queue keeps a request from being added. -/
theorem isFull_or_payloads_added (m : Machine) (ps : List Payload) :
    (m.addAll ps).queue.isFull = true ∨ (m.added ps).map OutgoingRequest.payload = ps := by
  induction ps generalizing m with
  | nil => exact .inr rfl
  | cons p ps ih =>
    unfold addAll added
    cases h : m.add p with
    | error e => exact .inl (isFull_of_add_eq_error h)
    | ok m' =>
      rcases ih m' with hf | ha
      · exact .inl hf
      · exact .inr (by rw [List.map_cons, ha])

/-! ### Queries on their way -/

/-- Noting a decision touches the queries on their way and nothing else. -/
theorem noteDecision_eq (d : DeviceLists) (r : OutgoingRequest) :
    noteDecision d r = { d with queriesInFlight := (noteDecision d r).queriesInFlight } := by
  unfold noteDecision
  split <;> rfl

theorem foldl_noteDecision_eq (d : DeviceLists) (rs : List OutgoingRequest) :
    rs.foldl noteDecision d =
      { d with queriesInFlight := (rs.foldl noteDecision d).queriesInFlight } := by
  induction rs generalizing d with
  | nil => rfl
  | cons r rs ih =>
    rw [List.foldl_cons, ih, noteDecision_eq d r]

theorem get?_noteDecision_of_ne {d : DeviceLists} {id : RequestId} (h : r.id ≠ id) :
    (noteDecision d r).queriesInFlight.get? id = d.queriesInFlight.get? id := by
  unfold noteDecision
  split
  · exact SortedMap.get?_insert_of_ne _ _ h.symm
  · rfl

theorem get?_noteDecision_self (d : DeviceLists) (r : OutgoingRequest) :
    (noteDecision d r).queriesInFlight.get? r.id =
      (r.payload.keysQuery?.map fun q => ⟨d.invalidations, q.users⟩).or
        (d.queriesInFlight.get? r.id) := by
  obtain ⟨id, payload⟩ := r
  cases payload with
  | keysQuery q => exact SortedMap.get?_insert_self _ _ _
  | _ => rfl

theorem get?_foldl_noteDecision_of_notMem {id : RequestId} {rs : List OutgoingRequest}
    (d : DeviceLists) (h : ∀ r ∈ rs, r.id ≠ id) :
    (rs.foldl noteDecision d).queriesInFlight.get? id = d.queriesInFlight.get? id := by
  induction rs generalizing d with
  | nil => rfl
  | cons r rs ih =>
    rw [List.foldl_cons, ih _ fun x hx => h x (List.mem_cons_of_mem _ hx)]
    exact get?_noteDecision_of_ne (h r List.mem_cons_self)

/-- Of the requests that were decided on, exactly the queries are noted, with the invalidations so
far. -/
theorem get?_foldl_noteDecision_of_mem {rs : List OutgoingRequest} (d : DeviceLists)
    (hn : (rs.map OutgoingRequest.id).Nodup) (hr : r ∈ rs) :
    (rs.foldl noteDecision d).queriesInFlight.get? r.id =
      (r.payload.keysQuery?.map fun q => ⟨d.invalidations, q.users⟩).or
        (d.queriesInFlight.get? r.id) := by
  induction rs generalizing d with
  | nil => cases hr
  | cons x rs ih =>
    obtain ⟨hx, hn⟩ := List.nodup_cons.1 hn
    have hne : ∀ y ∈ rs, y.id ≠ x.id := fun y hy he => hx (he ▸ List.mem_map_of_mem hy)
    rw [List.foldl_cons]
    rcases List.mem_cons.1 hr with rfl | hr
    · rw [get?_foldl_noteDecision_of_notMem _ hne, get?_noteDecision_self]
    · rw [ih _ hn hr, get?_noteDecision_of_ne (hne r hr).symm, noteDecision_eq d x]

theorem addAll_queriesInFlight (m : Machine) (ps : List Payload) : (m.addAll ps).deviceLists =
    { m.deviceLists with queriesInFlight := (m.addAll ps).deviceLists.queriesInFlight } := by
  rw [addAll_deviceLists]
  exact foldl_noteDecision_eq _ _

@[simp] theorem addAll_tracked (m : Machine) (ps : List Payload) :
    (m.addAll ps).deviceLists.tracked = m.deviceLists.tracked := by rw [addAll_queriesInFlight]

@[simp] theorem addAll_invalidations (m : Machine) (ps : List Payload) :
    (m.addAll ps).deviceLists.invalidations = m.deviceLists.invalidations := by
  rw [addAll_queriesInFlight]

@[simp] theorem addAll_ownUser (m : Machine) (ps : List Payload) :
    (m.addAll ps).deviceLists.ownUser = m.deviceLists.ownUser := by rw [addAll_queriesInFlight]

@[simp] theorem addAll_failures (m : Machine) (ps : List Payload) :
    (m.addAll ps).deviceLists.failures = m.deviceLists.failures := by rw [addAll_queriesInFlight]

/-- What is noted under a used name stays. -/
theorem get?_addAll_of_minted {id : RequestId} (h : m.Minted id) (ps : List Payload) :
    (m.addAll ps).deviceLists.queriesInFlight.get? id = m.deviceLists.queriesInFlight.get? id := by
  rw [addAll_deviceLists]
  exact get?_foldl_noteDecision_of_notMem _ fun r hr he => not_minted_of_mem_added hr (he ▸ h)

theorem get?_addAll_of_mem (h : r ∈ m.added ps) :
    (m.addAll ps).deviceLists.queriesInFlight.get? r.id =
      (r.payload.keysQuery?.map fun q => ⟨m.deviceLists.invalidations, q.users⟩).or
        (m.deviceLists.queriesInFlight.get? r.id) := by
  rw [addAll_deviceLists]
  exact get?_foldl_noteDecision_of_mem _ (m.nodup_ids_added ps) h

end Machine
end Outbox
