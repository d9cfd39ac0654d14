/-
# The ledger of requests

A ledger keeps count of the requests of a machine: which ones decision passes queued, which ones were
handed out, and which ones were marked as sent. The queue agrees with the ledger (`Ledger.Agrees`): in
flight are exactly the requests that were handed out and not marked, and what was decided on was drained
in order, or still waits, or was a dropped backup. Each step keeps that, since new requests have names
that were never used and only the end of a request takes it away once it was handed out.

Key definitions: `Ledger`, `Ledger.Agrees`.
Key theorems: `Ledger.Agrees.pass`, `Ledger.Agrees.drain`, `Ledger.Agrees.complete`,
`Ledger.Agrees.query`, `Ledger.Agrees.retain`, `Ledger.Agrees.queue_eq`.
-/
import Mathlib.Data.List.Nodup
import Outbox.Proofs.DecisionPass
import Outbox.Proofs.Outcomes

namespace Outbox

/-- The requests of a machine, by what happened to them. -/
structure Ledger where
  /-- The requests that decision passes queued, in order. -/
  decided : List OutgoingRequest
  /-- The requests that were made for a caller. -/
  outOfBand : List OutgoingRequest
  /-- The requests that waited and were handed out, in order. -/
  drained : List OutgoingRequest
  /-- All requests that were handed out, in order. -/
  handedOut : List OutgoingRequest
  /-- The names of the requests whose end is known. -/
  marked : List RequestId

/-- Names stay apart when lists without a name in common are put together. -/
theorem nodup_ids_append {l₁ l₂ : List OutgoingRequest} (h₁ : (l₁.map OutgoingRequest.id).Nodup)
    (h₂ : (l₂.map OutgoingRequest.id).Nodup) (hne : ∀ r ∈ l₁, ∀ s ∈ l₂, r.id ≠ s.id) :
    ((l₁ ++ l₂).map OutgoingRequest.id).Nodup := by
  rw [List.map_append, List.nodup_append]
  refine ⟨h₁, h₂, ?_⟩
  intro a ha b hb
  obtain ⟨r, hr, rfl⟩ := List.mem_map.1 ha
  obtain ⟨s, hs, rfl⟩ := List.mem_map.1 hb
  exact hne r hr s hs

namespace Ledger

/-- The ledger agrees with the machine. -/
structure Agrees (l : Ledger) (m : Machine) : Prop where
  named : m.Named
  minted_decided : ∀ r ∈ l.decided, m.Minted r.id
  minted_handedOut : ∀ r ∈ l.handedOut, m.Minted r.id
  nodup_decided : (l.decided.map OutgoingRequest.id).Nodup
  nodup_handedOut : (l.handedOut.map OutgoingRequest.id).Nodup
  kind_outOfBand : ∀ r ∈ l.outOfBand, r.kind = .keysQuery
  outOfBand_handedOut : ∀ r ∈ l.outOfBand, r ∈ l.handedOut
  decided_ne_outOfBand : ∀ r ∈ l.decided, ∀ s ∈ l.outOfBand, r.id ≠ s.id
  queued : ∀ r ∈ m.queue.contents, r ∈ l.decided ∨ r ∈ l.outOfBand
  inFlight_iff : ∀ r, r ∈ m.queue.inFlight ↔ r ∈ l.handedOut ∧ r.id ∉ l.marked
  pending_ne_handedOut : ∀ r ∈ m.queue.pending, ∀ s ∈ l.handedOut, r.id ≠ s.id
  nodup_marked : l.marked.Nodup
  marked_handedOut : ∀ id ∈ l.marked, ∃ r ∈ l.handedOut, r.id = id
  sublist : (l.drained ++ m.queue.pending).Sublist l.decided
  kept : ∀ r ∈ l.decided, r ∈ l.drained ∨ r ∈ m.queue.pending ∨ r.kind = .keysBackup

namespace Agrees

variable {l : Ledger} {m m' : Machine} {now : Instant} {r s : OutgoingRequest}

/-- A new machine has an empty ledger. -/
theorem new (userId : UserId) (deviceId : DeviceId) (deviceKeys : Opaque) (settings : Settings)
    (ids : IdSource) :
    Agrees ⟨[], [], [], [], []⟩ (Machine.new userId deviceId deviceKeys settings ids) where
  named _ hr := nomatch hr
  minted_decided _ hr := nomatch hr
  minted_handedOut _ hr := nomatch hr
  nodup_decided := .nil
  nodup_handedOut := .nil
  kind_outOfBand _ hr := nomatch hr
  outOfBand_handedOut _ hr := nomatch hr
  decided_ne_outOfBand _ hr := nomatch hr
  queued _ hr := nomatch hr
  inFlight_iff _ := ⟨fun hr => (List.not_mem_nil hr).elim, fun hr => (List.not_mem_nil hr.1).elim⟩
  pending_ne_handedOut _ hr := nomatch hr
  nodup_marked := .nil
  marked_handedOut _ hr := nomatch hr
  sublist := List.Sublist.refl []
  kept _ hr := nomatch hr

/-- The ledger is about the queue and the names only. -/
theorem of_queue_eq (ha : l.Agrees m) (hq : m'.queue = m.queue) (hids : m'.ids = m.ids)
    (hle : m.minted ≤ m'.minted) : l.Agrees m' where
  named x hx := (ha.named x (by rw [← hq]; exact hx)).mono hids hle
  minted_decided x hx := (ha.minted_decided x hx).mono hids hle
  minted_handedOut x hx := (ha.minted_handedOut x hx).mono hids hle
  nodup_decided := ha.nodup_decided
  nodup_handedOut := ha.nodup_handedOut
  kind_outOfBand := ha.kind_outOfBand
  outOfBand_handedOut := ha.outOfBand_handedOut
  decided_ne_outOfBand := ha.decided_ne_outOfBand
  queued := hq ▸ ha.queued
  inFlight_iff := hq ▸ ha.inFlight_iff
  pending_ne_handedOut := hq ▸ ha.pending_ne_handedOut
  nodup_marked := ha.nodup_marked
  marked_handedOut := ha.marked_handedOut
  sublist := hq ▸ ha.sublist
  kept := hq ▸ ha.kept

/-- A request that waits was not marked. -/
theorem not_marked_of_pending (ha : l.Agrees m) (hr : r ∈ m.queue.pending) : r.id ∉ l.marked := by
  intro hm
  obtain ⟨s, hs, he⟩ := ha.marked_handedOut _ hm
  exact ha.pending_ne_handedOut r hr s hs he.symm

/-- A queued request that has the name of one that was decided on is that one. -/
theorem queue_eq (ha : l.Agrees m) (hr : r ∈ m.queue.contents) (hs : s ∈ l.decided)
    (he : r.id = s.id) : r = s := by
  rcases ha.queued r hr with hd | ho
  · exact List.inj_on_of_nodup_map ha.nodup_decided hd hs he
  · exact absurd he.symm (ha.decided_ne_outOfBand s hs r ho)

/-- A queued request that is not a query was decided on. -/
theorem mem_decided (ha : l.Agrees m) (hr : r ∈ m.queue.contents) (hk : r.kind ≠ .keysQuery) :
    r ∈ l.decided :=
  (ha.queued r hr).resolve_right fun ho => hk (ha.kind_outOfBand r ho)

/-! ### Steps -/

/-- A decision pass adds what it queues. -/
theorem pass (ha : l.Agrees m) (ps : List Payload) :
    Agrees { l with decided := l.decided ++ m.added ps } (m.addAll ps) := by
  have hfresh : ∀ r ∈ m.added ps, ∀ name, m.Minted name → r.id ≠ name :=
    fun r hr name hn he => Machine.not_minted_of_mem_added hr (he ▸ hn)
  refine { ha with
    named := ha.named.addAll ps
    minted_decided := ?_
    minted_handedOut := fun r hr => (ha.minted_handedOut r hr).addAll ps
    nodup_decided := ?_
    decided_ne_outOfBand := ?_
    queued := ?_
    inFlight_iff := ?_
    pending_ne_handedOut := ?_
    sublist := ?_
    kept := ?_ }
  · intro r hr
    rcases List.mem_append.1 hr with hr | hr
    · exact (ha.minted_decided r hr).addAll ps
    · exact Machine.minted_of_mem_added hr
  · refine nodup_ids_append ha.nodup_decided (m.nodup_ids_added ps) fun r hr s hs => ?_
    exact (hfresh s hs _ (ha.minted_decided r hr)).symm
  · intro r hr s hs
    rcases List.mem_append.1 hr with hr | hr
    · exact ha.decided_ne_outOfBand r hr s hs
    · exact hfresh r hr _ (ha.minted_handedOut s (ha.outOfBand_handedOut s hs))
  · intro r hr
    rcases (Machine.mem_contents_addAll ha.named).1 hr with hr | hr
    · exact (ha.queued r hr).imp_left (List.mem_append_left _)
    · exact .inl (List.mem_append_right _ hr)
  · intro r
    rw [Machine.inFlight_addAll ha.named]
    exact ha.inFlight_iff r
  · intro r hr s hs
    rw [Machine.pending_addAll ha.named, List.mem_append] at hr
    rcases hr with hr | hr
    · exact ha.pending_ne_handedOut r hr s hs
    · exact hfresh r hr _ (ha.minted_handedOut s hs)
  · rw [Machine.pending_addAll ha.named, ← List.append_assoc]
    exact ha.sublist.append (.refl _)
  · intro r hr
    rw [Machine.pending_addAll ha.named, List.mem_append]
    rcases List.mem_append.1 hr with hr | hr
    · rcases ha.kept r hr with hr | hr | hr
      · exact .inl hr
      · exact .inr (.inl (.inl hr))
      · exact .inr (.inr hr)
    · exact .inr (.inl (.inr hr))

/-- Handing out adds all that waits. -/
theorem drain (ha : l.Agrees m) : Agrees
    { l with
      drained := l.drained ++ m.queue.pending
      handedOut := l.handedOut ++ m.queue.pending }
    { m with queue := m.queue.drainPending.2 } := by
  have hpend : (Queue.drainPending m.queue).2.pending = [] := Queue.pending_drainPending _
  refine { ha with
    named := ?_
    minted_handedOut := ?_
    nodup_handedOut := ?_
    outOfBand_handedOut := fun r hr => List.mem_append_left _ (ha.outOfBand_handedOut r hr)
    queued := ?_
    inFlight_iff := ?_
    pending_ne_handedOut := ?_
    marked_handedOut := ?_
    sublist := ?_
    kept := ?_ }
  · intro r hr
    rw [Queue.contents_drainPending] at hr
    exact ha.named r hr
  · intro r hr
    rcases List.mem_append.1 hr with hr | hr
    · exact ha.minted_handedOut r hr
    · exact ha.named r (Queue.mem_contents_iff.2 (.inl hr))
  · have hn : (m.queue.pending.map OutgoingRequest.id).Nodup :=
      m.queue.nodup_ids.sublist ((List.filter_sublist.map _).map _)
    refine nodup_ids_append ha.nodup_handedOut hn fun r hr s hs => ?_
    exact (ha.pending_ne_handedOut s hs r hr).symm
  · intro r hr
    rw [Queue.contents_drainPending] at hr
    exact ha.queued r hr
  · intro r
    rw [Queue.inFlight_drainPending, Queue.mem_contents_iff, List.mem_append]
    constructor
    · rintro (hr | hr)
      · exact ⟨.inr hr, ha.not_marked_of_pending hr⟩
      · obtain ⟨hr, hm⟩ := (ha.inFlight_iff r).1 hr
        exact ⟨.inl hr, hm⟩
    · rintro ⟨hr | hr, hm⟩
      · exact .inr ((ha.inFlight_iff r).2 ⟨hr, hm⟩)
      · exact .inl hr
  · intro r hr
    rw [hpend] at hr
    cases hr
  · intro id hid
    obtain ⟨r, hr, he⟩ := ha.marked_handedOut id hid
    exact ⟨r, List.mem_append_left _ hr, he⟩
  · rw [hpend, List.append_nil]
    exact ha.sublist
  · intro r hr
    rcases ha.kept r hr with hr | hr | hr
    · exact .inl (List.mem_append_left _ hr)
    · exact .inl (List.mem_append_right _ hr)
    · exact .inr (.inr hr)

/-- The end of a request that was handed out takes it away, and no other request. -/
theorem complete (ha : l.Agrees m) (hr : r ∈ m.queue.inFlight) (now : Instant) (outcome : Outcome) :
    Agrees { l with marked := l.marked ++ [r.id] } (m.withOutcome now r outcome) := by
  obtain ⟨hout, hnew⟩ := (ha.inFlight_iff r).1 hr
  have hne : ∀ x ∈ m.queue.pending, x.id ≠ r.id := fun x hx => ha.pending_ne_handedOut x hx r hout
  have hpend : (m.withOutcome now r outcome).queue.pending = m.queue.pending := by
    rw [Machine.withOutcome_queue, Queue.pending_withoutRequest, List.filter_eq_self]
    exact fun x hx => bne_iff_ne.2 (hne x hx)
  have hcont : ∀ x ∈ (m.withOutcome now r outcome).queue.contents, x ∈ m.queue.contents := by
    intro x hx
    rw [Machine.withOutcome_queue] at hx
    exact (m.queue.contents_withoutRequest_sublist r.id).subset hx
  have hmint : ∀ {name}, m.Minted name → (m.withOutcome now r outcome).Minted name :=
    fun h => h.mono (by simp) (by simp)
  refine { ha with
    named := fun x hx => hmint (ha.named x (hcont x hx))
    minted_decided := fun x hx => hmint (ha.minted_decided x hx)
    minted_handedOut := fun x hx => hmint (ha.minted_handedOut x hx)
    queued := fun x hx => ha.queued x (hcont x hx)
    inFlight_iff := ?_
    pending_ne_handedOut := ?_
    nodup_marked := ?_
    marked_handedOut := ?_
    sublist := ?_
    kept := ?_ }
  · intro x
    rw [Machine.withOutcome_queue, Queue.mem_inFlight_withoutRequest, ha.inFlight_iff x,
      List.mem_append, List.mem_singleton, not_or, and_assoc]
  · rw [hpend]
    exact ha.pending_ne_handedOut
  · rw [List.nodup_append]
    refine ⟨ha.nodup_marked, List.nodup_singleton _, ?_⟩
    intro a hma b hb he
    rw [List.mem_singleton] at hb
    exact hnew (by rw [← hb, ← he]; exact hma)
  · intro id hid
    rcases List.mem_append.1 hid with hid | hid
    · exact ha.marked_handedOut id hid
    · exact ⟨r, hout, (List.mem_singleton.1 hid).symm⟩
  · rw [hpend]
    exact ha.sublist
  · rw [hpend]
    exact ha.kept

/-- A query for a caller is handed out and never waits. -/
theorem query (ha : l.Agrees m) {q : KeysQuery} {queue : Queue}
    (hq : m.queue.insert ⟨m.nextId, .keysQuery q⟩ .inFlight = .ok queue) : Agrees
    { l with
      outOfBand := l.outOfBand ++ [⟨m.nextId, .keysQuery q⟩]
      handedOut := l.handedOut ++ [⟨m.nextId, .keysQuery q⟩] }
    { m with minted := m.minted + 1, queue } := by
  have hfresh := ha.named.ne_nextId
  have hmint : ∀ {name}, m.Minted name → Machine.Minted { m with minted := m.minted + 1, queue } name :=
    fun h => h.mono rfl (Nat.le_succ _)
  have hnext : Machine.Minted { m with minted := m.minted + 1, queue } m.nextId :=
    ⟨m.minted, Nat.lt_succ_self _, rfl⟩
  have hcont := Queue.contents_insert hfresh hq
  have hpend := Queue.pending_insert_inFlight hfresh hq
  have hfly := Queue.inFlight_insert_inFlight hfresh hq
  refine { ha with
    named := ?_
    minted_decided := fun x hx => hmint (ha.minted_decided x hx)
    minted_handedOut := ?_
    nodup_handedOut := ?_
    kind_outOfBand := ?_
    outOfBand_handedOut := ?_
    decided_ne_outOfBand := ?_
    queued := ?_
    inFlight_iff := ?_
    pending_ne_handedOut := ?_
    marked_handedOut := ?_
    sublist := ?_
    kept := ?_ }
  · intro x hx
    rw [hcont, List.mem_append, List.mem_singleton] at hx
    rcases hx with hx | rfl
    · exact hmint (ha.named x hx)
    · exact hnext
  · intro x hx
    rw [List.mem_append, List.mem_singleton] at hx
    rcases hx with hx | rfl
    · exact hmint (ha.minted_handedOut x hx)
    · exact hnext
  · refine nodup_ids_append ha.nodup_handedOut (List.nodup_singleton _) fun x hx y hy => ?_
    rw [List.mem_singleton.1 hy]
    exact (ha.minted_handedOut x hx).ne_nextId
  · intro x hx
    rw [List.mem_append, List.mem_singleton] at hx
    rcases hx with hx | rfl
    · exact ha.kind_outOfBand x hx
    · rfl
  · intro x hx
    rw [List.mem_append, List.mem_singleton] at hx ⊢
    exact hx.imp_left (ha.outOfBand_handedOut x)
  · intro x hx y hy
    rw [List.mem_append, List.mem_singleton] at hy
    rcases hy with hy | rfl
    · exact ha.decided_ne_outOfBand x hx y hy
    · exact (ha.minted_decided x hx).ne_nextId
  · intro x hx
    rw [hcont, List.mem_append] at hx
    rcases hx with hx | hx
    · exact (ha.queued x hx).imp_right (List.mem_append_left _)
    · exact .inr (List.mem_append_right _ hx)
  · intro x
    rw [hfly, List.mem_append, List.mem_append, List.mem_singleton, ha.inFlight_iff x]
    constructor
    · rintro (⟨hx, hn⟩ | rfl)
      · exact ⟨.inl hx, hn⟩
      · refine ⟨.inr rfl, fun hm => ?_⟩
        obtain ⟨y, hy, he⟩ := ha.marked_handedOut _ hm
        exact (ha.minted_handedOut y hy).ne_nextId he
    · rintro ⟨hx | rfl, hn⟩
      · exact .inl ⟨hx, hn⟩
      · exact .inr rfl
  · intro x hx y hy
    rw [hpend] at hx
    rw [List.mem_append, List.mem_singleton] at hy
    rcases hy with hy | rfl
    · exact ha.pending_ne_handedOut x hx y hy
    · exact hfresh x (Queue.mem_contents_iff.2 (.inl hx))
  · intro id hid
    obtain ⟨x, hx, he⟩ := ha.marked_handedOut id hid
    exact ⟨x, List.mem_append_left _ hx, he⟩
  · rw [hpend]
    exact ha.sublist
  · rw [hpend]
    exact ha.kept

/-- Only backups that were not handed out are ever dropped. -/
theorem retain (ha : l.Agrees m) {keep : Payload → Bool}
    (hkeep : ∀ p : Payload, p.kind ≠ .keysBackup → keep p = true) (b : Backup) :
    l.Agrees { m with backup := b, queue := m.queue.retainPending keep } := by
  have hcont : ∀ x ∈ (m.queue.retainPending keep).contents, x ∈ m.queue.contents := fun x hx =>
    (m.queue.contents_retainPending_sublist keep).subset hx
  have hpend : ∀ x, x ∈ (m.queue.retainPending keep).pending ↔
      x ∈ m.queue.pending ∧ keep x.payload = true := fun x => by
    rw [Queue.pending_retainPending, List.mem_filter]
  refine { ha with
    named := fun x hx => ha.named x (hcont x hx)
    queued := fun x hx => ha.queued x (hcont x hx)
    inFlight_iff := ?_
    pending_ne_handedOut := fun x hx => ha.pending_ne_handedOut x ((hpend x).1 hx).1
    sublist := ?_
    kept := ?_ }
  · intro x
    rw [Queue.inFlight_retainPending]
    exact ha.inFlight_iff x
  · rw [Queue.pending_retainPending]
    exact ((List.Sublist.refl _).append List.filter_sublist).trans ha.sublist
  · intro x hx
    by_cases hk : x.kind = .keysBackup
    · exact .inr (.inr hk)
    · rcases ha.kept x hx with hd | hp | hb
      · exact .inl hd
      · exact .inr (.inl ((hpend x).2 ⟨hp, hkeep x.payload hk⟩))
      · exact .inr (.inr hb)

end Agrees
end Ledger
end Outbox
