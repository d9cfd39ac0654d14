/-
# No work is done twice

Among the queued requests, waiting or in flight, no two that were decided on overlap: a decision pass
wants nothing that overlaps with what is queued, and every other event only takes requests away.

Key definitions: `Machine.WorksOnce`.
Key theorems: `Machine.not_overlaps_of_mem_wanted`, `Machine.WorksOnce.not_overlaps`,
`Machine.WorksOnce.pass`, `Machine.Reached.worksOnce`, `Machine.no_duplicated_work`.
-/
import Mathlib.Data.List.Pairwise
import Outbox.Proofs.HeldMessages
import Outbox.Proofs.QueryNotes

namespace Outbox
namespace Machine

variable {m m' : Machine} {l : Ledger} {h : List Turn} {decided : List OutgoingRequest} {now : Instant}
  {call : Call} {answer : Answer} {r : OutgoingRequest} {p : Payload}

/-- What is wanted does not overlap with what is queued, as far as the users of queued queries count as
being queried. -/
theorem not_overlaps_of_mem_wanted (hr : r ∈ m.queue.contents)
    (hq : ∀ q, r.payload = .keysQuery q → ∀ u ∈ q.users, m.deviceLists.isBeingQueried u = true)
    (hp : p ∈ m.wanted now) : ¬ r.payload.Overlaps p := by
  intro ho
  have hkind : r.kind = p.kind := ho.kind_eq
  have hfree : m.queue.containsKind p.kind ≠ false := by
    rw [Queue.containsKind_iff.2 ⟨r, hr, hkind⟩]
    decide
  rcases mem_wanted.1 hp with hp | hp | hp | hp | hp | hp | hp
  · rw [kind_of_mem_wantedKeysUpload hp] at hfree
    exact hfree (mem_onePerKind.1 hp).1
  · obtain ⟨q, rfl, hel⟩ := mem_wantedKeysQueries hp
    cases hpay : r.payload with
    | keysQuery q' =>
      rw [hpay] at ho
      obtain ⟨u, hu', hu⟩ := ho
      have hbusy := hq q' hpay u hu'
      rw [(DeviceLists.mem_eligibleUsers.1 (hel u hu)).2.1] at hbusy
      cases hbusy
    | _ =>
      rw [hpay] at ho
      exact ho
  · rw [kind_of_mem_wantedKeysClaim hp] at hfree
    exact hfree (mem_onePerKind.1 hp).1
  · obtain ⟨x, -, rfl, hnot⟩ := mem_wantedToDevice.1 hp
    refine hnot r hr ?_
    cases hpay : r.payload <;> rw [hpay] at ho <;> first | exact ho.elim | skip
    rw [Payload.message?, show _ = x.txnId from ho]
  · rw [kind_of_mem_wantedSignatureUpload hp] at hfree
    exact hfree (mem_wantedSignatureUpload.1 hp).2.1
  · obtain ⟨x, -, rfl, hnot⟩ := mem_wantedRoomMessages.1 hp
    refine hnot r hr ?_
    cases hpay : r.payload <;> rw [hpay] at ho <;> first | exact ho.elim | skip
    rw [Payload.message?, show _ = x.txnId from ho]
  · obtain ⟨b, rfl, hv, -, hnot⟩ := mem_wantedKeysBackup hp
    refine absurd ((isBackupQueued_iff hv).2 ⟨r, hr, ?_⟩) (by rw [hnot]; decide)
    cases hpay : r.payload <;> rw [hpay] at ho <;> first | exact ho.elim | skip
    exact ⟨_, rfl, ho⟩

/-- No two queued requests that were decided on overlap. -/
def WorksOnce (m : Machine) (decided : List OutgoingRequest) : Prop :=
  m.queue.contents.Pairwise fun r s => r ∈ decided → s ∈ decided → ¬ r.payload.Overlaps s.payload

namespace WorksOnce

theorem sublist (hw : m.WorksOnce decided) (hs : m'.queue.contents.Sublist m.queue.contents) :
    m'.WorksOnce decided :=
  List.Pairwise.sublist hs hw

/-- Two different requests that are queued do not overlap. -/
theorem not_overlaps (hw : m.WorksOnce decided) {r s : OutgoingRequest} (hr : r ∈ m.queue.contents)
    (hs : s ∈ m.queue.contents) (hne : r ≠ s) (hdr : r ∈ decided) (hds : s ∈ decided) :
    ¬ r.payload.Overlaps s.payload := by
  have hsymm : Std.Symm fun r s : OutgoingRequest =>
      r ∈ decided → s ∈ decided → ¬ r.payload.Overlaps s.payload :=
    ⟨fun r s hrs hs hr ho => hrs hr hs ho.symm⟩
  exact List.Pairwise.forall hw hr hs hne hdr hds

/-- A decision pass queues nothing that overlaps with what is queued. -/
theorem pass (hw : m.WorksOnce l.decided) (ha : l.Agrees m) (hn : m.NotesQueries l.decided)
    (hk : m.messages.Keyed) (now : Instant) :
    (m.decisionPass now).WorksOnce (l.decided ++ m.decided now) := by
  have hold : ∀ r ∈ m.queue.contents, r ∈ l.decided ++ m.decided now → r ∈ l.decided :=
    fun r hr => mem_of_mem_append_added ha.named hr
  have hbusy : ∀ r ∈ m.queue.contents, r ∈ l.decided → ∀ q, r.payload = .keysQuery q →
      ∀ u ∈ q.users, m.deviceLists.isBeingQueried u = true := by
    intro r hr hd q hq u hu
    exact hn.isBeingQueried_iff.2 ⟨r, hr, hd, q, hq, hu⟩
  unfold WorksOnce decisionPass
  rw [contents_addAll ha.named, List.pairwise_append]
  refine ⟨?_, ?_, ?_⟩
  · refine hw.imp_of_mem fun {r s} hr hs hrs hdr hds => ?_
    exact hrs (hold r hr hdr) (hold s hs hds)
  · have hp := (pairwise_wanted hk now).sublist (m.payloads_added_prefix (m.wanted now)).sublist
    exact (List.pairwise_map.1 hp).imp fun hrs _ _ => hrs
  · intro r hr s hs hdr _
    exact not_overlaps_of_mem_wanted hr (hbusy r hr (hold r hr hdr)) (payload_mem_of_mem_added hs)

/-- Every turn keeps work from being done twice. -/
theorem turn (hw : m.WorksOnce l.decided) (ha : l.Agrees m) (hn : m.NotesQueries l.decided)
    (hk : m.messages.Keyed) (ht : m.Transition now call answer m') :
    m'.WorksOnce (l.add ⟨m, now, call, answer, m'⟩).decided := by
  -- A call that only takes requests away decides nothing.
  have fewer : ∀ {call answer m'}, Turn.decided ⟨m, now, call, answer, m'⟩ = [] →
      m'.queue.contents.Sublist m.queue.contents →
      m'.WorksOnce (l.add ⟨m, now, call, answer, m'⟩).decided := fun hd hs => by
    rw [Ledger.add, hd, List.append_nil]
    exact hw.sublist hs
  cases ht with
  | handOut =>
    refine (hw.pass ha hn hk now).sublist ?_
    rw [Queue.contents_drainPending]
  | complete r outcome inFlight fits =>
    have hs : (m.withOutcome now r outcome).queue.contents.Sublist m.queue.contents := by
      rw [withOutcome_queue]
      exact m.queue.contents_withoutRequest_sublist r.id
    have hp := pass (l := { l with marked := l.marked ++ [r.id] }) (hw.sublist hs)
      (ha.complete inFlight now outcome) (hn.complete inFlight now fits)
      (keyed_withOutcome hk now fits) now
    rw [Ledger.add, Turn.decided_markAsSent inFlight fits]
    exact hp
  | query users q queue built inserted =>
    simp only [Ledger.add, Turn.decided, List.append_nil]
    unfold WorksOnce
    rw [Queue.contents_insert ha.named.ne_nextId inserted, List.pairwise_append]
    refine ⟨hw, List.pairwise_singleton _ _, fun r hr s hs hdr hds => ?_⟩
    cases List.mem_singleton.1 hs
    exact absurd rfl (ha.minted_decided _ hds).ne_nextId
  | enable version nonempty => exact fewer rfl (m.queue.contents_retainPending_sublist _)
  | disable => exact fewer rfl (m.queue.contents_retainPending_sublist _)
  | refuse call reason refusable => exact fewer (by cases call <;> rfl) (.refl _)
  | addOneTimeKeys | addFallbackKeys | track | change | missing | acceptToDevice | acceptSignatures
  | acceptRoomMessage | addRoomKey => exact fewer rfl (.refl _)

end WorksOnce

theorem Reached.worksOnce (hm : Reached h m) : m.WorksOnce (h.flatMap Turn.decided) := by
  induction hm with
  | new => exact .nil
  | step now call hm ih =>
    have ht := ih.turn (l := ledger _) hm.agrees hm.notesQueries hm.keyed (transition_step _ now call)
    rw [← ledger_snoc] at ht
    exact ht

/-! ### Kind by kind -/

/-- Queued requests that are not queries do not overlap at all. -/
theorem Reached.pairwise_contents (hm : Reached h m) :
    m.queue.contents.Pairwise fun r s => r.kind ≠ .keysQuery → ¬ r.payload.Overlaps s.payload := by
  refine hm.worksOnce.imp_of_mem fun {r s} hr hs hrs hk ho => ?_
  have hks : s.kind ≠ .keysQuery := by
    rw [show s.kind = r.kind from ho.kind_eq.symm]
    exact hk
  exact hrs (hm.agrees.mem_decided hr hk) (hm.agrees.mem_decided hs hks) ho

/-- Of a kind whose requests always overlap, at most one request is queued. -/
theorem Reached.length_ofKind_le (hm : Reached h m) {kind : RequestKind} (hk : kind ≠ .keysQuery)
    (hall : ∀ p q : Payload, p.kind = kind → q.kind = kind → p.Overlaps q) :
    (m.queue.ofKind kind).length ≤ 1 := by
  have hp : (m.queue.ofKind kind).Pairwise fun r s => r.kind ≠ .keysQuery →
      ¬ r.payload.Overlaps s.payload := hm.pairwise_contents.filter _
  match hl : m.queue.ofKind kind with
  | [] => exact Nat.zero_le 1
  | [_] => exact Nat.le_refl 1
  | r :: s :: rest =>
    have hr : r ∈ m.queue.ofKind kind := by rw [hl]; exact List.mem_cons_self
    have hs : s ∈ m.queue.ofKind kind := by rw [hl]; exact List.mem_cons_of_mem _ List.mem_cons_self
    rw [hl] at hp
    have hkr := (Queue.mem_ofKind.1 hr).2
    have hno := (List.pairwise_cons.1 hp).1 s List.mem_cons_self (by rw [hkr]; exact hk)
    exact absurd (hall _ _ hkr (Queue.mem_ofKind.1 hs).2) hno

/-- What tells apart the requests of a kind does not repeat. -/
theorem Reached.nodup_filterMap (hm : Reached h m) {α κ : Type} {f : Payload → Option α} {g : α → κ}
    (hk : ∀ {p a}, f p = some a → p.kind ≠ .keysQuery)
    (ho : ∀ {p q a b}, f p = some a → f q = some b → g a = g b → p.Overlaps q) :
    (m.queue.contents.filterMap fun r => (f r.payload).map g).Nodup := by
  refine List.pairwise_filterMap.2 (hm.pairwise_contents.imp fun {r s} hrs x hx y hy he => ?_)
  obtain ⟨a, ha, rfl⟩ := Option.map_eq_some_iff.1 hx
  obtain ⟨b, hb, rfl⟩ := Option.map_eq_some_iff.1 hy
  exact hrs (hk ha) (ho ha hb he)

/-- **No two queued requests do the same work**, whatever calls were made to a new machine: there is at
most one upload of keys, one claim and one upload of signatures; no two requests have the same message
to devices or to a room; no two backups are of the same version; and no user is in two queries that
decision passes queued. -/
theorem no_duplicated_work (userId : UserId) (deviceId : DeviceId) (deviceKeys : Opaque)
    (settings : Settings) (ids : IdSource) (calls : List (Instant × Call)) :
    let h := (new userId deviceId deviceKeys settings ids).turns calls
    let m := ((new userId deviceId deviceKeys settings ids).run calls).2
    ((m.queue.ofKind .keysUpload).length ≤ 1 ∧ (m.queue.ofKind .keysClaim).length ≤ 1 ∧
      (m.queue.ofKind .signatureUpload).length ≤ 1) ∧
    (m.queue.contents.filterMap fun r => r.payload.toDevice?.map ToDevice.txnId).Nodup ∧
    (m.queue.contents.filterMap fun r => r.payload.roomMessage?.map RoomMessage.txnId).Nodup ∧
    (m.queue.contents.filterMap fun r => r.payload.keysBackup?.map KeysBackup.version).Nodup ∧
    m.queue.contents.Pairwise fun r s => r ∈ h.flatMap Turn.decided → s ∈ h.flatMap Turn.decided →
      ∀ q q', r.payload = .keysQuery q → s.payload = .keysQuery q' → ∀ u ∈ q.users, u ∉ q'.users := by
  intro h m
  have hm : Reached h m := (Reached.new userId deviceId deviceKeys settings ids).run calls
  refine ⟨⟨?_, ?_, ?_⟩, ?_, ?_, ?_, ?_⟩
  · exact hm.length_ofKind_le nofun fun _ _ => Payload.overlaps_of_kind (.inl rfl)
  · exact hm.length_ofKind_le nofun fun _ _ => Payload.overlaps_of_kind (.inr (.inl rfl))
  · exact hm.length_ofKind_le nofun fun _ _ => Payload.overlaps_of_kind (.inr (.inr rfl))
  · refine hm.nodup_filterMap (f := Payload.toDevice?) (fun hp => ?_) fun hp hq he => ?_
    · rw [Payload.toDevice?_eq_some_iff.1 hp]
      nofun
    · rw [Payload.toDevice?_eq_some_iff.1 hp, Payload.toDevice?_eq_some_iff.1 hq]
      exact he
  · refine hm.nodup_filterMap (f := Payload.roomMessage?) (fun hp => ?_) fun hp hq he => ?_
    · rw [Payload.roomMessage?_eq_some_iff.1 hp]
      nofun
    · rw [Payload.roomMessage?_eq_some_iff.1 hp, Payload.roomMessage?_eq_some_iff.1 hq]
      exact he
  · refine hm.nodup_filterMap (f := Payload.keysBackup?) (fun hp => ?_) fun hp hq he => ?_
    · rw [Payload.keysBackup?_eq_some_iff.1 hp]
      nofun
    · rw [Payload.keysBackup?_eq_some_iff.1 hp, Payload.keysBackup?_eq_some_iff.1 hq]
      exact he
  · refine hm.worksOnce.imp fun {r s} hrs hr hs q q' hq hq' u hu hu' => hrs hr hs ?_
    rw [hq, hq']
    exact ⟨u, hu, hu'⟩

/-- A machine that asks about one user at a time asks about two users in two queries. -/
theorem no_duplicated_work_unbatched :
    let calls : List (Instant × Call) := [(0, .trackUsers [Sample.bob]), (0, .outgoingRequests)]
    ∃ upload r s q q', (Sample.unbatched.run calls).2.queue.contents = [upload, r, s] ∧
      r ∈ (Sample.unbatched.turns calls).flatMap Turn.decided ∧
      s ∈ (Sample.unbatched.turns calls).flatMap Turn.decided ∧
      r.payload = .keysQuery q ∧ s.payload = .keysQuery q' ∧
      Sample.alice ∈ q.users ∧ Sample.alice ∉ q'.users := by
  intro calls
  obtain ⟨-, -, -, -, hqueries⟩ := no_duplicated_work Sample.alice "DEVICE" .null
    { Settings.default with keyQueryBatchSize := 1 } (.counting "r") calls
  have hrun : ∃ upload r s q q', (Sample.unbatched.run calls).2.queue.contents = [upload, r, s] ∧
      (Sample.unbatched.turns calls).flatMap Turn.decided = [upload, r, s] ∧
      r.payload = .keysQuery q ∧ s.payload = .keysQuery q' ∧ q.users.contains Sample.alice = true :=
    ⟨_, _, _, _, _, rfl, rfl, rfl, rfl, by rfl⟩
  obtain ⟨upload, r, s, q, q', hc, hd, hq, hq', halice⟩ := hrun
  have hr : r ∈ (Sample.unbatched.turns calls).flatMap Turn.decided := by simp [hd]
  have hs : s ∈ (Sample.unbatched.turns calls).flatMap Turn.decided := by simp [hd]
  have hpair := List.pairwise_cons.1 (List.pairwise_cons.1 (hc ▸ hqueries)).2
  exact ⟨upload, r, s, q, q', hc, hr, hs, hq, hq', halice,
    hpair.1 s List.mem_cons_self hr hs q q' hq hq' Sample.alice halice⟩

end Machine
end Outbox
