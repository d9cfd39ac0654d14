/-
# The life of a request

A request is queued by a decision pass or made for a caller, handed out once, and marked once; from the
time it is handed out until it is marked it stays in flight as it is. All of that is read off the ledger
of a history, which every turn keeps in agreement with the machine.

Key definitions: `Ledger.add`, `ledger`.
Key theorems: `Ledger.Agrees.turn`, `Machine.Reached.agrees`, `Machine.request_lifecycle`.
-/
import Outbox.Proofs.History
import Outbox.Proofs.Ledger

namespace Outbox

/-! ### The ledger of a history -/

/-- The ledger after a turn. -/
def Ledger.add (l : Ledger) (t : Turn) : Ledger where
  decided := l.decided ++ t.decided
  outOfBand := l.outOfBand ++ t.outOfBand
  drained := l.drained ++ t.drained
  handedOut := l.handedOut ++ t.handedOut
  marked := l.marked ++ t.marked?.toList

/-- What happened to the requests of a history. -/
def ledger (h : List Turn) : Ledger where
  decided := h.flatMap Turn.decided
  outOfBand := h.flatMap Turn.outOfBand
  drained := h.flatMap Turn.drained
  handedOut := h.flatMap Turn.handedOut
  marked := h.filterMap Turn.marked?

theorem ledger_snoc (h : List Turn) (t : Turn) : ledger (h ++ [t]) = (ledger h).add t := by
  simp [ledger, Ledger.add, List.filterMap_append, List.filterMap_cons]
  cases t.marked? <;> rfl

namespace Ledger

variable {l : Ledger} {m m' : Machine} {now : Instant} {call : Call} {answer : Answer}

/-- A turn that hands out, marks and decides nothing leaves no trace. -/
theorem add_eq_self {t : Turn} (hd : t.decided = []) (ho : t.handedOut = [])
    (hm : t.marked? = none) : l.add t = l := by
  have hdr : t.drained = [] := by
    unfold Turn.drained
    split
    · exact ho
    · rfl
  have hob : t.outOfBand = [] := by
    unfold Turn.outOfBand
    split
    · exact ho
    · rfl
  simp [add, hd, ho, hm, hdr, hob]

/-- Every turn keeps the ledger in agreement with the machine. -/
theorem Agrees.turn (ha : l.Agrees m) (ht : m.Transition now call answer m') :
    (l.add ⟨m, now, call, answer, m'⟩).Agrees m' := by
  -- A call that neither queues, hands out nor marks a request leaves the ledger and the queue alone.
  have quiet : ∀ {call answer m'}, Turn.decided ⟨m, now, call, answer, m'⟩ = [] →
      Turn.handedOut ⟨m, now, call, answer, m'⟩ = [] → Turn.marked? ⟨m, now, call, answer, m'⟩ = none →
      m'.queue = m.queue → m'.ids = m.ids → m.minted ≤ m'.minted →
      (l.add ⟨m, now, call, answer, m'⟩).Agrees m' := fun hd ho hm hq hids hle => by
    rw [add_eq_self hd ho hm]
    exact ha.of_queue_eq hq hids hle
  cases ht with
  | handOut =>
    have hp := (ha.pass (m.wanted now)).drain
    simp only [add, Turn.decided, Turn.outOfBand, Turn.drained, Turn.handedOut, Turn.marked?,
      Option.toList_none, List.append_nil]
    exact hp
  | complete r outcome inFlight fits =>
    have hp := (ha.complete inFlight now outcome).pass ((m.withOutcome now r outcome).wanted now)
    simp only [add, Turn.decided_markAsSent inFlight fits, Turn.outOfBand, Turn.drained, Turn.handedOut,
      Turn.marked?, Option.toList_some, List.append_nil]
    exact hp
  | query users q queue built inserted =>
    simp only [add, Turn.decided, Turn.outOfBand, Turn.drained, Turn.handedOut, Turn.marked?,
      Option.toList_none, List.append_nil]
    exact ha.query inserted
  | enable version nonempty =>
    rw [add_eq_self rfl rfl rfl]
    refine ha.retain (fun p hp => ?_) _
    cases p <;> first | rfl | exact absurd rfl hp
  | disable =>
    rw [add_eq_self rfl rfl rfl]
    exact ha.retain (fun p hp => decide_eq_true hp) _
  | refuse call reason refusable =>
    exact quiet (by cases call <;> rfl) rfl (by cases call <;> rfl) rfl rfl (Nat.le_refl _)
  | addOneTimeKeys | addFallbackKeys | track | change | missing | acceptSignatures | addRoomKey =>
    exact quiet rfl rfl rfl rfl rfl (Nat.le_refl _)
  | acceptToDevice | acceptRoomMessage => exact quiet rfl rfl rfl rfl rfl (Nat.le_succ _)

end Ledger

namespace Machine

/-- The ledger of a history agrees with the machine that has the history. -/
theorem Reached.agrees {h : List Turn} {m : Machine} (hm : Reached h m) : (ledger h).Agrees m := by
  induction hm with
  | new => exact .new _ _ _ _ _
  | step now call hm ih =>
    rw [ledger_snoc]
    exact ih.turn (transition_step _ now call)

end Machine

/-! ### The life of one request -/

/-- The turn in which a request is marked hands nothing out. -/
theorem Turn.handedOut_eq_nil_of_marked {t : Turn} {id : RequestId} (h : t.marked? = some id) :
    t.handedOut = [] := by
  unfold marked? at h
  split at h
  · next ha => rw [handedOut, ha]
  · cases h

namespace Machine

variable {h₁ h₂ : List Turn} {m : Machine} {t : Turn} {r : OutgoingRequest} {id : RequestId}

/-- A request that is marked was handed out before. -/
theorem Reached.handedOut_of_marked (hm : Reached (h₁ ++ t :: h₂) m) (ht : t.marked? = some id) :
    id ∈ (h₁.flatMap Turn.handedOut).map OutgoingRequest.id := by
  have ha := hm.split.2.2.agrees
  rw [ledger_snoc] at ha
  obtain ⟨r, hr, rfl⟩ := ha.marked_handedOut id (by simp [Ledger.add, ht])
  simp only [Ledger.add, Turn.handedOut_eq_nil_of_marked ht, List.append_nil] at hr
  exact List.mem_map_of_mem hr

/-- A request was not marked before it was handed out. -/
theorem Reached.not_marked_of_handedOut (hm : Reached (h₁ ++ t :: h₂) m) (hr : r ∈ t.handedOut) :
    r.id ∉ (ledger (h₁ ++ [t])).marked := by
  obtain ⟨hb, -, hs⟩ := hm.split
  have hn := hs.agrees.nodup_handedOut
  rw [ledger_snoc] at hn ⊢
  simp only [Ledger.add, List.map_append, List.nodup_append] at hn
  simp only [Ledger.add, List.mem_append, Option.mem_toList]
  rintro (hmark | hmark)
  · obtain ⟨s, hs, he⟩ := hb.agrees.marked_handedOut _ hmark
    exact hn.2.2 _ (List.mem_map_of_mem hs) _ (List.mem_map_of_mem hr) he
  · rw [Turn.handedOut_eq_nil_of_marked hmark] at hr
    cases hr

/-- A request that was handed out is in flight as it is, unless it was marked since then. -/
theorem Reached.mem_inFlight_of_handedOut (hm : Reached (h₁ ++ t :: h₂) m) (hr : r ∈ t.handedOut) :
    r ∈ m.queue.inFlight ↔ r.id ∉ h₂.filterMap Turn.marked? := by
  have hnew := hm.not_marked_of_handedOut hr
  have hout : r ∈ (ledger (h₁ ++ t :: h₂)).handedOut := by
    simp only [ledger, List.flatMap_append, List.flatMap_cons, List.mem_append]
    exact .inr (.inl hr)
  have hmark : (ledger (h₁ ++ t :: h₂)).marked =
      (ledger (h₁ ++ [t])).marked ++ h₂.filterMap Turn.marked? := by
    rw [show h₁ ++ t :: h₂ = h₁ ++ [t] ++ h₂ by simp]
    exact List.filterMap_append
  rw [hm.agrees.inFlight_iff, hmark, List.mem_append, not_or]
  constructor
  · exact fun h => h.2.2
  · exact fun h => ⟨hout, hnew, h⟩

/-- A request that was marked is not queued. -/
theorem Reached.requestState?_of_marked {h : List Turn} (hm : Reached h m)
    (hid : id ∈ h.filterMap Turn.marked?) : m.requestState? id = none := by
  have ha := hm.agrees
  unfold requestState?
  rw [Option.map_eq_none_iff, Queue.get?_eq_none_iff]
  rintro r hr rfl
  rcases Queue.mem_contents_iff.1 hr with hp | hf
  · exact ha.not_marked_of_pending hp hid
  · exact ((ha.inFlight_iff r).1 hf).2 hid

/-- **A request is handed out once and marked once, and is in flight from the one to the other.** This
holds of whatever calls are made to a new machine: no name is handed out twice; a name is marked at most
once, and only after it was handed out; a request stays in flight as it was handed out until its name is
marked, and is gone for good then; and requests that waited are handed out in the order in which
decision passes queued them, all but dropped backups. -/
theorem request_lifecycle (userId : UserId) (deviceId : DeviceId) (deviceKeys : Opaque)
    (settings : Settings) (ids : IdSource) (calls : List (Instant × Call)) :
    let h := (new userId deviceId deviceKeys settings ids).turns calls
    let m := ((new userId deviceId deviceKeys settings ids).run calls).2
    ((h.flatMap Turn.handedOut).map OutgoingRequest.id).Nodup ∧
    ((h.filterMap Turn.marked?).Nodup ∧
      ∀ h₁ t h₂ id, h = h₁ ++ t :: h₂ → t.marked? = some id →
        id ∈ (h₁.flatMap Turn.handedOut).map OutgoingRequest.id) ∧
    (∀ h₁ t h₂ r, h = h₁ ++ t :: h₂ → r ∈ t.handedOut →
      (r ∈ m.inFlightRequests ↔ r.id ∉ h₂.filterMap Turn.marked?) ∧
      (r.id ∈ h₂.filterMap Turn.marked? → m.requestState? r.id = none)) ∧
    ((h.flatMap Turn.drained ++ m.pendingRequests).Sublist (h.flatMap Turn.decided) ∧
      ((h.flatMap Turn.decided).map OutgoingRequest.id).Nodup ∧
      ∀ r ∈ h.flatMap Turn.decided,
        r ∈ h.flatMap Turn.drained ∨ r ∈ m.pendingRequests ∨ r.kind = .keysBackup) := by
  intro h m
  have hm : Reached h m := (Reached.new userId deviceId deviceKeys settings ids).run calls
  have ha := hm.agrees
  refine ⟨ha.nodup_handedOut, ⟨ha.nodup_marked, ?_⟩, ?_, ha.sublist, ha.nodup_decided, ha.kept⟩
  · intro h₁ t h₂ id he ht
    rw [he] at hm
    exact hm.handedOut_of_marked ht
  · intro h₁ t h₂ r he hr
    have hgone : r.id ∈ h₂.filterMap Turn.marked? → r.id ∈ h.filterMap Turn.marked? := by
      rw [he, List.filterMap_append, List.filterMap_cons]
      intro hid
      split <;> simp [hid]
    refine ⟨?_, fun hid => hm.requestState?_of_marked (hgone hid)⟩
    rw [he] at hm
    exact hm.mem_inFlight_of_handedOut hr

/-- The upload of the keys of a new machine is handed out first; once it was answered it is gone, and a
query that was handed out with it is still in flight. -/
theorem request_lifecycle_keysUpload :
    let calls : List (Instant × Call) :=
      [(0, .outgoingRequests), (0, .markAsSent "r-0" (.success (.keysUpload ⟨∅⟩)))]
    ∃ t₁ t₂ upload query, Sample.machine.turns calls = [t₁, t₂] ∧ t₁.handedOut = [upload, query] ∧
      t₂.marked? = some upload.id ∧ upload.id ∈ t₁.handedOut.map OutgoingRequest.id ∧
      (Sample.machine.run calls).2.requestState? upload.id = none ∧
      query ∈ (Sample.machine.run calls).2.inFlightRequests := by
  intro calls
  obtain ⟨-, ⟨-, hmarked⟩, hlife, -⟩ :=
    request_lifecycle Sample.alice "DEVICE" .null .default (.counting "r") calls
  have hturns : ∃ t₁ t₂ upload query, Sample.machine.turns calls = [t₁, t₂] ∧
      t₁.handedOut = [upload, query] ∧ t₂.marked? = some "r-0" ∧ upload.id = "r-0" ∧ query.id = "r-1" :=
    ⟨_, _, _, _, rfl, rfl, by rfl, by rfl, by rfl⟩
  obtain ⟨t₁, t₂, upload, query, hh, hout, ht₂, hu, hq⟩ := hturns
  have hmark : [t₂].filterMap Turn.marked? = [upload.id] := by
    rw [hu, List.filterMap_cons_some ht₂]
    rfl
  have hupload := hlife [] t₁ [t₂] upload hh (by simp [hout])
  have hquery := hlife [] t₁ [t₂] query hh (by simp [hout])
  refine ⟨t₁, t₂, upload, query, hh, hout, by rw [hu, ht₂], ?_, hupload.2 ?_, hquery.1.2 ?_⟩
  · simpa using hmarked [t₁] t₂ [] upload.id hh (by rw [hu, ht₂])
  · rw [hmark]
    exact List.mem_cons_self
  · rw [hmark, hu, List.mem_singleton, hq]
    decide

end Machine
end Outbox
