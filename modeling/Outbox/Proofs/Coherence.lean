/-
# What the parts of a machine agree on

The queue has the capacity of the settings, the device lists are of the user of the machine and never
hold the server of that user for one that fails, and the version of an active backup is not empty.

Key definitions: `Machine.Coherent`.
Key theorems: `DeviceLists.ownServer_receiveQuery`, `Machine.Coherent.turn`, `Machine.Reached.coherent`.
-/
import Outbox.Backoff.Lemmas
import Outbox.Proofs.DeviceTracking
import Outbox.Proofs.History

namespace Outbox

/-- Our own server is never believed to fail. -/
theorem DeviceLists.ownServer_receiveQuery {d : DeviceLists}
    (h : d.failures.items.get? d.ownUser.server = none) (now : Instant) (id : RequestId)
    (response : KeysQueryResponse) :
    (d.receiveQuery now id response).failures.items.get? d.ownUser.server = none := by
  refine Backoff.get?_foldl_erase ?_
  rw [Backoff.get?_extend_of_notMem, h]
  unfold failedServers
  rw [List.mem_filter]
  rintro ⟨-, hne⟩
  simp at hne

namespace Machine

/-- The parts of the machine agree. -/
structure Coherent (m : Machine) : Prop where
  capacity : m.queue.capacity = m.settings.maxQueuedRequests.map UInt64.toNat
  ownUser : m.deviceLists.ownUser = m.userId
  ownServer : m.deviceLists.failures.items.get? m.userId.server = none
  version_ne : m.backup.version ≠ some ""

variable {m m' : Machine} {now : Instant} {call : Call} {answer : Answer} {r : OutgoingRequest}
  {outcome : Outcome} {h : List Turn}

theorem version_withOutcome (m : Machine) (now : Instant) (fits : outcome.mismatch? r.kind = none) :
    (m.withOutcome now r outcome).backup.version = m.backup.version := by
  rcases withOutcome_backup m now fits with ⟨b, response, -, -, he⟩ | ⟨-, he⟩
  · rw [he, Backup.version_markSent]
  · rw [he]

namespace Coherent

theorem withOutcome (hc : m.Coherent) (now : Instant) (fits : outcome.mismatch? r.kind = none) :
    (m.withOutcome now r outcome).Coherent where
  capacity := by
    rw [withOutcome_queue, withOutcome_settings]
    exact hc.capacity
  ownUser := by
    rw [withOutcome_userId, ← hc.ownUser]
    rcases withOutcome_deviceLists m now fits with ⟨-, he⟩ | ⟨_, _, -, -, he⟩ | ⟨_, _, -, -, he⟩
    · rw [he]
    · rw [he]
      rfl
    · rw [he]
      rfl
  ownServer := by
    rw [withOutcome_userId]
    rcases withOutcome_deviceLists m now fits with ⟨-, he⟩ | ⟨_, response, -, -, he⟩ | ⟨_, _, -, -, he⟩
    · rw [he]
      exact hc.ownServer
    · have hown := hc.ownServer
      rw [← hc.ownUser] at hown ⊢
      rw [he]
      exact DeviceLists.ownServer_receiveQuery hown now r.id response
    · rw [he]
      exact hc.ownServer
  version_ne := by
    rw [version_withOutcome m now fits]
    exact hc.version_ne

theorem addAll (hc : m.Coherent) (ps : List Payload) : (m.addAll ps).Coherent where
  capacity := by
    rw [capacity_addAll, addAll_settings]
    exact hc.capacity
  ownUser := by
    rw [addAll_ownUser, addAll_userId]
    exact hc.ownUser
  ownServer := by
    rw [addAll_failures, addAll_userId]
    exact hc.ownServer
  version_ne := by
    rw [addAll_backup]
    exact hc.version_ne

theorem deviceLists {d : DeviceLists} {p : UserId → Prop} (hc : m.Coherent)
    (hp : DeviceLists.Invalidates p m.deviceLists d) : Coherent { m with deviceLists := d } where
  capacity := hc.capacity
  ownUser := hp.ownUser.trans hc.ownUser
  ownServer := by
    show d.failures.items.get? m.userId.server = none
    rw [hp.failures]
    exact hc.ownServer
  version_ne := hc.version_ne

/-- Of the queue only the capacity matters. -/
theorem with_queue (hc : m.Coherent) {queue : Queue} (hq : queue.capacity = m.queue.capacity)
    (minted : Nat) : Coherent { m with minted, queue } where
  capacity := hq.trans hc.capacity
  ownUser := hc.ownUser
  ownServer := hc.ownServer
  version_ne := hc.version_ne

theorem turn (hc : m.Coherent) (ht : m.Transition now call answer m') : m'.Coherent := by
  cases ht with
  | handOut =>
    have hp : (m.decisionPass now).Coherent := hc.addAll (m.wanted now)
    exact hp.with_queue (m.decisionPass now).queue.capacity_drainPending _
  | complete r outcome inFlight fits => exact (hc.withOutcome now fits).addAll _
  | query users q queue built inserted => exact hc.with_queue (Queue.capacity_insert inserted) _
  | track users => exact hc.deviceLists (m.deviceLists.invalidates_track users)
  | change users token => exact hc.deviceLists (m.deviceLists.invalidates_receiveChanges users token)
  | enable version nonempty =>
    refine { hc with version_ne := ?_ }
    show (m.backup.enable version).version ≠ some ""
    unfold Backup.enable
    split
    · exact hc.version_ne
    · simpa using nonempty
  | disable => exact { hc with version_ne := nofun }
  | _ => exact { hc with }

end Coherent

/-- The parts of a machine agree at every time. -/
theorem Reached.coherent (hm : Reached h m) : m.Coherent := by
  induction hm with
  | new userId deviceId deviceKeys settings ids =>
    have hp := DeviceLists.invalidates_track ⟨userId, ∅, 0, none, ∅, ∅, ∅⟩ [userId]
    refine ⟨rfl, hp.ownUser, ?_, nofun⟩
    exact (congrArg (fun b => b.items.get? userId.server) hp.failures).trans (SortedMap.get?_empty _)
  | step now call hm ih => exact ih.turn (transition_step _ now call)

/-- The settings are those of the new machine. -/
theorem Transition.settings_eq (ht : m.Transition now call answer m') : m'.settings = m.settings := by
  cases ht with
  | handOut => exact m.addAll_settings (m.wanted now)
  | complete r outcome inFlight fits =>
    rw [decisionPass, addAll_settings, withOutcome_settings]
  | _ => rfl

/-- The user is that of the new machine. -/
theorem Transition.userId_eq (ht : m.Transition now call answer m') : m'.userId = m.userId := by
  cases ht with
  | handOut => exact m.addAll_userId (m.wanted now)
  | complete r outcome inFlight fits => rw [decisionPass, addAll_userId, withOutcome_userId]
  | _ => rfl

theorem userId_run (m : Machine) (calls : List (Instant × Call)) : (m.run calls).2.userId = m.userId := by
  induction calls generalizing m with
  | nil => rfl
  | cons c calls ih => exact (ih _).trans (m.transition_step c.1 c.2).userId_eq

theorem settings_run (m : Machine) (calls : List (Instant × Call)) :
    (m.run calls).2.settings = m.settings := by
  induction calls generalizing m with
  | nil => rfl
  | cons c calls ih => exact (ih _).trans (m.transition_step c.1 c.2).settings_eq

end Machine
end Outbox
