/-
# No backup is sent for a version that was left

A backup request waits only as long as its version is the active one. A decision pass makes backups of the
active version and no other; a change of the version drops those of the old one that wait, and to stop
drops all that wait. Requests that were handed out stay, whatever their version. So what is handed out is of
the version that is active at that time.

Key definitions: `Machine.BackupsActive`.
Key theorems: `Machine.BackupsActive.pass`, `Machine.BackupsActive.retain`, `Machine.BackupsActive.turn`,
`Machine.Reached.backupsActive`, `Machine.backups_handed_out_active`.
-/
import Outbox.Proofs.BackupHistory
import Outbox.Proofs.Coherence
import Outbox.Proofs.Needs

namespace Outbox

theorem Backup.version_enable (b : Backup) (version : String) :
    (b.enable version).version = some version := by
  unfold enable
  split
  · next hv => exact hv
  · rfl

namespace Machine

variable {m m' : Machine} {h : List Turn} {now : Instant} {call : Call} {answer : Answer}

/-- All backups that wait to be handed out are of the active version. -/
def BackupsActive (m : Machine) : Prop :=
  ∀ r ∈ m.queue.pending, ∀ b, r.payload = .keysBackup b → m.backup.version = some b.version

namespace BackupsActive

/-- Fewer requests wait, and the active version is the same. -/
theorem of_subset (hb : m.BackupsActive) (hsub : m'.queue.pending ⊆ m.queue.pending)
    (hv : m'.backup.version = m.backup.version) : m'.BackupsActive := by
  intro r hr b hp
  rw [hv]
  exact hb r (hsub hr) b hp

/-- A decision pass makes backups of the active version. -/
theorem pass (hb : m.BackupsActive) (hm : m.Named) (now : Instant) :
    (m.decisionPass now).BackupsActive := by
  intro r hr b hp
  rw [decisionPass, pending_addAll hm, List.mem_append] at hr
  rw [decisionPass, addAll_backup]
  rcases hr with hr | hr
  · exact hb r hr b hp
  · have hneeds : m.Needs now r.payload := needs_of_mem_wanted (payload_mem_of_mem_added hr)
    rw [hp] at hneeds
    exact (Backup.rooms_of_request? hneeds).1

/-- When the active version changes, it is enough that only backups of the new one go on to wait. -/
theorem retain {keep : Payload → Bool} {backup : Backup}
    (hkeep : ∀ b, keep (.keysBackup b) = true → backup.version = some b.version) (m : Machine) :
    BackupsActive { m with backup, queue := m.queue.retainPending keep } := by
  intro r hr b hp
  have hr : r ∈ (m.queue.retainPending keep).pending := hr
  rw [Queue.pending_retainPending, List.mem_filter, hp] at hr
  exact hkeep b hr.2

/-- Every turn keeps the backups that wait active. -/
theorem turn (hb : m.BackupsActive) (hm : Reached h m) (ht : m.Transition now call answer m') :
    m'.BackupsActive := by
  cases ht with
  | handOut =>
    intro r hr
    rw [Queue.pending_drainPending] at hr
    cases hr
  | complete r outcome inFlight fits =>
    refine pass (hb.of_subset ?_ (version_withOutcome m now fits))
      (hm.agrees.complete inFlight now outcome).named now
    rw [withOutcome_queue, Queue.pending_withoutRequest]
    exact List.filter_subset_self _
  | query users q queue built inserted =>
    have hpend := Queue.pending_insert_inFlight hm.agrees.named.ne_nextId inserted
    exact hb.of_subset (hpend ▸ List.Subset.refl _) rfl
  | enable version nonempty =>
    refine retain (fun b hkeep => ?_) m
    have hv : b.version = version := of_decide_eq_true hkeep
    rw [hv]
    exact m.backup.version_enable version
  | disable =>
    refine retain (fun b hkeep => ?_) m
    have hk : RequestKind.keysBackup ≠ .keysBackup := of_decide_eq_true hkeep
    exact absurd rfl hk
  | _ => exact hb

end BackupsActive

/-- What a turn hands out was waiting, or the pass of the turn made it, or it is a query. -/
theorem BackupsActive.of_handedOut (hb : m.BackupsActive) (hm : m.Named)
    (ht : m.Transition now call answer m') {r : OutgoingRequest}
    (hr : r ∈ Turn.handedOut ⟨m, now, call, answer, m'⟩) {b : KeysBackup}
    (hp : r.payload = .keysBackup b) :
    m.backup.version = some b.version ∧ m'.backup.version = some b.version := by
  cases ht with
  | handOut =>
    have hactive : (m.decisionPass now).backup.version = some b.version := hb.pass hm now r hr b hp
    refine ⟨?_, hactive⟩
    rw [decisionPass, addAll_backup] at hactive
    exact hactive
  | query users q queue built inserted =>
    cases List.mem_singleton.1 hr
    cases hp
  | _ => cases hr

/-- All backups that wait are of the active version at every time. -/
theorem Reached.backupsActive (hm : Reached h m) : m.BackupsActive := by
  induction hm with
  | new => exact fun r hr => nomatch hr
  | step now call hm ih => exact ih.turn hm (transition_step _ now call)

/-- **No request for an inactive backup is ever handed out**, whatever calls were made to a new machine. All
backups that wait are of the active version, and none waits while there is no active one. A backup that a
turn hands out is of the version that was active when the turn began and is active when it ends. -/
theorem backups_handed_out_active (userId : UserId) (deviceId : DeviceId) (deviceKeys : Opaque)
    (settings : Settings) (ids : IdSource) (calls : List (Instant × Call)) :
    let h := (new userId deviceId deviceKeys settings ids).turns calls
    let m := ((new userId deviceId deviceKeys settings ids).run calls).2
    (∀ r ∈ m.pendingRequests, ∀ b, r.payload = .keysBackup b → m.backupVersion? = some b.version) ∧
    (m.backupVersion? = none → ∀ r ∈ m.pendingRequests, r.kind ≠ .keysBackup) ∧
    ∀ t ∈ h, ∀ r ∈ t.handedOut, ∀ b, r.payload = .keysBackup b →
      t.before.backupVersion? = some b.version ∧ t.after.backupVersion? = some b.version := by
  intro h m
  have hm : Reached h m := (Reached.new userId deviceId deviceKeys settings ids).run calls
  refine ⟨hm.backupsActive, fun hnone r hr hk => ?_, fun t ht r hr b hp => ?_⟩
  · obtain ⟨id, payload⟩ := r
    cases payload <;> cases hk
    have hactive : m.backupVersion? = some _ := hm.backupsActive _ hr _ rfl
    rw [hnone] at hactive
    cases hactive
  · obtain ⟨h₁, h₂, he⟩ := List.append_of_mem ht
    rw [he] at hm
    obtain ⟨hbefore, hturn, -⟩ := hm.split
    rw [hturn] at hr ⊢
    exact hbefore.backupsActive.of_handedOut hbefore.agrees.named (transition_step _ _ _) hr hp

/-- A backup that is handed out after two changes of the version is of the last version. One that waited in
between was dropped, and one that was handed out before them is still in flight. -/
theorem backups_handed_out_active_switched :
    let calls : List (Instant × Call) :=
      [(0, .addRoomKey Sample.roomKey .null), (0, .enableBackup "1"), (0, .outgoingRequests),
        (0, .enableBackup "2"), (0, .markAsSent "r-0" (.success (.keysUpload ⟨∅⟩))),
        (0, .enableBackup "3"), (0, .outgoingRequests)]
    ∃ t ∈ Sample.machine.turns calls, ∃ first second last b, t.before.inFlightRequests = [first, second] ∧
      second.kind = .keysBackup ∧ t.handedOut = [last] ∧ last.id = "r-4" ∧ last.payload = .keysBackup b ∧
      b.version = "3" := by
  intro calls
  have hrun : ∃ t₁ t₂ t₃ t₄ t₅ t₆ t first second last b,
      Sample.machine.turns calls = [t₁, t₂, t₃, t₄, t₅, t₆, t] ∧
      t.before.inFlightRequests = [first, second] ∧ second.kind = .keysBackup ∧ t.handedOut = [last] ∧
      last.id = "r-4" ∧ last.payload = .keysBackup b ∧ t.before.backupVersion? = some "3" :=
    ⟨_, _, _, _, _, _, _, _, _, _, _, rfl, rfl, rfl, rfl, rfl, rfl, rfl⟩
  obtain ⟨t₁, t₂, t₃, t₄, t₅, t₆, t, first, second, last, b, hh, hfly, hk, hout, hid, hp, hv⟩ := hrun
  have ht : t ∈ Sample.machine.turns calls := by simp [hh]
  obtain ⟨-, -, hactive⟩ := backups_handed_out_active Sample.alice "DEVICE" .null .default
    (.counting "r") calls
  have hlast := (hactive t ht last (by simp [hout]) b hp).1
  rw [hv, Option.some.injEq] at hlast
  exact ⟨t, ht, first, second, last, b, hfly, hk, hout, hid, hp, hlast.symm⟩

end Machine
end Outbox
