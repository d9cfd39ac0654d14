/-
# Which room keys are backed up

A room key is backed up exactly if a backup of the active version that has the key with the data it has
was answered, and since then neither the key was added again nor the active version changed. It does not
matter when the backup was decided on: a backup for a version that was left counts again when it is
answered after the version was entered again, if the key is still the same.

Key definitions: `Turn.addedRoomKey?`, `Turn.ChangesVersion`, `Turn.BacksUp`, `LastAdded`, `BackedUp`.
Key theorems: `Backup.get?_markSent_eq_some_iff`, `Machine.RecordsBackup.turn`,
`Machine.Reached.recordsBackup`, `Machine.isRoomKeyBackedUp_iff`.
-/
import Outbox.Proofs.History
import Outbox.SortedMap.Lemmas

namespace Outbox

/-! ### What a history says -/

namespace Turn

/-- The data with which the turn added a room key. -/
def addedRoomKey? (t : Turn) (key : Cell RoomId SessionId) : Option Opaque :=
  match t.call, t.answer with
  | .addRoomKey key' data, .done => if key = key' then some data else none
  | _, _ => none

/-- The turn makes another version than the active one the active one, or stops to back up keys. -/
def ChangesVersion (t : Turn) : Prop :=
  match t.call, t.answer with
  | .enableBackup version, .done => t.before.backupVersion? ≠ some version
  | .disableBackup, .done => True
  | _, _ => False

/-- A backup of the version that has the room key with the data was answered in the turn. -/
def BacksUp (t : Turn) (version : String) (key : Cell RoomId SessionId) (data : Opaque) : Prop :=
  ∃ b : KeysBackup, t.Answers (.keysBackup b) ∧ b.version = version ∧
    (b.rooms.get? key).any (· == data) = true

variable {t : Turn} {version : String} {key : Cell RoomId SessionId} {data : Opaque}

theorem not_backsUp (hm : t.marked? = none) : ¬ t.BacksUp version key data :=
  fun ⟨_, ha, _⟩ => not_answers hm ha

theorem backsUp_markAsSent_iff {m m' : Machine} {now : Instant} {r : OutgoingRequest} {outcome : Outcome}
    (inFlight : r ∈ m.queue.inFlight) :
    BacksUp ⟨m, now, .markAsSent r.id outcome, .done, m'⟩ version key data ↔
      ∃ b, (r.payload = .keysBackup b ∧ ∃ response, outcome = .success response) ∧
        b.version = version ∧ (b.rooms.get? key).any (· == data) = true := by
  unfold BacksUp
  simp only [answers_markAsSent_iff inFlight]

end Turn

/-- The room key was added, the last time with the data. -/
def LastAdded (h : List Turn) (key : Cell RoomId SessionId) (data : Opaque) : Prop :=
  Lasts (fun t => t.addedRoomKey? key = some data) (fun t => t.addedRoomKey? key ≠ none) h

/-- The room key was backed up to the version with the data, and since then neither the key was added
again nor the active version changed. -/
def BackedUp (h : List Turn) (version : String) (key : Cell RoomId SessionId) (data : Opaque) : Prop :=
  Lasts (fun t => t.BacksUp version key data)
    (fun t => t.addedRoomKey? key ≠ none ∨ t.ChangesVersion) h

/-- A room key. -/
def Sample.roomKey : Cell RoomId SessionId := ⟨⟨"!room:example.org", by decide +kernel⟩, "session"⟩

/-! ### What the backup says -/

namespace Backup

variable {b : Backup} {key : Cell RoomId SessionId} {data : Opaque}

theorem isBackedUp_iff : b.isBackedUp key = true ↔ ∃ data, b.roomKeys.get? key = some ⟨data, true⟩ := by
  rw [isBackedUp, Option.any_eq_true]
  constructor
  · rintro ⟨⟨data, backedUp⟩, he, rfl⟩
    exact ⟨data, he⟩
  · rintro ⟨data, he⟩
    exact ⟨_, he, rfl⟩

/-- The answer to a backup changes no data. -/
theorem data_markSent (b : Backup) (request : KeysBackup) :
    ((b.markSent request).roomKeys.get? key).map BackupEntry.data =
      (b.roomKeys.get? key).map BackupEntry.data := by
  unfold markSent
  split
  · rw [SortedMap.get?_mapValues, Option.map_map]
    congr 1
    funext e
    dsimp only [Function.comp_apply]
    split <;> rfl
  · rfl

/-- The answer to a backup of the active version counts for the keys that have the data in it. -/
theorem get?_markSent_eq_some_iff (b : Backup) (request : KeysBackup) :
    (b.markSent request).roomKeys.get? key = some ⟨data, true⟩ ↔
      (b.roomKeys.get? key).map BackupEntry.data = some data ∧
        (b.roomKeys.get? key = some ⟨data, true⟩ ∨
          b.version = some request.version ∧ (request.rooms.get? key).any (· == data) = true) := by
  unfold markSent
  by_cases hv : b.version = some request.version
  · rw [if_pos hv, SortedMap.get?_mapValues]
    cases b.roomKeys.get? key with
    | none => simp
    | some e =>
      obtain ⟨d, backedUp⟩ := e
      have hcount : (if (request.rooms.get? key).any (· == d) = true then ⟨d, true⟩ else ⟨d, backedUp⟩ :
          BackupEntry) = ⟨data, true⟩ ↔
          d = data ∧ (backedUp = true ∨ (request.rooms.get? key).any (· == d) = true) := by
        split
        · next hany => simp [hany]
        · next hany => simp [hany]
      rw [Option.map_some, Option.some.injEq, hcount]
      simp only [Option.map_some, Option.some.injEq, BackupEntry.mk.injEq, hv, true_and]
      constructor
      · rintro ⟨rfl, hb⟩
        exact ⟨rfl, hb.imp_left fun hb => ⟨rfl, hb⟩⟩
      · rintro ⟨rfl, hb⟩
        exact ⟨rfl, hb.imp_left And.right⟩
  · rw [if_neg hv]
    constructor
    · intro hg
      rw [hg]
      exact ⟨rfl, .inl rfl⟩
    · rintro ⟨-, hg | ⟨he, -⟩⟩
      · exact hg
      · exact absurd he hv

end Backup

namespace Machine

variable {m m' : Machine} {h : List Turn} {now : Instant} {call : Call} {answer : Answer}
  {r : OutgoingRequest} {outcome : Outcome} {key : Cell RoomId SessionId} {data : Opaque} {t : Turn}

/-- The backup of the machine says of a room key what the history says. -/
structure RecordsBackup (m : Machine) (h : List Turn) (key : Cell RoomId SessionId) : Prop where
  data_iff : ∀ data, (m.backup.roomKeys.get? key).map BackupEntry.data = some data ↔
    LastAdded h key data
  backedUp_iff : ∀ data, m.backup.roomKeys.get? key = some ⟨data, true⟩ ↔
    (m.backup.roomKeys.get? key).map BackupEntry.data = some data ∧
      ∃ version, m.backup.version = some version ∧ BackedUp h version key data

namespace RecordsBackup

/-- A turn that touches neither the key nor the version, and backs nothing up, changes nothing. -/
theorem of_eq (hr : m.RecordsBackup h key) (ha : t.addedRoomKey? key = none) (hc : ¬ t.ChangesVersion)
    (hb : ∀ version data, ¬ t.BacksUp version key data) (hv : m'.backup.version = m.backup.version)
    (he : m'.backup.roomKeys.get? key = m.backup.roomKeys.get? key) :
    m'.RecordsBackup (h ++ [t]) key where
  data_iff data := by
    rw [he, hr.data_iff]
    exact (lasts_snoc_of_not (by simp [ha]) (by simp [ha])).symm
  backedUp_iff data := by
    have hsame : ∀ version, BackedUp (h ++ [t]) version key data ↔ BackedUp h version key data :=
      fun version => lasts_snoc_of_not (hb version data) (by simp [ha, hc])
    simp only [he, hv, hr.backedUp_iff, hsame]

/-- After a change of the version no key is backed up. -/
theorem of_changesVersion (hr : m.RecordsBackup h key) (ha : t.addedRoomKey? key = none)
    (hc : t.ChangesVersion) (hm : t.marked? = none)
    (he : m'.backup.roomKeys.get? key =
      (m.backup.roomKeys.get? key).map fun e => { e with backedUp := false }) :
    m'.RecordsBackup (h ++ [t]) key where
  data_iff data := by
    rw [he, Option.map_map]
    exact (hr.data_iff data).trans (lasts_snoc_of_not (by simp [ha]) (by simp [ha])).symm
  backedUp_iff data := by
    refine iff_of_false ?_ ?_
    · rw [he]
      simp
    · rintro ⟨-, version, -, hup⟩
      rcases lasts_snoc.1 hup with hb | ⟨-, hn⟩
      · exact Turn.not_backsUp hm hb
      · exact hn (.inr hc)

/-- A room key that was added is not backed up. -/
theorem of_added (hadd : t.addedRoomKey? key = some data) (hm : t.marked? = none)
    (he : m'.backup.roomKeys.get? key = some ⟨data, false⟩) : m'.RecordsBackup (h ++ [t]) key where
  data_iff data' := by
    rw [he]
    unfold LastAdded
    rw [lasts_snoc, hadd]
    simp
  backedUp_iff data' := by
    refine iff_of_false ?_ ?_
    · rw [he]
      simp
    · rintro ⟨-, version, -, hup⟩
      rcases lasts_snoc.1 hup with hb | ⟨-, hn⟩
      · exact Turn.not_backsUp hm hb
      · exact hn (.inl (by simp [hadd]))

/-- The answer to a backup of the active version backs up the keys that it has with their data. -/
theorem of_markSent (hr : m.RecordsBackup h key) {b : KeysBackup} (ha : t.addedRoomKey? key = none)
    (hc : ¬ t.ChangesVersion)
    (hb : ∀ version data, t.BacksUp version key data ↔
      b.version = version ∧ (b.rooms.get? key).any (· == data) = true)
    (he : m'.backup = m.backup.markSent b) : m'.RecordsBackup (h ++ [t]) key where
  data_iff data := by
    rw [he, Backup.data_markSent, hr.data_iff]
    exact (lasts_snoc_of_not (by simp [ha]) (by simp [ha])).symm
  backedUp_iff data := by
    have hup : ∀ version, BackedUp (h ++ [t]) version key data ↔
        (b.version = version ∧ (b.rooms.get? key).any (· == data) = true) ∨
          BackedUp h version key data := by
      intro version
      unfold BackedUp
      rw [lasts_snoc, hb]
      simp [ha, hc]
    rw [he, Backup.get?_markSent_eq_some_iff, Backup.data_markSent, Backup.version_markSent,
      hr.backedUp_iff]
    simp only [hup]
    refine and_congr_right fun hd => ⟨?_, ?_⟩
    · rintro (⟨-, version, hv, hbefore⟩ | ⟨hv, hany⟩)
      · exact ⟨version, hv, .inr hbefore⟩
      · exact ⟨b.version, hv, .inl ⟨rfl, hany⟩⟩
    · rintro ⟨version, hv, ⟨rfl, hany⟩ | hbefore⟩
      · exact .inr ⟨hv, hany⟩
      · exact .inl ⟨hd, version, hv, hbefore⟩

/-- Every turn keeps the records right. -/
theorem turn (hr : m.RecordsBackup h key) (ht : m.Transition now call answer m') :
    m'.RecordsBackup (h ++ [⟨m, now, call, answer, m'⟩]) key := by
  cases ht with
  | complete r outcome inFlight fits =>
    have hpass : ((m.withOutcome now r outcome).decisionPass now).backup =
        (m.withOutcome now r outcome).backup := addAll_backup _ _
    rcases withOutcome_backup m now fits with ⟨b, response, hp, rfl, he⟩ | ⟨hno, he⟩
    · refine hr.of_markSent rfl id (fun version data => ?_) (hpass.trans he)
      rw [Turn.backsUp_markAsSent_iff inFlight, hp]
      simp
    · have hsame := hpass.trans he
      refine hr.of_eq rfl id (fun version data hb => ?_) (by rw [hsame]) (by rw [hsame])
      obtain ⟨b, ha, -⟩ := hb
      exact absurd ha (Turn.not_answers_markAsSent inFlight hno)
  | enable version nonempty =>
    by_cases hv : m.backup.version = some version
    · have he : m.backup.enable version = m.backup := if_pos hv
      exact hr.of_eq rfl (fun hc => hc hv) (fun _ _ => Turn.not_backsUp rfl)
        (congrArg Backup.version he) (by rw [he])
    · have he : m.backup.enable version = { m.backup.reset with version := some version } := if_neg hv
      refine hr.of_changesVersion rfl hv rfl ?_
      rw [he]
      exact SortedMap.get?_mapValues _ _ _
  | disable => exact hr.of_changesVersion rfl trivial rfl (SortedMap.get?_mapValues _ _ _)
  | addRoomKey key' data =>
    by_cases hk : key = key'
    · refine of_added (if_pos hk) rfl ?_
      rw [hk]
      exact SortedMap.get?_insert_self _ _ _
    · exact hr.of_eq (if_neg hk) id (fun _ _ => Turn.not_backsUp rfl) rfl
        (SortedMap.get?_insert_of_ne _ _ hk)
  | handOut =>
    have he : (m.decisionPass now).backup = m.backup := addAll_backup _ _
    exact hr.of_eq rfl id (fun _ _ => Turn.not_backsUp rfl) (congrArg Backup.version he)
      (congrArg (fun b => b.roomKeys.get? key) he)
  | refuse call reason refusable =>
    refine hr.of_eq ?_ ?_ (fun _ _ => Turn.not_backsUp ?_) rfl rfl
    · cases call <;> rfl
    · cases call <;> exact id
    · cases call <;> rfl
  | _ => exact hr.of_eq rfl id (fun _ _ => Turn.not_backsUp rfl) rfl rfl

end RecordsBackup

/-- The backup of a machine says of room keys what its history says. -/
theorem Reached.recordsBackup (hm : Reached h m) (key : Cell RoomId SessionId) :
    m.RecordsBackup h key := by
  induction hm with
  | new =>
    refine ⟨fun data => iff_of_false nofun not_lasts_nil, fun data => iff_of_false nofun ?_⟩
    exact fun ⟨hd, _⟩ => nomatch hd
  | step now call hm ih => exact ih.turn (transition_step _ now call)

/-- **A room key is backed up exactly if the history says so**, whatever calls were made to a new
machine: the key was added, some version is active, and a backup of that version that has the key with
the data that it was last added with was answered, and since then neither the key was added nor the
active version changed. -/
theorem isRoomKeyBackedUp_iff (userId : UserId) (deviceId : DeviceId) (deviceKeys : Opaque)
    (settings : Settings) (ids : IdSource) (calls : List (Instant × Call))
    (key : Cell RoomId SessionId) :
    let h := (new userId deviceId deviceKeys settings ids).turns calls
    let m := ((new userId deviceId deviceKeys settings ids).run calls).2
    m.isRoomKeyBackedUp key = true ↔ ∃ data version, LastAdded h key data ∧
      m.backupVersion? = some version ∧ BackedUp h version key data := by
  intro h m
  have hm : Reached h m := (Reached.new userId deviceId deviceKeys settings ids).run calls
  have hr := hm.recordsBackup key
  rw [isRoomKeyBackedUp, Backup.isBackedUp_iff]
  refine exists_congr fun data => ?_
  rw [hr.backedUp_iff, hr.data_iff, exists_and_left]
  rfl

/-- A backup that was handed out before its version was left counts when it is answered after the
version was entered again. -/
theorem isRoomKeyBackedUp_iff_reentered :
    let calls : List (Instant × Call) :=
      [(0, .addRoomKey Sample.roomKey .null), (0, .enableBackup "1"), (0, .outgoingRequests),
        (0, .enableBackup "2"), (0, .enableBackup "1"),
        (0, .markAsSent "r-2" (.success (.keysBackup ⟨"etag", 1⟩)))]
    (Sample.machine.run calls).2.isRoomKeyBackedUp Sample.roomKey = true ∧
      ∃ data, LastAdded (Sample.machine.turns calls) Sample.roomKey data ∧
        BackedUp (Sample.machine.turns calls) "1" Sample.roomKey data := by
  intro calls
  have hup : (Sample.machine.run calls).2.isRoomKeyBackedUp Sample.roomKey = true := rfl
  have hversion : (Sample.machine.run calls).2.backupVersion? = some "1" := rfl
  obtain ⟨data, version, hlast, hv, hbacked⟩ := (isRoomKeyBackedUp_iff Sample.alice "DEVICE" .null
    .default (.counting "r") calls Sample.roomKey).1 hup
  cases hversion.symm.trans hv
  exact ⟨hup, data, hlast, hbacked⟩

end Machine
end Outbox
