/-
# Keys that are published

A one-time or fallback key is unpublished from when it was added until an upload that has it with the
value it has was answered. What an upload has is what is unpublished when it is decided on; and it has
the keys of the device as long as none was answered that has them, so they are uploaded once.

Key definitions: `KeyUse`, `OwnKeys.unpublished`, `Turn.addedKey?`, `Turn.Publishes`,
`Turn.UploadsDeviceKeys`.
Key theorems: `Machine.Reached.unpublished_iff`, `Machine.Reached.shared_iff`,
`Machine.Reached.keys_of_mem_decided`, `Machine.keys_published_once`.
-/
import Outbox.Proofs.Backing

namespace Outbox

/-! ### What a history says -/

/-- What a key is for. -/
inductive KeyUse where
  /-- The key is handed out once. -/
  | oneTime
  /-- The key is handed out when the others are used up. -/
  | fallback

/-- The keys of a use that the server does not have. -/
def OwnKeys.unpublished (k : OwnKeys) : KeyUse → SortedMap KeyId Opaque
  | .oneTime => k.oneTimeKeys
  | .fallback => k.fallbackKeys

/-- The keys of a use in an upload. -/
def KeysUpload.keys (x : KeysUpload) : KeyUse → SortedMap KeyId Opaque
  | .oneTime => x.oneTimeKeys
  | .fallback => x.fallbackKeys

namespace Turn

/-- The value with which the turn added a key. -/
def addedKey? (t : Turn) (use : KeyUse) (id : KeyId) : Option Opaque :=
  match use, t.call, t.answer with
  | .oneTime, .addOneTimeKeys keys, .done => keys.get? id
  | .fallback, .addFallbackKeys keys, .done => keys.get? id
  | _, _, _ => none

/-- An upload that has the key with the value was answered in the turn. -/
def Publishes (t : Turn) (use : KeyUse) (id : KeyId) (v : Opaque) : Prop :=
  ∃ x : KeysUpload, t.Answers (.keysUpload x) ∧ ((x.keys use).get? id).any (· == v) = true

/-- An upload that has the keys of the device was answered in the turn. -/
def UploadsDeviceKeys (t : Turn) : Prop :=
  ∃ x : KeysUpload, t.Answers (.keysUpload x) ∧ x.deviceKeys.isSome = true

variable {t : Turn} {use : KeyUse} {id : KeyId} {v : Opaque}

theorem not_publishes (hm : t.marked? = none) : ¬ t.Publishes use id v :=
  fun ⟨_, ha, _⟩ => not_answers hm ha

theorem not_uploadsDeviceKeys (hm : t.marked? = none) : ¬ t.UploadsDeviceKeys :=
  fun ⟨_, ha, _⟩ => not_answers hm ha

end Turn

/-- The key was added with the value, and since then it was neither added again nor published with that
value. -/
def Unpublished (h : List Turn) (use : KeyUse) (id : KeyId) (v : Opaque) : Prop :=
  Lasts (fun t => t.addedKey? use id = some v)
    (fun t => t.addedKey? use id ≠ none ∨ t.Publishes use id v) h

namespace Sample

/-- A key. -/
def oldKey : Opaque := ⟨.str "old", trivial⟩

/-- Another key. -/
def newKey : Opaque := ⟨.str "new", trivial⟩

end Sample

/-! ### What the keys say -/

namespace OwnKeys

variable {k : OwnKeys} {use : KeyUse} {id : KeyId} {v : Opaque}

/-- An answered upload takes away the keys that it has with the values that they have. -/
theorem get?_unpublished_receiveUpload (x : KeysUpload) (response : KeysUploadResponse) :
    ((k.receiveUpload x response).unpublished use).get? id = some v ↔
      (k.unpublished use).get? id = some v ∧ ((x.keys use).get? id).any (· == v) = false := by
  have hfilter : (k.receiveUpload x response).unpublished use =
      withoutPublished (k.unpublished use) (x.keys use) := by
    cases use <;> rfl
  rw [hfilter, withoutPublished, SortedMap.get?_filter, Option.filter_eq_some_iff, Bool.not_eq_true']

end OwnKeys

namespace Machine

variable {m m' : Machine} {h : List Turn} {now : Instant} {call : Call} {answer : Answer}
  {r : OutgoingRequest} {outcome : Outcome} {use : KeyUse} {id : KeyId} {v : Opaque}

/-- The end of a request takes away a key exactly if it publishes it. -/
theorem unpublished_withOutcome (inFlight : r ∈ m.queue.inFlight) (now : Instant)
    (fits : outcome.mismatch? r.kind = none) (use : KeyUse) (id : KeyId) (v : Opaque) (m' : Machine) :
    ((m.withOutcome now r outcome).ownKeys.unpublished use).get? id = some v ↔
      (m.ownKeys.unpublished use).get? id = some v ∧
        ¬ Turn.Publishes ⟨m, now, .markAsSent r.id outcome, .done, m'⟩ use id v := by
  unfold Turn.Publishes
  rcases withOutcome_ownKeys m now fits with ⟨x, response, hp, rfl, he⟩ | ⟨hno, he⟩
  · simp only [Turn.answers_markAsSent_iff inFlight]
    rw [he, OwnKeys.get?_unpublished_receiveUpload, hp]
    refine and_congr_right fun _ => ?_
    rw [← Bool.not_eq_true]
    refine not_congr ⟨fun hany => ⟨x, ⟨rfl, _, rfl⟩, hany⟩, ?_⟩
    rintro ⟨y, ⟨hy, -⟩, hany⟩
    cases hy
    exact hany
  · rw [he]
    refine (and_iff_left ?_).symm
    rintro ⟨y, ha, -⟩
    exact absurd ha (Turn.not_answers_markAsSent inFlight hno)

/-- A turn that touches no key leaves what is unpublished. -/
theorem unpublished_of_eq
    (hu : (m.ownKeys.unpublished use).get? id = some v ↔ Unpublished h use id v) {t : Turn}
    (ha : t.addedKey? use id = none) (hm : t.marked? = none)
    (he : m'.ownKeys.unpublished use = m.ownKeys.unpublished use) :
    (m'.ownKeys.unpublished use).get? id = some v ↔ Unpublished (h ++ [t]) use id v := by
  rw [he, hu]
  refine (lasts_snoc_of_not ?_ ?_).symm
  · rw [ha]
    exact nofun
  · rintro (hne | hp)
    · exact hne ha
    · exact Turn.not_publishes hm hp

/-- Keys that are added are unpublished, over those with the same names. -/
theorem unpublished_of_added {keys : SortedMap KeyId Opaque}
    (hu : (m.ownKeys.unpublished use).get? id = some v ↔ Unpublished h use id v) {t : Turn}
    (ha : t.addedKey? use id = keys.get? id) (hm : t.marked? = none)
    (he : m'.ownKeys.unpublished use = (m.ownKeys.unpublished use).insertMany keys.toList) :
    (m'.ownKeys.unpublished use).get? id = some v ↔ Unpublished (h ++ [t]) use id v := by
  unfold Unpublished at hu ⊢
  rw [he, SortedMap.get?_insertMany_toList, lasts_snoc, ← hu, ha, or_iff_left (Turn.not_publishes hm)]
  cases keys.get? id with
  | none => simp
  | some w => simp

theorem unpublished_turn (hu : (m.ownKeys.unpublished use).get? id = some v ↔ Unpublished h use id v)
    (ht : m.Transition now call answer m') :
    (m'.ownKeys.unpublished use).get? id = some v ↔
      Unpublished (h ++ [⟨m, now, call, answer, m'⟩]) use id v := by
  cases ht with
  | complete r outcome inFlight fits =>
    have hadd : ∀ m', Turn.addedKey? ⟨m, now, .markAsSent r.id outcome, .done, m'⟩ use id = none := by
      intro m'
      cases use <;> rfl
    have hend := unpublished_withOutcome inFlight now fits use id v
      ((m.withOutcome now r outcome).decisionPass now)
    have hpass : ((m.withOutcome now r outcome).decisionPass now).ownKeys =
        (m.withOutcome now r outcome).ownKeys := addAll_ownKeys _ _
    unfold Unpublished at hu ⊢
    rw [hpass, hend, lasts_snoc, ← hu, hadd]
    simp
  | addOneTimeKeys keys =>
    cases use with
    | oneTime => exact unpublished_of_added hu rfl rfl rfl
    | fallback => exact unpublished_of_eq hu rfl rfl rfl
  | addFallbackKeys keys =>
    cases use with
    | oneTime => exact unpublished_of_eq hu rfl rfl rfl
    | fallback => exact unpublished_of_added hu rfl rfl rfl
  | handOut =>
    refine unpublished_of_eq hu (by cases use <;> rfl) rfl ?_
    rw [decisionPass, addAll_ownKeys]
  | refuse call reason refusable =>
    exact unpublished_of_eq hu (by cases use <;> cases call <;> rfl) (by cases call <;> rfl) rfl
  | _ => exact unpublished_of_eq hu (by cases use <;> rfl) rfl rfl

/-- **A key is unpublished exactly if it was added and not published since.** -/
theorem Reached.unpublished_iff (hm : Reached h m) :
    (m.ownKeys.unpublished use).get? id = some v ↔ Unpublished h use id v := by
  induction hm with
  | new => exact iff_of_false (by cases use <;> exact nofun) not_lasts_nil
  | step now call hm ih => exact unpublished_turn ih (transition_step _ now call)

/-! ### The keys of the device -/

theorem shared_turn (hs : m.ownKeys.shared = true ↔ ∃ t ∈ h, t.UploadsDeviceKeys)
    (ht : m.Transition now call answer m') :
    m'.ownKeys.shared = true ↔ ∃ t ∈ h ++ [⟨m, now, call, answer, m'⟩], t.UploadsDeviceKeys := by
  have hsnoc : ∀ t : Turn, (∃ s ∈ h ++ [t], s.UploadsDeviceKeys) ↔
      m.ownKeys.shared = true ∨ t.UploadsDeviceKeys := by
    intro t
    simp [hs, or_and_right, exists_or]
  -- A turn that marks no request uploads nothing.
  have quiet : Turn.marked? ⟨m, now, call, answer, m'⟩ = none → m'.ownKeys.shared = m.ownKeys.shared →
      (m'.ownKeys.shared = true ↔ ∃ t ∈ h ++ [⟨m, now, call, answer, m'⟩], t.UploadsDeviceKeys) := by
    intro hm he
    rw [hsnoc, he, or_iff_left (Turn.not_uploadsDeviceKeys hm)]
  cases ht with
  | complete r outcome inFlight fits =>
    rw [hsnoc, decisionPass, addAll_ownKeys]
    unfold Turn.UploadsDeviceKeys
    rcases withOutcome_ownKeys m now fits with ⟨x, response, hp, rfl, he⟩ | ⟨hno, he⟩
    · simp only [Turn.answers_markAsSent_iff inFlight]
      rw [he, hp]
      simp [OwnKeys.receiveUpload]
    · rw [he]
      refine (or_iff_left ?_).symm
      rintro ⟨y, ha, -⟩
      exact absurd ha (Turn.not_answers_markAsSent inFlight hno)
  | handOut => exact quiet rfl (by rw [decisionPass, addAll_ownKeys])
  | refuse call reason refusable => exact quiet (by cases call <;> rfl) rfl
  | _ => exact quiet rfl rfl

/-- The server has the keys of the device exactly if an upload that has them was answered. -/
theorem Reached.shared_iff (hm : Reached h m) :
    m.ownKeys.shared = true ↔ ∃ t ∈ h, t.UploadsDeviceKeys := by
  induction hm with
  | new => exact iff_of_false nofun (by simp)
  | step now call hm ih => exact shared_turn ih (transition_step _ now call)

/-- No call changes the keys of the device. -/
theorem Transition.deviceKeys_eq (ht : m.Transition now call answer m') :
    m'.ownKeys.deviceKeys = m.ownKeys.deviceKeys := by
  cases ht with
  | handOut => rw [decisionPass, addAll_ownKeys]
  | complete r outcome inFlight fits =>
    rw [decisionPass, addAll_ownKeys]
    rcases withOutcome_ownKeys m now fits with ⟨x, response, -, -, he⟩ | ⟨-, he⟩
    · rw [he]
      rfl
    · rw [he]
  | _ => rfl

theorem deviceKeys_turns {t : Turn} {calls : List (Instant × Call)} (ht : t ∈ m.turns calls) :
    t.after.ownKeys.deviceKeys = m.ownKeys.deviceKeys := by
  induction calls generalizing m with
  | nil => cases ht
  | cons c calls ih =>
    have hstep := (m.transition_step c.1 c.2).deviceKeys_eq
    rcases List.mem_cons.1 ht with rfl | ht
    · exact hstep
    · exact (ih ht).trans hstep

/-- Only one upload that has the keys of the device is ever answered: while it is queued the server does
not have them. -/
theorem Reached.pairwise_uploadsDeviceKeys (hm : Reached h m) :
    h.Pairwise fun s t => s.UploadsDeviceKeys → ¬ t.UploadsDeviceKeys := by
  induction hm with
  | new => exact .nil
  | @step h m now call hm ih =>
    refine List.pairwise_append.2 ⟨ih, List.pairwise_singleton _ _, fun s hs t ht hsup => ?_⟩
    rw [List.mem_singleton] at ht
    subst ht
    rintro ⟨x, ⟨id, response, -, -, hin⟩, hdev⟩
    have hin : ⟨id, .keysUpload x⟩ ∈ m.queue.contents := Queue.mem_contents_iff.2 (.inr hin)
    have hback := hm.backed _ hin (hm.agrees.mem_decided hin nofun)
    have hshared : m.ownKeys.shared = true := hm.shared_iff.2 ⟨s, hs, hsup⟩
    have hnone : x.deviceKeys = none := by
      rw [hback.1, if_pos hshared]
    rw [hnone] at hdev
    cases hdev

/-! ### What is uploaded -/

theorem upload?_of_mem_wanted {x : KeysUpload} (hx : .keysUpload x ∈ m.wanted now) :
    m.ownKeys.upload? = some x := by
  rcases mem_wanted.1 hx with hx | hx | hx | hx | hx | hx | hx
  · obtain ⟨y, hy, he⟩ := Option.map_eq_some_iff.1 (mem_onePerKind.1 hx).2
    cases he
    exact hy
  · obtain ⟨q, he, -⟩ := mem_wantedKeysQueries hx
    cases he
  · cases kind_of_mem_wantedKeysClaim hx
  · obtain ⟨y, -, he, -⟩ := mem_wantedToDevice.1 hx
    cases he
  · cases kind_of_mem_wantedSignatureUpload hx
  · obtain ⟨y, -, he, -⟩ := mem_wantedRoomMessages.1 hx
    cases he
  · obtain ⟨b, he, -⟩ := mem_wantedKeysBackup hx
    cases he

/-- An upload that a turn decided on is the one that is needed after the turn. -/
theorem Transition.upload?_of_mem_decided {x : KeysUpload} {name : RequestId}
    (ht : m.Transition now call answer m')
    (hx : ⟨name, .keysUpload x⟩ ∈ Turn.decided ⟨m, now, call, answer, m'⟩) :
    m'.ownKeys.upload? = some x := by
  cases ht with
  | handOut =>
    have hw : .keysUpload x ∈ m.wanted now := payload_mem_of_mem_added hx
    show (m.decisionPass now).ownKeys.upload? = some x
    rw [decisionPass, addAll_ownKeys]
    exact upload?_of_mem_wanted hw
  | complete r outcome inFlight fits =>
    rw [Turn.decided_markAsSent inFlight fits] at hx
    have hw : .keysUpload x ∈ (m.withOutcome now r outcome).wanted now := payload_mem_of_mem_added hx
    rw [decisionPass, addAll_ownKeys]
    exact upload?_of_mem_wanted hw
  | refuse call reason refusable => cases call <;> cases hx
  | _ => cases hx

/-- An upload has what is unpublished when it is decided on. -/
theorem Reached.keys_of_mem_decided {h₁ h₂ : List Turn} {t : Turn} {x : KeysUpload} {name : RequestId}
    (hm : Reached (h₁ ++ t :: h₂) m) (hx : ⟨name, .keysUpload x⟩ ∈ t.decided) :
    Reached (h₁ ++ [t]) t.after ∧ (∀ use, x.keys use = t.after.ownKeys.unpublished use) ∧
      x.deviceKeys = if t.after.ownKeys.shared then none else some t.after.ownKeys.deviceKeys := by
  obtain ⟨-, ht, hafter⟩ := hm.split
  have hup : t.after.ownKeys.upload? = some x := by
    rw [ht] at hx ⊢
    exact (transition_step _ _ _).upload?_of_mem_decided hx
  obtain ⟨hd, ho, hf⟩ := OwnKeys.keys_of_upload? hup
  refine ⟨hafter, fun use => ?_, hd⟩
  cases use with
  | oneTime => exact ho
  | fallback => exact hf

/-- **Keys are published, and the keys of the device only once**, whatever calls were made to a new
machine. A one-time or fallback key is unpublished exactly if it was added and not published since. Every
upload has, when a decision pass queues it, exactly the keys that are unpublished then, and has the keys
of the device exactly if no upload that has them was answered by then; so at most one upload that has
them is ever answered. -/
theorem keys_published_once (userId : UserId) (deviceId : DeviceId) (deviceKeys : Opaque)
    (settings : Settings) (ids : IdSource) (calls : List (Instant × Call)) :
    let h := (new userId deviceId deviceKeys settings ids).turns calls
    let m := ((new userId deviceId deviceKeys settings ids).run calls).2
    (∀ use id v, (m.ownKeys.unpublished use).get? id = some v ↔ Unpublished h use id v) ∧
    (∀ h₁ t h₂ name x, h = h₁ ++ t :: h₂ → ⟨name, .keysUpload x⟩ ∈ t.decided →
      (∀ use, x.keys use = t.after.ownKeys.unpublished use) ∧
      (∀ use id v, (x.keys use).get? id = some v ↔ Unpublished (h₁ ++ [t]) use id v) ∧
      (x.deviceKeys = some deviceKeys ↔ ∀ s ∈ h₁ ++ [t], ¬ s.UploadsDeviceKeys) ∧
      (x.deviceKeys = none ↔ ∃ s ∈ h₁ ++ [t], s.UploadsDeviceKeys)) ∧
    h.Pairwise fun s t => s.UploadsDeviceKeys → ¬ t.UploadsDeviceKeys := by
  intro h m
  have hm : Reached h m := (Reached.new userId deviceId deviceKeys settings ids).run calls
  refine ⟨fun use id v => hm.unpublished_iff, ?_, hm.pairwise_uploadsDeviceKeys⟩
  intro h₁ t h₂ name x he hx
  have hdev : t.after.ownKeys.deviceKeys = deviceKeys :=
    deviceKeys_turns (m := new userId deviceId deviceKeys settings ids)
      (show t ∈ h by simp [he])
  rw [he] at hm
  obtain ⟨hafter, hkeys, hd⟩ := hm.keys_of_mem_decided hx
  rw [hdev] at hd
  refine ⟨hkeys, fun use id v => ?_, ?_, ?_⟩
  · rw [hkeys]
    exact hafter.unpublished_iff
  · have hshared : t.after.ownKeys.shared = false ↔ ∀ s ∈ h₁ ++ [t], ¬ s.UploadsDeviceKeys := by
      rw [← Bool.not_eq_true, hafter.shared_iff]
      simp only [not_exists, not_and]
    rw [hd, ← hshared]
    cases t.after.ownKeys.shared <;> simp
  · rw [hd, ← hafter.shared_iff]
    cases t.after.ownKeys.shared <;> simp

/-- A key that was replaced while it was being uploaded stays unpublished, and goes into the next upload,
which does not have the keys of the device any more. -/
theorem keys_published_once_replaced :
    let calls : List (Instant × Call) :=
      [(0, .addOneTimeKeys (SortedMap.insert ∅ "AAAAAQ" Sample.oldKey)), (0, .outgoingRequests),
        (0, .addOneTimeKeys (SortedMap.insert ∅ "AAAAAQ" Sample.newKey)),
        (0, .markAsSent "r-0" (.success (.keysUpload ⟨∅⟩)))]
    Unpublished (Sample.machine.turns calls) .oneTime "AAAAAQ" Sample.newKey ∧
      ∃ h₁ t name x, Sample.machine.turns calls = h₁ ++ [t] ∧ ⟨name, .keysUpload x⟩ ∈ t.decided ∧
        (x.keys .oneTime).get? "AAAAAQ" = some Sample.newKey ∧ x.deviceKeys = none := by
  intro calls
  obtain ⟨hkeys, huploads, -⟩ :=
    keys_published_once Sample.alice "DEVICE" .null .default (.counting "r") calls
  have hnew := (hkeys .oneTime "AAAAAQ" Sample.newKey).1 rfl
  have hturns : ∃ t₁ t₂ t₃ t₄ name x y rest, Sample.machine.turns calls = [t₁, t₂, t₃, t₄] ∧
      t₄.decided = [⟨name, .keysUpload x⟩] ∧
      t₄.before.inFlightRequests = ⟨"r-0", .keysUpload y⟩ :: rest ∧
      t₄.call = .markAsSent "r-0" (.success (.keysUpload ⟨∅⟩)) ∧ t₄.answer = .done ∧
      y.deviceKeys.isSome = true :=
    ⟨_, _, _, _, _, _, _, _, rfl, rfl, rfl, rfl, rfl, rfl⟩
  obtain ⟨t₁, t₂, t₃, t₄, name, x, y, rest, hh, hdec, hin, hcall, hdone, hy⟩ := hturns
  have hx : ⟨name, .keysUpload x⟩ ∈ t₄.decided := by simp [hdec]
  obtain ⟨-, hval, -, hnone⟩ := huploads [t₁, t₂, t₃] t₄ [] name x hh hx
  refine ⟨hnew, [t₁, t₂, t₃], t₄, name, x, hh, hx, (hval _ _ _).2 ?_, hnone.2 ⟨t₄, by simp, y, ?_, hy⟩⟩
  · rw [show [t₁, t₂, t₃] ++ [t₄] = Sample.machine.turns calls from hh.symm]
    exact hnew
  · exact ⟨"r-0", _, hcall, hdone, by simp [hin]⟩

end Machine
end Outbox
