/-
# Sessions with devices by history

What a machine says of the session with a device is what happened last: the session was reported
missing, or a claim of a key of the device ended with or without one. A claim names missing devices only
and takes them off the missing ones when it is over, so every claim that is over is paid for by a report
of its own.

Key definitions: `SessionEvent`, `Turn.sessionEvent?`, `Sessions.Follows`, `Sessions.Records`.
Key theorems: `Sessions.Records.snoc`, `Machine.Reached.records`, `Machine.claims_accounted`.
-/
import Outbox.Proofs.Backing

namespace Outbox

/-! ### What a history says -/

/-- What happened to the session with a device. -/
inductive SessionEvent where
  /-- The session was reported missing. -/
  | missing
  /-- A claim ended with a key of the device. -/
  | established
  /-- A claim ended without a key of the device. -/
  | failed
deriving DecidableEq

/-- Whether a response hands over a key of a device. -/
def KeysClaimResponse.hasKey (r : KeysClaimResponse) (device : Cell UserId DeviceId) : Bool :=
  (r.oneTimeKeys.get? device.row).any fun devices =>
    (devices.get? device.column).any fun keys => !keys.isEmpty

/-- What the end of a claim means for the session with a device that the claim names. A claim that may
succeed later is not over. -/
def Outcome.sessionEvent? (outcome : Outcome) (device : Cell UserId DeviceId) : Option SessionEvent :=
  match outcome with
  | .success (.keysClaim response) =>
    some (if response.hasKey device = true then .established else .failed)
  | .success _ => none
  | .failure f => if f.isPermanent = true then some .failed else none

/-- What the end of a request means for the session with a device. -/
def OutgoingRequest.sessionEvent? (r : OutgoingRequest) (outcome : Outcome)
    (device : Cell UserId DeviceId) : Option SessionEvent :=
  match r.payload with
  | .keysClaim claim => if device ∈ claim.oneTimeKeys then outcome.sessionEvent? device else none
  | _ => none

/-- What happened in the turn to the session with a device. -/
def Turn.sessionEvent? (t : Turn) (device : Cell UserId DeviceId) : Option SessionEvent :=
  match t.call, t.answer with
  | .markSessionsMissing user devices, .done =>
    if device.row = user ∧ device.column ∈ devices then some .missing else none
  | .markAsSent id outcome, .done =>
    (t.before.inFlightRequests.find? fun r => r.id = id).bind fun r => r.sessionEvent? outcome device
  | _, _ => none

/-- A request in flight is the one that is found by its name. -/
theorem Queue.find?_inFlight {q : Queue} {r : OutgoingRequest} (hr : r ∈ q.inFlight) :
    (q.inFlight.find? fun x => x.id = r.id) = some r := by
  have hsome : (q.inFlight.find? fun x => x.id = r.id).isSome = true :=
    List.find?_isSome.2 ⟨r, hr, decide_eq_true rfl⟩
  obtain ⟨x, hx⟩ := Option.isSome_iff_exists.1 hsome
  have hid := List.find?_some hx
  rw [decide_eq_true_eq] at hid
  have hmem : x ∈ q.inFlight := List.mem_of_find?_eq_some hx
  rw [hx, eq_of_id_eq (mem_contents_iff.2 (.inr hmem)) (mem_contents_iff.2 (.inr hr)) hid]

theorem Turn.sessionEvent?_markAsSent {m m' : Machine} {now : Instant} {r : OutgoingRequest}
    {outcome : Outcome} {device : Cell UserId DeviceId} (inFlight : r ∈ m.queue.inFlight) :
    sessionEvent? ⟨m, now, .markAsSent r.id outcome, .done, m'⟩ device =
      r.sessionEvent? outcome device := by
  show (m.queue.inFlight.find? fun x => x.id = r.id).bind _ = _
  rw [Queue.find?_inFlight inFlight, Option.bind_some]

/-! ### What the sessions say -/

/-- A key is found in a response exactly if the response hands one over. -/
theorem KeysClaimResponse.isSome_key? (r : KeysClaimResponse) (device : Cell UserId DeviceId) :
    (r.key? device).isSome = r.hasKey device := by
  unfold key? hasKey
  cases r.oneTimeKeys.get? device.row with
  | none => rfl
  | some devices =>
    rw [Option.bind_some, Option.any_some]
    cases devices.get? device.column with
    | none => rfl
    | some keys =>
      rw [Option.bind_some, Option.any_some]
      unfold SortedMap.values SortedMap.isEmpty
      cases keys.toList <;> rfl

namespace Sessions

variable {s s' : Sessions} {device : Cell UserId DeviceId} {e : Option SessionEvent}
  {events : List SessionEvent}

/-- From one state to the next, the session with the device changed as the event says, or not at all. -/
structure Follows (s : Sessions) (e : Option SessionEvent) (device : Cell UserId DeviceId)
    (s' : Sessions) : Prop where
  missing : device ∈ s'.missing ↔ e = some .missing ∨ e = none ∧ device ∈ s.missing
  established : device ∈ s'.established ↔ e = some .established ∨ device ∈ s.established
  failed : device ∈ s'.failed ↔ e = some .failed ∨ e ≠ some .missing ∧ device ∈ s.failed

theorem Follows.refl (s : Sessions) (device : Cell UserId DeviceId) : s.Follows none device s where
  missing := by simp
  established := by simp
  failed := by simp

theorem mem_markMissing (s : Sessions) (user : UserId) (devices : List DeviceId)
    (device : Cell UserId DeviceId) :
    (device ∈ (s.markMissing user devices).missing ↔
      device.row = user ∧ device.column ∈ devices ∨ device ∈ s.missing) ∧
    (device ∈ (s.markMissing user devices).failed ↔
      ¬ (device.row = user ∧ device.column ∈ devices) ∧ device ∈ s.failed) ∧
    (s.markMissing user devices).established = s.established := by
  unfold markMissing
  induction devices generalizing s with
  | nil => simp
  | cons x devices ih =>
    have hcell : device = ⟨user, x⟩ ↔ device.row = user ∧ device.column = x := by
      cases device
      simp
    have hmissing : device ∈ (s.markDeviceMissing ⟨user, x⟩).missing ↔
        device = ⟨user, x⟩ ∨ device ∈ s.missing := SortedMap.mem_insert
    have hfailed : device ∈ (s.markDeviceMissing ⟨user, x⟩).failed ↔
        device ≠ ⟨user, x⟩ ∧ device ∈ s.failed := by
      simp only [SortedMap.mem_iff, markDeviceMissing, SortedMap.get?_erase_eq_some_iff, exists_and_left]
    obtain ⟨hm, hf, he⟩ := ih (s.markDeviceMissing ⟨user, x⟩)
    rw [List.map_cons, List.foldl_cons]
    refine ⟨?_, ?_, he⟩
    · rw [hm, hmissing, hcell, List.mem_cons, and_or_left, or_assoc, or_left_comm]
    · rw [hf, hfailed, ne_eq, hcell, List.mem_cons, and_or_left, not_or, and_assoc, and_left_comm]

/-- A report of missing sessions is one for the devices that it names. -/
theorem follows_markMissing (s : Sessions) (user : UserId) (devices : List DeviceId)
    (device : Cell UserId DeviceId) :
    s.Follows (if device.row = user ∧ device.column ∈ devices then some .missing else none) device
      (s.markMissing user devices) := by
  obtain ⟨hm, hf, he⟩ := s.mem_markMissing user devices device
  by_cases hnamed : device.row = user ∧ device.column ∈ devices
  · rw [if_pos hnamed]
    exact ⟨by simp [hm, hnamed], by simp [he], by simp [hf, hnamed]⟩
  · rw [if_neg hnamed]
    exact ⟨by simp [hm, hnamed], by simp [he], by simp [hf, hnamed]⟩

theorem mem_withoutMissing (s : Sessions) (request : KeysClaim) :
    device ∈ s.withoutMissing request ↔ device ∉ request.oneTimeKeys ∧ device ∈ s.missing := by
  simp only [withoutMissing, SortedMap.mem_iff, SortedMap.get?_filter, Option.filter_eq_some_iff]
  rw [← SortedMap.mem_iff, ← SortedMap.contains_iff]
  simp [and_comm]

/-- The response to a claim is the end of the claim for each device that the claim names. -/
theorem follows_receiveClaim (s : Sessions) (request : KeysClaim) (response : KeysClaimResponse)
    (device : Cell UserId DeviceId) :
    s.Follows (if device ∈ request.oneTimeKeys then
        some (if response.hasKey device = true then .established else .failed) else none)
      device (s.receiveClaim request response) := by
  have hmissing : device ∈ (s.receiveClaim request response).missing ↔
      device ∉ request.oneTimeKeys ∧ device ∈ s.missing := s.mem_withoutMissing request
  have hestablished : device ∈ (s.receiveClaim request response).established ↔
      device ∈ request.oneTimeKeys ∧ response.hasKey device = true ∨ device ∈ s.established := by
    show device ∈ s.established.insertMany _ ↔ _
    rw [SortedMap.mem_insertMany, ← response.isSome_key?]
    refine or_congr_left ?_
    simp [SortedMap.mem_keys, Option.isSome_iff_exists]
  have hfailed : device ∈ (s.receiveClaim request response).failed ↔
      device ∈ request.oneTimeKeys ∧ response.hasKey device = false ∨ device ∈ s.failed := by
    show device ∈ s.failed.insertMany _ ↔ _
    rw [SortedMap.mem_insertMany, ← response.isSome_key?]
    refine or_congr_left ?_
    simp [SortedMap.mem_keys]
  by_cases hnamed : device ∈ request.oneTimeKeys
  · rw [if_pos hnamed]
    cases hkey : response.hasKey device with
    | true =>
      exact ⟨by simp [hmissing, hnamed], by simp [hestablished, hnamed, hkey], by simp [hfailed, hkey]⟩
    | false =>
      exact ⟨by simp [hmissing, hnamed], by simp [hestablished, hkey], by simp [hfailed, hnamed, hkey]⟩
  · rw [if_neg hnamed]
    exact ⟨by simp [hmissing, hnamed], by simp [hestablished, hnamed], by simp [hfailed, hnamed]⟩

/-- A claim that failed for good ends without keys. -/
theorem follows_failClaim (s : Sessions) (request : KeysClaim) (device : Cell UserId DeviceId) :
    s.Follows (if device ∈ request.oneTimeKeys then some .failed else none) device
      (s.failClaim request) := by
  have hmissing : device ∈ (s.failClaim request).missing ↔
      device ∉ request.oneTimeKeys ∧ device ∈ s.missing := s.mem_withoutMissing request
  have hfailed : device ∈ (s.failClaim request).failed ↔
      device ∈ request.oneTimeKeys ∨ device ∈ s.failed := by
    show device ∈ s.failed.insertMany _ ↔ _
    rw [SortedMap.mem_insertMany, List.map_map]
    simp [Function.comp_def, SortedMap.mem_keys]
  by_cases hnamed : device ∈ request.oneTimeKeys
  · rw [if_pos hnamed]
    exact ⟨by simp [hmissing, hnamed], by simp [failClaim], by simp [hfailed, hnamed]⟩
  · rw [if_neg hnamed]
    exact ⟨by simp [hmissing, hnamed], by simp [failClaim], by simp [hfailed, hnamed]⟩

/-- The sessions say of a device what happened last, and every claim that is over was paid for by a
report. -/
structure Records (s : Sessions) (events : List SessionEvent) (device : Cell UserId DeviceId) : Prop where
  missing_iff : device ∈ s.missing ↔ events.getLast? = some .missing
  established_iff : device ∈ s.established ↔ .established ∈ events
  failed_iff : device ∈ s.failed ↔ events.getLast? = some .failed
  balance : events.countP (· != .missing) + (if device ∈ s.missing then 1 else 0) ≤ events.count .missing

/-- One more event keeps the records, if only the session with a missing device is claimed. -/
theorem Records.snoc (hr : s.Records events device) (hf : s.Follows e device s')
    (hclaim : e ≠ none → e ≠ some .missing → device ∈ s.missing) :
    s'.Records (events ++ e.toList) device := by
  have hbal := hr.balance
  cases e with
  | none =>
    have hmissing : device ∈ s'.missing ↔ device ∈ s.missing := by simp [hf.missing]
    have hestablished : device ∈ s'.established ↔ device ∈ s.established := by simp [hf.established]
    have hfailed : device ∈ s'.failed ↔ device ∈ s.failed := by simp [hf.failed]
    rw [Option.toList_none, List.append_nil]
    refine ⟨hmissing.trans hr.missing_iff, hestablished.trans hr.established_iff,
      hfailed.trans hr.failed_iff, ?_⟩
    simpa only [hmissing] using hbal
  | some event =>
    have hmissing : device ∈ s'.missing ↔ event = .missing := by simp [hf.missing]
    have hestablished : device ∈ s'.established ↔ event = .established ∨ device ∈ s.established := by
      simp [hf.established]
    have hclaimed : event ≠ .missing → device ∈ s.missing := fun hne =>
      hclaim (Option.some_ne_none _) fun he => hne (Option.some.inj he)
    rw [Option.toList_some]
    refine ⟨by simp [hmissing], ?_, ?_, ?_⟩
    · rw [hestablished, hr.established_iff, List.mem_append, List.mem_singleton, or_comm, eq_comm]
    · -- A missing device has not failed, so an established session has not failed either.
      have hnot : event = .established → device ∉ s.failed := fun he hfailed => by
        have hlast := hr.missing_iff.1 (hclaimed (by simp [he]))
        rw [hr.failed_iff.1 hfailed] at hlast
        cases hlast
      rw [hf.failed, List.getLast?_concat]
      cases event <;> simp_all
    · rw [List.countP_append, List.count_append, List.countP_singleton, List.count_singleton]
      cases event with
      | missing =>
        have hle : events.countP (· != .missing) ≤ events.count .missing := by omega
        simpa [hmissing] using hle
      | established | failed =>
        rw [if_pos (hclaimed (by decide))] at hbal
        simpa [hmissing] using hbal

end Sessions

namespace Machine

variable {m m' : Machine} {h : List Turn} {now : Instant} {call : Call} {answer : Answer}
  {r : OutgoingRequest} {outcome : Outcome} {device : Cell UserId DeviceId}

/-- The end of a request changes the session with a device as its event says. -/
theorem follows_withOutcome (m : Machine) (now : Instant) (fits : outcome.mismatch? r.kind = none)
    (device : Cell UserId DeviceId) :
    m.sessions.Follows (r.sessionEvent? outcome device) device
      (m.withOutcome now r outcome).sessions := by
  obtain ⟨id, payload⟩ := r
  rcases withOutcome_sessions m now fits with ⟨hk, he⟩ | ⟨c, response, hp, rfl, he⟩ |
    ⟨c, failure, hp, rfl, he⟩
  · have hnone : OutgoingRequest.sessionEvent? ⟨id, payload⟩ outcome device = none := by
      cases payload <;> first | rfl | exact absurd rfl hk
    rw [he, hnone]
    exact .refl _ _
  · have hp : payload = .keysClaim c := hp
    subst hp
    rw [he]
    exact m.sessions.follows_receiveClaim c response device
  · have hp : payload = .keysClaim c := hp
    subst hp
    rw [he]
    show m.sessions.Follows (if device ∈ c.oneTimeKeys then
      (if failure.isPermanent = true then some .failed else none) else none) device _
    by_cases hperm : failure.isPermanent = true
    · rw [if_pos hperm, if_pos hperm]
      exact m.sessions.follows_failClaim c device
    · rw [if_neg hperm, if_neg hperm, ite_self]
      exact .refl _ _

/-- A queued claim names missing devices only. -/
theorem Reached.missing_of_sessionEvent? (hm : Reached h m) (hr : r ∈ m.queue.contents)
    (he : r.sessionEvent? outcome device ≠ none) : device ∈ m.sessions.missing := by
  obtain ⟨id, payload⟩ := r
  cases payload with
  | keysClaim c =>
    have hnamed : device ∈ c.oneTimeKeys := by
      by_contra hn
      exact he (if_neg hn)
    exact hm.backed _ hr (hm.agrees.mem_decided hr nofun) device hnamed
  | _ => exact absurd rfl he

/-- The sessions of a machine say of a device what its history says. -/
theorem Reached.records (hm : Reached h m) (device : Cell UserId DeviceId) :
    m.sessions.Records (h.filterMap (Turn.sessionEvent? · device)) device := by
  induction hm with
  | new => exact ⟨by simp [Machine.new, Sessions.empty, SortedMap.mem_iff],
      by simp [Machine.new, Sessions.empty, SortedMap.mem_iff],
      by simp [Machine.new, Sessions.empty, SortedMap.mem_iff],
      by simp [Machine.new, Sessions.empty, SortedMap.mem_iff]⟩
  | @step h m now call hm ih =>
    have hsnoc : ∀ t : Turn, (h ++ [t]).filterMap (Turn.sessionEvent? · device) =
        h.filterMap (Turn.sessionEvent? · device) ++ (t.sessionEvent? device).toList := by
      intro t
      rw [List.filterMap_append, List.filterMap_cons]
      cases t.sessionEvent? device <;> rfl
    rw [hsnoc]
    -- A call that tells nothing about sessions leaves them alone.
    have quiet : ∀ t : Turn, t.sessionEvent? device = none → t.after.sessions = m.sessions →
        t.after.sessions.Records (h.filterMap (Turn.sessionEvent? · device) ++
          (t.sessionEvent? device).toList) device := by
      intro t hnone hsame
      rw [hnone, hsame]
      exact ih.snoc (.refl _ _) fun hne => absurd rfl hne
    have ht := transition_step m now call
    show (m.turn now call).after.sessions.Records _ _
    unfold turn
    generalize (m.step now call).1 = answer at ht
    generalize (m.step now call).2 = m' at ht
    cases ht with
    | complete r outcome inFlight fits =>
      rw [Turn.sessionEvent?_markAsSent inFlight, decisionPass, addAll_sessions]
      exact ih.snoc (m.follows_withOutcome now fits device) fun hne _ =>
        hm.missing_of_sessionEvent? (Queue.mem_contents_iff.2 (.inr inFlight)) hne
    | missing user devices =>
      refine ih.snoc (m.sessions.follows_markMissing user devices device) fun hne hnot => ?_
      by_cases hnamed : device.row = user ∧ device.column ∈ devices
      · exact absurd (if_pos hnamed) hnot
      · exact absurd (if_neg hnamed) hne
    | handOut => exact quiet _ rfl (addAll_sessions _ _)
    | refuse call reason refusable => exact quiet _ (by cases call <;> rfl) rfl
    | _ => exact quiet _ rfl rfl

/-- **Every claim of a one-time key is accounted for**, whatever calls were made to a new machine. A
device is missing a session exactly if a report said so after the last claim for it was over; it counts
as failed exactly if that claim ended without a key of it, after the last report; there is a session
exactly if some claim ended with a key of it. So no device is both, and no more claims for a device were
over than there were reports of it. -/
theorem claims_accounted (userId : UserId) (deviceId : DeviceId) (deviceKeys : Opaque)
    (settings : Settings) (ids : IdSource) (calls : List (Instant × Call))
    (device : Cell UserId DeviceId) :
    let h := (new userId deviceId deviceKeys settings ids).turns calls
    let m := ((new userId deviceId deviceKeys settings ids).run calls).2
    let events := h.filterMap (Turn.sessionEvent? · device)
    (device ∈ m.devicesForKeyClaim ↔ events.getLast? = some .missing) ∧
    (m.isSessionFailed device = true ↔ events.getLast? = some .failed) ∧
    (m.hasSession device = true ↔ .established ∈ events) ∧
    ¬ (device ∈ m.devicesForKeyClaim ∧ m.isSessionFailed device = true) ∧
    events.countP (· != .missing) ≤ events.count .missing := by
  intro h m events
  have hm : Reached h m := (Reached.new userId deviceId deviceKeys settings ids).run calls
  have hr : m.sessions.Records events device := hm.records device
  have hfailed : m.isSessionFailed device = true ↔ device ∈ m.sessions.failed := Iff.rfl
  have hsession : m.hasSession device = true ↔ device ∈ m.sessions.established := Iff.rfl
  refine ⟨hr.missing_iff, hfailed.trans hr.failed_iff, hsession.trans hr.established_iff, ?_, ?_⟩
  · rintro ⟨hmissing, hf⟩
    have hlast := hr.missing_iff.1 hmissing
    rw [hr.failed_iff.1 (hfailed.1 hf)] at hlast
    cases hlast
  · have hbal := hr.balance
    omega

/-- A response that hands over a key of one device. -/
def Sample.handover : KeysClaimResponse :=
  ⟨∅, SortedMap.insert ∅ Sample.alice (SortedMap.insert ∅ "PHONE" (SortedMap.insert ∅ "key" .null))⟩

/-- Of two devices that are claimed together, the one without a key in the response failed and is not
missing, until it is reported missing again. -/
theorem claims_accounted_partly :
    let phone : Cell UserId DeviceId := ⟨Sample.alice, "PHONE"⟩
    let tablet : Cell UserId DeviceId := ⟨Sample.alice, "TABLET"⟩
    let calls : List (Instant × Call) :=
      [(0, .markSessionsMissing Sample.alice ["PHONE", "TABLET"]), (0, .outgoingRequests),
        (0, .markAsSent "r-2" (.success (.keysClaim Sample.handover)))]
    let again : Instant × Call := (0, .markSessionsMissing Sample.alice ["TABLET"])
    let m := (Sample.machine.run calls).2
    let m' := (Sample.machine.run (calls ++ [again])).2
    m.hasSession phone = true ∧ m.isSessionFailed tablet = true ∧ tablet ∉ m.devicesForKeyClaim ∧
      tablet ∈ m'.devicesForKeyClaim ∧ m'.isSessionFailed tablet = false := by
  intro phone tablet calls again m m'
  obtain ⟨-, -, hphone, -, -⟩ := claims_accounted Sample.alice "DEVICE" .null .default
    (.counting "r") calls phone
  obtain ⟨hmissing, hfailed, -, -, -⟩ := claims_accounted Sample.alice "DEVICE" .null .default
    (.counting "r") calls tablet
  obtain ⟨hmissing', -, -, hdisjoint, -⟩ := claims_accounted Sample.alice "DEVICE" .null .default
    (.counting "r") (calls ++ [again]) tablet
  have hlast : ((Sample.machine.turns calls).filterMap (Turn.sessionEvent? · tablet)).getLast? =
      some .failed := by decide +kernel
  have hin : tablet ∈ m'.devicesForKeyClaim := hmissing'.2 (by decide +kernel)
  refine ⟨hphone.2 ?_, hfailed.2 hlast, fun hm => ?_, hin, ?_⟩
  · have hevents : (Sample.machine.turns calls).filterMap (Turn.sessionEvent? · phone) =
        [.missing, .established] := by decide +kernel
    exact hevents ▸ List.mem_cons_of_mem _ List.mem_cons_self
  · have hother := hmissing.1 hm
    exact absurd (hlast.symm.trans hother) (by decide)
  · exact Bool.eq_false_iff.2 fun hf => hdisjoint ⟨hin, hf⟩

end Machine
end Outbox
