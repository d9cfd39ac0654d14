/-
# Refused calls change nothing

A call is carried out on one machine that is changed in place, effect by effect, and may be refused at
several points on the way: when a request is looked up, compared with its outcome or taken off the queue,
when a payload is built, when the queue is full. No effect comes before the last of these points. So
carrying out a call in place gives the same answer and the same machine as a step, and a refusal leaves
the machine as it was.

Key definitions: `InPlace`, `InPlace.pass`, `InPlace.markAsSent`, `InPlace.call`, `Machine.inPlace`.
Key theorems: `InPlace.exec_pass`, `InPlace.exec_markAsSent`, `Machine.inPlace_eq_step`,
`Machine.step_refused`, `Machine.Reached.forall_inFlight_ne_iff`, `Machine.calls_atomic`.
-/
import Outbox.Proofs.Lifecycle

namespace Outbox

/-! ### Calls in place -/

/-- A computation on a machine that is changed in place. What was changed stays changed when the
computation is refused. -/
abbrev InPlace := ExceptT Refusal (StateM Machine)

/-- Signatures that are accepted one by one are accepted together. -/
theorem Messages.foldl_addSignature (s : Messages) (l : List (Cell UserId KeyId × Opaque)) :
    l.foldl (fun s e => s.addSignature e.1 e.2) s =
      { s with signatures := s.signatures.insertMany l } := by
  induction l generalizing s with
  | nil => rfl
  | cons e l ih =>
    rw [List.foldl_cons, ih]
    rfl

namespace InPlace

/-- Refuses the call if something could not be made. -/
def orRefuse {ε α : Type} (reason : ε → Refusal) : Except ε α → InPlace α
  | .ok a => pure a
  | .error e => throw (reason e)

/-- Queues a request, if it fits. -/
def enqueue (payload : Payload) : InPlace Unit := do
  let m ← get
  let m ← orRefuse .queueFull (m.add payload)
  set m

/-- Queues the requests that are needed one after the other. When the queue is full, the rest has to
wait; the caller does not hear of it. -/
def pass (now : Instant) : InPlace Unit := do
  let m ← get
  try
    (m.wanted now).forM enqueue
  catch
    | .queueFull _ => pure ()
    | reason => throw reason

/-- The kind of the request of a name, which has to be in flight. -/
def kindInFlight (id : RequestId) : InPlace RequestKind := do
  match (← get).queue.get? id with
  | some (r, .inFlight) => pure r.kind
  | _ => throw (.notMarked (.unknownRequest id))

/-- Compares the kind of a request with that of its outcome. -/
def checkKind (id : RequestId) (kind : RequestKind) (outcome : Outcome) : InPlace Unit :=
  match outcome.mismatch? kind with
  | some got => throw (.notMarked (.mismatchedResponse id kind got))
  | none => pure ()

/-- Takes a request off the queue. It has to be in flight. -/
def takeOff (id : RequestId) : InPlace OutgoingRequest := do
  let m ← get
  match m.queue.removeInFlight id with
  | some (r, queue) =>
    set { m with queue }
    pure r
  | none => throw (.notMarked (.unknownRequest id))

/-- Takes note of how a request ended. -/
def markAsSent (now : Instant) (id : RequestId) (outcome : Outcome) : InPlace Unit := do
  let kind ← kindInFlight id
  checkKind id kind outcome
  let r ← takeOff id
  modify fun m => m.receiveOutcome now r outcome
  pass now

/-- Accepts signatures one by one, after all of them were checked. -/
def queueSignatures (signedKeys : Rows UserId KeyId Opaque) : InPlace Unit := do
  let upload ← orRefuse .invalid (SignatureUpload.ofRows signedKeys)
  upload.signedKeys.toList.forM fun (key, signed) => modify fun m =>
    { m with messages := m.messages.addSignature key signed }

/-- Carries out a call. -/
def call (now : Instant) : Call → InPlace Answer
  | .outgoingRequests => do
    pass now
    let m ← get
    let (requests, queue) := m.queue.drainPending
    set { m with queue }
    pure (.handedOut requests)
  | .markAsSent id outcome => do
    markAsSent now id outcome
    pure .done
  | .queryKeysFor users => do
    let m ← get
    let query ← orRefuse .invalid (DeviceLists.queryFor users m.settings)
    let request : OutgoingRequest := ⟨m.nextId, .keysQuery query⟩
    let queue ← orRefuse .queueFull (m.queue.enqueueInFlight request)
    set { m with minted := m.minted + 1, queue }
    pure (.handedOut [request])
  | .addOneTimeKeys keys => do
    modify fun m => { m with ownKeys := m.ownKeys.addOneTimeKeys keys }
    pure .done
  | .addFallbackKeys keys => do
    modify fun m => { m with ownKeys := m.ownKeys.addFallbackKeys keys }
    pure .done
  | .trackUsers users => do
    users.forM fun user => modify fun m => { m with deviceLists := m.deviceLists.trackUser user }
    pure .done
  | .receiveDeviceChanges users token => do
    users.forM fun user => modify fun m => { m with deviceLists := m.deviceLists.changeUser user }
    modify fun m => { m with deviceLists.syncToken := token.or m.deviceLists.syncToken }
    pure .done
  | .markSessionsMissing user devices => do
    devices.forM fun device => modify fun m =>
      { m with sessions := m.sessions.markDeviceMissing ⟨user, device⟩ }
    pure .done
  | .queueToDevice eventType messages => do
    let txnId := (← get).nextId
    let r ← orRefuse .invalid (ToDevice.ofRows eventType txnId messages)
    modify fun m => { m with
      minted := m.minted + 1
      messages.toDevice := m.messages.toDevice.insert txnId r }
    pure (.accepted txnId)
  | .queueSignatures signedKeys => do
    queueSignatures signedKeys
    pure .done
  | .queueRoomMessage room eventType content => do
    let txnId := (← get).nextId
    let r ← orRefuse .invalid (RoomMessage.ofContent room txnId eventType content)
    modify fun m => { m with
      minted := m.minted + 1
      messages.roomMessages := m.messages.roomMessages.insert txnId r }
    pure (.accepted txnId)
  | .enableBackup version => do
    if version = "" then
      throw (.invalid .emptyBackupVersion)
    modify fun m => { m with backup := m.backup.enable version }
    modify fun m => { m with
      queue := m.queue.retainPending fun p => p.keysBackup?.all fun r => r.version = version }
    pure .done
  | .disableBackup => do
    modify fun m => { m with backup := m.backup.disable }
    modify fun m => { m with queue := m.queue.retainPending fun p => p.kind ≠ .keysBackup }
    pure .done
  | .addRoomKey key data => do
    modify fun m => { m with backup := m.backup.addRoomKey key data }
    pure .done

/-! ### Running a computation -/

/-- What a computation gives, and the machine that it leaves behind. -/
def exec {α : Type} (x : InPlace α) (m : Machine) : Except Refusal α × Machine := x.run.run m

variable {ε α β : Type} {m : Machine}

@[simp] theorem exec_pure (a : α) : exec (pure a) m = (.ok a, m) := rfl

@[simp] theorem exec_throw (reason : Refusal) : exec (throw reason : InPlace α) m = (.error reason, m) :=
  rfl

@[simp] theorem exec_get : exec get m = (.ok m, m) := rfl

@[simp] theorem exec_set (m' : Machine) : exec (set m') m = (.ok ⟨⟩, m') := rfl

@[simp] theorem exec_modify (f : Machine → Machine) : exec (modify f) m = (.ok ⟨⟩, f m) := rfl

/-- A refusal ends a computation and leaves the machine as it is at that point. -/
theorem exec_bind (x : InPlace α) (f : α → InPlace β) : exec (x >>= f) m =
    match exec x m with
    | (.ok a, m') => exec (f a) m'
    | (.error reason, m') => (.error reason, m') := by
  unfold exec
  rw [ExceptT.run_bind, StateT.run_bind]
  cases x.run.run m with
  | mk result m' => cases result <;> rfl

theorem exec_tryCatch (x : InPlace α) (f : Refusal → InPlace α) : exec (tryCatch x f) m =
    match exec x m with
    | (.ok a, m') => (.ok a, m')
    | (.error reason, m') => exec (f reason) m' := by
  unfold exec
  rw [ExceptT.run_tryCatch, StateT.run_bind]
  cases x.run.run m with
  | mk result m' => cases result <;> rfl

@[simp] theorem exec_orRefuse_ok (reason : ε → Refusal) (a : α) :
    exec (orRefuse reason (.ok a)) m = (.ok a, m) := rfl

/-- Changes of one part of the machine, made one after the other, come to one change of that part. -/
theorem exec_forM_modify (part : Machine → β) (put : Machine → β → Machine)
    (put_part : ∀ m, put m (part m) = m) (part_put : ∀ m b, part (put m b) = b)
    (put_put : ∀ m b c, put (put m b) c = put m c) (f : β → α → β) (l : List α) :
    exec (l.forM fun a => modify fun m => put m (f (part m) a)) m =
      (.ok ⟨⟩, put m (l.foldl f (part m))) := by
  induction l generalizing m with
  | nil => exact congrArg (Prod.mk _) (put_part m).symm
  | cons a l ih =>
    show exec (modify (fun m => put m (f (part m) a)) >>= fun _ =>
      l.forM fun a => modify fun m => put m (f (part m) a)) m = _
    rw [exec_bind, exec_modify]
    dsimp only
    rw [ih, part_put, put_put]
    rfl

theorem exec_forM_deviceLists (f : DeviceLists → α → DeviceLists) (l : List α) :
    exec (l.forM fun a => modify fun m => { m with deviceLists := f m.deviceLists a }) m =
      (.ok ⟨⟩, { m with deviceLists := l.foldl f m.deviceLists }) :=
  exec_forM_modify Machine.deviceLists (fun m b => { m with deviceLists := b }) (fun _ => rfl)
    (fun _ _ => rfl) (fun _ _ _ => rfl) f l

/-- Requests are queued as far as they fit. -/
theorem exec_forM_enqueue (payloads : List Payload) :
    ∃ result, exec (payloads.forM enqueue) m = (result, m.addAll payloads) ∧
      ∀ reason, result = .error reason → ∃ e, reason = .queueFull e := by
  induction payloads generalizing m with
  | nil => exact ⟨.ok ⟨⟩, rfl, nofun⟩
  | cons payload payloads ih =>
    show ∃ result, exec (enqueue payload >>= fun _ => payloads.forM enqueue) m = _ ∧ _
    rw [exec_bind, enqueue, exec_bind, exec_get]
    simp only [exec_bind]
    unfold Machine.addAll
    cases hp : m.add payload with
    | error e =>
      refine ⟨.error (.queueFull e), rfl, ?_⟩
      rintro reason ⟨⟩
      exact ⟨e, rfl⟩
    | ok m' => exact ih

/-- A pass in place is a decision pass, and is never refused. -/
theorem exec_pass (now : Instant) : exec (pass now) m = (.ok ⟨⟩, m.decisionPass now) := by
  obtain ⟨result, hrun, hfull⟩ := exec_forM_enqueue (m := m) (m.wanted now)
  unfold pass
  rw [exec_bind, exec_get]
  dsimp only
  rw [exec_tryCatch, hrun]
  cases result with
  | ok u => rfl
  | error reason =>
    obtain ⟨e, rfl⟩ := hfull reason rfl
    rfl

/-- An outcome that is taken note of in place is either refused before anything changed, or all is done.
Once the request was found in flight, taking it off the queue does not fail. -/
theorem exec_markAsSent (now : Instant) (id : RequestId) (outcome : Outcome) :
    exec (markAsSent now id outcome) m = match m.markAsSent now id outcome with
      | .ok m' => (.ok ⟨⟩, m')
      | .error e => (.error (.notMarked e), m) := by
  unfold markAsSent Machine.markAsSent kindInFlight takeOff Queue.resolve Queue.removeInFlight
  simp only [exec_bind, exec_get]
  cases hg : m.queue.get? id with
  | none => rfl
  | some found =>
    obtain ⟨r, state⟩ := found
    cases state with
    | pending => rfl
    | inFlight =>
      unfold checkKind
      cases hk : outcome.mismatch? r.kind with
      | some got => simp only [exec_pure, hk, exec_throw]; rfl
      | none =>
        simp only [exec_pure, hk, hg, exec_bind, exec_set, exec_modify, exec_pass]
        rfl

theorem exec_queueSignatures (signedKeys : Rows UserId KeyId Opaque) :
    exec (queueSignatures signedKeys) m = match m.queueSignatures signedKeys with
      | .ok m' => (.ok ⟨⟩, m')
      | .error e => (.error (.invalid e), m) := by
  unfold queueSignatures Machine.queueSignatures Messages.addSignatures
  cases hr : SignatureUpload.ofRows signedKeys with
  | error e => rfl
  | ok upload =>
    rw [exec_bind, exec_orRefuse_ok]
    have hrun := exec_forM_modify (m := m) Machine.messages (fun m b => { m with messages := b })
      (fun _ => rfl) (fun _ _ => rfl) (fun _ _ _ => rfl) (fun s e => s.addSignature e.1 e.2)
      upload.signedKeys.toList
    rw [Messages.foldl_addSignature] at hrun
    exact hrun

end InPlace

namespace Machine

/-- The answer to a call that is carried out in place, and the machine afterwards, whatever the call
had changed when it was refused. -/
def inPlace (m : Machine) (now : Instant) (call : Call) : Answer × Machine :=
  match (InPlace.call now call).exec m with
  | (.ok answer, m) => (answer, m)
  | (.error reason, m) => (.refused reason, m)

open InPlace in
/-- **To carry out a call in place is a step.** -/
theorem inPlace_eq_step (m : Machine) (now : Instant) (call : Call) :
    m.inPlace now call = m.step now call := by
  unfold inPlace
  cases call with
  | outgoingRequests =>
    simp only [InPlace.call, exec_bind, exec_pass, exec_get, exec_set, exec_pure]
    rfl
  | markAsSent id outcome =>
    simp only [InPlace.call, exec_bind, exec_markAsSent, step]
    cases m.markAsSent now id outcome <;> rfl
  | queryKeysFor users =>
    simp only [InPlace.call, exec_bind, exec_get, step, queryKeysFor]
    cases DeviceLists.queryFor users m.settings with
    | error e => rfl
    | ok query =>
      simp only [exec_orRefuse_ok]
      cases m.queue.enqueueInFlight ⟨m.nextId, .keysQuery query⟩ <;> rfl
  | addOneTimeKeys keys => rfl
  | addFallbackKeys keys => rfl
  | trackUsers users =>
    have hrun := exec_forM_deviceLists DeviceLists.trackUser users (m := m)
    simp only [InPlace.call, exec_bind, hrun]
    rfl
  | receiveDeviceChanges users token =>
    have hrun := exec_forM_deviceLists DeviceLists.changeUser users (m := m)
    simp only [InPlace.call, exec_bind, hrun]
    rfl
  | markSessionsMissing user devices =>
    have hrun := exec_forM_modify (m := m) Machine.sessions (fun m b => { m with sessions := b })
      (fun _ => rfl) (fun _ _ => rfl) (fun _ _ _ => rfl)
      (fun s device => s.markDeviceMissing ⟨user, device⟩) devices
    simp only [InPlace.call, exec_bind, hrun, exec_pure, step, markSessionsMissing,
      Sessions.markMissing, List.foldl_map]
  | queueToDevice eventType messages =>
    simp only [InPlace.call, exec_bind, exec_get, step, queueToDevice, Messages.addToDevice]
    cases ToDevice.ofRows eventType m.nextId messages <;> rfl
  | queueSignatures signedKeys =>
    simp only [InPlace.call, exec_bind, exec_queueSignatures, step]
    cases m.queueSignatures signedKeys <;> rfl
  | queueRoomMessage room eventType content =>
    simp only [InPlace.call, exec_bind, exec_get, step, queueRoomMessage, Messages.addRoomMessage]
    cases RoomMessage.ofContent room m.nextId eventType content <;> rfl
  | enableBackup version =>
    simp only [InPlace.call, step, enableBackup]
    by_cases hv : version = ""
    · rw [if_pos hv, if_pos hv]
      rfl
    · rw [if_neg hv, if_neg hv]
      rfl
  | disableBackup => rfl
  | addRoomKey key data => rfl

/-! ### Answers -/

variable {m : Machine} {h : List Turn} {now : Instant} {id : RequestId} {outcome : Outcome}

/-- A call that is refused changes nothing. -/
theorem step_refused {call : Call} {reason : Refusal} (hr : (m.step now call).1 = .refused reason) :
    (m.step now call).2 = m := by
  have ht := transition_step m now call
  generalize m.step now call = result at hr ht ⊢
  obtain ⟨answer, m'⟩ := result
  cases ht with
  | refuse => rfl
  | _ => cases hr

/-- The answer to the outcome of a request that is in flight. -/
theorem step_markAsSent_of_mem {r : OutgoingRequest} (hr : r ∈ m.inFlightRequests) (now : Instant)
    (outcome : Outcome) : (m.step now (.markAsSent r.id outcome)).1 = match outcome.mismatch? r.kind with
      | some got => .refused (.notMarked (.mismatchedResponse r.id r.kind got))
      | none => .done := by
  simp only [step, markAsSent]
  rw [Queue.resolve_of_mem hr outcome]
  cases outcome.mismatch? r.kind <;> rfl

theorem step_markAsSent_of_forall_ne (hne : ∀ r ∈ m.inFlightRequests, r.id ≠ id) (now : Instant)
    (outcome : Outcome) :
    (m.step now (.markAsSent id outcome)).1 = .refused (.notMarked (.unknownRequest id)) := by
  simp only [step, markAsSent]
  rw [Queue.resolve_of_forall_ne hne outcome]
  rfl

/-- Of a name at most one request is in flight. -/
theorem exists_inFlight_iff {r : OutgoingRequest} (hr : r ∈ m.inFlightRequests)
    {p : OutgoingRequest → Prop} : (∃ s ∈ m.inFlightRequests, s.id = r.id ∧ p s) ↔ p r := by
  constructor
  · rintro ⟨s, hs, he, hp⟩
    have hsr : s = r :=
      Queue.eq_of_id_eq (Queue.mem_contents_iff.2 (.inr hs)) (Queue.mem_contents_iff.2 (.inr hr)) he
    exact hsr ▸ hp
  · exact fun hp => ⟨r, hr, rfl, hp⟩

/-- An outcome is accepted exactly if it is one of a request of that name that is in flight. -/
theorem step_markAsSent_done_iff : (m.step now (.markAsSent id outcome)).1 = .done ↔
    ∃ r ∈ m.inFlightRequests, r.id = id ∧ outcome.mismatch? r.kind = none := by
  by_cases hex : ∃ r ∈ m.inFlightRequests, r.id = id
  · obtain ⟨r, hr, rfl⟩ := hex
    rw [step_markAsSent_of_mem hr, exists_inFlight_iff hr]
    cases outcome.mismatch? r.kind <;> simp
  · have hne : ∀ r ∈ m.inFlightRequests, r.id ≠ id := fun r hr he => hex ⟨r, hr, he⟩
    rw [step_markAsSent_of_forall_ne hne]
    exact iff_of_false nofun fun ⟨r, hr, he, _⟩ => hne r hr he

/-- A request is unknown exactly if none of its name is in flight. -/
theorem step_markAsSent_unknown_iff :
    (m.step now (.markAsSent id outcome)).1 = .refused (.notMarked (.unknownRequest id)) ↔
      ∀ r ∈ m.inFlightRequests, r.id ≠ id := by
  refine ⟨fun hun r hr he => ?_, fun hne => step_markAsSent_of_forall_ne hne now outcome⟩
  rw [← he, step_markAsSent_of_mem hr] at hun
  cases hk : outcome.mismatch? r.kind <;> rw [hk] at hun <;> cases hun

/-- An outcome mismatches exactly if it is a response of another kind than the request that is in
flight. -/
theorem step_markAsSent_mismatched_iff {expected got : RequestKind} :
    (m.step now (.markAsSent id outcome)).1 =
        .refused (.notMarked (.mismatchedResponse id expected got)) ↔
      ∃ r ∈ m.inFlightRequests, r.id = id ∧
        (r.kind = expected ∧ outcome.mismatch? expected = some got) := by
  by_cases hex : ∃ r ∈ m.inFlightRequests, r.id = id
  · obtain ⟨r, hr, rfl⟩ := hex
    rw [step_markAsSent_of_mem hr, exists_inFlight_iff hr]
    constructor
    · intro hmis
      cases hk : outcome.mismatch? r.kind with
      | none =>
        rw [hk] at hmis
        cases hmis
      | some got' =>
        rw [hk] at hmis
        cases hmis
        exact ⟨rfl, hk⟩
    · rintro ⟨rfl, hk⟩
      rw [hk]
  · have hne : ∀ r ∈ m.inFlightRequests, r.id ≠ id := fun r hr he => hex ⟨r, hr, he⟩
    rw [step_markAsSent_of_forall_ne hne]
    exact iff_of_false (by simp) fun ⟨r, hr, he, _⟩ => hne r hr he

/-- No request of a name is in flight exactly if it waits, or was marked already, or was never handed
out. -/
theorem Reached.forall_inFlight_ne_iff (hm : Reached h m) :
    (∀ r ∈ m.inFlightRequests, r.id ≠ id) ↔ m.requestState? id = some .pending ∨
      id ∈ h.filterMap Turn.marked? ∨ ∀ r ∈ h.flatMap Turn.handedOut, r.id ≠ id := by
  have ha := hm.agrees
  constructor
  · intro hne
    by_cases hid : id ∈ h.filterMap Turn.marked?
    · exact .inr (.inl hid)
    · refine .inr (.inr fun r hr he => ?_)
      exact hne r ((ha.inFlight_iff r).2 ⟨hr, he ▸ hid⟩) he
  · rintro (hp | hid | hout) r hr he
    · have hg : m.queue.get? id = some (r, .inFlight) :=
        Queue.get?_eq_some_iff.2 ⟨Queue.mem_inFlight.1 hr, he⟩
      rw [requestState?, hg] at hp
      cases hp
    · exact ((ha.inFlight_iff r).1 hr).2 (he ▸ hid)
    · exact hout r ((ha.inFlight_iff r).1 hr).1 he

/-- **Calls are carried out as a whole or not at all**, by any machine that calls made of a new one. An
outcome is accepted exactly if a request of its name is in flight and it is a failure or a response of
the kind of the request; the request is unknown exactly if it waits, or was marked already, or was never
handed out; and only a response of another kind mismatches, which the answer names together with the kind
of the request. To carry out a call in place, effect by effect, is a step, and a refusal leaves
everything as it was. A response that is accepted makes an exchange with its request. -/
theorem calls_atomic (userId : UserId) (deviceId : DeviceId) (deviceKeys : Opaque) (settings : Settings)
    (ids : IdSource) (calls : List (Instant × Call)) (now : Instant) :
    let h := (new userId deviceId deviceKeys settings ids).turns calls
    let m := ((new userId deviceId deviceKeys settings ids).run calls).2
    (∀ id outcome,
      ((m.step now (.markAsSent id outcome)).1 = .done ↔
        ∃ r ∈ m.inFlightRequests, r.id = id ∧
          ∀ response, outcome = .success response → response.kind = r.kind) ∧
      ((m.step now (.markAsSent id outcome)).1 = .refused (.notMarked (.unknownRequest id)) ↔
        ∀ r ∈ m.inFlightRequests, r.id ≠ id) ∧
      ∀ expected got, (m.step now (.markAsSent id outcome)).1 =
          .refused (.notMarked (.mismatchedResponse id expected got)) ↔
        ∃ r ∈ m.inFlightRequests, r.id = id ∧ r.kind = expected ∧
          ∃ response, outcome = .success response ∧ response.kind = got ∧ got ≠ expected) ∧
    (∀ id, (∀ r ∈ m.inFlightRequests, r.id ≠ id) ↔ m.requestState? id = some .pending ∨
      id ∈ h.filterMap Turn.marked? ∨ ∀ r ∈ h.flatMap Turn.handedOut, r.id ≠ id) ∧
    (∀ call, m.inPlace now call = m.step now call ∧
      ∀ reason, (m.inPlace now call).1 = .refused reason → (m.inPlace now call).2 = m) ∧
    ∀ id response, (m.step now (.markAsSent id (.success response))).1 = .done →
      ∃ r ∈ m.inFlightRequests, r.id = id ∧ (Exchange.of? r.payload response).isSome = true := by
  intro h m
  have hm : Reached h m := (Reached.new userId deviceId deviceKeys settings ids).run calls
  refine ⟨fun id outcome => ⟨?_, ?_, fun expected got => ?_⟩, fun id => ?_, fun call => ?_,
    fun id response hdone => ?_⟩
  · rw [step_markAsSent_done_iff]
    simp only [Outcome.mismatch?_eq_none_iff]
  · exact step_markAsSent_unknown_iff
  · rw [step_markAsSent_mismatched_iff]
    simp only [Outcome.mismatch?_eq_some_iff]
  · exact hm.forall_inFlight_ne_iff
  · rw [inPlace_eq_step]
    exact ⟨rfl, fun reason => step_refused⟩
  · obtain ⟨r, hr, hid, hk⟩ := step_markAsSent_done_iff.1 hdone
    exact ⟨r, hr, hid, Exchange.isSome_of?_iff.2 (Outcome.mismatch?_success_eq_none_iff.1 hk)⟩

/-- The upload of keys that is in flight does not take the response to a query, and a request that was
never made is unknown; both leave the machine as it was. -/
theorem calls_atomic_keysUpload :
    let m := (Sample.machine.run [(0, .outgoingRequests)]).2
    let response : Outcome := .success (.keysQuery Sample.listing)
    (m.step 1 (.markAsSent "r-0" response)).1 =
        .refused (.notMarked (.mismatchedResponse "r-0" .keysUpload .keysQuery)) ∧
      (m.inPlace 1 (.markAsSent "r-0" response)).2 = m ∧
      (m.step 1 (.markAsSent "r-7" response)).1 = .refused (.notMarked (.unknownRequest "r-7")) := by
  intro m response
  obtain ⟨hmark, hflight, hplace, -⟩ := calls_atomic Sample.alice "DEVICE" .null .default
    (.counting "r") [(0, .outgoingRequests)] 1
  have hrun : ∃ upload query, m.inFlightRequests = [upload, query] ∧ upload.id = "r-0" ∧
      upload.kind = .keysUpload ∧ query.id = "r-1" := ⟨_, _, rfl, by rfl, rfl, by rfl⟩
  obtain ⟨upload, query, hin, hid, hk, hq⟩ := hrun
  have hup : upload ∈ m.inFlightRequests := by
    rw [hin]
    exact List.mem_cons_self
  have hmis := ((hmark "r-0" response).2.2 .keysUpload .keysQuery).2
    ⟨upload, hup, hid, hk, _, rfl, rfl, nofun⟩
  refine ⟨hmis, (hplace _).2 (.notMarked (.mismatchedResponse "r-0" .keysUpload .keysQuery)) ?_, ?_⟩
  · rw [(hplace _).1]
    exact hmis
  · refine (hmark "r-7" response).2.1.2 fun r hr => ?_
    have hr : r ∈ m.inFlightRequests := hr
    rw [hin] at hr
    rcases List.mem_cons.1 hr with rfl | hr
    · rw [hid]
      decide
    · rw [List.mem_singleton.1 hr, hq]
      decide

end Machine
end Outbox
