/-
# Histories of a machine

What happened to requests, users and messages is read off the history of a machine: the turns in which
it answered calls since it was new. A turn keeps the machine before and after the call. The possible
turns are listed once, as transitions, so that an invariant needs one case for each.

Key definitions: `Turn`, `Machine.turns`, `Machine.Reached`, `Turn.handedOut`, `Turn.drained`,
`Turn.marked?`, `Turn.Answers`, `Turn.decided`, `Machine.Transition`, `Lasts`.
Key theorems: `Machine.transition_step`, `Machine.Reached.run`, `Machine.Reached.split`, `lasts_snoc`.
-/
import Outbox.Machine.Call
import Outbox.Proofs.DecisionPass
import Outbox.Proofs.Outcomes

namespace Outbox
namespace Machine

/-! ### Transitions -/

/-- What a call can do to a machine, and the answer to it. -/
inductive Transition (m : Machine) (now : Instant) : Call → Answer → Machine → Prop where
  /-- A decision pass, and all that waits is handed out. -/
  | handOut : Transition m now .outgoingRequests (.handedOut (m.decisionPass now).queue.pending)
      { m.decisionPass now with queue := (m.decisionPass now).queue.drainPending.2 }
  /-- A request that was handed out ended, and a decision pass follows. -/
  | complete (r : OutgoingRequest) (outcome : Outcome) (inFlight : r ∈ m.queue.inFlight)
      (fits : outcome.mismatch? r.kind = none) :
      Transition m now (.markAsSent r.id outcome) .done
        ((m.withOutcome now r outcome).decisionPass now)
  /-- A query for a caller is handed out. -/
  | query (users : List UserId) (q : KeysQuery) (queue : Queue)
      (built : DeviceLists.queryFor users m.settings = .ok q)
      (inserted : m.queue.insert ⟨m.nextId, .keysQuery q⟩ .inFlight = .ok queue) :
      Transition m now (.queryKeysFor users) (.handedOut [⟨m.nextId, .keysQuery q⟩])
        { m with minted := m.minted + 1, queue }
  /-- One-time keys are added. -/
  | addOneTimeKeys (keys : SortedMap KeyId Opaque) :
      Transition m now (.addOneTimeKeys keys) .done (m.addOneTimeKeys keys)
  /-- Fallback keys are added. -/
  | addFallbackKeys (keys : SortedMap KeyId Opaque) :
      Transition m now (.addFallbackKeys keys) .done (m.addFallbackKeys keys)
  /-- Users are tracked. -/
  | track (users : List UserId) : Transition m now (.trackUsers users) .done (m.trackUsers users)
  /-- Devices of users changed. -/
  | change (users : List UserId) (token : Option String) :
      Transition m now (.receiveDeviceChanges users token) .done (m.receiveDeviceChanges users token)
  /-- Sessions are missing. -/
  | missing (user : UserId) (devices : List DeviceId) :
      Transition m now (.markSessionsMissing user devices) .done (m.markSessionsMissing user devices)
  /-- Messages to devices are accepted. -/
  | acceptToDevice (eventType : String) (rows : Rows UserId DeviceTarget Opaque) (s : Messages)
      (accepted : m.messages.addToDevice m.nextId eventType rows = .ok s) :
      Transition m now (.queueToDevice eventType rows) (.accepted m.nextId)
        { m with minted := m.minted + 1, messages := s }
  /-- Signatures are accepted. -/
  | acceptSignatures (rows : Rows UserId KeyId Opaque) (s : Messages)
      (accepted : m.messages.addSignatures rows = .ok s) :
      Transition m now (.queueSignatures rows) .done { m with messages := s }
  /-- A message to a room is accepted. -/
  | acceptRoomMessage (room : RoomId) (eventType : String) (content : Opaque) (s : Messages)
      (accepted : m.messages.addRoomMessage m.nextId room eventType content = .ok s) :
      Transition m now (.queueRoomMessage room eventType content) (.accepted m.nextId)
        { m with minted := m.minted + 1, messages := s }
  /-- A version of the backup becomes the active one. -/
  | enable (version : String) (nonempty : version ≠ "") :
      Transition m now (.enableBackup version) .done
        { m with
          backup := m.backup.enable version
          queue := m.queue.retainPending fun p => p.keysBackup?.all fun r => r.version = version }
  /-- Room keys are no longer backed up. -/
  | disable : Transition m now .disableBackup .done m.disableBackup
  /-- A room key is added. -/
  | addRoomKey (key : Cell RoomId SessionId) (data : Opaque) :
      Transition m now (.addRoomKey key data) .done (m.addRoomKey key data)
  /-- The call is refused. To hand out requests never is. -/
  | refuse (call : Call) (reason : Refusal) (refusable : call ≠ .outgoingRequests) :
      Transition m now call (.refused reason) m

/-- Every call is one of the transitions. -/
theorem transition_step (m : Machine) (now : Instant) (call : Call) :
    Transition m now call (m.step now call).1 (m.step now call).2 := by
  cases call with
  | outgoingRequests => exact .handOut
  | markAsSent id outcome =>
    simp only [step, markAsSent]
    cases h : m.queue.resolve id outcome with
    | error e => exact .refuse _ _ nofun
    | ok rq =>
      obtain ⟨r, q⟩ := rq
      obtain ⟨hr, rfl, hk, rfl⟩ := Queue.resolve_eq_ok_iff.1 h
      exact .complete r outcome hr hk
  | queryKeysFor users =>
    simp only [step, queryKeysFor, Queue.enqueueInFlight]
    cases hq : DeviceLists.queryFor users m.settings with
    | error e => exact .refuse _ _ nofun
    | ok q =>
      dsimp only
      cases h : m.queue.insert ⟨m.nextId, .keysQuery q⟩ .inFlight with
      | error e => exact .refuse _ _ nofun
      | ok queue => exact .query users q queue hq h
  | addOneTimeKeys keys => exact .addOneTimeKeys keys
  | addFallbackKeys keys => exact .addFallbackKeys keys
  | trackUsers users => exact .track users
  | receiveDeviceChanges users token => exact .change users token
  | markSessionsMissing user devices => exact .missing user devices
  | queueToDevice eventType rows =>
    simp only [step, queueToDevice]
    cases h : m.messages.addToDevice m.nextId eventType rows with
    | error e => exact .refuse _ _ nofun
    | ok s => exact .acceptToDevice eventType rows s h
  | queueSignatures rows =>
    simp only [step, queueSignatures]
    cases h : m.messages.addSignatures rows with
    | error e => exact .refuse _ _ nofun
    | ok s => exact .acceptSignatures rows s h
  | queueRoomMessage room eventType content =>
    simp only [step, queueRoomMessage]
    cases h : m.messages.addRoomMessage m.nextId room eventType content with
    | error e => exact .refuse _ _ nofun
    | ok s => exact .acceptRoomMessage room eventType content s h
  | enableBackup version =>
    simp only [step, enableBackup]
    by_cases hv : version = ""
    · rw [if_pos hv]
      exact .refuse _ _ nofun
    · rw [if_neg hv]
      exact .enable version hv
  | disableBackup => exact .disable
  | addRoomKey key data => exact .addRoomKey key data

/-- No call takes back the use of a name. -/
theorem Transition.minted {m m' : Machine} {now : Instant} {call : Call} {answer : Answer}
    {name : String} (ht : m.Transition now call answer m') (hn : m.Minted name) : m'.Minted name := by
  cases ht with
  | handOut => exact hn.addAll (m.wanted now)
  | complete r outcome inFlight fits =>
    have hn' : (m.withOutcome now r outcome).Minted name := hn.mono (by simp) (by simp)
    exact hn'.addAll _
  | query | acceptToDevice | acceptRoomMessage => exact hn.mono rfl (Nat.le_succ _)
  | _ => exact hn

end Machine

/-! ### Turns -/

/-- A call to a machine, with its time and answer. -/
structure Turn where
  /-- The machine before the call. -/
  before : Machine
  /-- The time of the call. -/
  now : Instant
  /-- The call. -/
  call : Call
  /-- The answer to the call. -/
  answer : Answer
  /-- The machine after the call. -/
  after : Machine

namespace Turn

/-- The requests that the turn gave to the caller. -/
def handedOut (t : Turn) : List OutgoingRequest :=
  match t.answer with
  | .handedOut requests => requests
  | _ => []

/-- The requests that the turn gave to the caller since they were waiting for it. -/
def drained (t : Turn) : List OutgoingRequest :=
  match t.call with
  | .outgoingRequests => t.handedOut
  | _ => []

/-- The request that the turn gave to the caller without a decision pass. -/
def outOfBand (t : Turn) : List OutgoingRequest :=
  match t.call with
  | .queryKeysFor _ => t.handedOut
  | _ => []

/-- The name of the request whose outcome was accepted in the turn. -/
def marked? (t : Turn) : Option RequestId :=
  match t.call, t.answer with
  | .markAsSent id _, .done => some id
  | _, _ => none

/-- A response to a request with the payload was accepted in the turn. -/
def Answers (t : Turn) (p : Payload) : Prop :=
  ∃ id response, t.call = .markAsSent id (.success response) ∧ t.answer = .done ∧
    ⟨id, p⟩ ∈ t.before.inFlightRequests

/-- The requests that the decision pass of the turn queued, if it ran one, in the order in which it
did. -/
def decided (t : Turn) : List OutgoingRequest :=
  match t.call, t.answer with
  | .outgoingRequests, .handedOut _ => t.before.decided t.now
  | .markAsSent id outcome, .done =>
    match t.before.queue.resolve id outcome with
    | .ok (r, _) => (t.before.withOutcome t.now r outcome).decided t.now
    | .error _ => []
  | _, _ => []

/-- Only a turn that marks a request answers one. -/
theorem not_answers {t : Turn} {p : Payload} (hm : t.marked? = none) : ¬ t.Answers p := by
  rintro ⟨id, response, hcall, ha, -⟩
  rw [marked?, hcall, ha] at hm
  cases hm

/-- When a request is marked, it is answered if the outcome is a response. -/
theorem answers_markAsSent_iff {m m' : Machine} {now : Instant} {r : OutgoingRequest} {outcome : Outcome}
    {p : Payload} (inFlight : r ∈ m.queue.inFlight) :
    Answers ⟨m, now, .markAsSent r.id outcome, .done, m'⟩ p ↔
      r.payload = p ∧ ∃ response, outcome = .success response := by
  constructor
  · rintro ⟨id, response, hcall, -, hp⟩
    obtain ⟨rfl, rfl⟩ := Call.markAsSent.inj hcall
    have he : r = ⟨r.id, p⟩ := Queue.eq_of_id_eq (Queue.mem_contents_iff.2 (.inr inFlight))
      (Queue.mem_contents_iff.2 (.inr hp)) rfl
    exact ⟨congrArg OutgoingRequest.payload he, response, rfl⟩
  · rintro ⟨rfl, response, rfl⟩
    exact ⟨r.id, response, rfl, rfl, inFlight⟩

/-- A request that is of another kind or failed does not count as answered. -/
theorem not_answers_markAsSent {m m' : Machine} {now : Instant} {r : OutgoingRequest} {outcome : Outcome}
    {p : Payload} (inFlight : r ∈ m.queue.inFlight)
    (hno : r.kind = p.kind → ∀ response, outcome ≠ .success response) :
    ¬ Answers ⟨m, now, .markAsSent r.id outcome, .done, m'⟩ p := by
  rw [answers_markAsSent_iff inFlight]
  rintro ⟨hp, response, hout⟩
  exact hno (congrArg Payload.kind hp) response hout

/-- When a request is marked, the pass runs on the machine that took note of its end. -/
theorem decided_markAsSent {m m' : Machine} {now : Instant} {r : OutgoingRequest} {outcome : Outcome}
    (inFlight : r ∈ m.queue.inFlight) (fits : outcome.mismatch? r.kind = none) :
    decided ⟨m, now, .markAsSent r.id outcome, .done, m'⟩ =
      (m.withOutcome now r outcome).decided now := by
  have hres : m.queue.resolve r.id outcome = .ok (r, m.queue.withoutRequest r.id) :=
    Queue.resolve_eq_ok_iff.2 ⟨inFlight, rfl, fits, rfl⟩
  simp only [decided, hres]

end Turn

namespace Machine

/-- The turn in which a machine answers a call. -/
def turn (m : Machine) (now : Instant) (call : Call) : Turn :=
  ⟨m, now, call, (m.step now call).1, (m.step now call).2⟩

/-- To mark a request that is in flight, with an outcome that it can have. -/
theorem step_markAsSent_eq {m : Machine} {r : OutgoingRequest} {outcome : Outcome}
    (inFlight : r ∈ m.queue.inFlight) (fits : outcome.mismatch? r.kind = none) (now : Instant) :
    m.step now (.markAsSent r.id outcome) = (.done, (m.withOutcome now r outcome).decisionPass now) := by
  simp only [step, markAsSent, Queue.resolve_eq_ok_iff.2 ⟨inFlight, rfl, fits, rfl⟩]
  rfl

theorem turn_markAsSent_eq {m : Machine} {r : OutgoingRequest} {outcome : Outcome}
    (inFlight : r ∈ m.queue.inFlight) (fits : outcome.mismatch? r.kind = none) (now : Instant) :
    m.turn now (.markAsSent r.id outcome) =
      ⟨m, now, .markAsSent r.id outcome, .done, (m.withOutcome now r outcome).decisionPass now⟩ := by
  rw [turn, step_markAsSent_eq inFlight fits]

/-- The turns in which a machine answers calls, one after the other. -/
def turns (m : Machine) : List (Instant × Call) → List Turn
  | [] => []
  | (now, call) :: calls => m.turn now call :: (m.step now call).2.turns calls

/-- A turn after the last point of a history is the last one, or lies within it. -/
theorem split_snoc {α : Type} {h h₁ h₂ : List α} {s t : α} (he : h ++ [t] = h₁ ++ s :: h₂) :
    (h₁ = h ∧ s = t ∧ h₂ = []) ∨ ∃ h₃, h₂ = h₃ ++ [t] ∧ h = h₁ ++ s :: h₃ := by
  rcases List.eq_nil_or_concat h₂ with rfl | ⟨h₃, x, rfl⟩
  · obtain ⟨rfl, hs⟩ := List.append_inj' he rfl
    exact .inl ⟨rfl, (List.singleton_inj.1 hs).symm, rfl⟩
  · rw [List.concat_eq_append, ← List.cons_append, ← List.append_assoc] at he
    obtain ⟨rfl, hx⟩ := List.append_inj' he rfl
    exact .inr ⟨h₃, by rw [List.concat_eq_append, List.singleton_inj.1 hx], rfl⟩

/-- A machine with its history since it was new. -/
inductive Reached : List Turn → Machine → Prop where
  /-- A new machine has no history. -/
  | new (userId : UserId) (deviceId : DeviceId) (deviceKeys : Opaque) (settings : Settings)
      (ids : IdSource) : Reached [] (.new userId deviceId deviceKeys settings ids)
  /-- A call adds a turn. -/
  | step {h : List Turn} {m : Machine} (now : Instant) (call : Call) (hm : Reached h m) :
      Reached (h ++ [m.turn now call]) (m.step now call).2

namespace Reached

variable {h h₁ h₂ : List Turn} {m : Machine} {t : Turn}

/-- A run adds its turns to the history. -/
theorem run (hm : Reached h m) (calls : List (Instant × Call)) :
    Reached (h ++ m.turns calls) (m.run calls).2 := by
  induction calls generalizing h m with
  | nil =>
    rw [turns, List.append_nil]
    exact hm
  | cons c calls ih =>
    have hs := ih (hm.step c.1 c.2)
    rw [List.append_assoc] at hs
    exact hs

/-- The machine of any point of a history has the history up to that point. -/
theorem split (hm : Reached (h₁ ++ t :: h₂) m) :
    Reached h₁ t.before ∧ t = t.before.turn t.now t.call ∧ Reached (h₁ ++ [t]) t.after := by
  generalize hh : h₁ ++ t :: h₂ = h at hm
  induction hm generalizing h₂ with
  | new => simp at hh
  | @step h m now call hm ih =>
    rcases split_snoc hh.symm with ⟨rfl, rfl, rfl⟩ | ⟨h₃, rfl, rfl⟩
    · exact ⟨hm, rfl, hm.step now call⟩
    · exact ih rfl

end Reached
end Machine

/-! ### What lasts -/

/-- After one more step, something is started and not ended since if the step starts it, or if it was so before
and the step does not end it. -/
theorem exists_split_snoc {α : Type} {starts ends : α → Prop} {h : List α} {t : α} :
    (∃ h₁ s h₂, h ++ [t] = h₁ ++ s :: h₂ ∧ starts s ∧ ∀ x ∈ h₂, ¬ ends x) ↔
      starts t ∨ (∃ h₁ s h₂, h = h₁ ++ s :: h₂ ∧ starts s ∧ ∀ x ∈ h₂, ¬ ends x) ∧ ¬ ends t := by
  constructor
  · rintro ⟨h₁, s, h₂, he, hs, hn⟩
    rcases Machine.split_snoc he with ⟨rfl, rfl, rfl⟩ | ⟨h₃, rfl, rfl⟩
    · exact .inl hs
    · obtain ⟨hn, ht⟩ := List.forall_mem_append.1 hn
      exact .inr ⟨⟨h₁, s, h₃, rfl, hs, hn⟩, ht t List.mem_cons_self⟩
  · rintro (hs | ⟨⟨h₁, s, h₂, rfl, hs, hn⟩, ht⟩)
    · exact ⟨h, t, [], rfl, hs, fun _ hx => nomatch hx⟩
    · exact ⟨h₁, s, h₂ ++ [t], by simp, hs, List.forall_mem_append.2 ⟨hn, by simpa using ht⟩⟩

/-- A turn of the history started something, and no later one ended it. -/
def Lasts (starts ends : Turn → Prop) (h : List Turn) : Prop :=
  ∃ h₁ t h₂, h = h₁ ++ t :: h₂ ∧ starts t ∧ ∀ s ∈ h₂, ¬ ends s

section Lasts

variable {starts ends : Turn → Prop} {h : List Turn} {t : Turn}

@[simp] theorem not_lasts_nil : ¬ Lasts starts ends [] := by
  rintro ⟨h₁, t, h₂, he, -⟩
  simp at he

/-- After one more turn, something lasts that the turn started, or that lasted and the turn did not
end. -/
theorem lasts_snoc :
    Lasts starts ends (h ++ [t]) ↔ starts t ∨ Lasts starts ends h ∧ ¬ ends t :=
  exists_split_snoc

/-- A turn that neither starts nor ends anything changes nothing of what lasts. -/
theorem lasts_snoc_of_not (hs : ¬ starts t) (he : ¬ ends t) :
    Lasts starts ends (h ++ [t]) ↔ Lasts starts ends h := by
  rw [lasts_snoc, or_iff_right hs, and_iff_left he]

end Lasts

/-! ### A machine to look at -/

namespace Sample

/-- A user. -/
def alice : UserId := ⟨"@alice:example.org", by decide +kernel⟩

/-- A new machine of the user, whose requests are named by counting. -/
def machine : Machine := .new alice "DEVICE" .null .default (.counting "r")

/-- Another user, of another server. -/
def bob : UserId := ⟨"@bob:elsewhere.org", by decide +kernel⟩

/-- A machine that asks about one user at a time. -/
def unbatched : Machine :=
  .new alice "DEVICE" .null { Settings.default with keyQueryBatchSize := 1 } (.counting "r")

/-- A response that lists the user, without devices. -/
def listing : KeysQueryResponse := ⟨∅, SortedMap.insert ∅ alice ∅, ∅, ∅, ∅⟩

end Sample
end Outbox
