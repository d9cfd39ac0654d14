/-
# Messages are delivered as they were accepted

A message keeps the transaction ID under which it was accepted, since that is a name that was never used
before. All requests that carry it have the payload that was accepted, however often it is sent again. It
is held until one of them is over, and no request carries it from then on.

Key definitions: `Payload.txnId?`, `Turn.acceptedPayload?`, `Turn.Settles`.
Key theorems: `Machine.Transition.held_or_accepted`, `Machine.Reached.accepted_of_held`,
`Machine.Reached.payload_eq`, `Machine.Reached.not_holds_of_split`, `Machine.messages_delivered`.
-/
import Outbox.Proofs.Backing

namespace Outbox

/-! ### What a history says -/

/-- The transaction ID that a payload carries, if it carries a message. -/
def Payload.txnId? (p : Payload) : Option TransactionId := p.message?.map Prod.snd

/-- The message that the turn accepted, as the payload of the requests that will carry it. -/
def Turn.acceptedPayload? (t : Turn) : Option Payload :=
  match t.call, t.answer with
  | .queueToDevice eventType rows, .accepted txnId =>
    (ToDevice.ofRows eventType txnId rows).toOption.map .toDevice
  | .queueRoomMessage room eventType content, .accepted txnId =>
    (RoomMessage.ofContent room txnId eventType content).toOption.map .roomMessage
  | _, _ => none

/-- A request that carries a message with the transaction ID is over since the turn. -/
def Turn.Settles (t : Turn) (txnId : TransactionId) : Prop :=
  ∃ r outcome, t.call = .markAsSent r.id outcome ∧ t.answer = .done ∧
    r ∈ t.before.inFlightRequests ∧ r.payload.txnId? = some txnId ∧ outcome.isFinal = true

theorem Payload.txnId?_eq_some_iff {p : Payload} {txnId : TransactionId} :
    p.txnId? = some txnId ↔ ∃ kind, p.message? = some (kind, txnId) := by
  simp [txnId?]

/-- What a request that carries a message is over with, it settles. -/
theorem Turn.settles_iff {t : Turn} {txnId : TransactionId} :
    t.Settles txnId ↔ ∃ kind, t.Resolves (kind, txnId) := by
  simp only [Settles, Resolves, Payload.txnId?_eq_some_iff]
  grind

theorem ToDevice.txnId_of_ofRows {eventType : String} {txnId : TransactionId}
    {rows : Rows UserId DeviceTarget Opaque} {x : ToDevice} (h : ofRows eventType txnId rows = .ok x) :
    x.txnId = txnId := by
  unfold ofRows at h
  grind

theorem RoomMessage.txnId_of_ofContent {room : RoomId} {txnId : TransactionId} {eventType : String}
    {content : Opaque} {x : RoomMessage} (h : ofContent room txnId eventType content = .ok x) :
    x.txnId = txnId := by
  unfold ofContent at h
  grind

/-- What a turn accepted has the transaction ID that the turn gave. -/
theorem Turn.answer_of_acceptedPayload? {t : Turn} {p : Payload} {txnId : TransactionId}
    (ha : t.acceptedPayload? = some p) (hp : p.txnId? = some txnId) : t.answer = .accepted txnId := by
  unfold acceptedPayload? at ha
  split at ha
  · next eventType rows name _ hanswer =>
    obtain ⟨x, hx, rfl⟩ := Option.map_eq_some_iff.1 ha
    have hid : x.txnId = txnId := Option.some.inj hp
    rw [hanswer, ← hid, ToDevice.txnId_of_ofRows (toOption_eq_some_iff.1 hx)]
  · next room eventType content name _ hanswer =>
    obtain ⟨x, hx, rfl⟩ := Option.map_eq_some_iff.1 ha
    have hid : x.txnId = txnId := Option.some.inj hp
    rw [hanswer, ← hid, RoomMessage.txnId_of_ofContent (toOption_eq_some_iff.1 hx)]
  · cases ha

theorem Turn.answer_of_accepted? {t : Turn} {kind : RequestKind} {txnId : TransactionId}
    (ha : t.accepted? = some (kind, txnId)) : t.answer = .accepted txnId := by
  unfold accepted? at ha
  split at ha
  · next hanswer =>
    cases ha
    exact hanswer
  · next hanswer =>
    cases ha
    exact hanswer
  · cases ha

/-- A turn that is about the end of a message accepts none. -/
theorem Turn.Resolves.accepted?_eq_none {t : Turn} {message : RequestKind × TransactionId}
    (h : t.Resolves message) : t.accepted? = none := by
  obtain ⟨r, outcome, hcall, -⟩ := h
  rw [accepted?, hcall]

namespace Messages

variable {s s' : Messages} {txnId : TransactionId}

theorem addToDevice_eq_ok_iff {eventType : String} {rows : Rows UserId DeviceTarget Opaque} :
    s.addToDevice txnId eventType rows = .ok s' ↔ ∃ x, ToDevice.ofRows eventType txnId rows = .ok x ∧
      { s with toDevice := s.toDevice.insert txnId x } = s' := by
  unfold addToDevice
  cases ToDevice.ofRows eventType txnId rows <;> simp [Except.map]

theorem addRoomMessage_eq_ok_iff {room : RoomId} {eventType : String} {content : Opaque} :
    s.addRoomMessage txnId room eventType content = .ok s' ↔
      ∃ x, RoomMessage.ofContent room txnId eventType content = .ok x ∧
        { s with roomMessages := s.roomMessages.insert txnId x } = s' := by
  unfold addRoomMessage
  cases RoomMessage.ofContent room txnId eventType content <;> simp [Except.map]

/-- The message that is held, as the payload of the requests that carry it. -/
def payload? (s : Messages) : RequestKind × TransactionId → Option Payload
  | (.toDevice, txnId) => (s.toDevice.get? txnId).map .toDevice
  | (.roomMessage, txnId) => (s.roomMessages.get? txnId).map .roomMessage
  | _ => none

variable {message : RequestKind × TransactionId}

theorem holds_iff_payload? : s.Holds message ↔ ∃ p, s.payload? message = some p := by
  obtain ⟨kind, txnId⟩ := message
  cases kind with
  | toDevice => simp [Holds, payload?, InsertionMap.mem_iff_get?]
  | roomMessage => simp [Holds, payload?, InsertionMap.mem_iff_get?]
  | _ => simp [Holds, payload?]

/-- A message is held under its transaction ID. -/
theorem Keyed.message?_of_payload? (hk : s.Keyed) {p : Payload} (hp : s.payload? message = some p) :
    p.message? = some message := by
  obtain ⟨kind, txnId⟩ := message
  cases kind with
  | toDevice =>
    obtain ⟨x, hx, rfl⟩ := Option.map_eq_some_iff.1 hp
    rw [Payload.message?, hk.toDevice hx]
  | roomMessage =>
    obtain ⟨x, hx, rfl⟩ := Option.map_eq_some_iff.1 hp
    rw [Payload.message?, hk.roomMessages hx]
  | _ => cases hp

theorem payload?_insert_toDevice (s : Messages) (txnId : TransactionId) (x : ToDevice)
    (message : RequestKind × TransactionId) :
    payload? { s with toDevice := s.toDevice.insert txnId x } message =
      if message = (.toDevice, txnId) then some (.toDevice x) else s.payload? message := by
  obtain ⟨kind, name⟩ := message
  cases kind with
  | toDevice =>
    simp only [payload?, InsertionMap.get?_insert, Prod.mk.injEq, true_and]
    split <;> rfl
  | _ => exact (if_neg (by simp)).symm

theorem payload?_insert_roomMessages (s : Messages) (txnId : TransactionId) (x : RoomMessage)
    (message : RequestKind × TransactionId) :
    payload? { s with roomMessages := s.roomMessages.insert txnId x } message =
      if message = (.roomMessage, txnId) then some (.roomMessage x) else s.payload? message := by
  obtain ⟨kind, name⟩ := message
  cases kind with
  | roomMessage =>
    simp only [payload?, InsertionMap.get?_insert, Prod.mk.injEq, true_and]
    split <;> rfl
  | _ => exact (if_neg (by simp)).symm

/-- To drop messages changes none of the others. -/
theorem payload?_of_removeToDevice {p : Payload}
    (hp : (s.removeToDevice txnId).payload? message = some p) : s.payload? message = some p := by
  obtain ⟨kind, name⟩ := message
  cases kind with
  | toDevice =>
    simp only [payload?, removeToDevice, InsertionMap.get?_erase] at hp
    split at hp
    · cases hp
    · exact hp
  | _ => exact hp

theorem payload?_of_removeRoomMessage {p : Payload}
    (hp : (s.removeRoomMessage txnId).payload? message = some p) : s.payload? message = some p := by
  obtain ⟨kind, name⟩ := message
  cases kind with
  | roomMessage =>
    simp only [payload?, removeRoomMessage, InsertionMap.get?_erase] at hp
    split at hp
    · cases hp
    · exact hp
  | _ => exact hp

end Messages

namespace Machine

variable {m m' : Machine} {h h' h₁ h₂ : List Turn} {now : Instant} {call : Call} {answer : Answer}
  {s t : Turn} {r : OutgoingRequest} {p : Payload} {txnId : TransactionId}
  {message : RequestKind × TransactionId}

/-! ### Acceptance -/

/-- A turn that gives a transaction ID accepts a message under it. -/
theorem Transition.exists_acceptedPayload? (ht : m.Transition now call (.accepted txnId) m') :
    ∃ p kind, Turn.acceptedPayload? ⟨m, now, call, .accepted txnId, m'⟩ = some p ∧
      p.message? = some (kind, txnId) ∧
      Turn.accepted? ⟨m, now, call, .accepted txnId, m'⟩ = some (kind, txnId) := by
  cases ht with
  | acceptToDevice eventType rows s accepted =>
    obtain ⟨x, hx, -⟩ := Messages.addToDevice_eq_ok_iff.1 accepted
    refine ⟨.toDevice x, .toDevice, ?_, ?_, rfl⟩
    · exact congrArg (fun e => e.toOption.map Payload.toDevice) hx
    · rw [Payload.message?, ToDevice.txnId_of_ofRows hx]
  | acceptRoomMessage room eventType content s accepted =>
    obtain ⟨x, hx, -⟩ := Messages.addRoomMessage_eq_ok_iff.1 accepted
    refine ⟨.roomMessage x, .roomMessage, ?_, ?_, rfl⟩
    · exact congrArg (fun e => e.toOption.map Payload.roomMessage) hx
    · rw [Payload.message?, RoomMessage.txnId_of_ofContent hx]

/-- A message is accepted under a name that was not used. -/
theorem Transition.not_minted_of_accepted (ht : m.Transition now call (.accepted txnId) m') :
    ¬ m.Minted txnId := by
  cases ht with
  | acceptToDevice | acceptRoomMessage => exact m.not_minted_nextId

/-- The transaction IDs that were given are used names. -/
theorem Reached.minted_of_answer (hm : Reached h m) (ht : t ∈ h) (ha : t.answer = .accepted txnId) :
    m.Minted txnId := by
  induction hm with
  | new => cases ht
  | @step h m now call hm ih =>
    have hstep := transition_step m now call
    rcases List.mem_append.1 ht with ht | ht
    · exact hstep.minted (ih ht)
    · cases List.mem_singleton.1 ht
      rw [show (m.step now call).1 = .accepted txnId from ha] at hstep
      obtain ⟨p, kind, -, -, hacc⟩ := hstep.exists_acceptedPayload?
      exact hstep.minted_of_accepted hacc

/-- No transaction ID is given twice. -/
theorem Reached.pairwise_accepted (hm : Reached h m) :
    h.Pairwise fun s t => ∀ txnId, s.answer = .accepted txnId → t.answer ≠ .accepted txnId := by
  induction hm with
  | new => exact .nil
  | @step h m now call hm ih =>
    refine List.pairwise_append.2 ⟨ih, List.pairwise_singleton _ _, fun s hs t ht txnId hsa hta => ?_⟩
    cases List.mem_singleton.1 ht
    have hstep := transition_step m now call
    rw [show (m.step now call).1 = .accepted txnId from hta] at hstep
    exact hstep.not_minted_of_accepted (hm.minted_of_answer hs hsa)

/-- A transaction ID tells the turn that gave it. -/
theorem Reached.eq_of_answer (hm : Reached h m) (hs : s ∈ h) (ht : t ∈ h)
    (hsa : s.answer = .accepted txnId) (hta : t.answer = .accepted txnId) : s = t := by
  have hsymm : Std.Symm fun s t : Turn =>
      ∀ txnId, s.answer = .accepted txnId → t.answer ≠ .accepted txnId :=
    ⟨fun s t hst txnId hta hsa => hst txnId hsa hta⟩
  by_contra hne
  exact List.Pairwise.forall hm.pairwise_accepted hs ht hne txnId hsa hta

/-! ### What is held -/

/-- A machine asks for a message exactly if it is held as it is. -/
theorem backs_iff_payload? (hp : p.message? = some message) :
    m.Backs p ↔ m.messages.payload? message = some p := by
  cases p with
  | toDevice x =>
    cases hp
    show m.messages.toDevice.get? x.txnId = some x ↔ _
    simp [Messages.payload?]
  | roomMessage x =>
    cases hp
    show m.messages.roomMessages.get? x.txnId = some x ↔ _
    simp [Messages.payload?]
  | _ => cases hp

/-- A message that is held after a turn was held before, or the turn accepted it as it is. -/
theorem Transition.held_or_accepted (ht : m.Transition now call answer m')
    (hp : m'.messages.payload? message = some p) :
    m.messages.payload? message = some p ∨
      Turn.acceptedPayload? ⟨m, now, call, answer, m'⟩ = some p := by
  cases ht with
  | handOut =>
    left
    simpa [decisionPass] using hp
  | complete r outcome inFlight fits =>
    rw [decisionPass, addAll_messages] at hp
    left
    rcases withOutcome_messages m now fits with ⟨x, -, -, he⟩ | ⟨x, -, -, he⟩ | ⟨-, he⟩
    · rw [he] at hp
      exact Messages.payload?_of_removeToDevice hp
    · rw [he] at hp
      exact Messages.payload?_of_removeRoomMessage hp
    · rw [he] at hp
      exact hp
  | acceptToDevice eventType rows s accepted =>
    obtain ⟨x, hx, rfl⟩ := Messages.addToDevice_eq_ok_iff.1 accepted
    rw [Messages.payload?_insert_toDevice] at hp
    split at hp
    · cases hp
      exact .inr (congrArg (fun e => e.toOption.map Payload.toDevice) hx)
    · exact .inl hp
  | acceptRoomMessage room eventType content s accepted =>
    obtain ⟨x, hx, rfl⟩ := Messages.addRoomMessage_eq_ok_iff.1 accepted
    rw [Messages.payload?_insert_roomMessages] at hp
    split at hp
    · cases hp
      exact .inr (congrArg (fun e => e.toOption.map Payload.roomMessage) hx)
    · exact .inl hp
  | acceptSignatures rows s accepted =>
    rw [Messages.addSignatures_eq_ok accepted] at hp
    exact .inl hp
  | _ => exact .inl hp

/-- What is held was accepted as it is. -/
theorem Reached.accepted_of_held (hm : Reached h m) (hp : m.messages.payload? message = some p) :
    ∃ t ∈ h, t.acceptedPayload? = some p := by
  induction hm with
  | new =>
    obtain ⟨kind, txnId⟩ := message
    cases kind <;> cases hp
  | @step h m now call hm ih =>
    rcases (transition_step m now call).held_or_accepted hp with hheld | hacc
    · obtain ⟨t, ht, he⟩ := ih hheld
      exact ⟨t, List.mem_append_left _ ht, he⟩
    · exact ⟨_, List.mem_append_right _ (List.mem_singleton_self _), hacc⟩

/-- A queued request that carries a message carries it as it is held. -/
theorem Reached.held_of_queued (hm : Reached h m) (hr : r ∈ m.queue.contents)
    (hmsg : r.payload.message? = some message) : m.messages.payload? message = some r.payload := by
  have hkind : r.payload.kind ≠ .keysQuery := by
    intro hk
    cases hpay : r.payload with
    | keysQuery q =>
      rw [hpay] at hmsg
      cases hmsg
    | _ =>
      rw [hpay] at hk
      cases hk
  exact (backs_iff_payload? hmsg).1 (hm.backed r hr (hm.agrees.mem_decided hr hkind))

/-- A request that carries a message has the payload that was accepted under its transaction ID, whether
that turn is seen from then or from later. -/
theorem Reached.payload_eq (hm : Reached h m) (ht : t ∈ h) (hp : t.acceptedPayload? = some p)
    (ha : t.answer = .accepted txnId) (hm' : Reached h' m') (hsub : h' ⊆ h)
    (hr : r ∈ m'.queue.contents) (hid : r.payload.txnId? = some txnId) : r.payload = p := by
  obtain ⟨kind, hmsg⟩ := Payload.txnId?_eq_some_iff.1 hid
  obtain ⟨s, hs, hsp⟩ := hm'.accepted_of_held (hm'.held_of_queued hr hmsg)
  have hsa := Turn.answer_of_acceptedPayload? hsp hid
  cases hm.eq_of_answer (hsub hs) ht hsa ha
  exact Option.some.inj (hsp.symm.trans hp)

/-- A request that a turn handed out is queued after the turn. -/
theorem Reached.mem_contents_of_handedOut (hm : Reached (h₁ ++ t :: h₂) m) (hr : r ∈ t.handedOut) :
    r ∈ t.after.queue.contents := by
  have hafter : Reached (h₁ ++ t :: []) t.after := hm.split.2.2
  exact Queue.mem_contents_iff.2 (.inr ((hafter.mem_inFlight_of_handedOut hr).2 nofun))

/-! ### What is over -/

/-- What holds after some turn and is kept by every turn holds at the end. -/
theorem Reached.of_split {P : Machine → Prop} (hm : Reached (h₁ ++ t :: h₂) m) (start : P t.after)
    (step : ∀ {h m} (now : Instant) (call : Call), Reached h m → P m → P (m.step now call).2) : P m := by
  generalize hh : h₁ ++ t :: h₂ = h at hm
  induction hm generalizing h₂ with
  | new => simp at hh
  | @step h m now call hm ih =>
    rcases split_snoc hh.symm with ⟨rfl, rfl, rfl⟩ | ⟨h₃, rfl, rfl⟩
    · exact start
    · exact step now call hm (ih rfl)

/-- A message that is over is not held again: its name is used up. -/
theorem Reached.not_holds_of_split (hm : Reached (h₁ ++ t :: h₂) m) (hres : t.Resolves message) :
    ¬ m.messages.Holds message := by
  suffices hand : m.Minted message.2 ∧ ¬ m.messages.Holds message from hand.2
  refine hm.of_split (P := fun m => m.Minted message.2 ∧ ¬ m.messages.Holds message) ⟨?_, ?_⟩ ?_
  · obtain ⟨hbefore, heq, -⟩ := hm.split
    obtain ⟨r, outcome, -, -, hr, hmsg, -⟩ := hres
    have hheld := hbefore.held_of_queued (Queue.mem_contents_iff.2 (.inr hr)) hmsg
    have hname : t.before.Minted message.2 :=
      hbefore.minted_of_holds (Messages.holds_iff_payload?.2 ⟨_, hheld⟩)
    rw [heq]
    exact (transition_step _ _ _).minted hname
  · rw [hm.split.2.2.holds_iff, unresolved_snoc, hres.accepted?_eq_none]
    rintro (hnone | ⟨-, hnot⟩)
    · cases hnone
    · exact hnot hres
  · intro h m now call hm hand
    have hstep := transition_step m now call
    refine ⟨hstep.minted hand.1, fun hheld => ?_⟩
    rcases unresolved_snoc.1 ((hm.step now call).holds_iff.1 hheld) with hacc | ⟨hun, -⟩
    · have hanswer : (m.step now call).1 = .accepted message.2 := Turn.answer_of_accepted? hacc
      rw [hanswer] at hstep
      exact hstep.not_minted_of_accepted hand.1
    · exact hand.2 (hm.holds_iff.2 hun)

/-! ### Delivery -/

/-- A turn that gives a transaction ID accepts a message under it. -/
theorem Reached.exists_acceptedPayload? (hm : Reached (h₁ ++ t :: h₂) m)
    (ha : t.answer = .accepted txnId) : ∃ p kind, t.acceptedPayload? = some p ∧
      p.message? = some (kind, txnId) ∧ t.accepted? = some (kind, txnId) := by
  obtain ⟨-, heq, -⟩ := hm.split
  have hstep := transition_step t.before t.now t.call
  have hanswer : (t.before.step t.now t.call).1 = .accepted txnId := by
    rw [heq] at ha
    exact ha
  rw [hanswer] at hstep
  rw [heq, turn, hanswer]
  exact hstep.exists_acceptedPayload?

/-- Once a request with the transaction ID is over, no queued request has it. -/
theorem Reached.txnId?_ne_of_settled {m₀ : Machine} {h₀ : List Turn} (hm₀ : Reached h₀ m₀) (ht : t ∈ h₀)
    (hp : t.acceptedPayload? = some p) (ha : t.answer = .accepted txnId)
    (hm : Reached (h₁ ++ s :: h₂) m) (hsub : h₁ ++ s :: h₂ ⊆ h₀) (hs : s.Settles txnId)
    (hr : r ∈ m.queue.contents) : r.payload.txnId? ≠ some txnId := by
  intro hid
  obtain ⟨hbefore, -, -⟩ := hm.split
  have hsub' : h₁ ⊆ h₀ := fun x hx => hsub (List.mem_append_left _ hx)
  have hpay : r.payload = p := hm₀.payload_eq ht hp ha hm hsub hr hid
  obtain ⟨x, outcome, hcall, hdone, hx, hxid, hfinal⟩ := hs
  have hxpay : x.payload = p :=
    hm₀.payload_eq ht hp ha hbefore hsub' (Queue.mem_contents_iff.2 (.inr hx)) hxid
  obtain ⟨kind, hmsg⟩ := Payload.txnId?_eq_some_iff.1 hid
  have hres : s.Resolves (kind, txnId) :=
    ⟨x, outcome, hcall, hdone, hx, by rw [hxpay, ← hpay]; exact hmsg, hfinal⟩
  exact hm.not_holds_of_split hres (Messages.holds_iff_payload?.2 ⟨_, hm.held_of_queued hr hmsg⟩)

/-- Until a request with the transaction ID is over, the message is held as it was accepted. -/
theorem Reached.held_of_not_settled {kind : RequestKind} (hm : Reached (h₁ ++ t :: h₂) m)
    (hp : t.acceptedPayload? = some p) (hacc : t.accepted? = some (kind, txnId))
    (hn : ∀ s ∈ h₂, ¬ s.Settles txnId) : m.messages.payload? (kind, txnId) = some p := by
  have hun : Unresolved (h₁ ++ t :: h₂) (kind, txnId) :=
    ⟨h₁, t, h₂, rfl, hacc, fun s hs hres => hn s hs (Turn.settles_iff.2 ⟨kind, hres⟩)⟩
  obtain ⟨q, hq⟩ := Messages.holds_iff_payload?.1 (hm.holds_iff.2 hun)
  obtain ⟨s, hs, hsq⟩ := hm.accepted_of_held hq
  have hid : q.txnId? = some txnId := by
    rw [Payload.txnId?, hm.keyed.message?_of_payload? hq, Option.map_some]
  have ht : t ∈ h₁ ++ t :: h₂ := by simp
  cases hm.eq_of_answer hs ht (Turn.answer_of_acceptedPayload? hsq hid) (Turn.answer_of_accepted? hacc)
  rw [hq, ← hsq, hp]

/-- **Messages are delivered as they were accepted, and no longer than needed**, whatever calls were made
to a new machine. When a transaction ID is given, there is one payload that all requests with that ID
have which are ever handed out. Once one of them was answered or failed for good, no request with the ID
is queued or handed out. Until then the message is held as it is. -/
theorem messages_delivered (userId : UserId) (deviceId : DeviceId) (deviceKeys : Opaque)
    (settings : Settings) (ids : IdSource) (calls : List (Instant × Call)) :
    let h := (new userId deviceId deviceKeys settings ids).turns calls
    let m := ((new userId deviceId deviceKeys settings ids).run calls).2
    ∀ h₁ t h₂ txnId, h = h₁ ++ t :: h₂ → t.answer = .accepted txnId →
      ∃ p kind, t.acceptedPayload? = some p ∧ p.message? = some (kind, txnId) ∧
        (∀ s ∈ h, ∀ r ∈ s.handedOut, r.payload.txnId? = some txnId → r.payload = p) ∧
        (∀ h₃ s h₄, h₂ = h₃ ++ s :: h₄ → s.Settles txnId →
          (∀ r ∈ m.queue.contents, r.payload.txnId? ≠ some txnId) ∧
          ∀ s' ∈ h₄, ∀ r ∈ s'.handedOut, r.payload.txnId? ≠ some txnId) ∧
        ((∀ s ∈ h₂, ¬ s.Settles txnId) → m.messages.payload? (kind, txnId) = some p) := by
  intro h m h₁ t h₂ txnId he ha
  have hm : Reached h m := (Reached.new userId deviceId deviceKeys settings ids).run calls
  have ht : t ∈ h := by simp [he]
  obtain ⟨p, kind, hp, hmsg, hacc⟩ := (he ▸ hm).exists_acceptedPayload? ha
  refine ⟨p, kind, hp, hmsg, fun s hs r hr hid => ?_, fun h₃ s h₄ hsplit hs => ⟨fun r hr => ?_, ?_⟩,
    fun hn => ?_⟩
  · obtain ⟨l₁, l₂, hl⟩ := List.append_of_mem hs
    have hms : Reached (l₁ ++ s :: l₂) m := hl ▸ hm
    have hsub : l₁ ++ [s] ⊆ h := List.IsPrefix.subset ⟨l₂, by simp [hl]⟩
    exact hm.payload_eq ht hp ha hms.split.2.2 hsub (hms.mem_contents_of_handedOut hr) hid
  · have hms : Reached ((h₁ ++ t :: h₃) ++ s :: h₄) m := by simpa [he, hsplit] using hm
    exact hm.txnId?_ne_of_settled ht hp ha hms (by simp [he, hsplit]) hs hr
  · intro s' hs' r hr
    obtain ⟨l₁, l₂, rfl⟩ := List.append_of_mem hs'
    have hms : Reached ((h₁ ++ t :: h₃ ++ s :: l₁) ++ s' :: l₂) m := by simpa [he, hsplit] using hm
    have hafter : Reached ((h₁ ++ t :: h₃) ++ s :: (l₁ ++ [s'])) s'.after := by
      simpa using hms.split.2.2
    have hsub : (h₁ ++ t :: h₃) ++ s :: (l₁ ++ [s']) ⊆ h :=
      List.IsPrefix.subset ⟨l₂, by simp [he, hsplit]⟩
    exact hm.txnId?_ne_of_settled ht hp ha hafter hsub hs (hms.mem_contents_of_handedOut hr)
  · exact (he ▸ hm).held_of_not_settled hp hacc hn

/-- Messages for all devices of a user. -/
def Sample.toBob : Rows UserId DeviceTarget Opaque :=
  SortedMap.insert ∅ Sample.bob (SortedMap.insert ∅ .all .null)

/-- A message that fails for now is sent again under another name as it was. When it fails for good, no
request carries it any more. -/
theorem messages_delivered_retried :
    let calls : List (Instant × Call) :=
      [(0, .queueToDevice "m.test" Sample.toBob), (0, .outgoingRequests),
        (0, .markAsSent "r-3" (.failure (.transient "later"))), (0, .outgoingRequests),
        (0, .markAsSent "r-4" (.failure (.permanent "never")))]
    ∃ (t handOut again : Turn) (first second : OutgoingRequest), t.answer = .accepted "r-0" ∧
      handOut ∈ Sample.machine.turns calls ∧ first ∈ handOut.handedOut ∧ first.id = "r-3" ∧
      again ∈ Sample.machine.turns calls ∧ second ∈ again.handedOut ∧ second.id = "r-4" ∧
      first.payload = second.payload ∧
      ∀ r ∈ (Sample.machine.run calls).2.queue.contents, r.payload.txnId? ≠ some "r-0" := by
  intro calls
  have hrun : ∃ t handOut later again never upload query first second,
      Sample.machine.turns calls = [t, handOut, later, again, never] ∧ t.answer = .accepted "r-0" ∧
      handOut.handedOut = [upload, query, first] ∧ first.id = "r-3" ∧
      first.payload.txnId? = some "r-0" ∧ again.handedOut = [second] ∧ second.id = "r-4" ∧
      second.payload.txnId? = some "r-0" ∧
      never.call = .markAsSent "r-4" (.failure (.permanent "never")) ∧ never.answer = .done ∧
      never.before.inFlightRequests = [upload, query, second] :=
    ⟨_, _, _, _, _, _, _, _, _, rfl, by rfl, by rfl, by rfl, by rfl, by rfl, by rfl, by rfl, by rfl,
      by rfl, by rfl⟩
  obtain ⟨t, handOut, later, again, never, upload, query, first, second, hh, ha, hfirst, hid, htxn,
    hsecond, hid', htxn', hcall, hdone, hfly⟩ := hrun
  obtain ⟨p, kind, -, -, hout, hover, -⟩ := messages_delivered Sample.alice "DEVICE" .null .default
    (.counting "r") calls [] t _ "r-0" hh ha
  have hh' : (new Sample.alice "DEVICE" .null .default (.counting "r")).turns calls =
    [t, handOut, later, again, never] := hh
  have hover' := (hover [handOut, later, again] never [] rfl
    ⟨second, _, by rw [hid']; exact hcall, hdone, by simp [hfly], htxn', rfl⟩).1
  refine ⟨t, handOut, again, first, second, ha, by simp [hh], by simp [hfirst], hid, by simp [hh],
    by simp [hsecond], hid', ?_, hover'⟩
  rw [hout handOut (by simp [hh']) first (by simp [hfirst]) htxn,
    hout again (by simp [hh']) second (by simp [hsecond]) htxn']

end Machine
end Outbox
