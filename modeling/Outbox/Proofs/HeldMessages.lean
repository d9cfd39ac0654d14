/-
# Messages that are held

A message is held from when it was accepted until a request that carries it was answered or failed for
good: the messages that a machine holds are exactly the unresolved ones of its history.

Key definitions: `Outcome.isFinal`, `Turn.accepted?`, `Turn.Resolves`, `Unresolved`, `Messages.Holds`.
Key theorems: `Machine.Reached.keyed`, `Machine.Reached.holds_iff`.
-/
import Outbox.Proofs.Lifecycle
import Outbox.Proofs.Wanted

namespace Outbox

/-! ### What a history says -/

/-- The request is over: it was answered, or it failed for good. -/
def Outcome.isFinal : Outcome → Bool
  | success _ => true
  | failure f => f.isPermanent

/-- The message that was accepted in the turn, by its kind and its transaction ID. -/
def Turn.accepted? (t : Turn) : Option (RequestKind × TransactionId) :=
  match t.call, t.answer with
  | .queueToDevice _ _, .accepted txnId => some (.toDevice, txnId)
  | .queueRoomMessage _ _ _, .accepted txnId => some (.roomMessage, txnId)
  | _, _ => none

/-- A request that carries the message is over since the turn. -/
def Turn.Resolves (t : Turn) (message : RequestKind × TransactionId) : Prop :=
  ∃ r outcome, t.call = .markAsSent r.id outcome ∧ t.answer = .done ∧
    r ∈ t.before.inFlightRequests ∧ r.payload.message? = some message ∧ outcome.isFinal = true

/-- The message was accepted, and no request that carries it is over since then. -/
def Unresolved (h : List Turn) (message : RequestKind × TransactionId) : Prop :=
  ∃ h₁ t h₂, h = h₁ ++ t :: h₂ ∧ t.accepted? = some message ∧ ∀ s ∈ h₂, ¬ s.Resolves message

variable {h : List Turn} {t : Turn} {message : RequestKind × TransactionId}

/-- Only a turn that marks a request resolves a message. -/
theorem Turn.not_resolves (hm : t.marked? = none) : ¬ t.Resolves message := by
  rintro ⟨r, outcome, hcall, ha, -⟩
  rw [marked?, hcall, ha] at hm
  cases hm

theorem unresolved_snoc : Unresolved (h ++ [t]) message ↔
    t.accepted? = some message ∨ Unresolved h message ∧ ¬ t.Resolves message := lasts_snoc

/-! ### What a machine holds -/

namespace Messages

variable {s : Messages} {txnId : TransactionId}

/-- The message is held. -/
def Holds (s : Messages) : RequestKind × TransactionId → Prop
  | (.toDevice, txnId) => txnId ∈ s.toDevice
  | (.roomMessage, txnId) => txnId ∈ s.roomMessages
  | _ => False

theorem addToDevice_eq_ok {s' : Messages} {eventType : String} {rows : Rows UserId DeviceTarget Opaque}
    (h : s.addToDevice txnId eventType rows = .ok s') :
    ∃ r : ToDevice, r.txnId = txnId ∧ s' = { s with toDevice := s.toDevice.insert txnId r } := by
  unfold addToDevice at h
  cases hr : ToDevice.ofRows eventType txnId rows with
  | error e =>
    rw [hr] at h
    cases h
  | ok r =>
    rw [hr] at h
    cases h
    refine ⟨r, ?_, rfl⟩
    unfold ToDevice.ofRows at hr
    grind

theorem addRoomMessage_eq_ok {s' : Messages} {room : RoomId} {eventType : String} {content : Opaque}
    (h : s.addRoomMessage txnId room eventType content = .ok s') :
    ∃ r : RoomMessage, r.txnId = txnId ∧
      s' = { s with roomMessages := s.roomMessages.insert txnId r } := by
  unfold addRoomMessage at h
  cases hr : RoomMessage.ofContent room txnId eventType content with
  | error e =>
    rw [hr] at h
    cases h
  | ok r =>
    rw [hr] at h
    cases h
    refine ⟨r, ?_, rfl⟩
    unfold RoomMessage.ofContent at hr
    grind

/-- Accepting signatures leaves the messages alone. -/
theorem addSignatures_eq_ok {s' : Messages} {rows : Rows UserId KeyId Opaque}
    (h : s.addSignatures rows = .ok s') : s' = { s with signatures := s'.signatures } := by
  unfold addSignatures at h
  cases hr : SignatureUpload.ofRows rows with
  | error e =>
    rw [hr] at h
    cases h
  | ok r =>
    rw [hr] at h
    cases h
    rfl

end Messages

namespace Machine

variable {m m' : Machine} {now : Instant} {call : Call} {answer : Answer} {r : OutgoingRequest}
  {outcome : Outcome}

/-- The end of a request drops the message that it carries, if it is over, and no other message. -/
theorem withOutcome_messages (m : Machine) (now : Instant) (fits : outcome.mismatch? r.kind = none) :
    (∃ x, r.payload = .toDevice x ∧ outcome.isFinal = true ∧
      (m.withOutcome now r outcome).messages = m.messages.removeToDevice x.txnId) ∨
    (∃ x, r.payload = .roomMessage x ∧ outcome.isFinal = true ∧
      (m.withOutcome now r outcome).messages = m.messages.removeRoomMessage x.txnId) ∨
    ((r.payload.message? = none ∨ outcome.isFinal = false) ∧
      (m.withOutcome now r outcome).messages =
        { m.messages with signatures := (m.withOutcome now r outcome).messages.signatures }) := by
  obtain ⟨id, payload⟩ := r
  cases outcome with
  | success response =>
    have hk : response.kind = payload.kind := Outcome.mismatch?_success_eq_none_iff.1 fits
    cases payload <;> cases response <;> cases hk
    case toDevice.toDevice.refl x response => exact .inl ⟨x, rfl, rfl, rfl⟩
    case roomMessage.roomMessage.refl x response => exact .inr (.inl ⟨x, rfl, rfl, rfl⟩)
    all_goals exact .inr (.inr ⟨.inl rfl, rfl⟩)
  | failure failure =>
    cases hf : failure.isPermanent with
    | true =>
      cases payload
      case toDevice x =>
        exact .inl ⟨x, rfl, hf, by simp [withOutcome, receiveOutcome, receiveFailure, hf]⟩
      case roomMessage x =>
        exact .inr (.inl ⟨x, rfl, hf, by simp [withOutcome, receiveOutcome, receiveFailure, hf]⟩)
      all_goals exact .inr (.inr ⟨.inl rfl, by simp [withOutcome, receiveOutcome, receiveFailure, hf]⟩)
    | false =>
      refine .inr (.inr ⟨.inr hf, ?_⟩)
      cases payload <;> simp [withOutcome, receiveOutcome, receiveFailure, hf]

theorem keyed_withOutcome (hk : m.messages.Keyed) (now : Instant)
    (fits : outcome.mismatch? r.kind = none) : (m.withOutcome now r outcome).messages.Keyed := by
  rcases withOutcome_messages m now fits with ⟨x, -, -, he⟩ | ⟨x, -, -, he⟩ | ⟨-, he⟩
  all_goals rw [he]
  · refine ⟨fun {t y} hg => hk.toDevice ?_, hk.roomMessages⟩
    rw [Messages.removeToDevice, InsertionMap.get?_erase] at hg
    exact (Option.ite_none_left_eq_some.1 hg).2
  · refine ⟨hk.toDevice, fun {t y} hg => hk.roomMessages ?_⟩
    rw [Messages.removeRoomMessage, InsertionMap.get?_erase] at hg
    exact (Option.ite_none_left_eq_some.1 hg).2
  · exact ⟨hk.toDevice, hk.roomMessages⟩

theorem keyed_turn (hk : m.messages.Keyed) (ht : m.Transition now call answer m') :
    m'.messages.Keyed := by
  cases ht with
  | handOut => simpa [decisionPass] using hk
  | complete r outcome inFlight fits => simpa [decisionPass] using keyed_withOutcome hk now fits
  | acceptToDevice eventType rows s accepted =>
    obtain ⟨x, hx, rfl⟩ := Messages.addToDevice_eq_ok accepted
    refine ⟨fun {t y} hg => ?_, hk.roomMessages⟩
    rw [InsertionMap.get?_insert] at hg
    split at hg
    · next he =>
      cases hg
      rw [he, hx]
    · exact hk.toDevice hg
  | acceptRoomMessage room eventType content s accepted =>
    obtain ⟨x, hx, rfl⟩ := Messages.addRoomMessage_eq_ok accepted
    refine ⟨hk.toDevice, fun {t y} hg => ?_⟩
    rw [InsertionMap.get?_insert] at hg
    split at hg
    · next he =>
      cases hg
      rw [he, hx]
    · exact hk.roomMessages hg
  | acceptSignatures rows s accepted =>
    rw [Messages.addSignatures_eq_ok accepted]
    exact ⟨hk.toDevice, hk.roomMessages⟩
  | _ => exact hk

theorem Reached.keyed (hm : Reached h m) : m.messages.Keyed := by
  induction hm with
  | new => exact ⟨fun hg => (nomatch hg), fun hg => (nomatch hg)⟩
  | step now call hm ih => exact keyed_turn ih (transition_step _ now call)

/-! ### Both say the same -/

/-- The end of a request drops a message exactly if the turn resolves it. -/
theorem holds_withOutcome (inFlight : r ∈ m.queue.inFlight) (fits : outcome.mismatch? r.kind = none) :
    (m.withOutcome now r outcome).messages.Holds message ↔ m.messages.Holds message ∧
      ¬ Turn.Resolves ⟨m, now, .markAsSent r.id outcome, .done, m'⟩ message := by
  have hres : Turn.Resolves ⟨m, now, .markAsSent r.id outcome, .done, m'⟩ message ↔
      r.payload.message? = some message ∧ outcome.isFinal = true := by
    constructor
    · rintro ⟨x, outcome', hcall, -, hx, hm, hf⟩
      obtain ⟨hid, rfl⟩ := Call.markAsSent.inj hcall
      cases Queue.eq_of_id_eq (Queue.mem_contents_iff.2 (.inr inFlight))
        (Queue.mem_contents_iff.2 (.inr hx)) hid
      exact ⟨hm, hf⟩
    · exact fun ⟨hm, hf⟩ => ⟨r, outcome, rfl, rfl, inFlight, hm, hf⟩
  rw [hres]
  obtain ⟨kind, txnId⟩ := message
  rcases withOutcome_messages m now fits with ⟨x, hp, hf, he⟩ | ⟨x, hp, hf, he⟩ | ⟨hn, he⟩
  · rw [he, hp, hf]
    cases kind <;>
      simp [Messages.Holds, Messages.removeToDevice, InsertionMap.mem_erase, Payload.message?, and_comm,
        eq_comm]
  · rw [he, hp, hf]
    cases kind <;>
      simp [Messages.Holds, Messages.removeRoomMessage, InsertionMap.mem_erase, Payload.message?, and_comm,
        eq_comm]
  · rw [he]
    have hnot : ¬ (r.payload.message? = some (kind, txnId) ∧ outcome.isFinal = true) := by
      rcases hn with hn | hn <;> simp [hn]
    rw [iff_true_intro hnot, and_true]
    cases kind <;> exact .rfl

/-- A turn that neither accepts nor resolves a message keeps those that are held. -/
theorem holds_of_messages_eq (hd : ∀ message, m.messages.Holds message ↔ Unresolved h message)
    {t : Turn} (ha : t.accepted? = none) (hm : t.marked? = none)
    (he : ∀ message, m'.messages.Holds message ↔ m.messages.Holds message)
    (message : RequestKind × TransactionId) :
    m'.messages.Holds message ↔ Unresolved (h ++ [t]) message := by
  rw [unresolved_snoc, ha, he, hd, iff_true_intro (Turn.not_resolves hm), and_true]
  exact (or_iff_right nofun).symm

theorem holds_turn (hd : ∀ message, m.messages.Holds message ↔ Unresolved h message)
    (ht : m.Transition now call answer m') (message : RequestKind × TransactionId) :
    m'.messages.Holds message ↔ Unresolved (h ++ [⟨m, now, call, answer, m'⟩]) message := by
  cases ht with
  | complete r outcome inFlight fits =>
    rw [unresolved_snoc, decisionPass, addAll_messages, holds_withOutcome inFlight fits, hd]
    exact (or_iff_right nofun).symm
  | acceptToDevice eventType rows s accepted =>
    obtain ⟨x, hx, rfl⟩ := Messages.addToDevice_eq_ok accepted
    rw [unresolved_snoc, ← hd, iff_true_intro (Turn.not_resolves rfl), and_true]
    obtain ⟨kind, txnId⟩ := message
    cases kind <;> simp [Messages.Holds, InsertionMap.mem_insert, Turn.accepted?, eq_comm]
  | acceptRoomMessage room eventType content s accepted =>
    obtain ⟨x, hx, rfl⟩ := Messages.addRoomMessage_eq_ok accepted
    rw [unresolved_snoc, ← hd, iff_true_intro (Turn.not_resolves rfl), and_true]
    obtain ⟨kind, txnId⟩ := message
    cases kind <;> simp [Messages.Holds, InsertionMap.mem_insert, Turn.accepted?, eq_comm]
  | acceptSignatures rows s accepted =>
    refine holds_of_messages_eq hd rfl rfl (fun message => ?_) message
    rw [Messages.addSignatures_eq_ok accepted]
    obtain ⟨kind, txnId⟩ := message
    cases kind <;> exact .rfl
  | handOut =>
    refine holds_of_messages_eq hd rfl rfl (fun message => ?_) message
    rw [decisionPass, addAll_messages]
  | refuse call reason refusable =>
    refine holds_of_messages_eq hd ?_ ?_ (fun _ => .rfl) message
    · cases call <;> rfl
    · cases call <;> rfl
  | query | addOneTimeKeys | addFallbackKeys | track | change | missing | enable | disable | addRoomKey =>
    exact holds_of_messages_eq (t := ⟨m, now, _, _, _⟩) hd rfl rfl (fun _ => .rfl) message

/-- **The messages that a machine holds are the unresolved ones.** -/
theorem Reached.holds_iff (hm : Reached h m) :
    m.messages.Holds message ↔ Unresolved h message := by
  induction hm generalizing message with
  | new =>
    obtain ⟨kind, txnId⟩ := message
    refine iff_of_false ?_ not_lasts_nil
    cases kind <;> first | exact id | exact List.not_mem_nil
  | step now call hm ih => exact holds_turn (fun _ => ih) (transition_step _ now call) message

/-- The transaction ID of a message that was accepted is a used name. -/
theorem Transition.minted_of_accepted (ht : m.Transition now call answer m')
    (ha : Turn.accepted? ⟨m, now, call, answer, m'⟩ = some message) : m'.Minted message.2 := by
  cases ht with
  | acceptToDevice | acceptRoomMessage =>
    cases ha
    exact ⟨m.minted, Nat.lt_succ_self _, rfl⟩
  | refuse call reason refusable => cases call <;> cases ha
  | _ => cases ha

/-- The messages that are held have names that were used. -/
theorem Reached.minted_of_holds (hm : Reached h m) (hheld : m.messages.Holds message) :
    m.Minted message.2 := by
  induction hm with
  | new => exact absurd ((Reached.new _ _ _ _ _).holds_iff.1 hheld) not_lasts_nil
  | @step h m now call hm ih =>
    have ht := transition_step m now call
    rcases unresolved_snoc.1 ((hm.step now call).holds_iff.1 hheld) with ha | ⟨hu, -⟩
    · exact ht.minted_of_accepted ha
    · exact ht.minted (ih (hm.holds_iff.2 hu))

end Machine
end Outbox
