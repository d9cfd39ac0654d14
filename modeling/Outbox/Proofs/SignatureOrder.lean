/-
# Signatures follow the keys of the device

Others cannot verify the signatures of a device that they do not know. So a decision pass queues an upload
of signatures only on a machine whose keys the server has, and only the answer to an upload that has these
keys makes it such a machine. A request that is queued or was handed out, and is not a query, was queued
by one decision pass, so the order holds wherever an upload of signatures shows up.

Key theorems: `Machine.Transition.decided_eq`, `Machine.Transition.shared_of_mem_decided`,
`Machine.Reached.deviceKeys_of_answers`, `Machine.Reached.exists_decided`,
`Machine.signatures_follow_deviceKeys`.
-/
import Outbox.Proofs.Delivery
import Outbox.Proofs.KeyPublication
import Outbox.Proofs.Needs

namespace Outbox
namespace Machine

variable {m m' : Machine} {h h₁ h₂ : List Turn} {t : Turn} {now : Instant} {call : Call}
  {answer : Answer} {r : OutgoingRequest} {x : KeysUpload}

/-! ### The guard -/

/-- A turn runs no decision pass, or the machine after it is one on which a pass ran, but for the queue. -/
theorem Transition.decided_eq (ht : m.Transition now call answer m') :
    Turn.decided ⟨m, now, call, answer, m'⟩ = [] ∨
      ∃ (m₀ : Machine) (queue : Queue), Turn.decided ⟨m, now, call, answer, m'⟩ = m₀.decided now ∧
        m' = { m₀.decisionPass now with queue } := by
  cases ht with
  | handOut => exact .inr ⟨m, _, rfl, rfl⟩
  | complete r outcome inFlight fits =>
    exact .inr ⟨m.withOutcome now r outcome, _, Turn.decided_markAsSent inFlight fits, rfl⟩
  | refuse call reason refusable => exact .inl (by cases call <;> rfl)
  | _ => exact .inl rfl

/-- Signatures are decided on only once the server has the keys of the device. -/
theorem Transition.shared_of_mem_decided (ht : m.Transition now call answer m')
    (hr : r ∈ Turn.decided ⟨m, now, call, answer, m'⟩) (hk : r.kind = .signatureUpload) :
    m'.ownKeys.shared = true := by
  rcases ht.decided_eq with hnone | ⟨m₀, queue, he, rfl⟩
  · rw [hnone] at hr
    cases hr
  · rw [he] at hr
    have hneeds := needs_of_mem_wanted (payload_mem_of_mem_added hr)
    obtain ⟨id, payload⟩ := r
    cases payload <;> cases hk
    show (m₀.decisionPass now).ownKeys.shared = true
    rw [decisionPass, addAll_ownKeys]
    exact hneeds.1

/-! ### Uploads of the keys -/

/-- An upload that is answered and has keys of the device has those of this device. -/
theorem Reached.deviceKeys_of_answers (hm : Reached (h₁ ++ t :: h₂) m) (ha : t.Answers (.keysUpload x))
    (hx : x.deviceKeys.isSome = true) : x.deviceKeys = some t.after.ownKeys.deviceKeys := by
  obtain ⟨hbefore, heq, -⟩ := hm.split
  obtain ⟨id, response, -, -, hin⟩ := ha
  have hin : ⟨id, .keysUpload x⟩ ∈ t.before.queue.contents := Queue.mem_contents_iff.2 (.inr hin)
  have hback := hbefore.backed _ hin (hbefore.agrees.mem_decided hin nofun)
  have hafter : t.after.ownKeys.deviceKeys = t.before.ownKeys.deviceKeys := by
    rw [heq]
    exact (transition_step _ _ _).deviceKeys_eq
  rw [hback.1] at hx ⊢
  rw [hafter]
  split at hx
  · cases hx
  · next hs => rw [if_neg hs]

/-! ### Where requests come from -/

/-- A request that is not a query, and is queued or was handed out after a turn, was decided on in that
turn or in one before. -/
theorem Reached.exists_decided (hm : Reached (h₁ ++ [t]) m) (hk : r.kind ≠ .keysQuery)
    (hr : r ∈ t.decided ∨ r ∈ t.handedOut ∨ r ∈ t.after.queue.contents) :
    ∃ h₃ s h₄, h₁ ++ [t] = h₃ ++ s :: h₄ ∧ r ∈ s.decided := by
  have hqueued : r ∈ t.after.queue.contents → ∃ s ∈ h₁ ++ [t], r ∈ s.decided := fun hr =>
    List.mem_flatMap.1 (hm.split.2.2.agrees.mem_decided hr hk)
  have hturn : ∃ s ∈ h₁ ++ [t], r ∈ s.decided := by
    rcases hr with hr | hr | hr
    · exact ⟨t, by simp, hr⟩
    · exact hqueued (hm.mem_contents_of_handedOut hr)
    · exact hqueued hr
  obtain ⟨s, hs, hd⟩ := hturn
  obtain ⟨h₃, h₄, he⟩ := List.append_of_mem hs
  exact ⟨h₃, s, h₄, he, hd⟩

/-- Before signatures are decided on, an upload that has the keys of the device was answered. The turn
that answers it may be the one that decides on the signatures: it marks the upload before its pass. -/
theorem Reached.exists_answers_deviceKeys (hm : Reached (h₁ ++ t :: h₂) m) (hr : r ∈ t.decided)
    (hk : r.kind = .signatureUpload) :
    ∃ s ∈ h₁ ++ [t], ∃ x, s.Answers (.keysUpload x) ∧
      x.deviceKeys = some s.after.ownKeys.deviceKeys := by
  obtain ⟨-, heq, hafter⟩ := hm.split
  have hshared : t.after.ownKeys.shared = true := by
    rw [heq] at hr ⊢
    exact (transition_step _ _ _).shared_of_mem_decided hr hk
  obtain ⟨s, hs, x, ha, hx⟩ := hafter.shared_iff.1 hshared
  obtain ⟨h₃, h₄, he⟩ := List.append_of_mem hs
  rw [he] at hafter
  exact ⟨s, hs, x, ha, hafter.deviceKeys_of_answers ha hx⟩

/-- **Signatures never precede the keys of the device**, whatever calls were made to a new machine. An
upload of signatures that a turn decides on or hands out, or that waits or is in flight after a turn, was
queued by the decision pass of a turn; and a request to upload the keys of the device was answered in a
turn before that one, or in that one, before the pass. -/
theorem signatures_follow_deviceKeys (userId : UserId) (deviceId : DeviceId) (deviceKeys : Opaque)
    (settings : Settings) (ids : IdSource) (calls : List (Instant × Call)) :
    let h := (new userId deviceId deviceKeys settings ids).turns calls
    ∀ h₁ t h₂ r, h = h₁ ++ t :: h₂ → r.kind = .signatureUpload →
      r ∈ t.decided ∨ r ∈ t.handedOut ∨ r ∈ t.after.pendingRequests ∨ r ∈ t.after.inFlightRequests →
      ∃ h₃ s h₄, h₁ ++ [t] = h₃ ++ s :: h₄ ∧ r ∈ s.decided ∧
        ∃ u ∈ h₃ ++ [s], ∃ x, u.Answers (.keysUpload x) ∧ x.deviceKeys = some deviceKeys := by
  intro h h₁ t h₂ r he hk hr
  have hm : Reached h ((new userId deviceId deviceKeys settings ids).run calls).2 :=
    (Reached.new userId deviceId deviceKeys settings ids).run calls
  have hkeys : ∀ u ∈ h, u.after.ownKeys.deviceKeys = deviceKeys := fun u hu =>
    deviceKeys_turns (m := new userId deviceId deviceKeys settings ids) hu
  rw [he] at hm hkeys
  have hr : r ∈ t.decided ∨ r ∈ t.handedOut ∨ r ∈ t.after.queue.contents := by
    rw [Queue.mem_contents_iff]
    exact hr
  obtain ⟨h₃, s, h₄, hs, hd⟩ := hm.split.2.2.exists_decided (by rw [hk]; decide) hr
  have hsplit : h₁ ++ t :: h₂ = h₃ ++ s :: (h₄ ++ h₂) := by
    rw [← List.cons_append, ← List.append_assoc, ← hs, List.append_assoc]
    rfl
  rw [hsplit] at hm hkeys
  obtain ⟨u, hu, x, ha, hx⟩ := hm.exists_answers_deviceKeys hd hk
  have hmem : u ∈ h₃ ++ s :: (h₄ ++ h₂) := by
    rw [List.append_cons]
    exact List.mem_append_left _ hu
  exact ⟨h₃, s, h₄, hs, hd, u, hu, x, ha, by rw [hx, hkeys u hmem]⟩

/-- A signature. -/
def Sample.signed : Rows UserId KeyId Opaque :=
  SortedMap.insert ∅ Sample.alice (SortedMap.insert ∅ "ed25519:DEVICE" .null)

/-- A signature that was queued first of all waits for the answer to the upload that the machine hands out
before it. -/
theorem signatures_follow_deviceKeys_waiting :
    let calls : List (Instant × Call) :=
      [(0, .queueSignatures Sample.signed), (0, .outgoingRequests),
        (0, .markAsSent "r-0" (.success (.keysUpload ⟨∅⟩)))]
    ∃ t₁ t₂ t₃ r, Sample.machine.turns calls = [t₁, t₂, t₃] ∧ r.kind = .signatureUpload ∧
      t₃.after.pendingRequests = [r] ∧ t₁.decided = [] ∧ (∀ s ∈ t₂.decided, s.kind ≠ .signatureUpload) ∧
      ∃ u ∈ [t₁, t₂, t₃], ∃ x, u.Answers (.keysUpload x) ∧ x.deviceKeys = some .null := by
  intro calls
  have hturns : ∃ t₁ t₂ t₃ r upload query, Sample.machine.turns calls = [t₁, t₂, t₃] ∧
      r.kind = .signatureUpload ∧ t₃.after.pendingRequests = [r] ∧ t₁.decided = [] ∧
      t₂.decided = [upload, query] ∧ upload.kind = .keysUpload ∧ query.kind = .keysQuery :=
    ⟨_, _, _, _, _, _, rfl, rfl, rfl, rfl, rfl, rfl, rfl⟩
  obtain ⟨t₁, t₂, t₃, r, upload, query, hh, hk, hr, h₁, h₂, hu, hq⟩ := hturns
  have hwaits : r ∈ t₃.after.pendingRequests := by simp [hr]
  obtain ⟨h₃, s, h₄, hs, -, u, humem, x, ha, hx⟩ := signatures_follow_deviceKeys Sample.alice "DEVICE"
    .null .default (.counting "r") calls [t₁, t₂] t₃ [] r hh hk (.inr (.inr (.inl hwaits)))
  refine ⟨t₁, t₂, t₃, r, hh, hk, hr, h₁, ?_, u, ?_, x, ha, hx⟩
  · rw [h₂]
    simp [hu, hq]
  · rw [show [t₁, t₂, t₃] = h₃ ++ [s] ++ h₄ from hs.trans (List.append_cons _ _ _)]
    exact List.mem_append_left _ humem

end Machine
end Outbox
