/-
# What the end of a request does to a machine

When a request ended, it leaves the queue and the part of the machine that asked for it takes note. No
names are used up, and each part is only touched by the end of its own kinds of requests.

Key definitions: `Machine.withOutcome`.
Key theorems: `Machine.withOutcome_eq`, `Machine.withOutcome_deviceLists`, `Machine.withOutcome_ownKeys`,
`Machine.withOutcome_sessions`, `Machine.withOutcome_signatures`, `Machine.withOutcome_backup`.
-/
import Outbox.Machine.Completion
import Outbox.Proofs.QueueView

namespace Outbox

/-- A response can be the outcome of a request exactly if it is of its kind. -/
theorem Outcome.mismatch?_success_eq_none_iff {expected : RequestKind} {response : Response} :
    (success response).mismatch? expected = none ↔ response.kind = expected := by
  unfold mismatch?
  by_cases h : response.kind = expected <;> simp [h]

/-- Only a response can mismatch. -/
theorem Outcome.mismatch?_eq_none_iff {expected : RequestKind} {outcome : Outcome} :
    outcome.mismatch? expected = none ↔
      ∀ response, outcome = success response → response.kind = expected := by
  cases outcome with
  | success response => simp [mismatch?_success_eq_none_iff]
  | failure failure => exact iff_of_true rfl nofun

theorem Outcome.mismatch?_eq_some_iff {expected got : RequestKind} {outcome : Outcome} :
    outcome.mismatch? expected = some got ↔
      ∃ response, outcome = success response ∧ response.kind = got ∧ got ≠ expected := by
  cases outcome with
  | success response =>
    show (if response.kind = expected then none else some response.kind) = some got ↔ _
    by_cases hk : response.kind = expected
    · rw [if_pos hk]
      refine iff_of_false nofun ?_
      rintro ⟨response', hr, rfl, hne⟩
      cases hr
      exact hne hk
    · rw [if_neg hk]
      constructor
      · rintro ⟨⟩
        exact ⟨response, rfl, rfl, hk⟩
      · rintro ⟨response', hr, rfl, -⟩
        cases hr
        rfl
  | failure failure => exact iff_of_false nofun nofun

@[simp] theorem Backup.version_markSent (b : Backup) (request : KeysBackup) :
    (b.markSent request).version = b.version := by
  unfold markSent
  split <;> rfl

namespace Machine

variable {r : OutgoingRequest} {outcome : Outcome}

/-- The machine when it took note of how a request ended, before it decides what else is needed. -/
def withOutcome (m : Machine) (now : Instant) (r : OutgoingRequest) (outcome : Outcome) : Machine :=
  { m with queue := m.queue.withoutRequest r.id }.receiveOutcome now r outcome

/-- The request leaves the queue, and nothing changes but the queue and the parts of the machine. -/
theorem withOutcome_eq (m : Machine) (now : Instant) (r : OutgoingRequest) (outcome : Outcome) :
    m.withOutcome now r outcome = { m with
      ownKeys := (m.withOutcome now r outcome).ownKeys
      deviceLists := (m.withOutcome now r outcome).deviceLists
      sessions := (m.withOutcome now r outcome).sessions
      messages := (m.withOutcome now r outcome).messages
      backup := (m.withOutcome now r outcome).backup
      queue := m.queue.withoutRequest r.id } := by
  obtain ⟨id, payload⟩ := r
  unfold withOutcome receiveOutcome
  cases outcome with
  | success response =>
    dsimp only
    cases Exchange.of? payload response with
    | none => rfl
    | some exchange => cases exchange <;> rfl
  | failure failure =>
    cases payload <;> simp only [receiveFailure] <;> try rfl
    all_goals split <;> rfl

@[simp] theorem withOutcome_userId (m : Machine) (now : Instant) (r : OutgoingRequest)
    (outcome : Outcome) : (m.withOutcome now r outcome).userId = m.userId := by rw [withOutcome_eq]

@[simp] theorem withOutcome_settings (m : Machine) (now : Instant) (r : OutgoingRequest)
    (outcome : Outcome) : (m.withOutcome now r outcome).settings = m.settings := by
  rw [withOutcome_eq]

@[simp] theorem withOutcome_ids (m : Machine) (now : Instant) (r : OutgoingRequest)
    (outcome : Outcome) : (m.withOutcome now r outcome).ids = m.ids := by rw [withOutcome_eq]

@[simp] theorem withOutcome_minted (m : Machine) (now : Instant) (r : OutgoingRequest)
    (outcome : Outcome) : (m.withOutcome now r outcome).minted = m.minted := by rw [withOutcome_eq]

@[simp] theorem withOutcome_queue (m : Machine) (now : Instant) (r : OutgoingRequest)
    (outcome : Outcome) : (m.withOutcome now r outcome).queue = m.queue.withoutRequest r.id := by
  rw [withOutcome_eq]

/-- Only the end of a query touches the device lists. -/
theorem withOutcome_deviceLists (m : Machine) (now : Instant)
    (fits : outcome.mismatch? r.kind = none) :
    (r.kind ≠ .keysQuery ∧ (m.withOutcome now r outcome).deviceLists = m.deviceLists) ∨
    (∃ q response, r.payload = .keysQuery q ∧ outcome = .success (.keysQuery response) ∧
      (m.withOutcome now r outcome).deviceLists = m.deviceLists.receiveQuery now r.id response) ∨
    (∃ q failure, r.payload = .keysQuery q ∧ outcome = .failure failure ∧
      (m.withOutcome now r outcome).deviceLists = m.deviceLists.forgetQuery r.id) := by
  obtain ⟨id, payload⟩ := r
  cases outcome with
  | success response =>
    have hk : response.kind = payload.kind := Outcome.mismatch?_success_eq_none_iff.1 fits
    cases payload <;> cases response <;> cases hk
    case keysQuery.keysQuery.refl q response => exact .inr (.inl ⟨q, response, rfl, rfl, rfl⟩)
    all_goals exact .inl ⟨nofun, rfl⟩
  | failure failure =>
    cases payload
    case keysQuery q => exact .inr (.inr ⟨q, failure, rfl, rfl, rfl⟩)
    all_goals
      refine .inl ⟨nofun, ?_⟩
      simp only [withOutcome, receiveOutcome, receiveFailure]
      try split
    all_goals rfl

/-- A failure touches neither the keys of the device nor the signatures nor the backup. -/
theorem receiveFailure_frame (m : Machine) (id : RequestId) (payload : Payload) (failure : Failure) :
    (m.receiveFailure id payload failure).ownKeys = m.ownKeys ∧
      (m.receiveFailure id payload failure).messages.signatures = m.messages.signatures ∧
      (m.receiveFailure id payload failure).backup = m.backup := by
  cases payload with
  | keysClaim | toDevice | roomMessage =>
    unfold receiveFailure
    cases failure.isPermanent <;> exact ⟨rfl, rfl, rfl⟩
  | _ => exact ⟨rfl, rfl, rfl⟩

/-- Only the response to an upload of keys touches the keys of the device. -/
theorem withOutcome_ownKeys (m : Machine) (now : Instant) (fits : outcome.mismatch? r.kind = none) :
    (∃ u response, r.payload = .keysUpload u ∧ outcome = .success (.keysUpload response) ∧
      (m.withOutcome now r outcome).ownKeys = m.ownKeys.receiveUpload u response) ∨
    ((r.kind = .keysUpload → ∀ response, outcome ≠ .success response) ∧
      (m.withOutcome now r outcome).ownKeys = m.ownKeys) := by
  obtain ⟨id, payload⟩ := r
  cases outcome with
  | success response =>
    have hk : response.kind = payload.kind := Outcome.mismatch?_success_eq_none_iff.1 fits
    cases payload <;> cases response <;> cases hk
    case keysUpload.keysUpload.refl u response => exact .inl ⟨u, response, rfl, rfl, rfl⟩
    all_goals exact .inr ⟨nofun, rfl⟩
  | failure failure => exact .inr ⟨fun _ => nofun, (receiveFailure_frame _ id payload failure).1⟩

/-- Only the end of a claim touches the sessions. -/
theorem withOutcome_sessions (m : Machine) (now : Instant) (fits : outcome.mismatch? r.kind = none) :
    (r.kind ≠ .keysClaim ∧ (m.withOutcome now r outcome).sessions = m.sessions) ∨
    (∃ c response, r.payload = .keysClaim c ∧ outcome = .success (.keysClaim response) ∧
      (m.withOutcome now r outcome).sessions = m.sessions.receiveClaim c response) ∨
    (∃ c failure, r.payload = .keysClaim c ∧ outcome = .failure failure ∧
      (m.withOutcome now r outcome).sessions =
        if failure.isPermanent then m.sessions.failClaim c else m.sessions) := by
  obtain ⟨id, payload⟩ := r
  cases outcome with
  | success response =>
    have hk : response.kind = payload.kind := Outcome.mismatch?_success_eq_none_iff.1 fits
    cases payload <;> cases response <;> cases hk
    case keysClaim.keysClaim.refl c response => exact .inr (.inl ⟨c, response, rfl, rfl, rfl⟩)
    all_goals exact .inl ⟨nofun, rfl⟩
  | failure failure =>
    cases payload
    case keysClaim c =>
      refine .inr (.inr ⟨c, failure, rfl, rfl, ?_⟩)
      simp only [withOutcome, receiveOutcome, receiveFailure]
      split <;> rfl
    all_goals
      refine .inl ⟨nofun, ?_⟩
      simp only [withOutcome, receiveOutcome, receiveFailure]
      try split
    all_goals rfl

/-- Only the response to an upload of signatures touches the signatures. -/
theorem withOutcome_signatures (m : Machine) (now : Instant) (fits : outcome.mismatch? r.kind = none) :
    (∃ s response, r.payload = .signatureUpload s ∧ outcome = .success (.signatureUpload response) ∧
      (m.withOutcome now r outcome).messages = m.messages.receiveSignatureUpload s) ∨
    ((r.kind = .signatureUpload → ∀ response, outcome ≠ .success response) ∧
      (m.withOutcome now r outcome).messages.signatures = m.messages.signatures) := by
  obtain ⟨id, payload⟩ := r
  cases outcome with
  | success response =>
    have hk : response.kind = payload.kind := Outcome.mismatch?_success_eq_none_iff.1 fits
    cases payload <;> cases response <;> cases hk
    case signatureUpload.signatureUpload.refl s response => exact .inl ⟨s, response, rfl, rfl, rfl⟩
    all_goals exact .inr ⟨nofun, rfl⟩
  | failure failure => exact .inr ⟨fun _ => nofun, (receiveFailure_frame _ id payload failure).2.1⟩

/-- Only the response to a backup of room keys touches the backup. -/
theorem withOutcome_backup (m : Machine) (now : Instant) (fits : outcome.mismatch? r.kind = none) :
    (∃ b response, r.payload = .keysBackup b ∧ outcome = .success (.keysBackup response) ∧
      (m.withOutcome now r outcome).backup = m.backup.markSent b) ∨
    ((r.kind = .keysBackup → ∀ response, outcome ≠ .success response) ∧
      (m.withOutcome now r outcome).backup = m.backup) := by
  obtain ⟨id, payload⟩ := r
  cases outcome with
  | success response =>
    have hk : response.kind = payload.kind := Outcome.mismatch?_success_eq_none_iff.1 fits
    cases payload <;> cases response <;> cases hk
    case keysBackup.keysBackup.refl b response => exact .inl ⟨b, response, rfl, rfl, rfl⟩
    all_goals exact .inr ⟨nofun, rfl⟩
  | failure failure => exact .inr ⟨fun _ => nofun, (receiveFailure_frame _ id payload failure).2.2⟩

end Machine
end Outbox
