/-
# What a machine needs

Each part of a machine needs some requests to be sent, whatever is queued. A decision pass wants those of
them that do not overlap with a queued request. Queries are needed for users: those of queued queries need
none, so a needed query is wanted.

Key definitions: `Machine.Needs`.
Key theorems: `Machine.needs_congr`, `Machine.mem_wanted_iff_needs`.
-/
import Outbox.Proofs.NoDuplicates

namespace Outbox
namespace Machine

variable {m m' : Machine} {now : Instant} {p q : Payload}

/-- The parts of the machine need a request with the payload. -/
def Needs (m : Machine) (now : Instant) : Payload → Prop
  | .keysUpload x => m.ownKeys.upload? = some x
  | .keysQuery x => x ∈ m.deviceLists.queries m.settings now
  | .keysClaim x => m.sessions.claim? m.settings = some x
  | .toDevice x => x ∈ m.messages.toDevice.values
  | .signatureUpload x => m.ownKeys.shared = true ∧ m.messages.signatureUpload? = some x
  | .roomMessage x => x ∈ m.messages.roomMessages.values
  | .keysBackup x => m.backup.request? m.settings.backupBatchSize.toNat = some x

/-- What is needed besides queries is up to the parts and the settings, and not to the queue and the time. -/
theorem needs_congr (hk : p.kind ≠ .keysQuery) (hsettings : m'.settings = m.settings)
    (hown : m'.ownKeys = m.ownKeys) (hsessions : m'.sessions = m.sessions)
    (hmessages : m'.messages = m.messages) (hbackup : m'.backup = m.backup) {now' : Instant} :
    m'.Needs now' p ↔ m.Needs now p := by
  cases p with
  | keysQuery x => exact absurd rfl hk
  | _ => simp only [Needs, hsettings, hown, hsessions, hmessages, hbackup]

/-- What is wanted is needed. -/
theorem needs_of_mem_wanted (hp : p ∈ m.wanted now) : m.Needs now p := by
  rcases mem_wanted.1 hp with hp | hp | hp | hp | hp | hp | hp
  · obtain ⟨x, hx, rfl⟩ := Option.map_eq_some_iff.1 (mem_onePerKind.1 hp).2
    exact hx
  · obtain ⟨x, hx, rfl⟩ := List.mem_map.1 hp
    exact hx
  · obtain ⟨x, hx, rfl⟩ := Option.map_eq_some_iff.1 (mem_onePerKind.1 hp).2
    exact hx
  · obtain ⟨x, hx, rfl, -⟩ := mem_wantedToDevice.1 hp
    exact hx
  · obtain ⟨hshared, -, he⟩ := mem_wantedSignatureUpload.1 hp
    obtain ⟨x, hx, rfl⟩ := Option.map_eq_some_iff.1 he
    exact ⟨hshared, hx⟩
  · obtain ⟨x, hx, rfl, -⟩ := mem_wantedRoomMessages.1 hp
    exact hx
  · obtain ⟨-, x, rfl, hx⟩ := request?_of_mem_wantedKeysBackup hp
    exact hx

/-- What is wanted overlaps with no queued request, but for queries. -/
theorem not_overlaps_of_mem_wanted_of_kind (hp : p ∈ m.wanted now) (hk : p.kind ≠ .keysQuery)
    {r : OutgoingRequest} (hr : r ∈ m.queue.contents) : ¬ r.payload.Overlaps p := by
  intro ho
  refine not_overlaps_of_mem_wanted hr (fun x hx => ?_) hp ho
  rw [hx] at ho
  exact absurd ho.kind_eq.symm hk

/-- A kind of which no request is queued is free. -/
theorem containsKind_eq_false {kind : RequestKind}
    (hfree : ∀ r ∈ m.queue.contents, r.kind ≠ kind) : m.queue.containsKind kind = false := by
  rw [Bool.eq_false_iff, ne_eq, Queue.containsKind_iff]
  rintro ⟨r, hr, hk⟩
  exact hfree r hr hk

/-- What is needed is wanted, unless it overlaps with a queued request. -/
theorem mem_wanted_of_needs (hp : m.Needs now p)
    (hfree : ∀ r ∈ m.queue.contents, ¬ r.payload.Overlaps p) : p ∈ m.wanted now := by
  have hkind : p.kind = .keysUpload ∨ p.kind = .keysClaim ∨ p.kind = .signatureUpload →
      m.queue.containsKind p.kind = false := fun hk =>
    containsKind_eq_false fun r hr he => hfree r hr (Payload.overlaps_of_kind hk he rfl)
  have hmessage : ∀ message, p.message? = some message →
      ∀ x ∈ m.queue.contents, x.payload.message? ≠ some message := fun message hmsg x hx he =>
    hfree x hx (Payload.overlaps_of_message? he hmsg)
  rw [mem_wanted]
  cases p with
  | keysUpload x =>
    refine .inl (mem_onePerKind.2 ⟨hkind (.inl rfl), ?_⟩)
    rw [show m.ownKeys.upload? = some x from hp, Option.map_some]
  | keysQuery x => exact .inr (.inl (List.mem_map_of_mem hp))
  | keysClaim x =>
    refine .inr (.inr (.inl (mem_onePerKind.2 ⟨hkind (.inr (.inl rfl)), ?_⟩)))
    rw [show m.sessions.claim? m.settings = some x from hp, Option.map_some]
  | toDevice x =>
    exact .inr (.inr (.inr (.inl (mem_wantedToDevice.2 ⟨x, hp, rfl, hmessage _ rfl⟩))))
  | signatureUpload x =>
    refine .inr (.inr (.inr (.inr (.inl (mem_wantedSignatureUpload.2
      ⟨hp.1, hkind (.inr (.inr rfl)), ?_⟩)))))
    rw [hp.2, Option.map_some]
  | roomMessage x =>
    exact .inr (.inr (.inr (.inr (.inr (.inl (mem_wantedRoomMessages.2
      ⟨x, hp, rfl, hmessage _ rfl⟩))))))
  | keysBackup x =>
    have hreq : m.backup.request? m.settings.backupBatchSize.toNat = some x := hp
    have hqueued : m.isBackupQueued = false := by
      rw [Bool.eq_false_iff, ne_eq, isBackupQueued_iff (Backup.rooms_of_request? hreq).1]
      rintro ⟨r, hr, b, hb, hv⟩
      refine hfree r hr ?_
      rw [hb]
      exact hv
    refine .inr (.inr (.inr (.inr (.inr (.inr ?_)))))
    rw [wantedKeysBackup, hqueued, hreq]
    exact List.mem_cons_self

/-- **A request is wanted exactly if it is needed and overlaps with no queued one**, unless it is a query:
those are wanted whenever they are needed. -/
theorem mem_wanted_iff_needs : p ∈ m.wanted now ↔ m.Needs now p ∧
    (p.kind = .keysQuery ∨ ∀ r ∈ m.queue.contents, ¬ r.payload.Overlaps p) := by
  constructor
  · intro hp
    refine ⟨needs_of_mem_wanted hp, ?_⟩
    by_cases hk : p.kind = .keysQuery
    · exact .inl hk
    · exact .inr fun r hr => not_overlaps_of_mem_wanted_of_kind hp hk hr
  · rintro ⟨hp, hk | hfree⟩
    · cases p <;> cases hk
      exact mem_wanted.2 (.inr (.inl (List.mem_map_of_mem hp)))
    · exact mem_wanted_of_needs hp hfree

end Machine
end Outbox
