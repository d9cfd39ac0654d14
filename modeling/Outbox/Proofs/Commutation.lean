/-
# Ends of requests commute

What a machine knows is the state of its parts, without the queue, the names, the notes on queries on their
way and the times of failures. The end of a request acts on each part by a function, which is the identity
on the parts that the request is not about. So the ends of two requests commute if no part is touched by
both, or the functions commute: marks in a backup and what is dropped from messages do, and no two uploads
of keys and no two claims are in flight. A decision pass in between changes nothing that is known, and no
note on a query that was made before.

Key definitions: `Backoff.counts`, `DeviceLists.known`, `Machine.knowledge`, `Machine.Acts`.
Key theorems: `DeviceLists.known_receiveQuery_congr`, `Machine.Acts.comm`,
`Machine.knowledge_withOutcome_congr`, `Machine.knowledge_withOutcome_comm`, `Machine.completions_commute`.
-/
import Mathlib.Logic.Function.Conjugate
import Outbox.Proofs.Atomicity
import Outbox.Proofs.Workload

namespace Outbox

/-! ### Failures without their times -/

namespace Backoff

variable {κ : Type} [Ord κ] [Std.TransOrd κ] [Std.LawfulEqOrd κ] {b b' : Backoff κ}

/-- How often each item on record failed again. -/
def counts (b : Backoff κ) : SortedMap κ Nat := b.items.mapValues fun _ i => i.repetitions

theorem counts_eq_iff : b.counts = b'.counts ↔ ∀ k,
    (b.items.get? k).map Item.repetitions = (b'.items.get? k).map Item.repetitions := by
  constructor
  · intro h k
    have hk : b.counts.get? k = b'.counts.get? k := by rw [h]
    simpa [counts] using hk
  · intro h
    ext1 k
    simpa [counts] using h k

/-- How often an item failed does not depend on the times. -/
theorem counts_record (h : b.counts = b'.counts) (now now' : Instant) (k : κ) :
    (b.record now k).counts = (b'.record now' k).counts := by
  have hrep : ∀ (b : Backoff κ) (now : Instant),
      ((b.record now k).items.get? k).map Item.repetitions =
        some (((b.items.get? k).map Item.repetitions).elim 0 fun n => min (n + 1) maxRepetitions) := by
    intro b now
    rw [record, SortedMap.get?_insert_self]
    cases b.items.get? k <;> rfl
  rw [counts_eq_iff] at h ⊢
  intro x
  by_cases hx : x = k
  · rw [hx, hrep, hrep, h k]
  · rw [record, record, SortedMap.get?_insert_of_ne _ _ hx, SortedMap.get?_insert_of_ne _ _ hx]
    exact h x

theorem counts_extend (h : b.counts = b'.counts) (now now' : Instant) (l : List κ) :
    (b.extend now l).counts = (b'.extend now' l).counts := by
  unfold extend
  induction l generalizing b b' with
  | nil => exact h
  | cons k l ih => exact ih (counts_record h now now' k)

theorem counts_remove (h : b.counts = b'.counts) (l : List κ) :
    (b.remove l).counts = (b'.remove l).counts := by
  unfold remove
  induction l generalizing b b' with
  | nil => exact h
  | cons k l ih =>
    have herase : counts ⟨b.items.erase k⟩ = counts ⟨b'.items.erase k⟩ := by
      refine counts_eq_iff.2 fun x => ?_
      by_cases hx : x = k
      · rw [hx, SortedMap.get?_erase_self, SortedMap.get?_erase_self]
      · rw [SortedMap.get?_erase_of_ne _ hx, SortedMap.get?_erase_of_ne _ hx]
        exact counts_eq_iff.1 h x
    exact ih herase

end Backoff

/-! ### What is known -/

/-- What is known of the devices of users. -/
structure KnownDevices where
  /-- Our own user. -/
  ownUser : UserId
  /-- The tracked users, with whether they are outdated. -/
  tracked : SortedMap UserId TrackedUser
  /-- The number of invalidations so far. -/
  invalidations : Nat
  /-- The point of the event stream. -/
  syncToken : Option String
  /-- The devices of users. -/
  devices : Rows UserId DeviceId Opaque
  /-- The servers that did not answer, with how often they failed again. -/
  failures : SortedMap ServerName Nat

namespace DeviceLists

variable {d d' : DeviceLists}

/-- What is known of devices, whatever queries are on their way. -/
def known (d : DeviceLists) : KnownDevices where
  ownUser := d.ownUser
  tracked := d.tracked
  invalidations := d.invalidations
  syncToken := d.syncToken
  devices := d.devices
  failures := d.failures.counts

/-- What is known after an answer depends on what was known, and of the queries on their way on the one
that was answered. -/
theorem known_receiveQuery_congr {id : RequestId} (hk : d.known = d'.known)
    (hn : d.queriesInFlight.get? id = d'.queriesInFlight.get? id) (now now' : Instant)
    (response : KeysQueryResponse) :
    (d.receiveQuery now id response).known = (d'.receiveQuery now' id response).known := by
  obtain ⟨hown, htracked, hinv, htoken, hdev, hfail⟩ := KnownDevices.mk.inj hk
  have hupdate : d.bringsUpToDate = d'.bringsUpToDate := by
    funext details response u t
    rw [bringsUpToDate, bringsUpToDate, isFailed, isFailed, hown]
  have hservers : d.failedServers response = d'.failedServers response := by
    rw [failedServers, failedServers, hown]
  unfold known receiveQuery
  simp only [hown, htracked, hinv, htoken, hdev, hn, hupdate, hservers,
    Backoff.counts_remove (Backoff.counts_extend hfail now now' _)]

end DeviceLists

/-- What a machine knows. -/
structure Knowledge where
  /-- The keys of the device. -/
  ownKeys : OwnKeys
  /-- The devices of other users. -/
  devices : KnownDevices
  /-- The sessions with devices. -/
  sessions : Sessions
  /-- Messages and signatures to send. -/
  messages : Messages
  /-- The backup of room keys. -/
  backup : Backup

/-! ### Messages that are dropped -/

theorem InsertionMap.filter_comm {κ α : Type} (m : InsertionMap κ α) (p q : κ → α → Bool) :
    (m.filter p).filter q = (m.filter q).filter p := by
  refine eq_of_toList_eq ?_
  simp only [filter, List.filter_filter]
  exact List.filter_congr fun e _ => Bool.and_comm _ _

theorem SortedMap.filter_comm {κ α : Type} [Ord κ] (m : SortedMap κ α) (p q : κ → α → Bool) :
    (m.filter p).filter q = (m.filter q).filter p := by
  refine eq_of_toList_eq ?_
  simp only [filter, List.filter_filter]
  exact List.filter_congr fun e _ => Bool.and_comm _ _

theorem InsertionMap.filter_true {κ α : Type} (m : InsertionMap κ α) : m.filter (fun _ _ => true) = m :=
  eq_of_toList_eq (List.filter_eq_self.2 fun _ _ => rfl)

theorem SortedMap.filter_true {κ α : Type} [Ord κ] (m : SortedMap κ α) :
    m.filter (fun _ _ => true) = m :=
  eq_of_toList_eq (List.filter_eq_self.2 fun _ _ => rfl)

namespace Messages

/-- The messages and signatures that pass tests. -/
def keep (s : Messages) (toDevice : TransactionId → ToDevice → Bool)
    (roomMessage : TransactionId → RoomMessage → Bool) (signature : Cell UserId KeyId → Opaque → Bool) :
    Messages :=
  ⟨s.toDevice.filter toDevice, s.roomMessages.filter roomMessage, s.signatures.filter signature⟩

theorem keep_comm (s : Messages) (p₁ q₁ : TransactionId → ToDevice → Bool)
    (p₂ q₂ : TransactionId → RoomMessage → Bool) (p₃ q₃ : Cell UserId KeyId → Opaque → Bool) :
    (s.keep p₁ p₂ p₃).keep q₁ q₂ q₃ = (s.keep q₁ q₂ q₃).keep p₁ p₂ p₃ := by
  simp only [keep, InsertionMap.filter_comm _ p₁ q₁, InsertionMap.filter_comm _ p₂ q₂,
    SortedMap.filter_comm _ p₃ q₃]

theorem keep_all (s : Messages) : s.keep (fun _ _ => true) (fun _ _ => true) (fun _ _ => true) = s := by
  simp only [keep, InsertionMap.filter_true, SortedMap.filter_true]

theorem removeToDevice_eq_keep (s : Messages) (txnId : TransactionId) : s.removeToDevice txnId =
    s.keep (fun t _ => t != txnId) (fun _ _ => true) (fun _ _ => true) := by
  simp only [keep, InsertionMap.filter_true, SortedMap.filter_true]
  rfl

theorem removeRoomMessage_eq_keep (s : Messages) (txnId : TransactionId) : s.removeRoomMessage txnId =
    s.keep (fun _ _ => true) (fun t _ => t != txnId) (fun _ _ => true) := by
  simp only [keep, InsertionMap.filter_true, SortedMap.filter_true]
  rfl

theorem receiveSignatureUpload_eq_keep (s : Messages) (x : SignatureUpload) :
    s.receiveSignatureUpload x = s.keep (fun _ _ => true) (fun _ _ => true)
      (fun key signed => !(x.signedKeys.get? key).any (· == signed)) := by
  simp only [keep, InsertionMap.filter_true]
  rfl

end Messages

/-! ### Marks in a backup -/

namespace Backup

/-- An answered request marks the keys that it has, if it is for the active version. -/
theorem markSent_eq (b : Backup) (x : KeysBackup) : b.markSent x = { b with
    roomKeys := b.roomKeys.mapValues fun key e =>
      if b.version = some x.version ∧ (x.rooms.get? key).any (· == e.data) = true then
        { e with backedUp := true }
      else e } := by
  unfold markSent
  by_cases hv : b.version = some x.version
  · simp [hv]
  · have hsame : (b.roomKeys.mapValues fun _ e => e) = b.roomKeys := by
      ext1 key
      simp
    simp [hv, hsame]

/-- Marks in a backup are made in any order. -/
theorem markSent_comm (b : Backup) (x y : KeysBackup) :
    (b.markSent x).markSent y = (b.markSent y).markSent x := by
  have hkeys : ((b.markSent x).markSent y).roomKeys = ((b.markSent y).markSent x).roomKeys := by
    ext1 key
    simp only [markSent_eq, SortedMap.get?_mapValues, Option.map_map]
    congr 1
    funext e
    simp only [Function.comp_apply]
    grind
  have hversion : ((b.markSent x).markSent y).version = ((b.markSent y).markSent x).version := by simp
  exact congrArg₂ Backup.mk hversion hkeys

end Backup

namespace Machine

variable {α : Type} {m m' : Machine} {r s : OutgoingRequest} {outcome outcome' : Outcome}
  {h : List Turn}

/-- What the machine knows. -/
def knowledge (m : Machine) : Knowledge where
  ownKeys := m.ownKeys
  devices := m.deviceLists.known
  sessions := m.sessions
  messages := m.messages
  backup := m.backup

/-- A decision pass changes nothing that the machine knows. -/
theorem knowledge_decisionPass (m : Machine) (now : Instant) :
    (m.decisionPass now).knowledge = m.knowledge := by
  have hknown : (m.decisionPass now).deviceLists.known = m.deviceLists.known := by
    rw [decisionPass, addAll_queriesInFlight]
    rfl
  rw [knowledge, hknown, decisionPass, addAll_ownKeys, addAll_sessions, addAll_messages, addAll_backup]
  rfl

/-! ### The end of one request -/

/-- The end of a request acts on a part of the machine by a function. -/
def Acts (r : OutgoingRequest) (outcome : Outcome) (part : Machine → α) (f : α → α) : Prop :=
  ∀ (m : Machine) (now : Instant), part (m.withOutcome now r outcome) = f (part m)

/-- The ends of two requests commute on a part if their functions do, at whatever times they are known. -/
theorem Acts.comm {part : Machine → α} {f g : α → α} (hf : Acts r outcome part f)
    (hg : Acts s outcome' part g) (hc : Function.Commute f g) (m : Machine) (t₁ t₂ t₃ t₄ : Instant) :
    part ((m.withOutcome t₁ r outcome).withOutcome t₂ s outcome') =
      part ((m.withOutcome t₃ s outcome').withOutcome t₄ r outcome) := by
  calc part ((m.withOutcome t₁ r outcome).withOutcome t₂ s outcome')
      = g (f (part m)) := by rw [hg, hf]
    _ = f (g (part m)) := (hc _).symm
    _ = part ((m.withOutcome t₃ s outcome').withOutcome t₄ r outcome) := by rw [hf, hg]

/-- Two functions commute if one of them is the identity. -/
theorem commute_of_eq_id {f g : α → α} (h : f = id ∨ g = id) : Function.Commute f g := by
  rcases h with rfl | rfl
  · exact Function.Commute.id_left
  · exact Function.Commute.id_right

theorem acts_ownKeys (fits : outcome.mismatch? r.kind = none) :
    ∃ f, Acts r outcome ownKeys f ∧ (r.kind ≠ .keysUpload → f = id) := by
  obtain ⟨name, payload⟩ := r
  cases outcome with
  | success response =>
    have hk : response.kind = payload.kind := Outcome.mismatch?_success_eq_none_iff.1 fits
    cases payload <;> cases response <;> cases hk
    case keysUpload.keysUpload.refl x response =>
      exact ⟨fun k => k.receiveUpload x response, fun _ _ => rfl, fun hne => absurd rfl hne⟩
    all_goals exact ⟨id, fun _ _ => rfl, fun _ => rfl⟩
  | failure failure =>
    exact ⟨id, fun _ _ => (receiveFailure_frame _ name payload failure).1, fun _ => rfl⟩

theorem acts_sessions (fits : outcome.mismatch? r.kind = none) :
    ∃ f, Acts r outcome sessions f ∧ (r.kind ≠ .keysClaim → f = id) := by
  obtain ⟨name, payload⟩ := r
  cases outcome with
  | success response =>
    have hk : response.kind = payload.kind := Outcome.mismatch?_success_eq_none_iff.1 fits
    cases payload <;> cases response <;> cases hk
    case keysClaim.keysClaim.refl x response =>
      exact ⟨fun s => s.receiveClaim x response, fun _ _ => rfl, fun hne => absurd rfl hne⟩
    all_goals exact ⟨id, fun _ _ => rfl, fun _ => rfl⟩
  | failure failure =>
    cases hf : failure.isPermanent with
    | true =>
      cases payload
      case keysClaim x =>
        refine ⟨fun s => s.failClaim x, fun m now => ?_, fun hne => absurd rfl hne⟩
        simp [withOutcome, receiveOutcome, receiveFailure, hf]
      all_goals
        exact ⟨id, fun m now => by simp [withOutcome, receiveOutcome, receiveFailure, hf], fun _ => rfl⟩
    | false =>
      refine ⟨id, fun m now => ?_, fun _ => rfl⟩
      cases payload <;> simp [withOutcome, receiveOutcome, receiveFailure, hf]

/-- The end of a request only drops messages and signatures. -/
theorem acts_messages (fits : outcome.mismatch? r.kind = none) :
    ∃ p q s, Acts r outcome messages fun x => x.keep p q s := by
  obtain ⟨name, payload⟩ := r
  -- Whatever does not touch the messages keeps all of them.
  have untouched : (∀ (m : Machine) (now : Instant),
      (m.withOutcome now ⟨name, payload⟩ outcome).messages = m.messages) →
      ∃ p q s, Acts ⟨name, payload⟩ outcome messages fun x => x.keep p q s := fun h =>
    ⟨_, _, _, fun m now => (h m now).trans m.messages.keep_all.symm⟩
  cases outcome with
  | success response =>
    have hk : response.kind = payload.kind := Outcome.mismatch?_success_eq_none_iff.1 fits
    cases payload <;> cases response <;> cases hk
    case toDevice.toDevice.refl x response => exact ⟨_, _, _, fun m _ => m.messages.removeToDevice_eq_keep _⟩
    case roomMessage.roomMessage.refl x response =>
      exact ⟨_, _, _, fun m _ => m.messages.removeRoomMessage_eq_keep _⟩
    case signatureUpload.signatureUpload.refl x response =>
      exact ⟨_, _, _, fun m _ => m.messages.receiveSignatureUpload_eq_keep _⟩
    all_goals exact untouched fun _ _ => rfl
  | failure failure =>
    cases hf : failure.isPermanent with
    | true =>
      cases payload
      case toDevice x =>
        refine ⟨_, _, _, fun m _ => Eq.trans ?_ (m.messages.removeToDevice_eq_keep x.txnId)⟩
        simp [withOutcome, receiveOutcome, receiveFailure, hf]
      case roomMessage x =>
        refine ⟨_, _, _, fun m _ => Eq.trans ?_ (m.messages.removeRoomMessage_eq_keep x.txnId)⟩
        simp [withOutcome, receiveOutcome, receiveFailure, hf]
      all_goals
        exact untouched fun m now => by simp [withOutcome, receiveOutcome, receiveFailure, hf]
    | false =>
      refine untouched fun m now => ?_
      cases payload <;> simp [withOutcome, receiveOutcome, receiveFailure, hf]

/-- The end of a request makes marks in the backup, or leaves it. -/
theorem acts_backup (fits : outcome.mismatch? r.kind = none) :
    ∃ f, Acts r outcome backup f ∧ (f = id ∨ ∃ x, f = fun b => b.markSent x) := by
  obtain ⟨name, payload⟩ := r
  cases outcome with
  | success response =>
    have hk : response.kind = payload.kind := Outcome.mismatch?_success_eq_none_iff.1 fits
    cases payload <;> cases response <;> cases hk
    case keysBackup.keysBackup.refl x response => exact ⟨_, fun _ _ => rfl, .inr ⟨x, rfl⟩⟩
    all_goals exact ⟨id, fun _ _ => rfl, .inl rfl⟩
  | failure failure =>
    exact ⟨id, fun _ _ => (receiveFailure_frame _ name payload failure).2.2, .inl rfl⟩

/-- The end of a request that is not a query leaves the device lists as they are. -/
theorem deviceLists_withOutcome_of_kind (m : Machine) (now : Instant)
    (fits : outcome.mismatch? r.kind = none) (hk : r.kind ≠ .keysQuery) :
    (m.withOutcome now r outcome).deviceLists = m.deviceLists := by
  rcases withOutcome_deviceLists m now fits with ⟨-, he⟩ | ⟨q, _, hp, -⟩ | ⟨q, _, hp, -⟩
  · exact he
  all_goals exact absurd (congrArg Payload.kind hp) hk

/-- What is known of devices after the end of a request depends on what was known, and of the queries on
their way on the one that ended. -/
theorem known_withOutcome_congr (fits : outcome.mismatch? r.kind = none)
    (hk : m.deviceLists.known = m'.deviceLists.known)
    (hn : m.deviceLists.queriesInFlight.get? r.id = m'.deviceLists.queriesInFlight.get? r.id)
    (now now' : Instant) : (m.withOutcome now r outcome).deviceLists.known =
      (m'.withOutcome now' r outcome).deviceLists.known := by
  by_cases hq : r.kind = .keysQuery
  · obtain ⟨name, payload⟩ := r
    cases payload <;> cases hq
    cases outcome with
    | success response =>
      have hr : response.kind = .keysQuery := Outcome.mismatch?_success_eq_none_iff.1 fits
      cases response <;> cases hr
      exact DeviceLists.known_receiveQuery_congr hk hn now now' _
    | failure failure => exact hk
  · rw [deviceLists_withOutcome_of_kind m now fits hq, deviceLists_withOutcome_of_kind m' now' fits hq, hk]

/-- What a machine knows after the end of a request depends on what it knew, and of the queries on their
way on the one that ended. -/
theorem knowledge_withOutcome_congr (fits : outcome.mismatch? r.kind = none)
    (hk : m.knowledge = m'.knowledge)
    (hn : m.deviceLists.queriesInFlight.get? r.id = m'.deviceLists.queriesInFlight.get? r.id)
    (now now' : Instant) :
    (m.withOutcome now r outcome).knowledge = (m'.withOutcome now' r outcome).knowledge := by
  obtain ⟨hown, hdevices, hsessions, hmessages, hbackup⟩ := Knowledge.mk.inj hk
  obtain ⟨f, hf, -⟩ := acts_ownKeys fits
  obtain ⟨g, hg, -⟩ := acts_sessions fits
  obtain ⟨p, q, s, hs⟩ := acts_messages fits
  obtain ⟨b, hb, -⟩ := acts_backup fits
  rw [knowledge, knowledge, hf, hf, hown, hg, hg, hsessions, hs, hs, hmessages, hb, hb, hbackup,
    known_withOutcome_congr fits hdevices hn now now']

/-! ### The ends of two requests -/

/-- What is known of devices does not depend on the order in which a query and another request end. -/
theorem known_withOutcome_comm (hr : outcome.mismatch? r.kind = none)
    (hs : outcome'.mismatch? s.kind = none) (hk : r.kind ≠ .keysQuery ∨ s.kind ≠ .keysQuery) (m : Machine)
    (t₁ t₂ t₃ t₄ : Instant) :
    ((m.withOutcome t₁ r outcome).withOutcome t₂ s outcome').deviceLists.known =
      ((m.withOutcome t₃ s outcome').withOutcome t₄ r outcome).deviceLists.known := by
  rcases hk with hk | hk
  · have he := deviceLists_withOutcome_of_kind m t₁ hr hk
    rw [deviceLists_withOutcome_of_kind _ t₄ hr hk]
    exact known_withOutcome_congr hs (by rw [he]) (by rw [he]) t₂ t₃
  · have he := deviceLists_withOutcome_of_kind m t₃ hs hk
    rw [deviceLists_withOutcome_of_kind _ t₂ hs hk]
    exact known_withOutcome_congr hr (by rw [he]) (by rw [he]) t₁ t₄

/-- What is known does not depend on the order in which two requests end that do not overlap and are not
both queries. -/
theorem knowledge_withOutcome_comm (hr : outcome.mismatch? r.kind = none)
    (hs : outcome'.mismatch? s.kind = none) (hk : r.kind ≠ .keysQuery ∨ s.kind ≠ .keysQuery)
    (ho : ¬ r.payload.Overlaps s.payload) (m : Machine) (t₁ t₂ t₃ t₄ : Instant) :
    ((m.withOutcome t₁ r outcome).withOutcome t₂ s outcome').knowledge =
      ((m.withOutcome t₃ s outcome').withOutcome t₄ r outcome).knowledge := by
  have hone : ∀ {kind : RequestKind}, kind = .keysUpload ∨ kind = .keysClaim ∨ kind = .signatureUpload →
      r.kind ≠ kind ∨ s.kind ≠ kind := fun hkind => by
    rw [← not_and_or]
    exact fun h => ho (Payload.overlaps_of_kind hkind h.1 h.2)
  obtain ⟨f, hf, hfid⟩ := acts_ownKeys hr
  obtain ⟨f', hf', hfid'⟩ := acts_ownKeys hs
  obtain ⟨g, hg, hgid⟩ := acts_sessions hr
  obtain ⟨g', hg', hgid'⟩ := acts_sessions hs
  obtain ⟨p₁, p₂, p₃, hp⟩ := acts_messages hr
  obtain ⟨q₁, q₂, q₃, hq⟩ := acts_messages hs
  obtain ⟨b, hb, hbmark⟩ := acts_backup hr
  obtain ⟨b', hb', hbmark'⟩ := acts_backup hs
  have hfc : Function.Commute f f' := commute_of_eq_id ((hone (.inl rfl)).imp hfid hfid')
  have hgc : Function.Commute g g' := commute_of_eq_id ((hone (.inr (.inl rfl))).imp hgid hgid')
  have hbc : Function.Commute b b' := by
    rcases hbmark with rfl | ⟨x, rfl⟩
    · exact commute_of_eq_id (.inl rfl)
    rcases hbmark' with rfl | ⟨y, rfl⟩
    · exact commute_of_eq_id (.inr rfl)
    · exact fun z => z.markSent_comm y x
  rw [knowledge, knowledge, hf.comm hf' hfc m t₁ t₂ t₃ t₄, hg.comm hg' hgc m t₁ t₂ t₃ t₄,
    hp.comm hq (fun x => x.keep_comm q₁ p₁ q₂ p₂ q₃ p₃) m t₁ t₂ t₃ t₄, hb.comm hb' hbc m t₁ t₂ t₃ t₄,
    known_withOutcome_comm hr hs hk m t₁ t₂ t₃ t₄]

/-! ### Decision passes in between -/

/-- Two different queued requests that are not both queries do not overlap. -/
theorem Reached.not_overlaps (hm : Reached h m) (hr : r ∈ m.queue.contents) (hs : s ∈ m.queue.contents)
    (hne : r ≠ s) (hk : r.kind ≠ .keysQuery ∨ s.kind ≠ .keysQuery) : ¬ r.payload.Overlaps s.payload := by
  intro ho
  have hkind : r.kind = s.kind := ho.kind_eq
  have hrk : r.kind ≠ .keysQuery := by
    rw [← hkind, or_self] at hk
    exact hk
  have hd := hm.agrees.mem_decided hr hrk
  have hd' := hm.agrees.mem_decided hs (by rwa [← hkind])
  exact hm.worksOnce.not_overlaps hr hs hne hd hd' ho

/-- After one request was marked, another one that was in flight can be marked, and the machine then knows
what it would know without the decision pass in between. -/
theorem Reached.run_markAsSent_pair (hm : Reached h m) (hr : r ∈ m.queue.inFlight)
    (hs : s ∈ m.queue.inFlight) (hne : s.id ≠ r.id) (fits : outcome.mismatch? r.kind = none)
    (fits' : outcome'.mismatch? s.kind = none) (t₁ t₂ : Instant) :
    let ended := m.run [(t₁, .markAsSent r.id outcome), (t₂, .markAsSent s.id outcome')]
    ended.1 = [.done, .done] ∧
      ended.2.knowledge = ((m.withOutcome t₁ r outcome).withOutcome t₂ s outcome').knowledge := by
  intro ended
  have hnamed : (m.withOutcome t₁ r outcome).Named := (hm.agrees.complete hr t₁ outcome).named
  have hs₁ : s ∈ (m.withOutcome t₁ r outcome).queue.inFlight := by
    rw [withOutcome_queue, Queue.mem_inFlight_withoutRequest]
    exact ⟨hs, hne⟩
  have hs₂ : s ∈ ((m.withOutcome t₁ r outcome).decisionPass t₁).queue.inFlight := by
    rw [decisionPass, inFlight_addAll hnamed]
    exact hs₁
  have hnote : ((m.withOutcome t₁ r outcome).decisionPass t₁).deviceLists.queriesInFlight.get? s.id =
      (m.withOutcome t₁ r outcome).deviceLists.queriesInFlight.get? s.id :=
    get?_addAll_of_minted (hnamed s (Queue.mem_contents_iff.2 (.inr hs₁))) _
  have hended : ended = ([.done, .done],
      (((m.withOutcome t₁ r outcome).decisionPass t₁).withOutcome t₂ s outcome').decisionPass t₂) := by
    simp only [ended, Machine.run, step_markAsSent_eq hr fits, step_markAsSent_eq hs₂ fits']
  rw [hended]
  refine ⟨rfl, ?_⟩
  rw [knowledge_decisionPass]
  exact knowledge_withOutcome_congr fits' (knowledge_decisionPass _ t₁) hnote t₂ t₂

/-- **The order in which independent requests end does not matter.** Whatever calls were made to a new
machine, of two requests in flight that are not both queries, with outcomes that are accepted for them,
either can be marked first, at whatever times: both are accepted in both orders, and the machine knows the
same in the end. -/
theorem completions_commute (userId : UserId) (deviceId : DeviceId) (deviceKeys : Opaque)
    (settings : Settings) (ids : IdSource) (calls : List (Instant × Call)) (r s : OutgoingRequest)
    (outcome outcome' : Outcome) (t₁ t₂ t₃ t₄ : Instant) :
    let m := ((new userId deviceId deviceKeys settings ids).run calls).2
    let rs := m.run [(t₁, .markAsSent r.id outcome), (t₂, .markAsSent s.id outcome')]
    let sr := m.run [(t₃, .markAsSent s.id outcome'), (t₄, .markAsSent r.id outcome)]
    r ∈ m.inFlightRequests → s ∈ m.inFlightRequests → r ≠ s →
      r.kind ≠ .keysQuery ∨ s.kind ≠ .keysQuery →
      (m.step t₁ (.markAsSent r.id outcome)).1 = .done →
      (m.step t₃ (.markAsSent s.id outcome')).1 = .done →
      rs.1 = [.done, .done] ∧ sr.1 = [.done, .done] ∧ rs.2.knowledge = sr.2.knowledge := by
  intro m rs sr hr hs hne hk hdone hdone'
  have hm : Reached _ m := (Reached.new userId deviceId deviceKeys settings ids).run calls
  have hrc : r ∈ m.queue.contents := Queue.mem_contents_iff.2 (.inr hr)
  have hsc : s ∈ m.queue.contents := Queue.mem_contents_iff.2 (.inr hs)
  have hids : s.id ≠ r.id := fun he => hne (Queue.eq_of_id_eq hrc hsc he.symm)
  have fits : outcome.mismatch? r.kind = none := by
    rw [step_markAsSent_done_iff] at hdone
    exact (exists_inFlight_iff hr).1 hdone
  have fits' : outcome'.mismatch? s.kind = none := by
    rw [step_markAsSent_done_iff] at hdone'
    exact (exists_inFlight_iff hs).1 hdone'
  have hoverlap : ¬ r.payload.Overlaps s.payload := hm.not_overlaps hrc hsc hne hk
  obtain ⟨hrs, hrsk⟩ := hm.run_markAsSent_pair hr hs hids fits fits' t₁ t₂
  obtain ⟨hsr, hsrk⟩ := hm.run_markAsSent_pair hs hr hids.symm fits' fits t₃ t₄
  refine ⟨hrs, hsr, ?_⟩
  rw [hrsk, hsrk]
  exact knowledge_withOutcome_comm fits fits' hk hoverlap m t₁ t₂ t₃ t₄

/-- The upload of the keys of a new machine and its first query, answered in either order. -/
theorem completions_commute_upload_query :
    let m := (Sample.machine.run [(0, .outgoingRequests)]).2
    let upload : Instant × Call := (1, .markAsSent "r-0" (.success (.keysUpload ⟨∅⟩)))
    let query : Instant × Call := (2, .markAsSent "r-1" (.success (.keysQuery Sample.listing)))
    (m.run [upload, query]).1 = [.done, .done] ∧ (m.run [query, upload]).1 = [.done, .done] ∧
      (m.run [upload, query]).2.knowledge = (m.run [query, upload]).2.knowledge ∧
      (m.run [upload, query]).2.ownKeys.shared = true ∧ (m.run [upload, query]).2.usersForKeyQuery = [] := by
  intro m upload query
  have hin : ∃ r s, m.inFlightRequests = [r, s] ∧ r.id = "r-0" ∧ s.id = "r-1" ∧ r.kind = .keysUpload :=
    ⟨_, _, rfl, rfl, rfl, rfl⟩
  obtain ⟨r, s, hin, hr, hs, hk⟩ := hin
  have hne : r ≠ s := fun he => by
    rw [he, hs] at hr
    exact absurd hr (by decide)
  have hrm : r ∈ m.inFlightRequests := by simp [hin]
  have hsm : s ∈ m.inFlightRequests := by simp [hin]
  have hends := completions_commute Sample.alice "DEVICE" .null .default (.counting "r")
    [(0, .outgoingRequests)] r s (.success (.keysUpload ⟨∅⟩)) (.success (.keysQuery Sample.listing)) 1 2 2 1
    hrm hsm hne (.inl (by rw [hk]; decide)) (by rw [hr]; rfl) (by rw [hs]; rfl)
  rw [hr, hs] at hends
  exact ⟨hends.1, hends.2.1, hends.2.2, by decide +kernel, by decide +kernel⟩

end Machine
end Outbox
