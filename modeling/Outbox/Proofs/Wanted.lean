/-
# What a decision pass wants

A machine wants a request of each kind that it needs and that is not queued yet. What is wanted does not
overlap: two payloads overlap if they would do the same work, that is if they are uploads of keys or of
signatures or claims, if they are queries with a user in common, if they carry the same message, or if
they are backups of the same version.

Key definitions: `Payload.message?`, `Payload.Overlaps`.
Key theorems: `flatten_batches`, `batches_of_length_le`, `Machine.mem_wantedKeysQueries`,
`Machine.exists_wantedKeysQuery`, `Machine.pairwise_wanted`.
-/
import Mathlib.Data.List.Nodup
import Outbox.Machine.Decision
import Outbox.Proofs.DeviceTracking
import Outbox.Proofs.QueueView

namespace Outbox

/-! ### Work -/

/-- A query is for somebody. -/
theorem KeysQuery.exists_mem_users (q : KeysQuery) : ∃ u, u ∈ q.users := by
  obtain ⟨u, v, hu⟩ := SortedMap.exists_get?_of_isEmpty q.nonempty
  exact ⟨u, SortedMap.mem_iff.2 ⟨v, hu⟩⟩

namespace Payload

/-- The message that a payload carries, by its kind and its transaction ID. -/
def message? : Payload → Option (RequestKind × TransactionId)
  | toDevice r => some (.toDevice, r.txnId)
  | roomMessage r => some (.roomMessage, r.txnId)
  | _ => none

theorem kind_of_message? {p : Payload} {kind : RequestKind} {t : TransactionId}
    (h : p.message? = some (kind, t)) : p.kind = kind := by
  cases p <;> cases h <;> rfl

/-- Two payloads would do the same work. -/
def Overlaps : Payload → Payload → Prop
  | keysUpload _, keysUpload _ => True
  | keysQuery q, keysQuery q' => ∃ u ∈ q.users, u ∈ q'.users
  | keysClaim _, keysClaim _ => True
  | toDevice r, toDevice r' => r.txnId = r'.txnId
  | signatureUpload _, signatureUpload _ => True
  | roomMessage r, roomMessage r' => r.txnId = r'.txnId
  | keysBackup r, keysBackup r' => r.version = r'.version
  | _, _ => False

/-- A payload overlaps with itself. -/
theorem overlaps_self (p : Payload) : p.Overlaps p := by
  cases p with
  | keysQuery q =>
    obtain ⟨u, hu⟩ := q.exists_mem_users
    exact ⟨u, hu, hu⟩
  | toDevice x | roomMessage x | keysBackup x => exact rfl
  | _ => trivial

theorem Overlaps.kind_eq {p q : Payload} (h : p.Overlaps q) : p.kind = q.kind := by
  cases p <;> cases q <;> first | rfl | exact h.elim

theorem Overlaps.symm {p q : Payload} (h : p.Overlaps q) : q.Overlaps p := by
  cases p <;> cases q <;> first | exact h.elim | trivial | exact Eq.symm h | skip
  obtain ⟨u, hu, hu'⟩ := h
  exact ⟨u, hu', hu⟩

/-- Uploads of keys and of signatures and claims overlap whatever is in them. -/
theorem overlaps_of_kind {p q : Payload} {kind : RequestKind}
    (hk : kind = .keysUpload ∨ kind = .keysClaim ∨ kind = .signatureUpload) (hp : p.kind = kind)
    (hq : q.kind = kind) : p.Overlaps q := by
  rcases hk with rfl | rfl | rfl <;> cases p <;> cases hp <;> cases q <;> cases hq <;> trivial

/-- So do payloads that carry the same message. -/
theorem overlaps_of_message? {p q : Payload} {message : RequestKind × TransactionId}
    (hp : p.message? = some message) (hq : q.message? = some message) : p.Overlaps q := by
  cases p <;> cases hp
  all_goals cases q <;> simp [message?, Overlaps] at hq ⊢
  all_goals exact hq.symm

theorem keysQuery?_eq_some_iff {p : Payload} {q : KeysQuery} :
    p.keysQuery? = some q ↔ p = .keysQuery q := by
  cases p <;> simp [keysQuery?]

theorem toDevice?_eq_some_iff {p : Payload} {r : ToDevice} : p.toDevice? = some r ↔ p = .toDevice r := by
  cases p <;> simp [toDevice?]

theorem roomMessage?_eq_some_iff {p : Payload} {r : RoomMessage} :
    p.roomMessage? = some r ↔ p = .roomMessage r := by
  cases p <;> simp [roomMessage?]

theorem keysBackup?_eq_some_iff {p : Payload} {r : KeysBackup} :
    p.keysBackup? = some r ↔ p = .keysBackup r := by
  cases p <;> simp [keysBackup?]

end Payload

/-! ### Batches -/

variable {α : Type}

theorem flatten_batchesFrom (n : Nat) : ∀ (skip : Nat) (l : List α),
    (batchesFrom n skip l).flatten = l.drop skip
  | _, [] => by simp [batchesFrom]
  | 0, a :: l => by simp [batchesFrom, flatten_batchesFrom n n l]
  | skip + 1, _ :: l => by simp [batchesFrom, flatten_batchesFrom n skip l]

/-- Batches lose nothing and repeat nothing. -/
theorem flatten_batches (n : Nat) (l : List α) : (batches n l).flatten = l :=
  flatten_batchesFrom _ _ _

theorem ne_nil_of_mem_batchesFrom {n : Nat} {b : List α} : ∀ {skip : Nat} {l : List α},
    b ∈ batchesFrom n skip l → b ≠ []
  | _, [], h => by simp [batchesFrom] at h
  | 0, a :: l, h => by
    rcases List.mem_cons.1 h with rfl | h
    · exact List.cons_ne_nil _ _
    · exact ne_nil_of_mem_batchesFrom h
  | skip + 1, _ :: l, h => ne_nil_of_mem_batchesFrom (l := l) h

theorem length_le_of_mem_batchesFrom {n : Nat} {b : List α} : ∀ {skip : Nat} {l : List α},
    b ∈ batchesFrom n skip l → b.length ≤ n + 1
  | _, [], h => by simp [batchesFrom] at h
  | 0, a :: l, h => by
    rcases List.mem_cons.1 h with rfl | h
    · exact Nat.succ_le_succ (List.length_take_le n l)
    · exact length_le_of_mem_batchesFrom h
  | skip + 1, _ :: l, h => length_le_of_mem_batchesFrom (l := l) h

theorem batchesFrom_of_length_le {n : Nat} : ∀ {skip : Nat} {l : List α}, l.length ≤ skip →
    batchesFrom n skip l = []
  | _, [], _ => by simp [batchesFrom]
  | skip + 1, _ :: l, h => batchesFrom_of_length_le (l := l) (Nat.le_of_succ_le_succ h)

/-- All batches but the last are full. -/
theorem length_of_mem_dropLast_batchesFrom {n : Nat} {b : List α} : ∀ {skip : Nat} {l : List α},
    b ∈ (batchesFrom n skip l).dropLast → b.length = n + 1
  | _, [], h => by simp [batchesFrom] at h
  | 0, a :: l, h => by
    rw [batchesFrom] at h
    by_cases hl : l.length ≤ n
    · simp [batchesFrom_of_length_le hl] at h
    · -- another batch follows, so this one is full
      have hne : batchesFrom n n l ≠ [] := by
        intro hnil
        have hflat := flatten_batchesFrom n n l
        rw [hnil, eq_comm, List.flatten_nil, List.drop_eq_nil_iff] at hflat
        exact hl hflat
      rw [List.dropLast_cons_of_ne_nil hne] at h
      rcases List.mem_cons.1 h with rfl | h
      · simp only [List.length_cons, List.length_take]
        omega
      · exact length_of_mem_dropLast_batchesFrom h
  | skip + 1, _ :: l, h => length_of_mem_dropLast_batchesFrom (l := l) h

/-- A list that is not longer than some batch is one batch. -/
theorem batches_of_length_le {n : Nat} {l l' b : List α} (hb : b ∈ batches n l') (hne : l ≠ [])
    (hl : l.length ≤ b.length) : batches n l = [l] := by
  obtain ⟨a, l, rfl⟩ := List.exists_cons_of_ne_nil hne
  have hle : l.length ≤ n - 1 :=
    Nat.le_of_succ_le_succ (Nat.le_trans hl (length_le_of_mem_batchesFrom hb))
  rw [batches, batchesFrom, List.take_of_length_le hle, batchesFrom_of_length_le hle]

/-! ### Building payloads -/

theorem toOption_eq_some_iff {ε : Type} {e : Except ε α} {a : α} : e.toOption = some a ↔ e = .ok a := by
  cases e <;> simp [Except.toOption]

namespace KeysQuery

theorem users_of_ofUsers {users : SortedSet UserId} {timeout : Option Duration} {token : Option String}
    {q : KeysQuery} (h : ofUsers users timeout token = .ok q) : q.users = users := by
  unfold ofUsers at h
  split at h <;> cases h
  rfl

theorem timeout_of_ofUsers {users : SortedSet UserId} {timeout : Option Duration} {token : Option String}
    {q : KeysQuery} (h : ofUsers users timeout token = .ok q) : q.timeout = timeout ∧ q.token = token := by
  unfold ofUsers at h
  split at h <;> cases h
  exact ⟨rfl, rfl⟩

/-- A query for somebody can be made. -/
theorem exists_ofUsers {users : SortedSet UserId} {u : UserId} (hu : u ∈ users)
    (timeout : Option Duration) (token : Option String) :
    ∃ q, ofUsers users timeout token = .ok q ∧ q.users = users :=
  ⟨_, dif_pos (SortedMap.isEmpty_eq_false_of_mem hu), rfl⟩

end KeysQuery

/-- The queries that are made are those of the batches of the users to be queried. -/
theorem DeviceLists.mem_queries {d : DeviceLists} {settings : Settings} {now : Instant} {q : KeysQuery} :
    q ∈ d.queries settings now ↔
      ∃ b ∈ batches settings.keyQueryBatchSize.toNat (d.eligibleUsers now),
        KeysQuery.ofUsers (.ofKeys b) (some settings.keyQueryTimeout) d.syncToken = .ok q := by
  unfold queries
  rw [List.mem_filterMap]
  exact exists_congr fun b => and_congr_right fun _ => toOption_eq_some_iff

/-- Some query names a user exactly if the user is to be queried. -/
theorem DeviceLists.exists_mem_queries_iff {d : DeviceLists} {settings : Settings} {now : Instant} {u : UserId} :
    (∃ q ∈ d.queries settings now, u ∈ q.users) ↔ u ∈ d.eligibleUsers now := by
  have hflat := flatten_batches settings.keyQueryBatchSize.toNat (d.eligibleUsers now)
  constructor
  · rintro ⟨q, hq, hu⟩
    obtain ⟨b, hb, hok⟩ := mem_queries.1 hq
    rw [KeysQuery.users_of_ofUsers hok, SortedSet.mem_ofKeys] at hu
    rw [← hflat]
    exact List.mem_flatten.2 ⟨b, hb, hu⟩
  · intro hu
    rw [← hflat] at hu
    obtain ⟨b, hb, hu⟩ := List.mem_flatten.1 hu
    have hs := SortedSet.mem_ofKeys.2 hu
    obtain ⟨q, hok, hq⟩ := KeysQuery.exists_ofUsers hs (some settings.keyQueryTimeout) d.syncToken
    refine ⟨q, mem_queries.2 ⟨b, hb, hok⟩, ?_⟩
    rw [hq]
    exact hs

/-- An upload has the keys that it was built from. -/
theorem KeysUpload.keys_of_ofKeys {deviceKeys : Option Opaque}
    {oneTimeKeys fallbackKeys : SortedMap KeyId Opaque} {r : KeysUpload}
    (h : ofKeys deviceKeys oneTimeKeys fallbackKeys = .ok r) :
    r.deviceKeys = deviceKeys ∧ r.oneTimeKeys = oneTimeKeys ∧ r.fallbackKeys = fallbackKeys := by
  unfold ofKeys at h
  split at h <;> cases h
  exact ⟨rfl, rfl, rfl⟩

theorem KeysClaim.oneTimeKeys_of_ofTable {table : Table UserId DeviceId Algorithm}
    {timeout : Option Duration} {r : KeysClaim} (h : ofTable table timeout = .ok r) :
    r.oneTimeKeys = table := by
  unfold ofTable at h
  split at h <;> cases h
  rfl

theorem SignatureUpload.signedKeys_of_ofTable {table : Table UserId KeyId Opaque} {r : SignatureUpload}
    (h : ofTable table = .ok r) : r.signedKeys = table := by
  unfold ofTable at h
  split at h <;> cases h
  rfl

theorem KeysBackup.rooms_of_ofTable {version : String} {table : Table RoomId SessionId Opaque}
    {r : KeysBackup} (h : ofTable version table = .ok r) : r.version = version ∧ r.rooms = table := by
  unfold ofTable at h
  split at h
  · cases h
  · split at h <;> cases h
    exact ⟨rfl, rfl⟩

/-- The upload that a device wants has all that is not published, and the keys of the device unless the
server has them. -/
theorem OwnKeys.keys_of_upload? {k : OwnKeys} {r : KeysUpload} (h : k.upload? = some r) :
    r.deviceKeys = (if k.shared then none else some k.deviceKeys) ∧ r.oneTimeKeys = k.oneTimeKeys ∧
      r.fallbackKeys = k.fallbackKeys :=
  KeysUpload.keys_of_ofKeys (toOption_eq_some_iff.1 h)

/-- The backup that is wanted is of the active version, and has the first keys that are not backed up. -/
theorem Backup.rooms_of_request? {b : Backup} {batchSize : Nat} {r : KeysBackup}
    (h : b.request? batchSize = some r) :
    b.version = some r.version ∧ r.rooms = b.remaining.take (max batchSize 1) := by
  obtain ⟨version, hv, hok⟩ := Option.bind_eq_some_iff.1 h
  obtain ⟨he, hr⟩ := KeysBackup.rooms_of_ofTable (toOption_eq_some_iff.1 hok)
  rw [he]
  exact ⟨hv, hr⟩

namespace Machine

variable {m : Machine} {now : Instant} {p : Payload} {kind : RequestKind} {o : Option Payload}

/-! ### The parts of what is wanted -/

theorem mem_onePerKind : p ∈ m.onePerKind kind o ↔ m.queue.containsKind kind = false ∧ o = some p := by
  unfold onePerKind
  split
  · next h => simp [h]
  · next h => simp [h]

theorem pairwise_onePerKind (R : Payload → Payload → Prop) : (m.onePerKind kind o).Pairwise R := by
  unfold onePerKind
  split
  · exact .nil
  · cases o with
    | none => exact .nil
    | some p => exact List.pairwise_singleton R p

/-- Queries are made for users that are to be queried. -/
theorem mem_eligibleUsers_of_mem_queries {q : KeysQuery} {u : UserId}
    (hq : q ∈ m.deviceLists.queries m.settings now) (hu : u ∈ q.users) :
    u ∈ m.deviceLists.eligibleUsers now :=
  DeviceLists.exists_mem_queries_iff.1 ⟨q, hq, hu⟩

/-- A wanted query is for users that are to be queried. -/
theorem mem_wantedKeysQueries (h : p ∈ m.wantedKeysQueries now) :
    ∃ q, p = .keysQuery q ∧ ∀ u ∈ q.users, u ∈ m.deviceLists.eligibleUsers now := by
  obtain ⟨q, hq, rfl⟩ := List.mem_map.1 h
  exact ⟨q, rfl, fun u => mem_eligibleUsers_of_mem_queries hq⟩

/-- Each user that is to be queried is in a wanted query. -/
theorem exists_wantedKeysQuery {u : UserId} (hu : u ∈ m.deviceLists.eligibleUsers now) :
    ∃ q, .keysQuery q ∈ m.wantedKeysQueries now ∧ u ∈ q.users := by
  obtain ⟨q, hq, hu⟩ := DeviceLists.exists_mem_queries_iff.2 hu
  exact ⟨q, List.mem_map_of_mem hq, hu⟩

/-- No user is in two wanted queries. -/
theorem pairwise_wantedKeysQueries (m : Machine) (now : Instant) :
    (m.wantedKeysQueries now).Pairwise fun p q => ¬ p.Overlaps q := by
  have hn : (batches m.settings.keyQueryBatchSize.toNat
      (m.deviceLists.eligibleUsers now)).flatten.Nodup := by
    rw [flatten_batches]
    exact SortedMap.nodup_keys _
  unfold wantedKeysQueries DeviceLists.queries
  rw [List.pairwise_map, List.pairwise_filterMap]
  refine (List.nodup_flatten.1 hn).2.imp fun {b b'} hd q hq q' hq' => ?_
  rintro ⟨u, hu, hu'⟩
  rw [toOption_eq_some_iff] at hq hq'
  rw [KeysQuery.users_of_ofUsers hq, SortedSet.mem_ofKeys] at hu
  rw [KeysQuery.users_of_ofUsers hq', SortedSet.mem_ofKeys] at hu'
  exact hd hu hu'

end Machine

/-- The transaction ID of each message is the one under which it is held. -/
structure Messages.Keyed (s : Messages) : Prop where
  toDevice : ∀ {txnId r}, s.toDevice.get? txnId = some r → r.txnId = txnId
  roomMessages : ∀ {txnId r}, s.roomMessages.get? txnId = some r → r.txnId = txnId

namespace Machine

variable {m : Machine} {now : Instant} {p : Payload}

/-- Of messages of a kind, those are left over that are not queued. -/
theorem mem_map_unqueued {q : Queue} {kind : RequestKind} {f : Payload → Option TransactionId}
    (hf : ∀ p t, f p = some t ↔ p.message? = some (kind, t)) {held : List α} {txnId : α → TransactionId}
    {carry : α → Payload} :
    p ∈ (held.filter fun a =>
        !((q.ofKind kind).filterMap fun r => f r.payload).contains (txnId a)).map carry ↔
      ∃ a ∈ held, p = carry a ∧ ∀ x ∈ q.contents, x.payload.message? ≠ some (kind, txnId a) := by
  have hq : ∀ t, t ∈ (q.ofKind kind).filterMap (fun r => f r.payload) ↔
      ∃ x ∈ q.contents, x.payload.message? = some (kind, t) := by
    intro t
    simp only [List.mem_filterMap, Queue.mem_ofKind, hf, and_assoc]
    refine exists_congr fun x => and_congr_right fun _ => and_iff_right_of_imp fun hm => ?_
    exact Payload.kind_of_message? hm
  simp only [List.mem_map, List.mem_filter, Bool.not_eq_true', List.contains_eq_mem,
    decide_eq_false_iff_not, hq, not_exists, not_and]
  constructor
  · rintro ⟨a, ⟨ha, hn⟩, rfl⟩
    exact ⟨a, ha, rfl, hn⟩
  · rintro ⟨a, ha, rfl, hn⟩
    exact ⟨a, ⟨ha, hn⟩, rfl⟩

/-- A message to devices that is held is wanted, unless it is queued. -/
theorem mem_wantedToDevice : p ∈ m.wantedToDevice ↔
    ∃ r ∈ m.messages.toDevice.values, p = .toDevice r ∧
      ∀ x ∈ m.queue.contents, x.payload.message? ≠ some (.toDevice, r.txnId) :=
  mem_map_unqueued (f := fun p => p.toDevice?.map (·.txnId)) fun p t => by
    cases p <;> simp [Payload.toDevice?, Payload.message?]

/-- A message to a room that is held is wanted, unless it is queued. -/
theorem mem_wantedRoomMessages : p ∈ m.wantedRoomMessages ↔
    ∃ r ∈ m.messages.roomMessages.values, p = .roomMessage r ∧
      ∀ x ∈ m.queue.contents, x.payload.message? ≠ some (.roomMessage, r.txnId) :=
  mem_map_unqueued (f := fun p => p.roomMessage?.map (·.txnId)) fun p t => by
    cases p <;> simp [Payload.roomMessage?, Payload.message?]

/-- Whether a backup of the active version is queued. -/
theorem isBackupQueued_iff {version : String} (hv : m.backup.version = some version) :
    m.isBackupQueued = true ↔
      ∃ x ∈ m.queue.contents, ∃ b, x.payload = .keysBackup b ∧ b.version = version := by
  unfold isBackupQueued
  simp only [hv, List.any_eq_true, beq_iff_eq]
  constructor
  · rintro ⟨⟨id, payload⟩, hx, he⟩
    refine ⟨_, (Queue.mem_ofKind.1 hx).1, ?_⟩
    cases payload <;> cases he
    exact ⟨_, rfl, rfl⟩
  · rintro ⟨⟨id, payload⟩, hx, b, rfl, rfl⟩
    exact ⟨_, Queue.mem_ofKind.2 ⟨hx, rfl⟩, rfl⟩

/-- A backup is wanted if none is queued. -/
theorem request?_of_mem_wantedKeysBackup (h : p ∈ m.wantedKeysBackup) : m.isBackupQueued = false ∧
    ∃ b, p = .keysBackup b ∧ m.backup.request? m.settings.backupBatchSize.toNat = some b := by
  unfold wantedKeysBackup at h
  split at h
  · cases h
  · next hq =>
    rw [Option.mem_toList, Option.map_eq_some_iff] at h
    obtain ⟨b, hb, rfl⟩ := h
    exact ⟨Bool.eq_false_iff.2 hq, b, rfl, hb⟩

/-- A wanted backup is of the active version and has keys that are not backed up, and none is queued. -/
theorem mem_wantedKeysBackup (h : p ∈ m.wantedKeysBackup) :
    ∃ b, p = .keysBackup b ∧ m.backup.version = some b.version ∧
      (∀ key ∈ b.rooms, key ∈ m.backup.remaining) ∧ m.isBackupQueued = false := by
  obtain ⟨hq, b, rfl, hb⟩ := request?_of_mem_wantedKeysBackup h
  obtain ⟨hv, hr⟩ := Backup.rooms_of_request? hb
  refine ⟨b, rfl, hv, fun key hkey => ?_, hq⟩
  rw [hr] at hkey
  exact SortedMap.mem_of_mem_take hkey

/-! ### Nothing is wanted twice -/

/-- All wanted payloads by their part. -/
theorem mem_wanted : p ∈ m.wanted now ↔ p ∈ m.wantedKeysUpload ∨ p ∈ m.wantedKeysQueries now ∨
    p ∈ m.wantedKeysClaim ∨ p ∈ m.wantedToDevice ∨ p ∈ m.wantedSignatureUpload ∨
    p ∈ m.wantedRoomMessages ∨ p ∈ m.wantedKeysBackup := by
  simp only [wanted, List.mem_append, or_assoc]

theorem kind_of_mem_wantedKeysUpload (h : p ∈ m.wantedKeysUpload) : p.kind = .keysUpload := by
  obtain ⟨r, -, rfl⟩ := Option.map_eq_some_iff.1 (mem_onePerKind.1 h).2
  rfl

theorem kind_of_mem_wantedKeysQueries (h : p ∈ m.wantedKeysQueries now) : p.kind = .keysQuery := by
  obtain ⟨q, rfl, -⟩ := mem_wantedKeysQueries h
  rfl

theorem kind_of_mem_wantedKeysClaim (h : p ∈ m.wantedKeysClaim) : p.kind = .keysClaim := by
  obtain ⟨r, -, rfl⟩ := Option.map_eq_some_iff.1 (mem_onePerKind.1 h).2
  rfl

theorem kind_of_mem_wantedToDevice (h : p ∈ m.wantedToDevice) : p.kind = .toDevice := by
  obtain ⟨r, -, rfl, -⟩ := mem_wantedToDevice.1 h
  rfl

/-- Signatures wait until the keys of the device were uploaded. -/
theorem mem_wantedSignatureUpload : p ∈ m.wantedSignatureUpload ↔ m.ownKeys.shared = true ∧
    m.queue.containsKind .signatureUpload = false ∧
      m.messages.signatureUpload?.map .signatureUpload = some p := by
  unfold wantedSignatureUpload
  split
  · next hs => simp [hs, mem_onePerKind]
  · next hs => simp [hs]

theorem kind_of_mem_wantedSignatureUpload (h : p ∈ m.wantedSignatureUpload) :
    p.kind = .signatureUpload := by
  obtain ⟨r, -, rfl⟩ := Option.map_eq_some_iff.1 (mem_wantedSignatureUpload.1 h).2.2
  rfl

theorem kind_of_mem_wantedRoomMessages (h : p ∈ m.wantedRoomMessages) : p.kind = .roomMessage := by
  obtain ⟨r, -, rfl, -⟩ := mem_wantedRoomMessages.1 h
  rfl

theorem kind_of_mem_wantedKeysBackup (h : p ∈ m.wantedKeysBackup) : p.kind = .keysBackup := by
  obtain ⟨b, rfl, -⟩ := mem_wantedKeysBackup h
  rfl

/-- Parts of different kinds do not overlap. -/
theorem pairwise_append_of_kind {l₁ l₂ : List Payload} (h₁ : l₁.Pairwise fun p q => ¬ p.Overlaps q)
    (h₂ : l₂.Pairwise fun p q => ¬ p.Overlaps q) (hk : ∀ p ∈ l₁, ∀ q ∈ l₂, p.kind ≠ q.kind) :
    (l₁ ++ l₂).Pairwise fun p q => ¬ p.Overlaps q :=
  List.pairwise_append.2 ⟨h₁, h₂, fun p hp q hq ho => hk p hp q hq ho.kind_eq⟩

/-- **No two payloads that are wanted at a time overlap.** -/
theorem pairwise_wanted (hm : m.messages.Keyed) (now : Instant) :
    (m.wanted now).Pairwise fun p q => ¬ p.Overlaps q := by
  have kUpload : ∀ p ∈ m.wantedKeysUpload, p.kind = .keysUpload := fun p => kind_of_mem_wantedKeysUpload
  have kQuery : ∀ p ∈ m.wantedKeysQueries now, p.kind = .keysQuery := fun p =>
    kind_of_mem_wantedKeysQueries
  have kClaim : ∀ p ∈ m.wantedKeysClaim, p.kind = .keysClaim := fun p => kind_of_mem_wantedKeysClaim
  have kDevice : ∀ p ∈ m.wantedToDevice, p.kind = .toDevice := fun p => kind_of_mem_wantedToDevice
  have kSignature : ∀ p ∈ m.wantedSignatureUpload, p.kind = .signatureUpload := fun p =>
    kind_of_mem_wantedSignatureUpload
  have kRoom : ∀ p ∈ m.wantedRoomMessages, p.kind = .roomMessage := fun p =>
    kind_of_mem_wantedRoomMessages
  have kBackup : ∀ p ∈ m.wantedKeysBackup, p.kind = .keysBackup := fun p => kind_of_mem_wantedKeysBackup
  have hDevice : m.wantedToDevice.Pairwise fun p q => ¬ p.Overlaps q :=
    List.pairwise_map.2 ((InsertionMap.pairwise_values hm.toDevice).filter _)
  have hRoom : m.wantedRoomMessages.Pairwise fun p q => ¬ p.Overlaps q :=
    List.pairwise_map.2 ((InsertionMap.pairwise_values hm.roomMessages).filter _)
  have hSignature : m.wantedSignatureUpload.Pairwise fun p q => ¬ p.Overlaps q := by
    unfold wantedSignatureUpload
    split
    · exact pairwise_onePerKind _
    · exact .nil
  have hBackup : m.wantedKeysBackup.Pairwise fun p q => ¬ p.Overlaps q := by
    unfold wantedKeysBackup
    split
    · exact .nil
    · cases m.backup.request? m.settings.backupBatchSize.toNat with
      | none => exact .nil
      | some b => exact List.pairwise_singleton _ _
  unfold wanted
  refine pairwise_append_of_kind (pairwise_append_of_kind (pairwise_append_of_kind
    (pairwise_append_of_kind (pairwise_append_of_kind (pairwise_append_of_kind
      (pairwise_onePerKind _) (m.pairwise_wantedKeysQueries now) ?_) (pairwise_onePerKind _) ?_)
      hDevice ?_) hSignature ?_) hRoom ?_) hBackup ?_
  all_goals grind

end Machine
end Outbox
