/-
# Messages are handed out in the order in which they were accepted

Messages leave a machine from the middle of those that it holds, requests that failed are decided on again
behind later ones, and a full queue cuts a pass short anywhere. The order of the first requests survives
that: a message that was accepted and is not wanted was decided on before, so whatever part of the wanted
messages a pass decides on, those before it are done (`StartsInOrder.append`). Requests that carry messages
are never dropped, so they are handed out as they were decided on.

Key definitions: `StartsInOrder`, `Messages.txnIds`, `acceptedIds`, `carriedIds`, `Machine.SendsInOrder`.
Key theorems: `StartsInOrder.append`, `Machine.wantedIds_sublist`, `Machine.SendsInOrder.pass`,
`Machine.SendsInOrder.complete`, `Machine.SendsInOrder.accept`, `Machine.Reached.sendsInOrder`,
`Machine.messages_handed_out_in_order`.
-/
import Mathlib.Data.List.Nodup
import Outbox.Proofs.Delivery

namespace Outbox

/-! ### Lists that start in order -/

section StartsInOrder

variable {α β : Type}

/-- An entry comes only after all those that come before it in the order. Entries may come again later. -/
def StartsInOrder (order l : List α) : Prop :=
  ∀ a b, [a, b].Sublist order → ∀ l₁ l₂, l = l₁ ++ b :: l₂ → a ∈ l₁

/-- Of two entries that do not repeat, one comes first. -/
theorem not_sublist_swap {a b : α} {l : List α} (hn : l.Nodup) (hab : [a, b].Sublist l) :
    ¬ [b, a].Sublist l := by
  induction l with
  | nil => exact fun hba => nomatch hba
  | cons x l ih =>
    obtain ⟨hx, hn⟩ := List.nodup_cons.1 hn
    intro hba
    rcases List.cons_sublist_cons'.1 hab with hab | ⟨rfl, hb⟩
    · have hb : b ∈ l := hab.subset (by simp)
      rcases List.cons_sublist_cons'.1 hba with hba | ⟨rfl, -⟩
      · exact ih hn hab hba
      · exact hx hb
    · rcases List.cons_sublist_cons'.1 hba with hba | ⟨rfl, -⟩
      · exact hx (hba.subset (by simp))
      · exact hx (List.singleton_sublist.1 hb)

/-- To leave out entries that a function leaves out makes no difference to it. -/
theorem filterMap_eq_of_sublist {f : α → Option β} {l₁ l₂ : List α} (hs : l₁.Sublist l₂) (hn : l₂.Nodup)
    (hf : ∀ a ∈ l₂, a ∉ l₁ → f a = none) : l₁.filterMap f = l₂.filterMap f := by
  induction hs with
  | slnil => rfl
  | @cons l₁ l₂ a hs ih =>
    obtain ⟨ha, hn⟩ := List.nodup_cons.1 hn
    rw [List.filterMap_cons_none (hf a List.mem_cons_self fun h => ha (hs.subset h))]
    exact ih hn fun x hx => hf x (List.mem_cons_of_mem _ hx)
  | @cons_cons l₁ l₂ a hs ih =>
    obtain ⟨ha, hn⟩ := List.nodup_cons.1 hn
    have hrest : l₁.filterMap f = l₂.filterMap f := ih hn fun x hx hx₁ =>
      hf x (List.mem_cons_of_mem _ hx) fun h => by
        rcases List.mem_cons.1 h with rfl | h
        · exact ha hx
        · exact hx₁ h
    rw [List.filterMap_cons, List.filterMap_cons, hrest]

namespace StartsInOrder

variable {order order' wanted more l l' : List α}

theorem nil : StartsInOrder order [] := fun _ _ _ l₁ l₂ he => by simp at he

/-- What is at the front of the list starts in order too. -/
theorem of_prefix (hl : StartsInOrder order l) (hp : l' <+: l) : StartsInOrder order l' := by
  obtain ⟨rest, rfl⟩ := hp
  rintro a b hab l₁ l₂ rfl
  exact hl a b hab l₁ (l₂ ++ rest) (by simp)

/-- The order may go on with what is not in the list. -/
theorem snoc_order {x : α} (hl : StartsInOrder order l) (hx : x ∉ l) :
    StartsInOrder (order ++ [x]) l := by
  rintro a b hab l₁ l₂ rfl
  have hb : b ≠ x := fun he => hx (by simp [← he])
  refine hl a b ?_ l₁ l₂ rfl
  obtain ⟨xs, ys, he, hxs, hys⟩ := List.sublist_append_iff.1 hab
  have hnil : ys = [] := by
    cases List.sublist_singleton.1 hys with
    | inl h => exact h
    | inr h =>
      have hlast : [a, b].getLast? = (xs ++ ys).getLast? := congrArg _ he
      simp [h] at hlast
      exact absurd hlast hb
  rw [hnil, List.append_nil] at he
  rwa [he]

/-- A list that starts in order goes on so with the front of what is wanted, if all that is not wanted is
in the list and what is wanted is in order. -/
theorem append (hl : StartsInOrder order l) (hn : order.Nodup) (hw : wanted.Sublist order)
    (hall : ∀ a ∈ order, a ∈ l ∨ a ∈ wanted) (hm : more <+: wanted) :
    StartsInOrder order (l ++ more) := by
  intro a b hab l₁ l₂ he
  obtain ⟨rest, rfl⟩ := hm
  have hgo : ∀ l₃, l₁ = l ++ l₃ → more = l₃ ++ b :: l₂ → a ∈ l₁ := by
    rintro l₃ rfl rfl
    rcases hall a (hab.subset (by simp)) with ha | ha
    · exact List.mem_append_left _ ha
    · refine List.mem_append_right _ (by_contra fun hnot => ?_)
      -- Otherwise `a` would be wanted after `b`.
      simp only [List.append_assoc, List.cons_append, List.mem_append, List.mem_cons] at ha hw
      have hne : a ≠ b := fun h => List.nodup_iff_sublist.1 hn b (h ▸ hab)
      have hlater : a ∈ l₂ ++ rest := List.mem_append.2 ((ha.resolve_left hnot).resolve_left hne)
      have hba : [b, a].Sublist (b :: (l₂ ++ rest)) := (List.singleton_sublist.2 hlater).cons_cons b
      exact not_sublist_swap hn hab ((hba.trans (List.sublist_append_right _ _)).trans hw)
  rcases List.append_eq_append_iff.1 he with ⟨l₃, h₁, h₃⟩ | ⟨l₃, h₁, h₃⟩
  · exact hgo l₃ h₁ h₃
  · cases l₃ with
    | nil => exact hgo [] (by simpa using h₁.symm) h₃.symm
    | cons x l₃ =>
      obtain ⟨rfl, -⟩ := List.cons.inj h₃
      exact hl a b hab l₁ l₃ h₁

end StartsInOrder
end StartsInOrder

/-! ### Messages of a kind -/

/-- A message is accepted under its own transaction ID. -/
theorem Turn.accepted?_of_acceptedPayload? {t : Turn} {p : Payload} (hp : t.acceptedPayload? = some p) :
    ∃ txnId, t.accepted? = some (p.kind, txnId) ∧ p.message? = some (p.kind, txnId) := by
  unfold acceptedPayload? at hp
  split at hp
  · next eventType rows name hcall hanswer =>
    obtain ⟨x, hx, rfl⟩ := Option.map_eq_some_iff.1 hp
    have hid : x.txnId = name := ToDevice.txnId_of_ofRows (toOption_eq_some_iff.1 hx)
    refine ⟨name, ?_, ?_⟩
    · rw [accepted?, hcall, hanswer]
      rfl
    · rw [← hid]
      rfl
  · next room eventType content name hcall hanswer =>
    obtain ⟨x, hx, rfl⟩ := Option.map_eq_some_iff.1 hp
    have hid : x.txnId = name := RoomMessage.txnId_of_ofContent (toOption_eq_some_iff.1 hx)
    refine ⟨name, ?_, ?_⟩
    · rw [accepted?, hcall, hanswer]
      rfl
    · rw [← hid]
      rfl
  · cases hp

/-- The transaction ID of a message, if the message is of the given kind. -/
def txnIdOf? (kind : RequestKind) (message : RequestKind × TransactionId) : Option TransactionId :=
  if message.1 = kind then some message.2 else none

/-- The transaction IDs of the messages of a kind that were accepted, in order. -/
def acceptedIds (kind : RequestKind) (h : List Turn) : List TransactionId :=
  h.filterMap fun t => t.accepted?.bind (txnIdOf? kind)

/-- The transaction IDs of the messages of a kind that payloads carry, in order. -/
def payloadIds (kind : RequestKind) (ps : List Payload) : List TransactionId :=
  ps.filterMap fun p => p.message?.bind (txnIdOf? kind)

/-- The transaction IDs of the messages of a kind that requests carry, in order. -/
def carriedIds (kind : RequestKind) (rs : List OutgoingRequest) : List TransactionId :=
  payloadIds kind (rs.map OutgoingRequest.payload)

/-- The transaction IDs of the messages of a kind that are held, in order. -/
def Messages.txnIds (s : Messages) : RequestKind → List TransactionId
  | .toDevice => s.toDevice.keys
  | .roomMessage => s.roomMessages.keys
  | _ => []

section Ids

variable {kind : RequestKind} {txnId : TransactionId} {h : List Turn} {t : Turn} {ps qs : List Payload}
  {rs : List OutgoingRequest} {o : Option (RequestKind × TransactionId)}

theorem bind_txnIdOf?_eq_some_iff : o.bind (txnIdOf? kind) = some txnId ↔ o = some (kind, txnId) := by
  rcases o with - | ⟨k, id⟩
  · simp
  · simp [txnIdOf?]

theorem mem_acceptedIds : txnId ∈ acceptedIds kind h ↔ ∃ t ∈ h, t.accepted? = some (kind, txnId) := by
  simp only [acceptedIds, List.mem_filterMap, bind_txnIdOf?_eq_some_iff]

theorem mem_payloadIds : txnId ∈ payloadIds kind ps ↔ ∃ p ∈ ps, p.message? = some (kind, txnId) := by
  simp only [payloadIds, List.mem_filterMap, bind_txnIdOf?_eq_some_iff]

theorem mem_carriedIds :
    txnId ∈ carriedIds kind rs ↔ ∃ r ∈ rs, r.payload.message? = some (kind, txnId) := by
  simp [carriedIds, mem_payloadIds]

theorem acceptedIds_snoc (kind : RequestKind) (h : List Turn) (t : Turn) :
    acceptedIds kind (h ++ [t]) = acceptedIds kind h ++ (t.accepted?.bind (txnIdOf? kind)).toList := by
  rw [acceptedIds, List.filterMap_append, acceptedIds, List.filterMap_cons]
  cases t.accepted?.bind (txnIdOf? kind) <;> rfl

theorem acceptedIds_append_cons {h₁ h₂ : List Turn} (ht : t.accepted? = some (kind, txnId)) :
    acceptedIds kind (h₁ ++ t :: h₂) = acceptedIds kind h₁ ++ txnId :: acceptedIds kind h₂ := by
  simp [acceptedIds, bind_txnIdOf?_eq_some_iff.2 ht]

theorem payloadIds_append (kind : RequestKind) (ps qs : List Payload) :
    payloadIds kind (ps ++ qs) = payloadIds kind ps ++ payloadIds kind qs := List.filterMap_append

theorem carriedIds_append (kind : RequestKind) (rs rs' : List OutgoingRequest) :
    carriedIds kind (rs ++ rs') = carriedIds kind rs ++ carriedIds kind rs' := by
  rw [carriedIds, List.map_append, payloadIds_append]
  rfl

theorem carriedIds_append_cons {r : OutgoingRequest} {rs' : List OutgoingRequest}
    (hr : r.payload.message? = some (kind, txnId)) :
    carriedIds kind (rs ++ r :: rs') = carriedIds kind rs ++ txnId :: carriedIds kind rs' := by
  simp [carriedIds, payloadIds, bind_txnIdOf?_eq_some_iff.2 hr]

/-- Payloads of other kinds carry no message of the kind. -/
theorem payloadIds_eq_nil (hp : ∀ p ∈ ps, p.kind ≠ kind) : payloadIds kind ps = [] := by
  refine List.eq_nil_iff_forall_not_mem.2 fun txnId ht => ?_
  obtain ⟨p, hmem, hmsg⟩ := mem_payloadIds.1 ht
  exact hp p hmem (Payload.kind_of_message? hmsg)

theorem Messages.holds_iff_mem_txnIds {s : Messages} : s.Holds (kind, txnId) ↔ txnId ∈ s.txnIds kind := by
  cases kind <;> first | exact .rfl | exact iff_of_false id List.not_mem_nil

@[simp] theorem carriedIds_nil (kind : RequestKind) : carriedIds kind [] = [] := rfl

/-- A message to devices under a new name comes last. -/
theorem Messages.txnIds_insert_toDevice {s : Messages} (hn : txnId ∉ s.toDevice) (x : ToDevice)
    (kind : RequestKind) : txnIds { s with toDevice := s.toDevice.insert txnId x } kind =
      s.txnIds kind ++ (txnIdOf? kind (.toDevice, txnId)).toList := by
  cases kind with
  | toDevice => exact InsertionMap.keys_insert_of_notMem hn x
  | _ => exact (List.append_nil _).symm

/-- A message to a room under a new name comes last. -/
theorem Messages.txnIds_insert_roomMessages {s : Messages} (hn : txnId ∉ s.roomMessages)
    (x : RoomMessage) (kind : RequestKind) :
    txnIds { s with roomMessages := s.roomMessages.insert txnId x } kind =
      s.txnIds kind ++ (txnIdOf? kind (.roomMessage, txnId)).toList := by
  cases kind with
  | roomMessage => exact InsertionMap.keys_insert_of_notMem hn x
  | _ => exact (List.append_nil _).symm

theorem payloadIds_map_toDevice (xs : List ToDevice) :
    payloadIds .toDevice (xs.map .toDevice) = xs.map ToDevice.txnId := by
  simp [payloadIds, List.filterMap_map, Function.comp_def, Payload.message?, txnIdOf?]

theorem payloadIds_map_roomMessage (xs : List RoomMessage) :
    payloadIds .roomMessage (xs.map .roomMessage) = xs.map RoomMessage.txnId := by
  simp [payloadIds, List.filterMap_map, Function.comp_def, Payload.message?, txnIdOf?]

end Ids

theorem InsertionMap.keys_erase_sublist {κ α : Type} [DecidableEq κ] (m : InsertionMap κ α) (k : κ) :
    (m.erase k).keys.Sublist m.keys :=
  List.filter_sublist.map _

/-- If each value tells its key, the values tell all keys in order. -/
theorem InsertionMap.map_values_eq_keys {κ α : Type} [DecidableEq κ] {m : InsertionMap κ α} {f : α → κ}
    (h : ∀ {k v}, m.get? k = some v → f v = k) : m.values.map f = m.keys := by
  rw [values, keys, List.map_map]
  exact List.map_congr_left fun e he => h (mem_toList_iff.1 he)

namespace Machine

variable {m m' : Machine} {kind : RequestKind} {txnId : TransactionId} {now : Instant} {call : Call}
  {answer : Answer} {r : OutgoingRequest} {outcome : Outcome} {h : List Turn}
  {accepted sent : List TransactionId}

/-- The messages of a kind that a pass wants are some of those that are held, in their order. -/
theorem wantedIds_sublist (hk : m.messages.Keyed) (now : Instant) (kind : RequestKind) :
    (payloadIds kind (m.wanted now)).Sublist (m.messages.txnIds kind) := by
  -- Of the parts of what is wanted only the one of the kind counts.
  have hother : ∀ {ps k}, (∀ p ∈ ps, p.kind = k) → kind ≠ k → payloadIds kind ps = [] :=
    fun hps hne => payloadIds_eq_nil fun p hp he => hne (he.symm.trans (hps p hp))
  have hUpload := hother fun p (hp : p ∈ m.wantedKeysUpload) => kind_of_mem_wantedKeysUpload hp
  have hQuery := hother fun p (hp : p ∈ m.wantedKeysQueries now) => kind_of_mem_wantedKeysQueries hp
  have hClaim := hother fun p (hp : p ∈ m.wantedKeysClaim) => kind_of_mem_wantedKeysClaim hp
  have hDevice := hother fun p (hp : p ∈ m.wantedToDevice) => kind_of_mem_wantedToDevice hp
  have hSignature := hother fun p (hp : p ∈ m.wantedSignatureUpload) =>
    kind_of_mem_wantedSignatureUpload hp
  have hRoom := hother fun p (hp : p ∈ m.wantedRoomMessages) => kind_of_mem_wantedRoomMessages hp
  have hBackup := hother fun p (hp : p ∈ m.wantedKeysBackup) => kind_of_mem_wantedKeysBackup hp
  cases kind with
  | toDevice =>
    simp only [wanted, payloadIds_append, hUpload (by decide), hQuery (by decide), hClaim (by decide),
      hSignature (by decide), hRoom (by decide), hBackup (by decide), List.nil_append, List.append_nil]
    rw [wantedToDevice, payloadIds_map_toDevice, Messages.txnIds,
      ← InsertionMap.map_values_eq_keys hk.toDevice]
    exact List.filter_sublist.map _
  | roomMessage =>
    simp only [wanted, payloadIds_append, hUpload (by decide), hQuery (by decide), hClaim (by decide),
      hDevice (by decide), hSignature (by decide), hBackup (by decide), List.nil_append, List.append_nil]
    rw [wantedRoomMessages, payloadIds_map_roomMessage, Messages.txnIds,
      ← InsertionMap.map_values_eq_keys hk.roomMessages]
    exact List.filter_sublist.map _
  | _ =>
    suffices hnil : payloadIds _ (m.wanted now) = [] by
      rw [hnil]
      exact List.nil_sublist _
    refine List.eq_nil_iff_forall_not_mem.2 fun txnId ht => ?_
    obtain ⟨p, -, hmsg⟩ := mem_payloadIds.1 ht
    cases p <;> cases hmsg

/-- A message that is held is wanted, unless a queued request carries it. -/
theorem mem_wantedIds (hk : m.messages.Keyed) (now : Instant) (ht : txnId ∈ m.messages.txnIds kind)
    (hno : ∀ r ∈ m.queue.contents, r.payload.message? ≠ some (kind, txnId)) :
    txnId ∈ payloadIds kind (m.wanted now) := by
  rw [mem_payloadIds]
  cases kind with
  | toDevice =>
    obtain ⟨x, hx⟩ := InsertionMap.mem_iff_get?.1 ht
    cases hk.toDevice hx
    exact ⟨.toDevice x, mem_wanted.2 (.inr (.inr (.inr (.inl (mem_wantedToDevice.2
      ⟨x, InsertionMap.mem_values.2 ⟨_, hx⟩, rfl, hno⟩))))), rfl⟩
  | roomMessage =>
    obtain ⟨x, hx⟩ := InsertionMap.mem_iff_get?.1 ht
    cases hk.roomMessages hx
    exact ⟨.roomMessage x, mem_wanted.2 (.inr (.inr (.inr (.inr (.inr (.inl (mem_wantedRoomMessages.2
      ⟨x, InsertionMap.mem_values.2 ⟨_, hx⟩, rfl, hno⟩))))))), rfl⟩
  | _ => cases ht

/-! ### What every turn keeps -/

/-- The messages of a kind are sent in the order of their acceptance: they are held in it, all that are not
held or that are queued were sent, and so far they were sent in order. -/
structure SendsInOrder (m : Machine) (kind : RequestKind) (accepted sent : List TransactionId) :
    Prop where
  minted : ∀ txnId ∈ accepted, m.Minted txnId
  nodup : accepted.Nodup
  held : (m.messages.txnIds kind).Sublist accepted
  held_or_sent : ∀ txnId ∈ accepted, txnId ∈ m.messages.txnIds kind ∨ txnId ∈ sent
  queued_sent : ∀ r ∈ m.queue.contents, ∀ txnId, r.payload.message? = some (kind, txnId) → txnId ∈ sent
  sent_accepted : ∀ txnId ∈ sent, txnId ∈ accepted
  inOrder : StartsInOrder accepted sent

namespace SendsInOrder

theorem new (userId : UserId) (deviceId : DeviceId) (deviceKeys : Opaque) (settings : Settings)
    (ids : IdSource) (kind : RequestKind) :
    (Machine.new userId deviceId deviceKeys settings ids).SendsInOrder kind [] [] where
  minted _ ht := nomatch ht
  nodup := .nil
  held := by cases kind <;> exact .slnil
  held_or_sent _ ht := nomatch ht
  queued_sent _ hr := nomatch hr
  sent_accepted _ ht := nomatch ht
  inOrder := .nil

/-- A decision pass sends the front of what it wants. -/
theorem pass (hs : m.SendsInOrder kind accepted sent) (hm : m.Named) (hk : m.messages.Keyed)
    (now : Instant) :
    (m.decisionPass now).SendsInOrder kind accepted (sent ++ carriedIds kind (m.decided now)) := by
  have hpre : carriedIds kind (m.decided now) <+: payloadIds kind (m.wanted now) :=
    (m.payloads_added_prefix (m.wanted now)).filterMap _
  have hwanted := (wantedIds_sublist hk now kind).trans hs.held
  have hall : ∀ txnId ∈ accepted, txnId ∈ sent ∨ txnId ∈ payloadIds kind (m.wanted now) := by
    intro txnId ht
    by_contra hnot
    rw [not_or] at hnot
    refine hnot.2 (mem_wantedIds hk now ((hs.held_or_sent txnId ht).resolve_right hnot.1) ?_)
    exact fun r hr hmsg => hnot.1 (hs.queued_sent r hr txnId hmsg)
  refine {
    minted := fun txnId ht => (hs.minted txnId ht).addAll _
    nodup := hs.nodup
    held := ?_
    held_or_sent := fun txnId ht => ?_
    queued_sent := fun r hr txnId hmsg => ?_
    sent_accepted := fun txnId ht => ?_
    inOrder := hs.inOrder.append hs.nodup hwanted hall hpre }
  · rw [decisionPass, addAll_messages]
    exact hs.held
  · rw [decisionPass, addAll_messages]
    exact (hs.held_or_sent txnId ht).imp_right (List.mem_append_left _)
  · rcases (mem_contents_addAll hm).1 hr with hr | hr
    · exact List.mem_append_left _ (hs.queued_sent r hr txnId hmsg)
    · exact List.mem_append_right _ (mem_carriedIds.2 ⟨r, hr, hmsg⟩)
  · rcases List.mem_append.1 ht with ht | ht
    · exact hs.sent_accepted txnId ht
    · exact hwanted.subset (hpre.subset ht)

/-- It is enough that messages are only dropped after they were sent, and that no new request carries
one. -/
theorem fewer (hs : m.SendsInOrder kind accepted sent)
    (hheld : (m'.messages.txnIds kind).Sublist (m.messages.txnIds kind))
    (hgone : ∀ txnId ∈ m.messages.txnIds kind, txnId ∈ m'.messages.txnIds kind ∨ txnId ∈ sent)
    (hq : ∀ r ∈ m'.queue.contents, r ∈ m.queue.contents ∨ r.payload.message? = none)
    (hmint : ∀ {name}, m.Minted name → m'.Minted name) : m'.SendsInOrder kind accepted sent where
  minted txnId ht := hmint (hs.minted txnId ht)
  nodup := hs.nodup
  held := hheld.trans hs.held
  held_or_sent txnId ht := (hs.held_or_sent txnId ht).elim (hgone txnId) .inr
  queued_sent r hr txnId hmsg := by
    rcases hq r hr with hr | hnone
    · exact hs.queued_sent r hr txnId hmsg
    · rw [hnone] at hmsg
      cases hmsg
  sent_accepted := hs.sent_accepted
  inOrder := hs.inOrder

/-- The end of a request drops only a message that the request carries. -/
theorem complete (hs : m.SendsInOrder kind accepted sent) (inFlight : r ∈ m.queue.inFlight)
    (now : Instant) (fits : outcome.mismatch? r.kind = none) :
    (m.withOutcome now r outcome).SendsInOrder kind accepted sent := by
  refine hs.fewer ?_ (fun txnId ht => ?_) (fun x hx => .inl ?_) fun hn => hn.mono (by simp) (by simp)
  · rcases withOutcome_messages m now fits with ⟨x, -, -, he⟩ | ⟨x, -, -, he⟩ | ⟨-, he⟩
    all_goals rw [he]
    · cases kind with
      | toDevice => exact m.messages.toDevice.keys_erase_sublist x.txnId
      | _ => exact .refl _
    · cases kind with
      | roomMessage => exact m.messages.roomMessages.keys_erase_sublist x.txnId
      | _ => exact .refl _
    · cases kind <;> exact .refl _
  · have hheld := Messages.holds_iff_mem_txnIds.2 ht
    by_cases hres : Turn.Resolves ⟨m, now, .markAsSent r.id outcome, .done, m⟩ (kind, txnId)
    · obtain ⟨x, -, -, -, hx, hmsg, -⟩ := hres
      exact .inr (hs.queued_sent x (Queue.mem_contents_iff.2 (.inr hx)) txnId hmsg)
    · exact .inl (Messages.holds_iff_mem_txnIds.1 ((holds_withOutcome inFlight fits).2 ⟨hheld, hres⟩))
  · rw [withOutcome_queue] at hx
    exact (m.queue.contents_withoutRequest_sublist r.id).subset hx

/-- A message that is accepted under the next name comes last. -/
theorem accept (hs : m.SendsInOrder kind accepted sent) {s : Messages} {k : RequestKind}
    (hids : s.txnIds kind = m.messages.txnIds kind ++ (txnIdOf? kind (k, m.nextId)).toList) :
    SendsInOrder { m with minted := m.minted + 1, messages := s } kind
      (accepted ++ (txnIdOf? kind (k, m.nextId)).toList) sent := by
  by_cases hk : k = kind
  · subst hk
    simp only [txnIdOf?, if_pos, Option.toList_some] at hids ⊢
    have hnew : m.nextId ∉ accepted := fun ht => (hs.minted _ ht).ne_nextId rfl
    have hsent : m.nextId ∉ sent := fun ht => hnew (hs.sent_accepted _ ht)
    refine {
      minted := fun txnId ht => ?_
      nodup := List.concat_eq_append ▸ hs.nodup.concat hnew
      held := ?_
      held_or_sent := fun txnId ht => ?_
      queued_sent := hs.queued_sent
      sent_accepted := fun txnId ht => List.mem_append_left _ (hs.sent_accepted txnId ht)
      inOrder := hs.inOrder.snoc_order hsent }
    · rcases List.mem_append.1 ht with ht | ht
      · exact (hs.minted txnId ht).mono rfl (Nat.le_succ _)
      · rw [List.mem_singleton.1 ht]
        exact ⟨m.minted, Nat.lt_succ_self _, rfl⟩
    · rw [hids]
      exact hs.held.append (.refl _)
    · rw [hids, List.mem_append]
      rcases List.mem_append.1 ht with ht | ht
      · exact (hs.held_or_sent txnId ht).imp_left .inl
      · exact .inl (.inr ht)
  · simp only [txnIdOf?, if_neg hk, Option.toList_none, List.append_nil] at hids ⊢
    refine hs.fewer ?_ (fun txnId ht => .inl ?_) (fun x hx => .inl hx) fun hn =>
      hn.mono rfl (Nat.le_succ _)
    · rw [hids]
    · rwa [hids]

/-- Every turn keeps messages in order. -/
theorem turn {l : Ledger} (hs : m.SendsInOrder kind accepted (carriedIds kind l.decided))
    (ha : l.Agrees m) (hk : m.messages.Keyed)
    (hheld : ∀ message, m.messages.Holds message → m.Minted message.2)
    (ht : m.Transition now call answer m') :
    m'.SendsInOrder kind
      (accepted ++ ((Turn.accepted? ⟨m, now, call, answer, m'⟩).bind (txnIdOf? kind)).toList)
      (carriedIds kind (l.add ⟨m, now, call, answer, m'⟩).decided) := by
  rw [Ledger.add, carriedIds_append]
  -- A call that neither accepts a message nor decides on requests adds nothing.
  have quiet : ∀ {t : Turn}, t.accepted? = none → t.decided = [] →
      m'.SendsInOrder kind accepted (carriedIds kind l.decided) →
      m'.SendsInOrder kind (accepted ++ (t.accepted?.bind (txnIdOf? kind)).toList)
        (carriedIds kind l.decided ++ carriedIds kind t.decided) := by
    intro t hacc hd hs'
    rw [hacc, hd, Option.bind_none, Option.toList_none, List.append_nil, carriedIds_nil, List.append_nil]
    exact hs'
  cases ht with
  | handOut =>
    have hp := hs.pass ha.named hk now
    simp only [Turn.accepted?, Option.bind_none, Option.toList_none, List.append_nil, Turn.decided]
    refine hp.fewer (.refl _) (fun _ => .inl) (fun x hx => .inl ?_) fun hn => hn
    rwa [Queue.contents_drainPending] at hx
  | complete r outcome inFlight fits =>
    have hp := (hs.complete inFlight now fits).pass (ha.complete inFlight now outcome).named
      (keyed_withOutcome hk now fits) now
    simp only [Turn.accepted?, Option.bind_none, Option.toList_none, List.append_nil,
      Turn.decided_markAsSent inFlight fits]
    exact hp
  | query users q queue built inserted =>
    refine quiet rfl rfl (hs.fewer (.refl _) (fun _ => .inl) (fun x hx => ?_) fun hn =>
      hn.mono rfl (Nat.le_succ _))
    rw [Queue.contents_insert ha.named.ne_nextId inserted, List.mem_append, List.mem_singleton] at hx
    exact hx.imp_right fun he => by rw [he]; rfl
  | acceptToDevice eventType rows s hok =>
    obtain ⟨x, -, rfl⟩ := Messages.addToDevice_eq_ok hok
    have hnew : m.nextId ∉ m.messages.toDevice := fun hn => (hheld (.toDevice, _) hn).ne_nextId rfl
    simp only [Turn.decided, carriedIds_nil, List.append_nil]
    exact hs.accept (Messages.txnIds_insert_toDevice hnew x kind)
  | acceptRoomMessage room eventType content s hok =>
    obtain ⟨x, -, rfl⟩ := Messages.addRoomMessage_eq_ok hok
    have hnew : m.nextId ∉ m.messages.roomMessages := fun hn =>
      (hheld (.roomMessage, _) hn).ne_nextId rfl
    simp only [Turn.decided, carriedIds_nil, List.append_nil]
    exact hs.accept (Messages.txnIds_insert_roomMessages hnew x kind)
  | acceptSignatures rows s hok =>
    have hids : s.txnIds kind = m.messages.txnIds kind := by
      rw [Messages.addSignatures_eq_ok hok]
      cases kind <;> rfl
    refine quiet rfl rfl (hs.fewer ?_ (fun txnId ht => .inl ?_) (fun x hx => .inl hx) fun hn => hn)
    · rw [hids]
    · rwa [hids]
  | enable version nonempty =>
    exact quiet rfl rfl (hs.fewer (.refl _) (fun _ => .inl)
      (fun x hx => .inl ((m.queue.contents_retainPending_sublist _).subset hx)) fun hn => hn)
  | disable =>
    exact quiet rfl rfl (hs.fewer (.refl _) (fun _ => .inl)
      (fun x hx => .inl ((m.queue.contents_retainPending_sublist _).subset hx)) fun hn => hn)
  | refuse call reason refusable => exact quiet (by cases call <;> rfl) (by cases call <;> rfl) hs
  | addOneTimeKeys | addFallbackKeys | track | change | missing | addRoomKey =>
    exact quiet rfl rfl (hs.fewer (.refl _) (fun _ => .inl) (fun x hx => .inl hx) fun hn => hn)

end SendsInOrder

/-- The messages of each kind are sent in order, whatever calls were made. -/
theorem Reached.sendsInOrder (hm : Reached h m) (kind : RequestKind) :
    m.SendsInOrder kind (acceptedIds kind h) (carriedIds kind (h.flatMap Turn.decided)) := by
  induction hm with
  | new => exact .new _ _ _ _ _ kind
  | step now call hm ih =>
    have ht := ih.turn (l := ledger _) hm.agrees hm.keyed (fun _ => hm.minted_of_holds)
      (transition_step _ now call)
    rw [← ledger_snoc] at ht
    rw [acceptedIds_snoc]
    exact ht

/-! ### What is handed out -/

/-- Requests that carry messages are handed out as they were decided on. -/
theorem Reached.carriedIds_drained (hm : Reached h m) (kind : RequestKind) :
    carriedIds kind (h.flatMap Turn.drained ++ m.queue.pending) =
      carriedIds kind (h.flatMap Turn.decided) := by
  have ha := hm.agrees
  simp only [carriedIds, payloadIds, List.filterMap_map]
  refine filterMap_eq_of_sublist ha.sublist (.of_map _ ha.nodup_decided) fun r hr hnot => ?_
  rw [List.mem_append, not_or] at hnot
  have hk : r.kind = .keysBackup := ((ha.kept r hr).resolve_left hnot.1).resolve_left hnot.2
  obtain ⟨id, payload⟩ := r
  cases payload <;> cases hk
  rfl

/-- Requests that carry messages are only handed out after they waited for it. -/
theorem Transition.mem_drained {message : RequestKind × TransactionId}
    (ht : m.Transition now call answer m') (hr : r ∈ Turn.handedOut ⟨m, now, call, answer, m'⟩)
    (hmsg : r.payload.message? = some message) : r ∈ Turn.drained ⟨m, now, call, answer, m'⟩ := by
  cases ht with
  | handOut => exact hr
  | query users q queue built inserted =>
    cases List.mem_singleton.1 hr
    cases hmsg
  | _ => cases hr

/-- So do the requests of a history. -/
theorem Reached.mem_drained {message : RequestKind × TransactionId} (hm : Reached h m)
    (hr : r ∈ h.flatMap Turn.handedOut) (hmsg : r.payload.message? = some message) :
    r ∈ h.flatMap Turn.drained := by
  obtain ⟨t, ht, hout⟩ := List.mem_flatMap.1 hr
  obtain ⟨h₁, h₂, rfl⟩ := List.append_of_mem ht
  obtain ⟨-, hturn, -⟩ := hm.split
  refine List.mem_flatMap.2 ⟨t, ht, ?_⟩
  rw [hturn] at hout ⊢
  exact (transition_step _ _ _).mem_drained hout hmsg

/-- A request that was handed out with the message of a turn has the payload that the turn accepted. -/
theorem Reached.payload_eq_of_drained {t : Turn} {p : Payload} {message : RequestKind × TransactionId}
    (hm : Reached h m) (ht : t ∈ h) (hp : t.acceptedPayload? = some p) (ha : t.accepted? = some message)
    (hr : r ∈ h.flatMap Turn.drained) (hmsg : r.payload.message? = some message) : r.payload = p := by
  obtain ⟨s, hs, hr⟩ := List.mem_flatMap.1 hr
  have hout : r ∈ s.handedOut := by
    unfold Turn.drained at hr
    split at hr
    · exact hr
    · cases hr
  obtain ⟨h₁, h₂, hsplit⟩ := List.append_of_mem hs
  have hms : Reached (h₁ ++ s :: h₂) m := hsplit ▸ hm
  have hsub : h₁ ++ [s] ⊆ h := List.IsPrefix.subset ⟨h₂, by simp [hsplit]⟩
  exact hm.payload_eq ht hp (Turn.answer_of_accepted? ha) hms.split.2.2 hsub
    (hms.mem_contents_of_handedOut hout) (by rw [Payload.txnId?, hmsg, Option.map_some])

/-- **Messages are first handed out in the order in which they were accepted**, whatever calls were made to
a new machine and whatever its queue can hold. When of two messages of a kind the second was handed out,
then before that a request was handed out that carries the first one as it was accepted. -/
theorem messages_handed_out_in_order (userId : UserId) (deviceId : DeviceId) (deviceKeys : Opaque)
    (settings : Settings) (ids : IdSource) (calls : List (Instant × Call)) :
    let h := (new userId deviceId deviceKeys settings ids).turns calls
    ∀ h₁ s h₂ t p q, h = h₁ ++ s :: h₂ → t ∈ h₂ → s.acceptedPayload? = some p →
      t.acceptedPayload? = some q → p.kind = q.kind →
      ∀ r ∈ h.flatMap Turn.handedOut, r.payload.message? = q.message? →
        ∃ l₁ l₂, h.flatMap Turn.drained = l₁ ++ r :: l₂ ∧ ∃ x ∈ l₁, x.payload = p := by
  intro h h₁ s h₂ t p q he ht hp hq hkind r hr hmsg
  have hm : Reached h _ := (Reached.new userId deviceId deviceKeys settings ids).run calls
  obtain ⟨a, hsa, hpa⟩ := Turn.accepted?_of_acceptedPayload? hp
  obtain ⟨b, htb, hqb⟩ := Turn.accepted?_of_acceptedPayload? hq
  rw [← hkind] at htb hqb
  rw [hqb] at hmsg
  have horder : [a, b].Sublist (acceptedIds p.kind h) := by
    have hb : b ∈ acceptedIds p.kind h₂ := mem_acceptedIds.2 ⟨t, ht, htb⟩
    rw [he, acceptedIds_append_cons hsa]
    exact ((List.singleton_sublist.2 hb).cons_cons a).trans (List.sublist_append_right _ _)
  obtain ⟨l₁, l₂, hl⟩ := List.append_of_mem (hm.mem_drained hr hmsg)
  have hsent : StartsInOrder (acceptedIds p.kind h) (carriedIds p.kind (h.flatMap Turn.drained)) := by
    refine (hm.sendsInOrder p.kind).inOrder.of_prefix ?_
    rw [← hm.carriedIds_drained, carriedIds_append]
    exact List.prefix_append _ _
  rw [hl, carriedIds_append_cons hmsg] at hsent
  obtain ⟨x, hx, hxa⟩ := mem_carriedIds.1 (hsent a b horder _ _ rfl)
  refine ⟨l₁, l₂, hl, x, hx, hm.payload_eq_of_drained (by simp [he]) hp hsa ?_ hxa⟩
  rw [hl]
  exact List.mem_append_left _ hx

/-- The machine of the user, with room for three requests. -/
def Sample.narrow : Machine :=
  .new Sample.alice "DEVICE" .null { Settings.default with maxQueuedRequests := some 3 } (.counting "r")

/-- Of two messages the second has to wait while the queue is full. The first one fails and is sent again,
and by the time the second is handed out the first was. -/
theorem messages_handed_out_in_order_narrow :
    let calls : List (Instant × Call) :=
      [(0, .queueToDevice "m.first" Sample.toBob), (0, .queueToDevice "m.second" Sample.toBob),
        (0, .outgoingRequests), (0, .markAsSent "r-4" (.failure (.transient "later"))),
        (0, .markAsSent "r-2" (.success (.keysUpload ⟨∅⟩))), (0, .outgoingRequests)]
    ∃ last l₁ l₂ x p, (Sample.narrow.turns calls).flatMap Turn.drained = l₁ ++ last :: l₂ ∧
      last.id = "r-6" ∧ last.payload.txnId? = some "r-1" ∧ x ∈ l₁ ∧ x.payload = .toDevice p ∧
      p.eventType = "m.first" := by
  intro calls
  have hrun : ∃ s t handOut later uploaded again p q upload query first retried last,
      Sample.narrow.turns calls = [s, t, handOut, later, uploaded, again] ∧
      s.acceptedPayload? = some (.toDevice p) ∧ t.acceptedPayload? = some (.toDevice q) ∧
      p.eventType = "m.first" ∧ handOut.handedOut = [upload, query, first] ∧
      again.handedOut = [retried, last] ∧ last.id = "r-6" ∧
      last.payload.message? = some (.toDevice, "r-1") ∧ q.txnId = "r-1" :=
    ⟨_, _, _, _, _, _, _, _, _, _, _, _, _, rfl, rfl, rfl, rfl, rfl, rfl, rfl, rfl, rfl⟩
  obtain ⟨s, t, handOut, later, uploaded, again, p, q, upload, query, first, retried, last, hh, hp, hq,
    hfirst, hout, hagain, hid, hmsg, hname⟩ := hrun
  have hlast : last ∈ (Sample.narrow.turns calls).flatMap Turn.handedOut :=
    List.mem_flatMap.2 ⟨again, by simp [hh], by simp [hagain]⟩
  obtain ⟨l₁, l₂, hl, x, hx, hxp⟩ := messages_handed_out_in_order Sample.alice "DEVICE" .null
    { Settings.default with maxQueuedRequests := some 3 } (.counting "r") calls [] s _ t _ _ hh (by simp)
    hp hq rfl last hlast (by rw [hmsg, Payload.message?, hname])
  exact ⟨last, l₁, l₂, x, p, hl, hid, by rw [Payload.txnId?, hmsg, Option.map_some], hx, hxp, hfirst⟩

end Machine
end Outbox
