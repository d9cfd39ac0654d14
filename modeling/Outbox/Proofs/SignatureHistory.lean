/-
# Signatures are kept until they were uploaded

A signature is to be uploaded from when it was accepted until an upload that has it, with an equal value, was
answered. Which upload that is does not matter: it may have been built at any time, and be answered late, more
than once, or after others that were built later. So a signature that replaced another one while that was on
its way is not lost with the answer.

The signatures can be kept user by user as well. A user of whom the last signature was uploaded is gone then,
since no upload can be built as long as there is a user without signatures.

Key definitions: `SignatureEvent`, `SignatureEvent.addByUser`, `SignatureEvent.applyRows`, `Messages.after`,
`Outstanding`.
Key theorems: `SignatureUpload.exists_ofRows_iff`, `Messages.get?_after_eq_some_iff`, `Messages.rows_after`,
`Messages.signatures_kept`.
-/
import Mathlib.Data.List.Induction
import Outbox.Proofs.History
import Outbox.Proofs.NestedRows
import Outbox.Proofs.Wanted

namespace Outbox

/-! ### What happens to signatures -/

/-- Something that happens to the signatures. -/
inductive SignatureEvent where
  /-- Signatures are given, which may be rejected. -/
  | queue (signedKeys : Rows UserId KeyId Opaque)
  /-- An upload is answered, whenever it was built. -/
  | answer (request : SignatureUpload) (response : SignatureUploadResponse)

namespace SignatureEvent

/-- The value of a key that was accepted. -/
def accepted? (key : Cell UserId KeyId) : SignatureEvent → Option Opaque
  | queue signedKeys => (SignatureUpload.ofRows signedKeys).toOption.bind fun _ => signedKeys.cell? key
  | answer _ _ => none

/-- The upload that was answered has an equal value for a key. -/
def Confirms (key : Cell UserId KeyId) (signed : Opaque) : SignatureEvent → Prop
  | queue _ => False
  | answer request _ => (request.signedKeys.get? key).any (· == signed) = true

/-- Adds signatures to those that are kept user by user, one user after the other, once it was checked that an
upload could be built of the new ones. What was added before a rejection stays. -/
def addByUser (signedKeys : Rows UserId KeyId Opaque) :
    ExceptT ValidationError (StateM (Rows UserId KeyId Opaque)) Unit := do
  let _ ← liftExcept (SignatureUpload.ofRows signedKeys)
  signedKeys.toList.forM fun (user, keys) => modify fun signed => signed.extendRow user keys

/-- What happens to the signatures if they are kept user by user. -/
def applyRows (signed : Rows UserId KeyId Opaque) : SignatureEvent → Rows UserId KeyId Opaque
  | queue signedKeys => ((addByUser signedKeys).run signed).2
  | answer request _ => signed.prune request.signedKeys.rows

variable {signed signedKeys : Rows UserId KeyId Opaque} {request : SignatureUpload} {e : ValidationError}
  {key : Cell UserId KeyId}

theorem accepted?_queue_of_ok (h : SignatureUpload.ofRows signedKeys = .ok request) :
    accepted? key (queue signedKeys) = signedKeys.cell? key := by
  rw [accepted?, h]
  rfl

theorem accepted?_queue_of_error (h : SignatureUpload.ofRows signedKeys = .error e) :
    accepted? key (queue signedKeys) = none := by
  rw [accepted?, h]
  rfl

theorem run_forM_extendRow (l : List (UserId × SortedMap KeyId Opaque)) (signed : Rows UserId KeyId Opaque) :
    (l.forM fun (user, keys) => modify fun signed => signed.extendRow user keys :
      ExceptT ValidationError (StateM (Rows UserId KeyId Opaque)) Unit).run signed =
      (.ok (), l.foldl (fun signed e => signed.extendRow e.1 e.2) signed) := by
  induction l generalizing signed with
  | nil => rfl
  | cons e l ih => exact ih _

theorem applyRows_queue_of_ok (h : SignatureUpload.ofRows signedKeys = .ok request) :
    applyRows signed (queue signedKeys) = signed.extend signedKeys := by
  rw [applyRows, addByUser, h]
  exact congrArg Prod.snd (run_forM_extendRow signedKeys.toList signed)

/-- Nothing was added when signatures are rejected. -/
theorem applyRows_queue_of_error (h : SignatureUpload.ofRows signedKeys = .error e) :
    applyRows signed (queue signedKeys) = signed := by
  rw [applyRows, addByUser, h]
  rfl

end SignatureEvent

/-- The messages after something happened to the signatures. -/
def Messages.after (s : Messages) : SignatureEvent → Messages
  | .queue signedKeys =>
    match s.addSignatures signedKeys with
    | .ok s => s
    | .error _ => s
  | .answer request _ => s.receiveSignatureUpload request

/-- The value was accepted for the key, and since then neither was another one nor was an upload answered that
has an equal value. -/
def Outstanding (events : List SignatureEvent) (key : Cell UserId KeyId) (signed : Opaque) : Prop :=
  ∃ before event later, events = before ++ event :: later ∧ event.accepted? key = some signed ∧
    ∀ e ∈ later, ¬ (e.accepted? key ≠ none ∨ e.Confirms key signed)

/-! ### Uploads -/

namespace SignatureUpload

variable {signedKeys : Rows UserId KeyId Opaque} {request : SignatureUpload}

theorem ofTable_eq_ok_iff {table : Table UserId KeyId Opaque} :
    ofTable table = .ok request ↔ request.signedKeys = table := by
  constructor
  · exact signedKeys_of_ofTable
  · rintro rfl
    rw [ofTable, dif_pos request.nonempty]

/-- What an upload is built of are its rows. -/
theorem ofRows_eq_ok_iff :
    ofRows signedKeys = .ok request ↔ signedKeys.Tidy ∧ request.signedKeys = Table.ofRows signedKeys := by
  unfold ofRows
  cases hrows : Table.ofRows? signedKeys with
  | error user =>
    refine iff_of_false nofun fun ⟨htidy, _⟩ => ?_
    cases hrows.symm.trans (Table.ofRows?_eq_ok_iff.2 ⟨htidy, rfl⟩)
  | ok table =>
    obtain ⟨htidy, rfl⟩ := Table.ofRows?_eq_ok_iff.1 hrows
    exact ofTable_eq_ok_iff.trans (and_iff_right htidy).symm

/-- Signatures are accepted exactly if there are any, and some of each user. -/
theorem exists_ofRows_iff :
    (∃ request, ofRows signedKeys = .ok request) ↔ signedKeys.isEmpty = false ∧ signedKeys.Tidy := by
  constructor
  · rintro ⟨request, h⟩
    obtain ⟨htidy, htable⟩ := ofRows_eq_ok_iff.1 h
    have hne := request.nonempty
    rw [htable, Table.isEmpty_ofRows htidy] at hne
    exact ⟨hne, htidy⟩
  · rintro ⟨hrows, htidy⟩
    have hne : (Table.ofRows signedKeys).isEmpty = false := (Table.isEmpty_ofRows htidy).trans hrows
    exact ⟨⟨_, hne⟩, ofRows_eq_ok_iff.2 ⟨htidy, rfl⟩⟩

/-- They are rejected exactly if there are none at all, or none of some user. -/
theorem exists_error_iff :
    (∃ e, ofRows signedKeys = .error e) ↔
      signedKeys.isEmpty = true ∨ ∃ user keys, signedKeys.get? user = some keys ∧ keys.isEmpty = true := by
  have hor : (∃ e, ofRows signedKeys = .error e) ↔ ¬ ∃ request, ofRows signedKeys = .ok request := by
    cases ofRows signedKeys <;> simp
  rw [hor, exists_ofRows_iff, not_and_or]
  simp [Rows.Tidy]

end SignatureUpload

namespace Messages

variable {s : Messages} {request : SignatureUpload} {signedKeys : Rows UserId KeyId Opaque}

/-- The upload that is built has the signatures that there are. -/
theorem signatureUpload?_eq_some_iff : s.signatureUpload? = some request ↔ request.signedKeys = s.signatures :=
  toOption_eq_some_iff.trans SignatureUpload.ofTable_eq_ok_iff

/-- No upload is built exactly if there are no signatures. -/
theorem signatureUpload?_eq_none_iff : s.signatureUpload? = none ↔ ∀ key, s.signatures.get? key = none := by
  rw [← SortedMap.isEmpty_iff_get?]
  unfold signatureUpload? SignatureUpload.ofTable
  by_cases h : s.signatures.isEmpty = false
  · simp [h, Except.toOption]
  · simp [h, Except.toOption]

/-! ### One event -/

theorem addSignatures_eq_error_iff {e : ValidationError} :
    s.addSignatures signedKeys = .error e ↔ SignatureUpload.ofRows signedKeys = .error e := by
  unfold addSignatures
  cases SignatureUpload.ofRows signedKeys <;> simp [Except.map]

theorem after_queue_of_ok (h : SignatureUpload.ofRows signedKeys = .ok request) :
    s.after (.queue signedKeys) =
      { s with signatures := s.signatures.insertMany (Table.ofRows signedKeys).toList } := by
  rw [after, addSignatures, h, ← (SignatureUpload.ofRows_eq_ok_iff.1 h).2]
  rfl

/-- Signatures that are rejected change nothing. -/
theorem after_queue_of_error {e : ValidationError} (h : SignatureUpload.ofRows signedKeys = .error e) :
    s.after (.queue signedKeys) = s := by
  rw [after, addSignatures, h]
  rfl

/-- A signature is there after an event if the event gave it, or if it was there before and the event neither
replaced nor confirmed it. -/
theorem get?_after_eq_some_iff (s : Messages) (event : SignatureEvent) (key : Cell UserId KeyId)
    (signed : Opaque) : (s.after event).signatures.get? key = some signed ↔
      event.accepted? key = some signed ∨ s.signatures.get? key = some signed ∧
        ¬ (event.accepted? key ≠ none ∨ event.Confirms key signed) := by
  cases event with
  | queue signedKeys =>
    have hconfirms : ¬ (SignatureEvent.queue signedKeys).Confirms key signed := not_false
    cases hr : SignatureUpload.ofRows signedKeys with
    | error e =>
      simp [after_queue_of_error hr, SignatureEvent.accepted?_queue_of_error hr, hconfirms]
    | ok request =>
      rw [after_queue_of_ok hr, SortedMap.get?_insertMany_toList, Table.get?_ofRows,
        SignatureEvent.accepted?_queue_of_ok hr]
      cases signedKeys.cell? key with
      | none => simp [hconfirms]
      | some v => simp
  | answer request response =>
    have hnone : (SignatureEvent.answer request response).accepted? key = none := rfl
    have hconfirms : (SignatureEvent.answer request response).Confirms key signed ↔
      (request.signedKeys.get? key).any (· == signed) = true := Iff.rfl
    have hfilter : (s.after (.answer request response)).signatures.get? key =
        (s.signatures.get? key).filter fun v => !(request.signedKeys.get? key).any (· == v) :=
      SortedMap.get?_filter _ _ _
    rw [hfilter, hnone, Option.filter_eq_some_iff, hconfirms]
    simp

/-- What happens to the signatures happens to them user by user. -/
theorem rows_after (s : Messages) (event : SignatureEvent) :
    (s.after event).signatures.rows = event.applyRows s.signatures.rows := by
  cases event with
  | queue signedKeys =>
    cases hr : SignatureUpload.ofRows signedKeys with
    | error e => rw [after_queue_of_error hr, SignatureEvent.applyRows_queue_of_error hr]
    | ok request =>
      have htidy : signedKeys.Tidy := (SignatureUpload.ofRows_eq_ok_iff.1 hr).1
      rw [after_queue_of_ok hr, SignatureEvent.applyRows_queue_of_ok hr]
      refine (Table.rows_insertMany _ _).trans ?_
      rw [Table.rows_ofRows htidy]
  | answer request response => exact Table.rows_filter s.signatures request.signedKeys

/-! ### All events -/

theorem outstanding_snoc {events : List SignatureEvent} {event : SignatureEvent} {key : Cell UserId KeyId}
    {signed : Opaque} : Outstanding (events ++ [event]) key signed ↔
      event.accepted? key = some signed ∨ Outstanding events key signed ∧
        ¬ (event.accepted? key ≠ none ∨ event.Confirms key signed) :=
  exists_split_snoc

/-- The signatures that are there are those that are outstanding. -/
theorem get?_foldl_after_eq_some_iff (events : List SignatureEvent) (key : Cell UserId KeyId)
    (signed : Opaque) : (events.foldl after empty).signatures.get? key = some signed ↔
      Outstanding events key signed := by
  induction events using List.reverseRecOn with
  | nil => exact iff_of_false nofun fun ⟨_, _, _, h, _⟩ => by simp at h
  | append_singleton events event ih =>
    rw [List.foldl_append, List.foldl_cons, List.foldl_nil, get?_after_eq_some_iff, ih, outstanding_snoc]

/-- To keep the signatures user by user makes no difference. -/
theorem rows_foldl_after (events : List SignatureEvent) :
    (events.foldl after empty).signatures.rows = events.foldl SignatureEvent.applyRows ∅ :=
  (List.foldl_hom (fun s : Messages => s.signatures.rows) fun s event => (rows_after s event).symm).symm

/-- **Signatures are neither lost nor uploaded needlessly**, whatever happens to them in whatever order. The
signature of a key is the one that was accepted last, unless an upload that has an equal value was answered
since. Signatures that are rejected, which are those without any and those with a user of whom there are none,
change nothing. Kept user by user they are the same, and no user is left without signatures. The upload that is
built has exactly these signatures, and there is none exactly if there are no signatures. -/
theorem signatures_kept (events : List SignatureEvent) :
    let s := events.foldl after empty
    let byUser := events.foldl SignatureEvent.applyRows ∅
    (∀ key signed, s.signatures.get? key = some signed ↔ Outstanding events key signed) ∧
    (∀ key, Rows.cell? byUser key = s.signatures.get? key) ∧
    (∀ user keys, byUser.get? user = some keys → keys.isEmpty = false) ∧
    (∀ signedKeys : Rows UserId KeyId Opaque,
      ((∃ e, s.addSignatures signedKeys = .error e) ↔
        signedKeys.isEmpty = true ∨ ∃ user keys, signedKeys.get? user = some keys ∧ keys.isEmpty = true) ∧
      ((∃ e, s.addSignatures signedKeys = .error e) →
        s.after (.queue signedKeys) = s ∧ SignatureEvent.applyRows byUser (.queue signedKeys) = byUser)) ∧
    (s.signatureUpload? = none ↔ ∀ key signed, ¬ Outstanding events key signed) ∧
    (∀ request, s.signatureUpload? = some request → ∀ key signed,
      request.signedKeys.get? key = some signed ↔ Outstanding events key signed) ∧
    (SignatureUpload.ofRows byUser).toOption = s.signatureUpload? := by
  intro s byUser
  have hrows : byUser = s.signatures.rows := (rows_foldl_after events).symm
  have hkept := get?_foldl_after_eq_some_iff events
  refine ⟨hkept, ?_, ?_, ?_, ?_, ?_, ?_⟩
  · intro key
    rw [hrows, Table.cell?_rows]
  · rw [hrows]
    exact Table.tidy_rows s.signatures
  · intro signedKeys
    simp only [addSignatures_eq_error_iff]
    refine ⟨SignatureUpload.exists_error_iff, ?_⟩
    rintro ⟨e, he⟩
    exact ⟨after_queue_of_error he, SignatureEvent.applyRows_queue_of_error he⟩
  · rw [signatureUpload?_eq_none_iff]
    simp only [Option.eq_none_iff_forall_ne_some]
    exact forall₂_congr fun key signed => not_congr (hkept key signed)
  · intro request hrequest key signed
    rw [signatureUpload?_eq_some_iff.1 hrequest, hkept]
  · refine Option.ext fun request => ?_
    rw [toOption_eq_some_iff, SignatureUpload.ofRows_eq_ok_iff, signatureUpload?_eq_some_iff, hrows,
      Table.ofRows_rows]
    exact and_iff_right (Table.tidy_rows s.signatures)

/-- A signature with a value. -/
def Sample.signedAs (signed : Opaque) : Rows UserId KeyId Opaque :=
  SortedMap.insert ∅ Sample.alice (SortedMap.insert ∅ "ed25519:DEVICE" signed)

/-- An upload of the signature. -/
def Sample.uploadOf (signed : Opaque) : SignatureUpload := ⟨Table.ofRows (Sample.signedAs signed), rfl⟩

theorem Sample.ofRows_signedAs (signed : Opaque) :
    SignatureUpload.ofRows (Sample.signedAs signed) = .ok (Sample.uploadOf signed) :=
  SignatureUpload.ofRows_eq_ok_iff.2 ⟨Rows.tidy_empty.insert rfl, rfl⟩

/-- A signature that was replaced while it was on its way is still to be uploaded after the answer. One that is
given with nothing in it is rejected and takes nothing away. -/
theorem signatures_kept_replaced :
    let key : Cell UserId KeyId := ⟨Sample.alice, "ed25519:DEVICE"⟩
    let new : Opaque := ⟨.bool true, trivial⟩
    let events : List SignatureEvent := [.queue (Sample.signedAs .null), .queue (Sample.signedAs new),
      .answer (Sample.uploadOf .null) ⟨∅⟩]
    let s := events.foldl after empty
    s.signatures.get? key = some new ∧
      (∃ request, s.signatureUpload? = some request ∧ request.signedKeys.get? key = some new) ∧
      s.after (.queue (SortedMap.insert ∅ Sample.alice ∅)) = s := by
  intro key new events s
  have hgiven : SignatureEvent.accepted? key (.queue (Sample.signedAs new)) = some new := by
    have hrow : (Sample.signedAs new).get? key.row = some (SortedMap.insert ∅ key.column new) :=
      SortedMap.get?_insert_self _ _ _
    rw [SignatureEvent.accepted?_queue_of_ok (Sample.ofRows_signedAs new), Rows.cell?_eq hrow,
      SortedMap.get?_insert_self]
  have hother : ((Sample.uploadOf .null).signedKeys.get? key).any (· == new) = false := by decide +kernel
  have hnew : Outstanding events key new := by
    refine ⟨[.queue (Sample.signedAs .null)], .queue (Sample.signedAs new), _, rfl, hgiven, ?_⟩
    intro e he
    obtain rfl := List.mem_singleton.1 he
    simp [SignatureEvent.accepted?, SignatureEvent.Confirms, hother]
  obtain ⟨hkept, -, -, hrejected, hnone, hupload, -⟩ := signatures_kept events
  refine ⟨(hkept key new).2 hnew, ?_, ?_⟩
  · cases hr : s.signatureUpload? with
    | none => exact absurd hnew (hnone.1 hr key new)
    | some request => exact ⟨request, rfl, (hupload request hr key new).2 hnew⟩
  · obtain ⟨hiff, hsame⟩ := hrejected (SortedMap.insert ∅ Sample.alice ∅)
    exact (hsame (hiff.2 (.inr ⟨Sample.alice, ∅, SortedMap.get?_insert_self _ _ _, rfl⟩))).1

end Messages
end Outbox
