/-
# What a host gives back

A host hands the text of a response back with the number of a kind, and names the request. The text is read
as a response of the kind with that number and of no other, and a host sees the kind of a request as it is.
So the machine takes the response exactly if the host gave back the number that it saw; otherwise it says
which kind it expected and which one the number is of, and nothing changes.

Key theorems: `Response.parse_eq_ok_iff`, `Response.exists_parse_eq_ok`, `Response.parse_eq_unknown_iff`,
`Machine.response_accepted_iff`.
-/
import Outbox.Proofs.Atomicity
import Outbox.Proofs.HostView
import Outbox.Proofs.Wanted
import Outbox.Wire.Response

namespace Outbox

/-! ### Reading responses -/

namespace Response

variable {kind : RequestKind} {number : UInt8} {body : String} {response : Response}

/-- What is read as a response of a kind is one. -/
theorem kind_of_decode? (h : (decoder kind).decode? body = some response) : response.kind = kind := by
  obtain ⟨node, -, hread⟩ := Option.bind_eq_some_iff.1 h
  cases kind with
  | _ =>
    obtain ⟨r, -, rfl⟩ := Option.map_eq_some_iff.1 hread
    rfl

/-- A text is read as a response if the number is that of a kind and the text is a response of the kind. -/
theorem parse_eq_ok_iff : parse number body = .ok response ↔
    response.kind.number = number ∧ (decoder response.kind).decode? body = some response := by
  unfold parse
  constructor
  · intro h
    cases hn : RequestKind.ofNumber? number with
    | none => simp [hn] at h
    | some kind =>
      cases hd : (decoder kind).decode? body with
      | none => simp [hn, hd] at h
      | some r =>
        simp only [hn, hd, Except.ok.injEq] at h
        subst h
        have hk : r.kind = kind := kind_of_decode? hd
        rw [hk]
        exact ⟨RequestKind.ofNumber?_eq_some_iff.1 hn, hd⟩
  · rintro ⟨hn, hd⟩
    simp [RequestKind.ofNumber?_eq_some_iff.2 hn, hd]

/-- A number is refused, whatever the text is, exactly if it is above those of all kinds. -/
theorem parse_eq_unknown_iff : parse number body = .error (.unknownRequestType number) ↔
    RequestKind.keysBackup.number < number := by
  rw [← RequestKind.ofNumber?_eq_none_iff]
  unfold parse
  cases hn : RequestKind.ofNumber? number with
  | none => simp
  | some kind => cases hd : (decoder kind).decode? body <;> simp [hd]

/-- There is a text of a response of every kind. -/
theorem exists_parse_eq_ok (kind : RequestKind) : ∃ body response, parse kind.number body = .ok response := by
  have hread : ∃ body, (parse kind.number body).toOption.isSome = true := by
    cases kind with
    | roomMessage => exact ⟨"\x7b\"event_id\":\"$event\"\x7d", by decide +kernel⟩
    | keysBackup => exact ⟨"\x7b\"etag\":\"\",\"count\":0\x7d", by decide +kernel⟩
    | _ => exact ⟨"\x7b\x7d", by decide +kernel⟩
  obtain ⟨body, hbody⟩ := hread
  obtain ⟨response, hresponse⟩ := Option.isSome_iff_exists.1 hbody
  exact ⟨body, response, toOption_eq_some_iff.1 hresponse⟩

end Response

/-! ### Giving responses back -/

namespace Machine

variable {m : Machine} {r : OutgoingRequest} {number : UInt8} {body : String} {response : Response}

/-- A response that was read fits a request exactly if it was read with the number of its kind. -/
theorem kind_eq_iff_of_parse (hread : Response.parse number body = .ok response) (kind : RequestKind) :
    response.kind = kind ↔ number = kind.number := by
  have hnumber : response.kind.number = number := (Response.parse_eq_ok_iff.1 hread).1
  constructor
  · rintro rfl
    exact hnumber.symm
  · intro h
    apply RequestKind.number_injective
    rw [hnumber, h]

/-- The answer to a response that was read, for a request that is in flight. -/
theorem step_markAsSent_of_parse (hr : r ∈ m.inFlightRequests) (now : Instant)
    (hread : Response.parse number body = .ok response) :
    (m.step now (.markAsSent r.id (.success response))).1 =
      if number = r.kind.number then .done
      else .refused (.notMarked (.mismatchedResponse r.id r.kind response.kind)) := by
  have hkind : response.kind = r.kind ↔ number = r.kind.number := kind_eq_iff_of_parse hread r.kind
  rw [step_markAsSent_of_mem hr]
  by_cases h : number = r.kind.number
  · have hfits : (Outcome.success response).mismatch? r.kind = none :=
      Outcome.mismatch?_success_eq_none_iff.2 (hkind.2 h)
    rw [hfits, if_pos h]
  · have hnot : (Outcome.success response).mismatch? r.kind = some response.kind :=
      Outcome.mismatch?_eq_some_iff.2 ⟨response, rfl, rfl, fun hk => h (hkind.1 hk)⟩
    rw [hnot, if_neg h]

/-- **The loop of a host closes.** For every request in flight there are responses of the kind that the host
sees. One that was read, with whatever number, is taken exactly if the number is that of this kind; otherwise
the answer names this kind and the one with the number, and the machine is as it was. No text is read with a
number above six. -/
theorem response_accepted_iff (m : Machine) (now : Instant) (r : OutgoingRequest) :
    let host := HostRequest.ofRequest r
    (r ∈ m.inFlightRequests →
      (∃ body response, Response.parse host.kind.number body = .ok response) ∧
      ∀ number body response, Response.parse number body = .ok response →
        ((m.inPlace now (.markAsSent host.id (.success response))).1 = .done ↔
          number = host.kind.number) ∧
        (number ≠ host.kind.number → ∃ got, RequestKind.ofNumber? number = some got ∧
          m.inPlace now (.markAsSent host.id (.success response)) =
            (.refused (.notMarked (.mismatchedResponse host.id host.kind got)), m))) ∧
    ∀ number body, 6 < number → Response.parse number body = .error (.unknownRequestType number) := by
  intro host
  have hid : host.id = r.id := HostRequest.id_ofRequest r
  have hkind : host.kind = r.kind := HostRequest.kind_ofRequest r
  rw [hid, hkind]
  constructor
  · intro hr
    refine ⟨Response.exists_parse_eq_ok r.kind, ?_⟩
    intro number body response hread
    rw [inPlace_eq_step]
    have hanswer := step_markAsSent_of_parse hr now hread
    constructor
    · rw [hanswer]
      by_cases h : number = r.kind.number
      · simp [h]
      · simp [h]
    · intro hne
      rw [if_neg hne] at hanswer
      have hgot := RequestKind.ofNumber?_eq_some_iff.2 (Response.parse_eq_ok_iff.1 hread).1
      exact ⟨response.kind, hgot, Prod.ext hanswer (step_refused hanswer)⟩
  · intro number body hfree
    exact Response.parse_eq_unknown_iff.2 hfree

/-- The empty object is taken as a response to the upload of keys if it is read with the number of one. Read
with the number of messages to devices it is refused, and with a number that no kind has it is not read. -/
theorem response_accepted_iff_keysUpload :
    let m := (Sample.machine.run [(0, .outgoingRequests)]).2
    let upload : Response := .keysUpload ⟨∅⟩
    ∃ r ∈ m.inFlightRequests, (HostRequest.ofRequest r).kind.number = 0 ∧
      Response.parse 0 "\x7b\x7d" = .ok upload ∧ Response.parse 3 "\x7b\x7d" = .ok (.toDevice ⟨⟩) ∧
      (m.inPlace 1 (.markAsSent (HostRequest.ofRequest r).id (.success upload))).1 = .done ∧
      (m.inPlace 1 (.markAsSent (HostRequest.ofRequest r).id (.success (.toDevice ⟨⟩)))).2 = m ∧
      Response.parse 7 "\x7b\x7d" = .error (.unknownRequestType 7) := by
  intro m upload
  have hrun : ∃ r rest, m.inFlightRequests = r :: rest ∧ r.kind = .keysUpload := ⟨_, _, rfl, rfl⟩
  obtain ⟨r, rest, hin, hk⟩ := hrun
  have hr : r ∈ m.inFlightRequests := by simp [hin]
  have hnumber : (HostRequest.ofRequest r).kind.number = 0 := by
    rw [HostRequest.kind_ofRequest, hk]
    rfl
  have hupload : Response.parse 0 "\x7b\x7d" = .ok upload := by rfl
  have htoDevice : Response.parse 3 "\x7b\x7d" = .ok (.toDevice ⟨⟩) := by rfl
  obtain ⟨hloop, hfree⟩ := response_accepted_iff m 1 r
  obtain ⟨-, hclose⟩ := hloop hr
  obtain ⟨hdone, -⟩ := hclose 0 _ _ hupload
  obtain ⟨-, hrefused⟩ := hclose 3 _ _ htoDevice
  obtain ⟨got, -, hsame⟩ := hrefused (by rw [hnumber]; decide)
  refine ⟨r, hr, hnumber, hupload, htoDevice, hdone.2 hnumber.symm, ?_,
    hfree 7 _ (by decide)⟩
  rw [hsame]

end Machine
end Outbox
