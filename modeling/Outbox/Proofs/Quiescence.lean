/-
# A cooperative host brings a machine to rest

When a host does nothing but ask for requests and report that they succeeded, the workload of the machine
bounds the number of successes: each takes something off it, and nothing adds to it. When such a host has
nothing in flight and is given nothing, the machine has nothing left to do, apart from queries to servers
that it leaves alone for a while.

Key definitions: `Turn.Cooperative`, `Machine.AtRest`.
Key theorems: `Machine.Reached.workload_turn_le`, `Machine.Reached.workload_run_le`,
`Machine.Reached.atRest`, `Machine.cooperation_quiesces`.
-/
import Outbox.Proofs.Completeness
import Outbox.Proofs.UpToDate
import Outbox.Proofs.Workload

namespace Outbox

/-- The caller asked for requests, or reported the success of a request in flight. The response to a query
was complete. -/
def Turn.Cooperative (t : Turn) : Prop :=
  t.call = .outgoingRequests ∨ ∃ r ∈ t.before.inFlightRequests, ∃ response,
    t.call = .markAsSent r.id (.success response) ∧ response.IsComplete r.payload

theorem Backup.size_remaining (b : Backup) : b.remaining.size = b.counts.total - b.counts.backedUp := by
  have hsplit := List.length_eq_length_filter_add (l := b.roomKeys.toList) fun e => e.2.backedUp
  simp only [remaining, counts, SortedMap.size, SortedMap.mapValues, SortedMap.filter, List.length_map]
  omega

namespace Machine

variable {m m' : Machine} {h : List Turn} {now : Instant} {call : Call} {answer : Answer}

/-! ### How often requests can succeed -/

/-- **A cooperative turn adds nothing to the workload**, and takes something off it if a request
succeeded. -/
theorem Reached.workload_turn_le (hm : Reached h m) (ht : m.Transition now call answer m')
    (hc : Turn.Cooperative ⟨m, now, call, answer, m'⟩) :
    m'.workload + (Turn.marked? ⟨m, now, call, answer, m'⟩).toList.length ≤ m.workload := by
  cases ht with
  | handOut =>
    show workload { m.decisionPass now with queue := (m.decisionPass now).queue.drainPending.2 } + 0 ≤ _
    rw [workload_drainPending, Nat.add_zero]
    exact workload_decisionPass_le hm.agrees hm.notesQueries hm.keyed hm.dated.invalidatedAt_le now
  | complete r outcome inFlight fits =>
    obtain ⟨response, rfl, hcomplete⟩ : ∃ response, outcome = .success response ∧
        response.IsComplete r.payload := by
      rcases hc with hcall | ⟨s, hs, response, hcall, hcomplete⟩
      · cases hcall
      · obtain ⟨hid, rfl⟩ := Call.markAsSent.inj hcall
        cases Queue.eq_of_id_eq (Queue.mem_contents_iff.2 (.inr inFlight))
          (Queue.mem_contents_iff.2 (.inr hs)) hid
        exact ⟨response, rfl, hcomplete⟩
    have hlt := workload_withOutcome_lt hm.notesQueries inFlight fits hcomplete now
    have hpass := workload_decisionPass_le (hm.agrees.complete inFlight now (.success response))
      (hm.notesQueries.complete inFlight now fits) (keyed_withOutcome hm.keyed now fits)
      (dated_withOutcome hm.dated hm.coherent.ownUser hm.notesQueries hm.agrees inFlight
        fits).invalidatedAt_le now
    show _ + 1 ≤ _
    omega
  | refuse call reason refusable =>
    have hmark : Turn.marked? ⟨m, now, call, .refused reason, m⟩ = none := by cases call <;> rfl
    rw [hmark]
    exact Nat.le_refl _
  | _ =>
    rcases hc with hcall | ⟨s, hs, response, hcall, -⟩
    · cases hcall
    · cases hcall

/-- **In a cooperative run no more requests succeed than the workload allows.** -/
theorem Reached.workload_run_le (hm : Reached h m) (calls : List (Instant × Call))
    (hc : ∀ t ∈ m.turns calls, t.Cooperative) :
    (m.run calls).2.workload + ((m.turns calls).filterMap Turn.marked?).length ≤ m.workload := by
  induction calls generalizing h m with
  | nil => exact Nat.le_refl _
  | cons c calls ih =>
    obtain ⟨hfirst, hrest⟩ := List.forall_mem_cons.1 hc
    have hturn : (m.step c.1 c.2).2.workload + (m.turn c.1 c.2).marked?.toList.length ≤ m.workload :=
      hm.workload_turn_le (m.transition_step c.1 c.2) hfirst
    have hrun := ih (hm.step c.1 c.2) hrest
    have hmarks : ((m.turns (c :: calls)).filterMap Turn.marked?).length =
        (m.turn c.1 c.2).marked?.toList.length +
          (((m.step c.1 c.2).2.turns calls).filterMap Turn.marked?).length := by
      rw [turns, List.filterMap_cons]
      cases (m.turn c.1 c.2).marked? with
      | none => simp
      | some id => simp [Nat.add_comm]
    rw [hmarks]
    show ((m.step c.1 c.2).2.run calls).2.workload + _ ≤ _
    omega

/-! ### When there is nothing to hand out -/

/-- Nothing is left to do, apart from queries for the users of servers that are left alone. -/
structure AtRest (m : Machine) (now : Instant) : Prop where
  keysUpload : m.needsKeysUpload = false
  missing : ∀ device, device ∉ m.devicesForKeyClaim
  messages : ∀ message, ¬ m.messages.Holds message
  signatures : m.messages.hasSignatures = false
  backedUp : ∀ version key, m.backupVersion? = some version → key ∈ m.backup.roomKeys →
    m.isRoomKeyBackedUp key = true
  outdated : ∀ u ∈ m.usersForKeyQuery, m.deviceLists.failures.contains now u.server = true

/-- If all needs are met and nothing is queued, there are none. -/
theorem NeedsMet.atRest (hn : m.NeedsMet h now [])
    (hheld : ∀ message, m.messages.Holds message → Unresolved h message) : m.AtRest now := by
  have hupload : m.needsKeysUpload = false := by
    rw [Bool.eq_false_iff]
    intro hneed
    obtain ⟨r, hr, -⟩ := hn.keysUpload hneed
    cases hr
  constructor
  case keysUpload => exact hupload
  case missing =>
    intro device hd
    obtain ⟨r, hr, -⟩ := hn.keysClaim device hd
    cases hr
  case messages =>
    intro message hm
    obtain ⟨r, hr, -⟩ := hn.messages message (hheld message hm)
    cases hr
  case signatures =>
    -- Signatures only wait for the keys of the device to be uploaded, and they were.
    have hshared : m.ownKeys.shared = true := by
      by_contra hs
      rw [needsKeysUpload, Bool.eq_false_iff] at hupload
      exact hupload (OwnKeys.needsUpload_iff.2 (.inl (Bool.eq_false_iff.2 hs)))
    rw [Bool.eq_false_iff]
    intro hsig
    obtain ⟨r, hr, -⟩ := hn.signatureUpload hshared hsig
    cases hr
  case backedUp =>
    intro version key hv hk
    by_contra hb
    obtain ⟨r, hr, -⟩ := hn.keysBackup version key hv hk (Bool.eq_false_iff.2 hb)
    cases hr
  case outdated =>
    intro u hu
    rcases hn.keysQuery u hu with ⟨r, hr, -⟩ | ⟨hf, -⟩
    · cases hr
    · exact hf

/-- If nothing was in flight and nothing was handed out, nothing is queued. -/
theorem contents_eq_nil_of_handedOut_nil (hm : m.Named) (hidle : m.inFlightRequests = [])
    (hnothing : (m.step now .outgoingRequests).1 = .handedOut []) :
    (m.step now .outgoingRequests).2.queue.contents = [] := by
  have hpending : (m.decisionPass now).queue.pending = [] := Answer.handedOut.inj hnothing
  have hflight : (m.decisionPass now).queue.inFlight = [] := (inFlight_addAll hm _).trans hidle
  show (m.decisionPass now).queue.drainPending.2.contents = []
  rw [Queue.contents_drainPending, List.eq_nil_iff_forall_not_mem]
  intro r hr
  rw [Queue.mem_contents_iff, hpending, hflight] at hr
  simp at hr

/-- An empty queue has room, unless it never has. -/
theorem Coherent.isFull_eq_false (hc : m.Coherent) (hcap : m.settings.maxQueuedRequests ≠ some 0)
    (hempty : m.queue.contents = []) : m.queue.isFull = false := by
  rw [Bool.eq_false_iff, ne_eq, Queue.isFull_iff, hempty]
  rintro ⟨c, hcapacity, hle⟩
  rw [hc.capacity, Option.map_eq_some_iff] at hcapacity
  obtain ⟨n, hn, rfl⟩ := hcapacity
  have hzero : n.toNat = (0 : UInt64).toNat := Nat.eq_zero_of_le_zero hle
  apply hcap
  rw [hn, UInt64.toNat_inj.1 hzero]

/-- **If nothing is in flight and nothing is handed out, nothing is left to do.** -/
theorem Reached.atRest (hm : Reached h m) (hcap : m.settings.maxQueuedRequests ≠ some 0)
    (hidle : m.inFlightRequests = [])
    (hnothing : (m.step now .outgoingRequests).1 = .handedOut []) :
    (m.step now .outgoingRequests).2.AtRest now := by
  have hm' : Reached (h ++ [m.turn now .outgoingRequests]) (m.step now .outgoingRequests).2 :=
    hm.step now .outgoingRequests
  have ht := m.transition_step now .outgoingRequests
  have hempty := contents_eq_nil_of_handedOut_nil hm.agrees.named hidle hnothing
  have hroom := hm'.coherent.isFull_eq_false (by rw [ht.settings_eq]; exact hcap) hempty
  rcases hm.needsMet hm' rfl ht (.inl rfl) with hfull | ⟨hmet, -⟩
  · rw [hroom] at hfull
    cases hfull
  · rw [hempty] at hmet
    exact hmet.atRest fun _ => hm'.holds_iff.1

/-! ### The main theorem -/

/-- **A cooperative host brings a machine to rest.** Take a machine that has room in its queue for at least
one request, in any state, and let the host do nothing but ask for requests and report that requests
succeeded, with complete responses to queries. Then no more requests succeed than there are queued
requests, outdated users, messages and room keys that are not backed up, and three. And whenever nothing
is in flight and nothing is handed out, nothing is left to do. -/
theorem cooperation_quiesces (userId : UserId) (deviceId : DeviceId) (deviceKeys : Opaque)
    (settings : Settings) (ids : IdSource) (calls more : List (Instant × Call)) :
    let m := ((new userId deviceId deviceKeys settings ids).run calls).2
    let m' := (m.run more).2
    settings.maxQueuedRequests ≠ some 0 → (∀ t ∈ m.turns more, t.Cooperative) →
      ((m.turns more).filterMap Turn.marked?).length ≤
        m.queue.size + m.usersForKeyQuery.length + m.messages.toDevice.size +
          m.messages.roomMessages.size + (m.roomKeyCounts.total - m.roomKeyCounts.backedUp) + 3 ∧
      ∀ now, m'.inFlightRequests = [] → (m'.step now .outgoingRequests).1 = .handedOut [] →
        (m'.step now .outgoingRequests).2.AtRest now := by
  intro m m' hcap hc
  have hm : Reached _ m := (Reached.new userId deviceId deviceKeys settings ids).run calls
  have hm' : Reached _ m' := hm.run more
  have hsettings : m'.settings = settings := (settings_run m more).trans (settings_run _ calls)
  constructor
  · have hrun := hm.workload_run_le more hc
    have hle := m.workload_le
    have htasks := m.length_tasks
    have hkeys : m.backup.remaining.size = m.roomKeyCounts.total - m.roomKeyCounts.backedUp :=
      m.backup.size_remaining
    omega
  · intro now hidle hnothing
    exact hm'.atRest (by rw [hsettings]; exact hcap) hidle hnothing

/-- A response that lists nobody, because a server did not answer. -/
def Sample.unanswered : KeysQueryResponse := ⟨SortedMap.insert ∅ "elsewhere.org" .null, ∅, ∅, ∅, ∅⟩

/-- A machine that uploads keys, and that was told that a server did not answer, comes to rest after two
more requests, with a user of that server outdated. -/
theorem cooperation_quiesces_unanswered :
    let calls : List (Instant × Call) := [(0, .trackUsers [Sample.bob]), (0, .outgoingRequests),
      (0, .markAsSent "r-1" (.success (.keysQuery Sample.unanswered)))]
    let listed : Call := .markAsSent "r-2" (.success (.keysQuery Sample.listing))
    let uploaded : Call := .markAsSent "r-0" (.success (.keysUpload ⟨∅⟩))
    let more : List (Instant × Call) := [(0, .outgoingRequests), (0, listed), (0, uploaded)]
    let m := (Sample.machine.run calls).2
    let rested := ((m.run more).2.step 0 .outgoingRequests).2
    ((m.turns more).filterMap Turn.marked?) = ["r-2", "r-0"] ∧
      m.queue.size + m.usersForKeyQuery.length = 4 ∧ rested.AtRest 0 ∧
      rested.usersForKeyQuery = [Sample.bob] ∧
      rested.deviceLists.failures.contains 0 Sample.bob.server = true := by
  intro calls listed uploaded more m rested
  have hlist : ∃ r ∈ (m.step 0 .outgoingRequests).2.inFlightRequests, r.id = "r-2" ∧
      r.payload.keysQuery?.map (·.users.keys) = some [Sample.alice] := by decide +kernel
  have hupload : ∃ r ∈ ((m.step 0 .outgoingRequests).2.step 0 listed).2.inFlightRequests, r.id = "r-0" := by
    decide +kernel
  have hcooperative : ∀ t ∈ m.turns more, t.Cooperative := by
    clear_value m
    obtain ⟨r, hr, hid, hkeys⟩ := hlist
    obtain ⟨s, hs, hid'⟩ := hupload
    simp only [more, turns, List.forall_mem_cons]
    refine ⟨.inl rfl, .inr ⟨r, hr, _, congrArg (Call.markAsSent · _) hid.symm, ?_⟩,
      .inr ⟨s, hs, _, congrArg (Call.markAsSent · _) hid'.symm, ?_⟩, List.forall_mem_nil _⟩
    · intro q answer hq hanswer
      cases hanswer
      rw [hq] at hkeys
      have hkeys : q.users.keys = [Sample.alice] := Option.some.inj hkeys
      refine ⟨rfl, fun u hu => ?_⟩
      rw [← SortedMap.mem_keys, hkeys, List.mem_singleton] at hu
      subst hu
      decide +kernel
    · intro q answer hq hanswer
      cases hanswer
  obtain ⟨-, hrest⟩ := cooperation_quiesces Sample.alice "DEVICE" .null .default (.counting "r")
    calls more (by decide) hcooperative
  have hnothing : ((m.run more).2.decisionPass 0).queue.pending = [] := by decide +kernel
  have hat : rested.AtRest 0 := hrest 0 (by decide +kernel) (congrArg Answer.handedOut hnothing)
  have hout : rested.usersForKeyQuery = [Sample.bob] := by decide +kernel
  refine ⟨by decide +kernel, by decide +kernel, hat, hout, hat.outdated Sample.bob ?_⟩
  rw [hout]
  exact List.mem_singleton_self _

end Machine
end Outbox
