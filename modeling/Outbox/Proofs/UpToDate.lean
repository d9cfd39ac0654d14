/-
# Who is up to date

A tracked user is up to date exactly if a decision pass queued a query for the user after the user was
last invalidated, and that query was answered with the devices of the user. The numbers that
invalidations take and that queries remember say the same as the history: a query was decided on since
the last invalidation of a user exactly if it remembers no smaller number.

Key definitions: `Turn.Invalidates`, `Turn.Confirms`, `DecidedSince`, `UpToDate`, `DeviceLists.Dated`.
Key theorems: `DeviceLists.Dated.invalidates`, `DeviceLists.Dated.pass`,
`DeviceLists.Dated.receiveQuery`, `Machine.Reached.dated`, `Machine.notMem_usersForKeyQuery_iff`.
-/
import Outbox.Proofs.Coherence
import Outbox.Proofs.QueryNotes

namespace Outbox

/-! ### What a history says -/

/-- The turn starts to track the user, or reports a change of the devices of the user. -/
def Turn.Invalidates (t : Turn) (u : UserId) : Prop :=
  match t.call, t.answer with
  | .trackUsers users, .done => u ∈ users ∧ u ∉ t.before.trackedUsers
  | .receiveDeviceChanges users _, .done => u ∈ users
  | _, _ => False

/-- The turn accepts a response to the request of the given name, and the response lists the devices of
the user. -/
def Turn.Confirms (t : Turn) (id : RequestId) (u : UserId) : Prop :=
  t.marked? = some id ∧ ∃ response, t.call = .markAsSent id (.success (.keysQuery response)) ∧
    DeviceLists.Lists t.before.userId response u

/-- A decision pass of the history queued the request, and nothing invalidated the user since then. -/
def DecidedSince (h : List Turn) (r : OutgoingRequest) (u : UserId) : Prop :=
  ∃ h₁ t h₂, h = h₁ ++ t :: h₂ ∧ r ∈ t.decided ∧ ∀ s ∈ t :: h₂, ¬ s.Invalidates u

/-- A query for the user, which was decided on after the user was last invalidated, was answered with
the devices of the user. -/
def UpToDate (h : List Turn) (u : UserId) : Prop :=
  ∃ h₁ t h₂ r q, h = h₁ ++ t :: h₂ ∧ DecidedSince h₁ r u ∧ r.payload = .keysQuery q ∧ u ∈ q.users ∧
    t.Confirms r.id u ∧ ∀ s ∈ t :: h₂, ¬ s.Invalidates u

variable {h : List Turn} {t : Turn} {r : OutgoingRequest} {u : UserId}

theorem DecidedSince.mem_decided (hs : DecidedSince h r u) : r ∈ h.flatMap Turn.decided := by
  obtain ⟨h₁, t, h₂, rfl, hr, -⟩ := hs
  simp only [List.flatMap_append, List.flatMap_cons, List.mem_append]
  exact .inr (.inl hr)

theorem decidedSince_iff : DecidedSince h r u ↔
    Lasts (fun t => ¬ t.Invalidates u ∧ r ∈ t.decided) (fun t => t.Invalidates u) h := by
  unfold DecidedSince Lasts
  simp only [List.forall_mem_cons, and_left_comm, and_assoc]

theorem decidedSince_snoc :
    DecidedSince (h ++ [t]) r u ↔ ¬ t.Invalidates u ∧ (r ∈ t.decided ∨ DecidedSince h r u) := by
  rw [decidedSince_iff, lasts_snoc, ← decidedSince_iff, and_or_left, and_comm (b := ¬ t.Invalidates u)]

theorem upToDate_snoc : UpToDate (h ++ [t]) u ↔ ¬ t.Invalidates u ∧ (UpToDate h u ∨
    ∃ r q, DecidedSince h r u ∧ r.payload = .keysQuery q ∧ u ∈ q.users ∧ t.Confirms r.id u) := by
  constructor
  · rintro ⟨h₁, s, h₂, r, q, he, hd, hp, hu, hc, hn⟩
    rcases Machine.split_snoc he with ⟨rfl, rfl, rfl⟩ | ⟨h₃, rfl, rfl⟩
    · exact ⟨hn _ List.mem_cons_self, .inr ⟨r, q, hd, hp, hu, hc⟩⟩
    · refine ⟨hn t (by simp), .inl ⟨h₁, s, h₃, r, q, rfl, hd, hp, hu, hc, fun x hx => hn x ?_⟩⟩
      rw [← List.cons_append]
      exact List.mem_append_left _ hx
  · rintro ⟨hn, ⟨h₁, s, h₂, r, q, rfl, hd, hp, hu, hc, hs⟩ | ⟨r, q, hd, hp, hu, hc⟩⟩
    · exact ⟨h₁, s, h₂ ++ [t], r, q, by simp, hd, hp, hu, hc,
        List.forall_mem_append.2 ⟨hs, by simpa using hn⟩⟩
    · exact ⟨h, t, [], r, q, rfl, hd, hp, hu, hc, by simpa using hn⟩

/-! ### What the numbers say -/

namespace DeviceLists

/-- The numbers of the device lists agree with what is known of the past: which requests were decided
on, which of them since the last invalidation of a user (`since`), and who is up to date. -/
structure Dated (d : DeviceLists) (decided : List OutgoingRequest)
    (since : OutgoingRequest → UserId → Prop) (upToDate : UserId → Prop) : Prop where
  decidedAt_le : ∀ {id details}, d.queriesInFlight.get? id = some details →
    details.decidedAt ≤ d.invalidations
  invalidatedAt_le : ∀ {u t}, d.tracked.get? u = some t → t.invalidatedAt ≤ d.invalidations
  since_iff : ∀ {u t r details}, d.tracked.get? u = some t → r ∈ decided →
    d.queriesInFlight.get? r.id = some details → (t.invalidatedAt ≤ details.decidedAt ↔ since r u)
  upToDate_iff : ∀ {u t}, d.tracked.get? u = some t → (t.outdated = false ↔ upToDate u)

namespace Dated

variable {d d' : DeviceLists} {decided : List OutgoingRequest} {p : UserId → Prop}
  {since since' : OutgoingRequest → UserId → Prop} {upToDate upToDate' : UserId → Prop}
  {m : Machine}

theorem congr (hd : d.Dated decided since upToDate)
    (hs : ∀ u ∈ d.tracked, ∀ r ∈ decided, since r u ↔ since' r u)
    (hu : ∀ u ∈ d.tracked, upToDate u ↔ upToDate' u) : d.Dated decided since' upToDate' where
  decidedAt_le := hd.decidedAt_le
  invalidatedAt_le := hd.invalidatedAt_le
  since_iff ht hr hg := (hd.since_iff ht hr hg).trans (hs _ (SortedMap.mem_iff.2 ⟨_, ht⟩) _ hr)
  upToDate_iff ht := (hd.upToDate_iff ht).trans (hu _ (SortedMap.mem_iff.2 ⟨_, ht⟩))

/-- Once a user is invalidated, all that happened before is of the past. -/
theorem invalidates (hd : d.Dated decided since upToDate) (hp : Invalidates p d d') :
    d'.Dated decided (fun r u => ¬ p u ∧ since r u) (fun u => ¬ p u ∧ upToDate u) := by
  have hle := hp.le
  -- A user that is tracked was invalidated just now, or is as before.
  have hcases : ∀ {u t}, d'.tracked.get? u = some t →
      (p u ∧ t.outdated = true ∧ d.invalidations < t.invalidatedAt ∧
        t.invalidatedAt ≤ d'.invalidations) ∨ (¬ p u ∧ d.tracked.get? u = some t) := by
    intro u t ht
    by_cases hu : p u
    · obtain ⟨n, hlt, hle, hn⟩ := hp.fresh u hu
      rw [hn] at ht
      cases ht
      exact .inl ⟨hu, rfl, hlt, hle⟩
    · rw [hp.same u hu] at ht
      exact .inr ⟨hu, ht⟩
  refine ⟨fun hg => ?_, fun ht => ?_, fun ht hr hg => ?_, fun ht => ?_⟩
  · rw [hp.queriesInFlight] at hg
    have := hd.decidedAt_le hg
    omega
  · rcases hcases ht with ⟨-, -, -, hle⟩ | ⟨-, ht⟩
    · exact hle
    · have := hd.invalidatedAt_le ht
      omega
  · rw [hp.queriesInFlight] at hg
    rcases hcases ht with ⟨hu, -, hlt, -⟩ | ⟨hu, ht⟩
    · have := hd.decidedAt_le hg
      constructor
      · intro h
        omega
      · exact fun h => absurd hu h.1
    · rw [hd.since_iff ht hr hg]
      exact (and_iff_right hu).symm
  · rcases hcases ht with ⟨hu, ho, -⟩ | ⟨hu, ht⟩
    · simp [hu, ho]
    · rw [hd.upToDate_iff ht]
      exact (and_iff_right hu).symm

/-- What a decision pass queues is decided on after all invalidations so far. -/
theorem pass {l : Ledger} (hd : m.deviceLists.Dated l.decided since upToDate)
    (hn : m.NotesQueries l.decided) (ha : l.Agrees m) (ps : List Payload) :
    (m.addAll ps).deviceLists.Dated (l.decided ++ m.added ps)
      (fun r u => r ∈ m.added ps ∨ since r u) upToDate := by
  -- A note was made just now, or was there before.
  have hcases : ∀ {id details}, (m.addAll ps).deviceLists.queriesInFlight.get? id = some details →
      (∃ r ∈ m.added ps, r.id = id ∧ details.decidedAt = m.deviceLists.invalidations) ∨
      (m.Minted id ∧ m.deviceLists.queriesInFlight.get? id = some details) := by
    intro id details hg
    obtain ⟨q, -, hq, -⟩ := (hn.pass ha ps).queued hg
    rcases List.mem_append.1 hq with hq | hq
    · have hmint := ha.minted_decided _ hq
      rw [Machine.get?_addAll_of_minted hmint] at hg
      exact .inr ⟨hmint, hg⟩
    · have he := Machine.get?_addAll_of_mem hq
      rw [hg] at he
      cases he
      exact .inl ⟨_, hq, rfl, rfl⟩
  refine ⟨fun hg => ?_, fun ht => ?_, fun {u t r details} ht hr hg => ?_, fun ht => ?_⟩
  · rw [Machine.addAll_invalidations]
    rcases hcases hg with ⟨-, -, -, he⟩ | ⟨-, hg⟩
    · omega
    · exact hd.decidedAt_le hg
  · rw [Machine.addAll_tracked] at ht
    rw [Machine.addAll_invalidations]
    exact hd.invalidatedAt_le ht
  · rw [Machine.addAll_tracked] at ht
    rcases hcases hg with ⟨s, hs, hid, he⟩ | ⟨hmint, hg⟩
    · have hle := hd.invalidatedAt_le ht
      have hr : r ∈ m.added ps := by
        refine (List.mem_append.1 hr).resolve_left fun hr => ?_
        exact Machine.not_minted_of_mem_added hs (hid ▸ ha.minted_decided r hr)
      exact iff_of_true (by omega) (.inl hr)
    · have hr' : r ∉ m.added ps := fun hr => Machine.not_minted_of_mem_added hr hmint
      rw [hd.since_iff ht ((List.mem_append.1 hr).resolve_right hr') hg]
      exact (or_iff_right hr').symm
  · rw [Machine.addAll_tracked] at ht
    exact hd.upToDate_iff ht

/-- The answer to a query brings those of its users up to date that it lists, if the query was decided
on since they were invalidated. -/
theorem receiveQuery (hd : d.Dated decided since upToDate) {r : OutgoingRequest} {q : KeysQuery}
    (hnote : r ∈ decided → ∃ details, d.queriesInFlight.get? r.id = some details ∧
      details.users = q.users)
    (hnone : r ∉ decided → d.queriesInFlight.get? r.id = none)
    (hsince : ∀ u, since r u → r ∈ decided) (now : Instant) (response : KeysQueryResponse) :
    (d.receiveQuery now r.id response).Dated decided since
      (fun u => upToDate u ∨ since r u ∧ u ∈ q.users ∧ Lists d.ownUser response u) := by
  have herase : ∀ {id details}, (d.receiveQuery now r.id response).queriesInFlight.get? id =
      some details → d.queriesInFlight.get? id = some details := by
    intro id details hg
    rw [DeviceLists.receiveQuery, SortedMap.get?_erase_eq_some_iff] at hg
    exact hg.2
  -- Whether the answer counts for a user is what the history says.
  have hcounts : ∀ {u t}, d.tracked.get? u = some t →
      ((d.queriesInFlight.get? r.id).any (d.bringsUpToDate · response u t) = true ↔
        since r u ∧ u ∈ q.users ∧ Lists d.ownUser response u) := by
    intro u t ht
    by_cases hr : r ∈ decided
    · obtain ⟨details, hg, hu⟩ := hnote hr
      rw [hg, Option.any_some, bringsUpToDate_iff, hd.since_iff ht hr hg, hu]
      constructor
      · rintro ⟨hu, hl, hs⟩
        exact ⟨hs, hu, hl⟩
      · rintro ⟨hs, hu, hl⟩
        exact ⟨hu, hl, hs⟩
    · rw [hnone hr, Option.any_none]
      exact iff_of_false Bool.false_ne_true fun h => hr (hsince u h.1)
  have hcases : ∀ {u t}, (d.receiveQuery now r.id response).tracked.get? u = some t →
      ∃ t₀, d.tracked.get? u = some t₀ ∧ t.invalidatedAt = t₀.invalidatedAt ∧
        (t.outdated = false ↔ t₀.outdated = false ∨
          since r u ∧ u ∈ q.users ∧ Lists d.ownUser response u) := by
    intro u t ht
    rw [get?_tracked_receiveQuery, Option.map_eq_some_iff] at ht
    obtain ⟨t₀, ht₀, rfl⟩ := ht
    refine ⟨t₀, ht₀, ?_, ?_⟩
    · split <;> rfl
    · rw [← hcounts ht₀]
      split
      · next hb => simp [hb]
      · next hb => simp [hb]
  refine ⟨fun hg => hd.decidedAt_le (herase hg), fun ht => ?_, fun ht hr hg => ?_, fun ht => ?_⟩
  · obtain ⟨t₀, ht₀, he, -⟩ := hcases ht
    rw [he]
    exact hd.invalidatedAt_le ht₀
  · obtain ⟨t₀, ht₀, he, -⟩ := hcases ht
    rw [he]
    exact hd.since_iff ht₀ hr (herase hg)
  · obtain ⟨t₀, ht₀, -, ho⟩ := hcases ht
    rw [ho, hd.upToDate_iff ht₀]

/-- A query that failed is as if it had not been made. -/
theorem forgetQuery (hd : d.Dated decided since upToDate) (id : RequestId) :
    (d.forgetQuery id).Dated decided since upToDate := by
  have herase : ∀ {id' details}, (d.forgetQuery id).queriesInFlight.get? id' = some details →
      d.queriesInFlight.get? id' = some details := by
    intro id' details hg
    rw [DeviceLists.forgetQuery, SortedMap.get?_erase_eq_some_iff] at hg
    exact hg.2
  exact ⟨fun hg => hd.decidedAt_le (herase hg), hd.invalidatedAt_le,
    fun ht hr hg => hd.since_iff ht hr (herase hg), hd.upToDate_iff⟩

end Dated
end DeviceLists

/-! ### Both say the same -/

namespace Machine

variable {m m' : Machine} {now : Instant} {call : Call} {answer : Answer} {outcome : Outcome}

/-- The end of a request brings users up to date exactly if the turn confirms a query that was decided
on since they were invalidated. -/
theorem dated_withOutcome
    (hd : m.deviceLists.Dated (h.flatMap Turn.decided) (DecidedSince h) (UpToDate h))
    (hown : m.deviceLists.ownUser = m.userId) (hn : m.NotesQueries (h.flatMap Turn.decided))
    (ha : (ledger h).Agrees m) (inFlight : r ∈ m.queue.inFlight)
    (fits : outcome.mismatch? r.kind = none) :
    (m.withOutcome now r outcome).deviceLists.Dated (h.flatMap Turn.decided) (DecidedSince h) fun u =>
      UpToDate h u ∨ ∃ s q, DecidedSince h s u ∧ s.payload = .keysQuery q ∧ u ∈ q.users ∧
        Turn.Confirms ⟨m, now, .markAsSent r.id outcome, .done,
          (m.withOutcome now r outcome).decisionPass now⟩ s.id u := by
  have hc : r ∈ m.queue.contents := Queue.mem_contents_iff.2 (.inr inFlight)
  have heq : ∀ {s u m'}, DecidedSince h s u →
      Turn.Confirms ⟨m, now, .markAsSent r.id outcome, .done, m'⟩ s.id u → r = s := by
    rintro s u m' hs ⟨hm, -⟩
    exact ha.queue_eq hc hs.mem_decided (Option.some.inj hm)
  rcases withOutcome_deviceLists m now fits with ⟨hk, he⟩ | ⟨q, response, hp, rfl, he⟩ |
    ⟨q, failure, hp, rfl, he⟩
  · rw [he]
    refine hd.congr (fun _ _ _ _ => .rfl) fun u _ => (or_iff_left ?_).symm
    rintro ⟨s, q, hs, hp, -, hconf⟩
    cases heq hs hconf
    exact hk (congrArg Payload.kind hp)
  · obtain ⟨id, payload⟩ := r
    cases hp
    rw [he]
    refine (hd.receiveQuery (hn.exists_note hc) (fun hr => ?_) (fun u hs => hs.mem_decided) now
      response).congr (fun _ _ _ _ => .rfl) fun u _ => or_congr_right ?_
    · rw [Option.eq_none_iff_forall_ne_some]
      intro details hg
      obtain ⟨q', hq', hd', -⟩ := hn.queued hg
      cases Queue.eq_of_id_eq hc hq' rfl
      exact hr hd'
    · rw [hown]
      constructor
      · rintro ⟨hs, hu, hl⟩
        exact ⟨⟨id, .keysQuery q⟩, q, hs, rfl, hu, rfl, response, rfl, hl⟩
      · rintro ⟨s, q', hs, hp, hu, hconf⟩
        cases heq hs hconf
        cases hp
        obtain ⟨-, response', hcall, hl⟩ := hconf
        cases hcall
        exact ⟨hs, hu, hl⟩
  · rw [he]
    refine (hd.forgetQuery r.id).congr (fun _ _ _ _ => .rfl) fun u _ => (or_iff_left ?_).symm
    rintro ⟨s, q, -, -, -, -, response, hcall, -⟩
    exact nomatch (Call.markAsSent.inj hcall).2

/-- A turn that decides and marks nothing does no more than to invalidate users. -/
theorem dated_of_invalidates {p : UserId → Prop}
    (hd : t.before.deviceLists.Dated (h.flatMap Turn.decided) (DecidedSince h) (UpToDate h))
    (hdec : t.decided = []) (hmark : t.marked? = none)
    (hp : DeviceLists.Invalidates p t.before.deviceLists t.after.deviceLists)
    (hinv : ∀ u ∈ t.after.deviceLists.tracked, t.Invalidates u ↔ p u) :
    t.after.deviceLists.Dated ((h ++ [t]).flatMap Turn.decided) (DecidedSince (h ++ [t]))
      (UpToDate (h ++ [t])) := by
  rw [List.flatMap_append, List.flatMap_singleton, hdec, List.append_nil]
  refine (hd.invalidates hp).congr (fun u hu r _ => ?_) fun u hu => ?_
  · rw [decidedSince_snoc, hinv u hu, hdec, or_iff_right List.not_mem_nil]
  · rw [upToDate_snoc, hinv u hu, or_iff_left]
    rintro ⟨s, q, -, -, -, hconf, -⟩
    rw [hmark] at hconf
    cases hconf

theorem dated_of_eq
    (hd : t.before.deviceLists.Dated (h.flatMap Turn.decided) (DecidedSince h) (UpToDate h))
    (hdec : t.decided = []) (hmark : t.marked? = none)
    (he : t.after.deviceLists = t.before.deviceLists) (hinv : ∀ u, ¬ t.Invalidates u) :
    t.after.deviceLists.Dated ((h ++ [t]).flatMap Turn.decided) (DecidedSince (h ++ [t]))
      (UpToDate (h ++ [t])) := by
  refine dated_of_invalidates hd hdec hmark ?_ fun u _ => iff_false_intro (hinv u)
  rw [he]
  exact .refl _

/-- Every turn keeps the numbers in agreement with the history. -/
theorem dated_turn
    (hd : m.deviceLists.Dated (h.flatMap Turn.decided) (DecidedSince h) (UpToDate h))
    (hown : m.deviceLists.ownUser = m.userId) (hn : m.NotesQueries (h.flatMap Turn.decided))
    (ha : (ledger h).Agrees m) (ht : m.Transition now call answer m') :
    m'.deviceLists.Dated ((h ++ [Turn.mk m now call answer m']).flatMap Turn.decided)
      (DecidedSince (h ++ [⟨m, now, call, answer, m'⟩]))
      (UpToDate (h ++ [⟨m, now, call, answer, m'⟩])) := by
  cases ht with
  | handOut =>
    rw [List.flatMap_append, List.flatMap_singleton]
    refine (hd.pass (l := ledger h) hn ha (m.wanted now)).congr (fun u _ r _ => ?_) fun u _ => ?_
    · rw [decidedSince_snoc]
      exact (and_iff_right id).symm
    · rw [upToDate_snoc, or_iff_left]
      · exact (and_iff_right id).symm
      · rintro ⟨s, q, -, -, -, hconf, -⟩
        cases hconf
  | complete r outcome inFlight fits =>
    rw [List.flatMap_append, List.flatMap_singleton, Turn.decided_markAsSent inFlight fits]
    refine ((dated_withOutcome hd hown hn ha inFlight fits).pass
      (l := { ledger h with marked := (ledger h).marked ++ [r.id] }) (hn.complete inFlight now fits)
      (ha.complete inFlight now outcome) _).congr (fun u _ s _ => ?_) fun u _ => ?_
    · rw [decidedSince_snoc, Turn.decided_markAsSent inFlight fits]
      exact (and_iff_right id).symm
    · rw [upToDate_snoc]
      exact (and_iff_right id).symm
  | track users =>
    have hp := m.deviceLists.invalidates_track users
    exact dated_of_invalidates (t := ⟨m, now, .trackUsers users, .done, m.trackUsers users⟩) hd rfl rfl
      hp fun u _ => and_congr_right fun _ => not_congr DeviceLists.mem_trackedUsers
  | change users token =>
    have hp := m.deviceLists.invalidates_receiveChanges users token
    refine dated_of_invalidates (t := ⟨m, now, .receiveDeviceChanges users token, .done,
      m.receiveDeviceChanges users token⟩) hd rfl rfl hp fun u hu => ?_
    -- A report tracks nobody, so a user that is tracked now was tracked before.
    exact iff_self_and.2 fun _ => (hp.mem_tracked.1 hu).elim (fun hu => hu.2) id
  | refuse call reason refusable =>
    refine dated_of_eq (t := ⟨m, now, call, .refused reason, m⟩) hd ?_ ?_ rfl fun u => ?_
    · cases call <;> rfl
    · cases call <;> rfl
    · cases call <;> exact id
  | query | addOneTimeKeys | addFallbackKeys | missing | acceptToDevice | acceptSignatures
  | acceptRoomMessage | enable | disable | addRoomKey =>
    exact dated_of_eq (t := ⟨m, now, _, _, _⟩) hd rfl rfl rfl fun u => by exact id

theorem Reached.dated (hm : Reached h m) :
    m.deviceLists.Dated (h.flatMap Turn.decided) (DecidedSince h) (UpToDate h) := by
  induction hm with
  | new userId =>
    -- Before anybody is tracked there is nothing to agree with.
    have hempty : DeviceLists.Dated ⟨userId, ∅, 0, none, ∅, ∅, ∅⟩ [] (DecidedSince []) (UpToDate []) :=
      ⟨fun hg => (nomatch hg), fun ht => (nomatch ht), fun ht => (nomatch ht), fun ht => (nomatch ht)⟩
    have hp := DeviceLists.invalidates_track ⟨userId, ∅, 0, none, ∅, ∅, ∅⟩ [userId]
    refine (hempty.invalidates hp).congr (fun _ _ r hr => nomatch hr) fun u hu => ?_
    rw [and_iff_right_of_imp]
    rintro ⟨h₁, t, h₂, -, -, he, -⟩
    exact absurd he (by simp)
  | @step h m now call hm ih =>
    exact dated_turn ih hm.coherent.ownUser hm.notesQueries hm.agrees (transition_step m now call)

/-- Nobody stops to be tracked. -/
theorem Transition.mem_trackedUsers (ht : m.Transition now call answer m') (hu : u ∈ m.trackedUsers) :
    u ∈ m'.trackedUsers := by
  simp only [trackedUsers, DeviceLists.mem_trackedUsers] at hu ⊢
  cases ht with
  | handOut => simpa [decisionPass] using hu
  | complete r outcome inFlight fits =>
    simp only [decisionPass, addAll_tracked]
    rcases withOutcome_deviceLists m now fits with ⟨-, he⟩ | ⟨q, response, -, -, he⟩ | ⟨q, _, -, -, he⟩
    · rw [he]
      exact hu
    · rw [he, SortedMap.mem_iff, DeviceLists.get?_tracked_receiveQuery]
      obtain ⟨t, ht⟩ := SortedMap.mem_iff.1 hu
      exact ⟨_, by rw [ht, Option.map_some]⟩
    · rw [he]
      exact hu
  | track users => exact (m.deviceLists.invalidates_track users).mem_tracked.2 (.inr hu)
  | change users token =>
    exact (m.deviceLists.invalidates_receiveChanges users token).mem_tracked.2 (.inr hu)
  | _ => exact hu

/-- Users that are tracked are outdated or up to date, as the history says. -/
theorem Reached.notMem_usersForKeyQuery (hm : Reached h m) (hu : u ∈ m.trackedUsers) :
    u ∉ m.usersForKeyQuery ↔ UpToDate h u := by
  obtain ⟨⟨outdated, n⟩, ht⟩ := SortedMap.mem_iff.1 (DeviceLists.mem_trackedUsers.1 hu)
  rw [← hm.dated.upToDate_iff ht, usersForKeyQuery, DeviceLists.mem_outdatedUsers, ht]
  cases outdated <;> simp

/-- The end of a request that was not decided on since a user was invalidated does not bring the user up
to date. -/
theorem Reached.mem_usersForKeyQuery_markAsSent (hm : Reached h m) (hu : u ∈ m.usersForKeyQuery)
    {id : RequestId} (hid : ∀ r, DecidedSince h r u → r.id ≠ id) (now : Instant) (outcome : Outcome) :
    u ∈ (m.step now (.markAsSent id outcome)).2.usersForKeyQuery := by
  have ht : u ∈ m.trackedUsers := by
    obtain ⟨n, hn⟩ := DeviceLists.mem_outdatedUsers.1 hu
    exact DeviceLists.mem_trackedUsers.2 (SortedMap.mem_iff.2 ⟨_, hn⟩)
  by_contra hnot
  have ht' := (m.transition_step now (.markAsSent id outcome)).mem_trackedUsers ht
  have hup := ((hm.step now _).notMem_usersForKeyQuery ht').1 hnot
  obtain ⟨-, hup | ⟨r, q, hr, -, -, -, response, hcall, -⟩⟩ := upToDate_snoc.1 hup
  · exact (hm.notMem_usersForKeyQuery ht).2 hup hu
  · exact hid r hr (Call.markAsSent.inj hcall).1.symm

/-- **A tracked user is up to date exactly if the history says so**, whatever calls are made to a new
machine. The end of a query that was made for a caller, or that was decided on before the user was last
invalidated, never brings the user up to date. -/
theorem notMem_usersForKeyQuery_iff (userId : UserId) (deviceId : DeviceId) (deviceKeys : Opaque)
    (settings : Settings) (ids : IdSource) (calls : List (Instant × Call)) :
    let h := (new userId deviceId deviceKeys settings ids).turns calls
    let m := ((new userId deviceId deviceKeys settings ids).run calls).2
    (∀ u ∈ m.trackedUsers, u ∉ m.usersForKeyQuery ↔ UpToDate h u) ∧
    ∀ u ∈ m.usersForKeyQuery, ∀ r now outcome,
      r ∈ h.flatMap Turn.outOfBand ∨ r ∈ h.flatMap Turn.decided ∧ ¬ DecidedSince h r u →
        u ∈ (m.step now (.markAsSent r.id outcome)).2.usersForKeyQuery := by
  intro h m
  have hm : Reached h m := (Reached.new userId deviceId deviceKeys settings ids).run calls
  refine ⟨fun u hu => hm.notMem_usersForKeyQuery hu, fun u hu r now outcome hr => ?_⟩
  refine hm.mem_usersForKeyQuery_markAsSent hu (fun s hs he => ?_) now outcome
  rcases hr with ho | ⟨hd, hn⟩
  · exact hm.agrees.decided_ne_outOfBand s hs.mem_decided r ho he
  · cases List.inj_on_of_nodup_map hm.agrees.nodup_decided hs.mem_decided hd he
    exact hn hs

/-- The answer to the first query of a machine brings its own user up to date. The same answer to a
query that was made for a caller does not. -/
theorem notMem_usersForKeyQuery_iff_alice :
    let answered : Outcome := .success (.keysQuery Sample.listing)
    let calls : List (Instant × Call) := [(0, .outgoingRequests), (0, .markAsSent "r-1" answered)]
    let asked := Sample.machine.turn 0 (.queryKeysFor [Sample.alice])
    (Sample.alice ∈ (Sample.machine.run calls).2.trackedUsers ∧
      Sample.alice ∉ (Sample.machine.run calls).2.usersForKeyQuery ∧
      UpToDate (Sample.machine.turns calls) Sample.alice) ∧
    ∃ r ∈ asked.outOfBand, Sample.alice ∈ asked.after.usersForKeyQuery ∧
      Sample.alice ∈ (asked.after.step 0 (.markAsSent r.id answered)).2.usersForKeyQuery := by
  intro answered calls asked
  have htracked : Sample.alice ∈ (Sample.machine.run calls).2.trackedUsers := by decide +kernel
  have hnot : Sample.alice ∉ (Sample.machine.run calls).2.usersForKeyQuery := by decide +kernel
  have hstill : Sample.alice ∈ asked.after.usersForKeyQuery := by decide +kernel
  have hasked : ∃ r, asked.outOfBand = [r] := ⟨_, rfl⟩
  obtain ⟨r, hr⟩ := hasked
  refine ⟨⟨htracked, hnot, ?_⟩, r, by rw [hr]; exact List.mem_singleton_self r, hstill, ?_⟩
  · exact ((notMem_usersForKeyQuery_iff Sample.alice "DEVICE" .null .default (.counting "r") calls).1
      Sample.alice htracked).1 hnot
  · refine (notMem_usersForKeyQuery_iff Sample.alice "DEVICE" .null .default (.counting "r")
      [(0, .queryKeysFor [Sample.alice])]).2 Sample.alice hstill r 0 answered (.inl ?_)
    rw [show (new Sample.alice "DEVICE" .null .default (.counting "r")).turns
      [(0, .queryKeysFor [Sample.alice])] = [asked] from rfl, List.flatMap_singleton, hr]
    exact List.mem_singleton_self r

end Machine
end Outbox
