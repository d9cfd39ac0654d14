/-
# What events do to tracked users

Every invalidation of a user takes a number that is larger than all numbers before it, and leaves the
other users, the queries and the servers alone. The answer to a query marks exactly those of its users
as up to date that were not invalidated since the query was decided on.

Key definitions: `DeviceLists.Invalidates`.
Key theorems: `DeviceLists.invalidates_track`, `DeviceLists.invalidates_receiveChanges`,
`DeviceLists.mem_outdatedUsers`, `DeviceLists.bringsUpToDate_iff`,
`DeviceLists.mem_outdatedUsers_receiveQuery`.
-/
import Outbox.DeviceLists
import Outbox.SortedMap.Lemmas

namespace Outbox
namespace DeviceLists

variable {d d₁ d₂ : DeviceLists} {p q : UserId → Prop} {u : UserId}

/-- From one state to the next, the users of whom `p` holds were invalidated. -/
structure Invalidates (p : UserId → Prop) (d d' : DeviceLists) : Prop where
  queriesInFlight : d'.queriesInFlight = d.queriesInFlight
  failures : d'.failures = d.failures
  ownUser : d'.ownUser = d.ownUser
  le : d.invalidations ≤ d'.invalidations
  fresh : ∀ u, p u → ∃ n, d.invalidations < n ∧ n ≤ d'.invalidations ∧
    d'.tracked.get? u = some ⟨true, n⟩
  same : ∀ u, ¬ p u → d'.tracked.get? u = d.tracked.get? u

namespace Invalidates

theorem refl (d : DeviceLists) : Invalidates (fun _ => False) d d where
  queriesInFlight := rfl
  failures := rfl
  ownUser := rfl
  le := Nat.le_refl _
  fresh _ h := h.elim
  same _ _ := rfl

theorem trans (h₁ : Invalidates p d d₁) (h₂ : Invalidates q d₁ d₂) :
    Invalidates (fun u => p u ∨ q u) d d₂ where
  queriesInFlight := h₂.queriesInFlight.trans h₁.queriesInFlight
  failures := h₂.failures.trans h₁.failures
  ownUser := h₂.ownUser.trans h₁.ownUser
  le := Nat.le_trans h₁.le h₂.le
  fresh u hu := by
    have hle₁ := h₁.le
    have hle₂ := h₂.le
    by_cases hq : q u
    · obtain ⟨n, hlt, hle, hn⟩ := h₂.fresh u hq
      exact ⟨n, by omega, hle, hn⟩
    · obtain ⟨n, hlt, hle, hn⟩ := h₁.fresh u (hu.resolve_right hq)
      exact ⟨n, hlt, by omega, (h₂.same u hq).trans hn⟩
  same u hu := by
    rw [h₂.same u fun h => hu (.inr h), h₁.same u fun h => hu (.inl h)]

theorem congr (h : Invalidates p d d₁) (hpq : ∀ u, p u ↔ q u) : Invalidates q d d₁ := by
  rw [show q = p from funext fun u => propext (hpq u).symm]
  exact h

/-- Nobody stops to be tracked. -/
theorem mem_tracked (h : Invalidates p d d₁) : u ∈ d₁.tracked ↔ p u ∨ u ∈ d.tracked := by
  rw [SortedMap.mem_iff, SortedMap.mem_iff]
  by_cases hu : p u
  · obtain ⟨n, -, -, hn⟩ := h.fresh u hu
    simp [hu, hn]
  · simp [hu, h.same u hu]

end Invalidates

theorem invalidates_invalidate (d : DeviceLists) (user : UserId) :
    Invalidates (fun u => u = user) d (d.invalidate user) where
  queriesInFlight := rfl
  failures := rfl
  ownUser := rfl
  le := Nat.le_succ _
  fresh u hu := ⟨d.invalidations + 1, Nat.lt_succ_self _, Nat.le_refl _, by
    rw [hu]
    exact SortedMap.get?_insert_self _ _ _⟩
  same u hu := SortedMap.get?_insert_of_ne _ _ hu

theorem invalidates_trackUser (d : DeviceLists) (user : UserId) :
    Invalidates (fun u => u = user ∧ u ∉ d.tracked) d (d.trackUser user) := by
  unfold trackUser
  split
  · next h => exact (Invalidates.refl d).congr fun u => by grind
  · next h => exact (d.invalidates_invalidate user).congr fun u => by grind

theorem invalidates_changeUser (d : DeviceLists) (user : UserId) :
    Invalidates (fun u => u = user ∧ u ∈ d.tracked) d (d.changeUser user) := by
  unfold changeUser
  split
  · next h => exact (d.invalidates_invalidate user).congr fun u => by grind
  · next h => exact (Invalidates.refl d).congr fun u => by grind

/-- Tracking users invalidates those that were not tracked. -/
theorem invalidates_track (d : DeviceLists) (users : List UserId) :
    Invalidates (fun u => u ∈ users ∧ u ∉ d.tracked) d (d.track users) := by
  unfold track
  induction users generalizing d with
  | nil => exact (Invalidates.refl d).congr fun u => by simp
  | cons x users ih =>
    have hx := d.invalidates_trackUser x
    refine (hx.trans (ih _)).congr fun u => ?_
    rw [hx.mem_tracked, List.mem_cons]
    grind

/-- A report of changes invalidates those of its users that are tracked. -/
theorem invalidates_foldl_changeUser (d : DeviceLists) (users : List UserId) :
    Invalidates (fun u => u ∈ users ∧ u ∈ d.tracked) d (users.foldl changeUser d) := by
  induction users generalizing d with
  | nil => exact (Invalidates.refl d).congr fun u => by simp
  | cons x users ih =>
    have hx := d.invalidates_changeUser x
    refine (hx.trans (ih _)).congr fun u => ?_
    rw [hx.mem_tracked, List.mem_cons]
    grind

theorem invalidates_receiveChanges (d : DeviceLists) (users : List UserId) (token : Option String) :
    Invalidates (fun u => u ∈ users ∧ u ∈ d.tracked) d (d.receiveChanges users token) :=
  { d.invalidates_foldl_changeUser users with }

/-! ### Reading -/

theorem mem_outdatedUsers : u ∈ d.outdatedUsers ↔ ∃ n, d.tracked.get? u = some ⟨true, n⟩ := by
  rw [outdatedUsers, SortedMap.mem_keys, SortedMap.mem_iff]
  simp only [SortedMap.get?_filter, Option.filter_eq_some_iff]
  constructor
  · rintro ⟨⟨outdated, n⟩, ht, rfl⟩
    exact ⟨n, ht⟩
  · rintro ⟨n, ht⟩
    exact ⟨_, ht, rfl⟩

theorem mem_trackedUsers : u ∈ d.trackedUsers ↔ u ∈ d.tracked := SortedMap.mem_keys

theorem mem_trackedUsers_of_outdated (h : u ∈ d.outdatedUsers) : u ∈ d.trackedUsers := by
  obtain ⟨n, hn⟩ := mem_outdatedUsers.1 h
  exact mem_trackedUsers.2 (SortedMap.mem_iff.2 ⟨_, hn⟩)

/-- An invalidation leaves nobody up to date who was not. -/
theorem Invalidates.outdated (h : Invalidates p d d₁) (hu : u ∈ d.outdatedUsers) :
    u ∈ d₁.outdatedUsers := by
  by_cases hp : p u
  · obtain ⟨n, -, -, hn⟩ := h.fresh u hp
    exact mem_outdatedUsers.2 ⟨n, hn⟩
  · rw [mem_outdatedUsers, h.same u hp]
    exact mem_outdatedUsers.1 hu

theorem isBeingQueried_iff : d.isBeingQueried u = true ↔
    ∃ id details, d.queriesInFlight.get? id = some details ∧ u ∈ details.users := by
  simp only [isBeingQueried, SortedMap.values, List.any_map, List.any_eq_true, Prod.exists,
    SortedMap.mem_toList, Function.comp_apply, SortedMap.contains_iff]

theorem mem_eligibleUsers {now : Instant} : u ∈ d.eligibleUsers now ↔
    u ∈ d.outdatedUsers ∧ d.isBeingQueried u = false ∧ d.failures.contains now u.server = false := by
  rw [mem_outdatedUsers, eligibleUsers, SortedMap.mem_keys, SortedMap.mem_iff]
  simp only [SortedMap.get?_filter, Option.filter_eq_some_iff, Bool.and_eq_true, Bool.not_eq_true']
  constructor
  · rintro ⟨⟨outdated, n⟩, ht, ⟨rfl, hq⟩, hf⟩
    exact ⟨⟨n, ht⟩, hq, hf⟩
  · rintro ⟨⟨n, ht⟩, hq, hf⟩
    exact ⟨_, ht, ⟨rfl, hq⟩, hf⟩

theorem eligibleUsers_pairwise (d : DeviceLists) (now : Instant) :
    (d.eligibleUsers now).Pairwise fun u v => compare u v = .lt :=
  List.pairwise_map.2 (SortedMap.increasing _)

/-! ### The end of a query -/

/-- A response lists the devices of a user, and its server did not fail. Our own server is not believed
to have failed. -/
def Lists (own : UserId) (response : KeysQueryResponse) (u : UserId) : Prop :=
  u ∈ response.deviceKeys ∧ (u.server = own.server ∨ u.server.text ∉ response.failures)

theorem bringsUpToDate_iff {details : QueryDetails} {response : KeysQueryResponse} {t : TrackedUser} :
    d.bringsUpToDate details response u t = true ↔
      u ∈ details.users ∧ Lists d.ownUser response u ∧ t.invalidatedAt ≤ details.decidedAt := by
  have hf : d.isFailed response u = false ↔
      u.server = d.ownUser.server ∨ u.server.text ∉ response.failures := by
    rw [← SortedMap.contains_iff]
    by_cases h : u.server = d.ownUser.server <;> simp [isFailed, h]
  simp only [bringsUpToDate, Bool.and_eq_true, Bool.not_eq_true', decide_eq_true_eq, hf, Lists,
    SortedMap.contains_iff]
  constructor
  · rintro ⟨⟨⟨hu, hf⟩, hk⟩, hle⟩
    exact ⟨hu, ⟨hk, hf⟩, hle⟩
  · rintro ⟨hu, ⟨hk, hf⟩, hle⟩
    exact ⟨⟨⟨hu, hf⟩, hk⟩, hle⟩

theorem get?_tracked_receiveQuery (d : DeviceLists) (now : Instant) (id : RequestId)
    (response : KeysQueryResponse) (u : UserId) :
    (d.receiveQuery now id response).tracked.get? u = (d.tracked.get? u).map fun t =>
      if (d.queriesInFlight.get? id).any (d.bringsUpToDate · response u t) then
        { t with outdated := false }
      else t := by
  unfold receiveQuery
  cases d.queriesInFlight.get? id with
  | none => simp
  | some details => simp

/-- An answer brings nobody up to date but the users of its query. -/
theorem mem_outdatedUsers_receiveQuery {id : RequestId} (hu : u ∈ d.outdatedUsers)
    (hn : ∀ details, d.queriesInFlight.get? id = some details → u ∉ details.users) (now : Instant)
    (response : KeysQueryResponse) : u ∈ (d.receiveQuery now id response).outdatedUsers := by
  obtain ⟨n, ht⟩ := mem_outdatedUsers.1 hu
  have hsame : (d.queriesInFlight.get? id).any
      (d.bringsUpToDate · response u ⟨true, n⟩) = false := by
    cases hg : d.queriesInFlight.get? id with
    | none => rfl
    | some details =>
      rw [Option.any_some, Bool.eq_false_iff]
      exact fun hb => hn details hg (bringsUpToDate_iff.1 hb).1
  refine mem_outdatedUsers.2 ⟨n, ?_⟩
  rw [get?_tracked_receiveQuery, ht, Option.map_some, hsame]
  rfl

end DeviceLists
end Outbox
