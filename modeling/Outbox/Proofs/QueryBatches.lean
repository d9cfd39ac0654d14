/-
# The queries name each user once

The queries that are made at a time are the users to be queried, cut into batches in their order. A batch is
never empty, so a query can be made of each, and no user gets lost with one that cannot.

Once all of them are noted as on their way, each under a name of its own, there is nothing to query. That lasts
until somebody is invalidated or a query ends, or until the wait of a server runs out.

Key definitions: `DeviceCall`, `DeviceLists.after`.
Key theorems: `DeviceLists.syncToken_foldl_after`, `DeviceLists.map_keys_queries`,
`DeviceLists.isBeingQueried_foldl_beginQuery`, `DeviceLists.queries_partition`.
-/
import Outbox.Backoff.Lemmas
import Outbox.Proofs.History
import Outbox.Proofs.Wanted

namespace Outbox

/-! ### What is called -/

/-- Something that device lists are told. -/
inductive DeviceCall where
  /-- Users are tracked from now on. -/
  | track (users : List UserId)
  /-- The devices of users changed. -/
  | receiveChanges (users : List UserId) (token : Option String)
  /-- A query is on its way. -/
  | beginQuery (id : RequestId) (query : KeysQuery) (decidedAt : Nat)
  /-- A query was answered. -/
  | receiveQuery (now : Instant) (id : RequestId) (response : KeysQueryResponse)
  /-- A query failed. -/
  | forgetQuery (id : RequestId)

/-- The point of the event stream that is given. -/
def DeviceCall.token? : DeviceCall → Option String
  | receiveChanges _ token => token
  | _ => none

namespace DeviceLists

variable {d : DeviceLists} {settings : Settings} {now : Instant} {u : UserId} {q : KeysQuery}

/-! ### The point of the event stream -/

/-- The device lists after a call. -/
def after (d : DeviceLists) : DeviceCall → DeviceLists
  | .track users => d.track users
  | .receiveChanges users token => d.receiveChanges users token
  | .beginQuery id query decidedAt => d.beginQuery id query decidedAt
  | .receiveQuery now id response => d.receiveQuery now id response
  | .forgetQuery id => d.forgetQuery id

theorem syncToken_foldl {f : DeviceLists → UserId → DeviceLists}
    (hf : ∀ d user, (f d user).syncToken = d.syncToken) (d : DeviceLists) (users : List UserId) :
    (users.foldl f d).syncToken = d.syncToken := by
  induction users generalizing d with
  | nil => rfl
  | cons user users ih => rw [List.foldl_cons, ih, hf]

theorem syncToken_after (d : DeviceLists) (call : DeviceCall) :
    (d.after call).syncToken = call.token?.or d.syncToken := by
  have htrack : ∀ (d : DeviceLists) user, (d.trackUser user).syncToken = d.syncToken := by
    intro d user
    unfold trackUser
    split <;> rfl
  have hchange : ∀ (d : DeviceLists) user, (d.changeUser user).syncToken = d.syncToken := by
    intro d user
    unfold changeUser
    split <;> rfl
  cases call with
  | track users => exact syncToken_foldl htrack d users
  | receiveChanges users token => exact congrArg token.or (syncToken_foldl hchange d users)
  | _ => rfl

/-- The point of the event stream is the last one that was given. -/
theorem syncToken_foldl_after (d : DeviceLists) (calls : List DeviceCall) :
    (calls.foldl after d).syncToken = (calls.filterMap DeviceCall.token?).getLast?.or d.syncToken := by
  induction calls generalizing d with
  | nil => rfl
  | cons call calls ih =>
    rw [List.foldl_cons, ih, syncToken_after]
    cases htoken : call.token? with
    | none => simp [htoken]
    | some token =>
      cases hlast : (calls.filterMap DeviceCall.token?).getLast? with
      | none => simp [htoken, hlast, List.getLast?_cons]
      | some last => simp [htoken, hlast, List.getLast?_cons]

/-! ### The batches -/

/-- Of every batch a query is made, for the users in the batch. -/
theorem map_keys_queries (d : DeviceLists) (settings : Settings) (now : Instant) :
    (d.queries settings now).map (fun q => q.users.keys) =
      batches settings.keyQueryBatchSize.toNat (d.eligibleUsers now) := by
  have hbatch : ∀ b ∈ batches settings.keyQueryBatchSize.toNat (d.eligibleUsers now),
      (KeysQuery.ofUsers (.ofKeys b) (some settings.keyQueryTimeout) d.syncToken).toOption.map
        (fun q => q.users.keys) = some b := by
    intro b hb
    have hsub : b.Sublist (d.eligibleUsers now) := by
      have hflat := List.sublist_flatten_of_mem hb
      rwa [flatten_batches] at hflat
    obtain ⟨u, hu⟩ := List.exists_mem_of_ne_nil b (ne_nil_of_mem_batchesFrom hb)
    obtain ⟨q, hok, husers⟩ := KeysQuery.exists_ofUsers (SortedSet.mem_ofKeys.2 hu)
      (some settings.keyQueryTimeout) d.syncToken
    rw [toOption_eq_some_iff.2 hok, Option.map_some, husers,
      SortedSet.keys_ofKeys ((d.eligibleUsers_pairwise now).sublist hsub)]
  unfold queries
  rw [List.map_filterMap, List.filterMap_congr hbatch, List.filterMap_some]

/-- The users of the queries, one query after the other, are the users to be queried. -/
theorem flatMap_keys_queries (d : DeviceLists) (settings : Settings) (now : Instant) :
    ((d.queries settings now).flatMap fun q => q.users.keys) = d.eligibleUsers now := by
  rw [List.flatMap_def, map_keys_queries, flatten_batches]

/-- The users of a query fill a batch. -/
theorem keys_mem_batches (hq : q ∈ d.queries settings now) :
    q.users.keys ∈ batches settings.keyQueryBatchSize.toNat (d.eligibleUsers now) := by
  rw [← map_keys_queries]
  exact List.mem_map_of_mem hq

theorem keys_mem_dropLast_batches (hq : q ∈ (d.queries settings now).dropLast) :
    q.users.keys ∈ (batches settings.keyQueryBatchSize.toNat (d.eligibleUsers now)).dropLast := by
  rw [← map_keys_queries, ← List.map_dropLast]
  exact List.mem_map_of_mem hq

/-- A query names at least one user and not more than fit in a batch. -/
theorem size_users_of_mem_queries (hq : q ∈ d.queries settings now) :
    1 ≤ q.users.size ∧ q.users.size ≤ max settings.keyQueryBatchSize.toNat 1 := by
  have hmem := keys_mem_batches hq
  have hlen : q.users.keys.length = q.users.size := List.length_map _
  have hpos := List.length_pos_iff.2 (ne_nil_of_mem_batchesFrom hmem)
  have hle := length_le_of_mem_batchesFrom hmem
  omega

/-- Every query but the last is full. -/
theorem size_users_of_mem_dropLast_queries (hq : q ∈ (d.queries settings now).dropLast) :
    q.users.size = max settings.keyQueryBatchSize.toNat 1 := by
  have hlen : q.users.keys.length = q.users.size := List.length_map _
  have hfull := length_of_mem_dropLast_batchesFrom (keys_mem_dropLast_batches hq)
  omega

/-! ### Queries on their way -/

/-- A query that is noted under a new name is on its way for its users. -/
theorem isBeingQueried_beginQuery {id : RequestId} {decidedAt : Nat} (hid : id ∉ d.queriesInFlight) :
    (d.beginQuery id q decidedAt).isBeingQueried u = true ↔ d.isBeingQueried u = true ∨ u ∈ q.users := by
  have hnone : d.queriesInFlight.get? id = none := by
    by_contra hsome
    exact hid (Option.isSome_iff_ne_none.2 hsome)
  simp only [isBeingQueried_iff, beginQuery, SortedMap.get?_insert]
  constructor
  · rintro ⟨name, details, hdetails, hu⟩
    by_cases hname : name = id
    · rw [if_pos hname, Option.some.injEq] at hdetails
      rw [← hdetails] at hu
      exact .inr hu
    · rw [if_neg hname] at hdetails
      exact .inl ⟨name, details, hdetails, hu⟩
  · rintro (⟨name, details, hdetails, hu⟩ | hu)
    · have hname : name ≠ id := by
        rintro rfl
        rw [hnone] at hdetails
        cases hdetails
      exact ⟨name, details, by rw [if_neg hname, hdetails], hu⟩
    · exact ⟨id, _, if_pos rfl, hu⟩

/-- To note queries changes nothing but the queries on their way. -/
theorem foldl_beginQuery_eq (d : DeviceLists) (decidedAt : Nat) (l : List (RequestId × KeysQuery)) :
    ∃ notes, l.foldl (fun d e => d.beginQuery e.1 e.2 decidedAt) d = { d with queriesInFlight := notes } := by
  induction l generalizing d with
  | nil => exact ⟨_, rfl⟩
  | cons e l ih => exact ih _

/-- Queries that are noted under new names of their own are on their way for all their users. -/
theorem isBeingQueried_foldl_beginQuery {l : List (RequestId × KeysQuery)} (hids : (l.map Prod.fst).Nodup)
    (hnew : ∀ e ∈ l, e.1 ∉ d.queriesInFlight) (decidedAt : Nat) :
    (l.foldl (fun d e => d.beginQuery e.1 e.2 decidedAt) d).isBeingQueried u = true ↔
      d.isBeingQueried u = true ∨ ∃ e ∈ l, u ∈ e.2.users := by
  induction l generalizing d with
  | nil => simp
  | cons e l ih =>
    obtain ⟨he, hids⟩ := List.nodup_cons.1 hids
    obtain ⟨hfirst, hnew⟩ := List.forall_mem_cons.1 hnew
    -- a name that is noted twice would take the first note away
    have hstill : ∀ x ∈ l, x.1 ∉ (d.beginQuery e.1 e.2 decidedAt).queriesInFlight := by
      intro x hx hmem
      rcases SortedMap.mem_insert.1 hmem with heq | hold
      · exact he (heq ▸ List.mem_map_of_mem hx)
      · exact hnew x hx hold
    rw [List.foldl_cons, ih hids hstill, isBeingQueried_beginQuery hfirst]
    simp [or_assoc]

/-- The same for queries and their names. -/
theorem isBeingQueried_foldl_zip {ids : List RequestId} {qs : List KeysQuery} (hlen : ids.length = qs.length)
    (hids : ids.Nodup) (hnew : ∀ id ∈ ids, id ∉ d.queriesInFlight) (decidedAt : Nat) :
    ((ids.zip qs).foldl (fun d e => d.beginQuery e.1 e.2 decidedAt) d).isBeingQueried u = true ↔
      d.isBeingQueried u = true ∨ ∃ q ∈ qs, u ∈ q.users := by
  have hfst : (ids.zip qs).map Prod.fst = ids := List.map_fst_zip (Nat.le_of_eq hlen)
  have hsnd : (ids.zip qs).map Prod.snd = qs := List.map_snd_zip (Nat.le_of_eq hlen.symm)
  have hzip : ∀ e ∈ ids.zip qs, e.1 ∉ d.queriesInFlight := fun e he => hnew e.1 (List.of_mem_zip he).1
  have hany : (∃ e ∈ ids.zip qs, u ∈ e.2.users) ↔ ∃ q ∈ qs, u ∈ q.users := by
    constructor
    · rintro ⟨e, he, hu⟩
      exact ⟨e.2, (List.of_mem_zip he).2, hu⟩
    · rintro ⟨q, hq, hu⟩
      rw [← hsnd] at hq
      obtain ⟨e, he, rfl⟩ := List.mem_map.1 hq
      exact ⟨e, he, hu⟩
  rw [isBeingQueried_foldl_beginQuery (by rwa [hfst]) hzip, hany]

/-! ### Who is queried -/

theorem isBeingQueried_eq_false_iff : d.isBeingQueried u = false ↔
    ∀ id details, d.queriesInFlight.get? id = some details → u ∉ details.users := by
  rw [Bool.eq_false_iff, ne_eq, isBeingQueried_iff]
  simp only [not_exists, not_and]

/-- If all queries of a time are on their way, those who are to be queried at another time are users whose
server was left alone and no longer is. -/
theorem mem_eligibleUsers_of_noted {d' : DeviceLists} {notes : SortedMap RequestId QueryDetails} {now' : Instant}
    (heq : d' = { d with queriesInFlight := notes })
    (hnoted : d'.isBeingQueried u = true ↔ d.isBeingQueried u = true ∨ u ∈ d.eligibleUsers now) :
    u ∈ d'.eligibleUsers now' ↔
      u ∈ d.outdatedUsers ∧ d.isBeingQueried u = false ∧ d.failures.RanOut now now' u.server := by
  have houtdated : d'.outdatedUsers = d.outdatedUsers := by rw [heq]; rfl
  have hfailures : d'.failures = d.failures := by rw [heq]
  have hnot : d'.isBeingQueried u = false ↔ d.isBeingQueried u = false ∧ u ∉ d.eligibleUsers now := by
    simp only [Bool.eq_false_iff, ne_eq, hnoted, not_or]
  rw [mem_eligibleUsers, houtdated, hfailures, hnot, mem_eligibleUsers, Backoff.RanOut]
  simp only [not_and, Bool.not_eq_false]
  constructor
  · rintro ⟨hu, ⟨hfree, hleft⟩, hnow'⟩
    exact ⟨hu, hfree, hleft hu hfree, hnow'⟩
  · rintro ⟨hu, hfree, hnow, hnow'⟩
    exact ⟨hu, ⟨hfree, fun _ _ => hnow⟩, hnow'⟩

/-- **The queries name each user to be queried once**, whatever the device lists were told. One after the other
they name, in order, exactly the outdated users for whom no query is on its way and whose server is not left
alone. All but the last name as many users as a batch has, the last at least one and not more, and each has the
time and the point of the event stream that was given last. Once all are noted as on their way there is nothing
to query; later it is only the users whose server is no longer left alone. -/
theorem queries_partition (d₀ : DeviceLists) (calls : List DeviceCall) (settings : Settings)
    (now : Instant) :
    let d := calls.foldl after d₀
    let size := max settings.keyQueryBatchSize.toNat 1
    let requests := d.queries settings now
    let named := requests.flatMap fun q => q.users.keys
    (named.Pairwise fun u v => compare u v = .lt) ∧
    (∀ u, u ∈ named ↔ u ∈ d.outdatedUsers ∧
      (∀ id details, d.queriesInFlight.get? id = some details → u ∉ details.users) ∧
      d.failures.contains now u.server = false) ∧
    (∀ q ∈ requests.dropLast, q.users.size = size) ∧
    (∀ q ∈ requests, 1 ≤ q.users.size ∧ q.users.size ≤ size) ∧
    (∀ q ∈ requests, q.timeout = some settings.keyQueryTimeout ∧
      q.token = (calls.filterMap DeviceCall.token?).getLast?.or d₀.syncToken) ∧
    ∀ ids : List RequestId, ids.length = requests.length → ids.Nodup → (∀ id ∈ ids, id ∉ d.queriesInFlight) →
      let d' := (ids.zip requests).foldl (fun d' e => d'.beginQuery e.1 e.2 d.invalidations) d
      (∀ settings', d'.queries settings' now = []) ∧
      ∀ settings' now' u, (∃ q ∈ d'.queries settings' now', u ∈ q.users) ↔
        u ∈ d.outdatedUsers ∧ (∀ id details, d.queriesInFlight.get? id = some details → u ∉ details.users) ∧
          d.failures.RanOut now now' u.server := by
  intro d size requests named
  have hnamed : named = d.eligibleUsers now := d.flatMap_keys_queries settings now
  refine ⟨?_, ?_, fun q => size_users_of_mem_dropLast_queries, fun q => size_users_of_mem_queries, ?_, ?_⟩
  · rw [hnamed]
    exact d.eligibleUsers_pairwise now
  · intro u
    rw [hnamed, mem_eligibleUsers, isBeingQueried_eq_false_iff]
  · intro q hq
    obtain ⟨b, -, hok⟩ := mem_queries.1 hq
    obtain ⟨htimeout, htoken⟩ := KeysQuery.timeout_of_ofUsers hok
    exact ⟨htimeout, htoken.trans (syncToken_foldl_after d₀ calls)⟩
  · intro ids hlen hids hnew d'
    obtain ⟨notes, heq⟩ := foldl_beginQuery_eq d d.invalidations (ids.zip requests)
    have hlater : ∀ settings' now' u, (∃ q ∈ d'.queries settings' now', u ∈ q.users) ↔
        u ∈ d.outdatedUsers ∧ d.isBeingQueried u = false ∧ d.failures.RanOut now now' u.server := by
      intro settings' now' u
      have hnoted := isBeingQueried_foldl_zip (u := u) hlen hids hnew d.invalidations
      rw [exists_mem_queries_iff] at hnoted
      rw [exists_mem_queries_iff, mem_eligibleUsers_of_noted heq hnoted]
    refine ⟨fun settings' => ?_, fun settings' now' u => by rw [hlater, isBeingQueried_eq_false_iff]⟩
    refine List.eq_nil_iff_forall_not_mem.2 fun q hq => ?_
    obtain ⟨u, hu⟩ := q.exists_mem_users
    exact Backoff.not_ranOut_self _ _ _ ((hlater settings' now u).1 ⟨q, hq, hu⟩).2.2

/-- Two users are queried one by one if a batch has room for none. Both queries have the point of the event
stream that was given last, also when a report did not give one. Once they are noted nobody is left. -/
theorem queries_partition_one_by_one :
    let calls : List DeviceCall :=
      [.track [Sample.bob], .receiveChanges [] (some "s1"), .receiveChanges [Sample.bob] none]
    let d := calls.foldl after (.new Sample.alice)
    let settings : Settings := { Settings.default with keyQueryBatchSize := 0 }
    ∃ first second, d.queries settings 0 = [first, second] ∧ first.users.size = 1 ∧ second.users.size = 1 ∧
      second.token = some "s1" ∧
      ((d.beginQuery "r-1" first d.invalidations).beginQuery "r-2" second d.invalidations).queries
        settings 0 = [] := by
  intro calls d settings
  have htwo : ∃ first second, d.queries settings 0 = [first, second] := ⟨_, _, rfl⟩
  obtain ⟨first, second, hqueries⟩ := htwo
  obtain ⟨-, -, hfull, hsize, hparts, hnoted⟩ := queries_partition (.new Sample.alice) calls settings 0
  have hfirst : first ∈ (d.queries settings 0).dropLast := by simp [hqueries]
  have hsecond : second ∈ d.queries settings 0 := by simp [hqueries]
  have hnone : ∀ id ∈ ["r-1", "r-2"], id ∉ d.queriesInFlight := by decide +kernel
  obtain ⟨hnothing, -⟩ := hnoted ["r-1", "r-2"] (by simp [d, settings, hqueries]) (by decide) hnone
  have hlast : ((["r-1", "r-2"].zip (d.queries settings 0)).foldl
      (fun d' e => d'.beginQuery e.1 e.2 d.invalidations) d).queries settings 0 = [] := hnothing settings
  rw [hqueries] at hlast
  obtain ⟨hpos, hle⟩ := hsize second hsecond
  exact ⟨first, second, hqueries, hfull first hfirst, Nat.le_antisymm hle hpos, (hparts second hsecond).2, hlast⟩

end DeviceLists
end Outbox
