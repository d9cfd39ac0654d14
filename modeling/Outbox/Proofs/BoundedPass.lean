/-
# A bounded queue only postpones

A decision pass goes through its stages one after the other, and each stage looks at the machine that the
earlier ones left. It finds the same there as before the pass, since requests of one kind do not hold
back another kind; so the pass queues what is wanted at its start, as far as it fits. A pass with a
capacity therefore queues the first requests of the pass without one, and does nothing else that the
other would not do.

Key definitions: `InPlace.passInStages`, `Machine.Fits`, `InPlace.Queues`, `Machine.WithinCapacity`.
Key theorems: `Machine.addAll_append`, `Machine.ofKind_addAll`, `InPlace.Queues.bind`,
`InPlace.exec_passInStages`, `Machine.payloads_added_of_capacity`,
`Machine.Reached.withinCapacity`, `Machine.bounded_pass_postpones`.
-/
import Outbox.Proofs.Atomicity
import Outbox.Proofs.Coherence
import Outbox.Proofs.QueryNotes
import Outbox.Proofs.Wanted

namespace Outbox

/-! ### A pass in stages -/

namespace InPlace

/-- Queues a request under a fresh name, if it fits, and gives it back. -/
def enqueueNamed (payload : Payload) : InPlace OutgoingRequest := do
  let m ← get
  let request : OutgoingRequest := ⟨m.nextId, payload⟩
  let queue ← orRefuse .queueFull (m.queue.enqueue request)
  set { m with minted := m.minted + 1, queue }
  pure request

/-- Queues what one part of the machine wants at this point. -/
def stage (wanted : Machine → List Payload) : InPlace Unit := do
  let m ← get
  (wanted m).forM fun payload => discard (enqueueNamed payload)

/-- Queues the queries that are wanted at this point, and notes each of them once it is queued. All of
them are dated with the invalidations so far. -/
def stageOfQueries (now : Instant) : InPlace Unit := do
  let m ← get
  let decidedAt := m.deviceLists.invalidations
  (m.deviceLists.queries m.settings now).forM fun query => do
    let request ← enqueueNamed (.keysQuery query)
    modify fun m => { m with deviceLists := m.deviceLists.beginQuery request.id query decidedAt }

/-- Goes through all stages, unless the queue is full before or in one of them. -/
def passInStages (now : Instant) : InPlace Unit := do
  let m ← get
  unless m.queue.isFull do
    try
      stage Machine.wantedKeysUpload
      stageOfQueries now
      stage Machine.wantedKeysClaim
      stage Machine.wantedToDevice
      stage Machine.wantedSignatureUpload
      stage Machine.wantedRoomMessages
      stage Machine.wantedKeysBackup
    catch
      | .queueFull _ => pure ()
      | reason => throw reason

end InPlace

namespace Machine

variable {m m' : Machine} {p : Payload} {ps qs : List Payload} {r : OutgoingRequest} {now : Instant}
  {kind : RequestKind}

/-! ### What fits -/

theorem addAll_cons_of_ok (h : m.add p = .ok m') : m.addAll (p :: ps) = m'.addAll ps := by
  simp only [addAll, h]

theorem added_cons_of_ok (h : m.add p = .ok m') : m.added (p :: ps) = ⟨m.nextId, p⟩ :: m'.added ps := by
  simp only [added, h]

/-- A full queue takes nothing. -/
theorem add_of_isFull (h : m.queue.isFull = true) (p : Payload) : ∃ e, m.add p = .error e := by
  obtain ⟨e, he⟩ := Option.isSome_iff_exists.1 h
  refine ⟨e, ?_⟩
  unfold add Queue.enqueue Queue.insert
  rw [he]
  rfl

theorem addAll_of_isFull (h : m.queue.isFull = true) (ps : List Payload) : m.addAll ps = m := by
  cases ps with
  | nil => rfl
  | cons p ps =>
    obtain ⟨e, he⟩ := add_of_isFull h p
    simp only [addAll, he]

theorem added_of_isFull (h : m.queue.isFull = true) (ps : List Payload) : m.added ps = [] := by
  cases ps with
  | nil => rfl
  | cons p ps =>
    obtain ⟨e, he⟩ := add_of_isFull h p
    simp only [added, he]

/-- Payloads may be added in two goes. If the first ones do not all fit, the second go finds a full
queue. -/
theorem addAll_append (m : Machine) (ps qs : List Payload) :
    m.addAll (ps ++ qs) = (m.addAll ps).addAll qs := by
  induction ps generalizing m with
  | nil => rfl
  | cons p ps ih =>
    cases hp : m.add p with
    | error e =>
      have hfull := isFull_of_add_eq_error hp
      rw [addAll_of_isFull hfull, addAll_of_isFull hfull, addAll_of_isFull hfull]
    | ok m' => rw [List.cons_append, addAll_cons_of_ok hp, addAll_cons_of_ok hp, ih]

/-- All of the payloads fit into the queue. -/
def Fits (m : Machine) (ps : List Payload) : Prop := (m.added ps).map OutgoingRequest.payload = ps

theorem fits_cons_of_ok (h : m.add p = .ok m') : m.Fits (p :: ps) ↔ m'.Fits ps := by
  simp [Fits, added_cons_of_ok h]

theorem not_fits_cons_of_isFull (h : m.queue.isFull = true) : ¬ m.Fits (p :: ps) := by
  simp [Fits, added_of_isFull h]

theorem isFull_of_not_fits (h : ¬ m.Fits ps) : (m.addAll ps).queue.isFull = true :=
  (m.isFull_or_payloads_added ps).resolve_right h

theorem fits_append : m.Fits (ps ++ qs) ↔ m.Fits ps ∧ (m.addAll ps).Fits qs := by
  induction ps generalizing m with
  | nil => simp [Fits, addAll, added]
  | cons p ps ih =>
    cases hp : m.add p with
    | error e =>
      have hfull := isFull_of_add_eq_error hp
      exact iff_of_false (not_fits_cons_of_isFull hfull) fun h => not_fits_cons_of_isFull hfull h.1
    | ok m' =>
      rw [List.cons_append, fits_cons_of_ok hp, fits_cons_of_ok hp, addAll_cons_of_ok hp, ih]

/-! ### What a stage finds -/

/-- Requests of other kinds do not change what is queued of a kind. -/
theorem ofKind_addAll (hm : m.Named) (h : ∀ p ∈ ps, p.kind ≠ kind) :
    (m.addAll ps).queue.ofKind kind = m.queue.ofKind kind := by
  have hadded : (m.added ps).filter (fun r => r.kind = kind) = [] := by
    refine List.filter_eq_nil_iff.2 fun r hr => ?_
    have hne : r.kind ≠ kind := h _ (payload_mem_of_mem_added hr)
    simpa using hne
  have hcont := contents_addAll hm ps
  unfold Queue.contents at hcont
  unfold Queue.ofKind
  rw [hcont, List.filter_append, hadded, List.append_nil]

theorem noteDecision_of_ne (d : DeviceLists) (h : r.kind ≠ .keysQuery) : noteDecision d r = d := by
  unfold noteDecision
  split
  · next query hq => exact absurd (congrArg Payload.kind hq) h
  · rfl

/-- Requests other than queries do not change what is known of devices. -/
theorem deviceLists_addAll (h : ∀ p ∈ ps, p.kind ≠ .keysQuery) :
    (m.addAll ps).deviceLists = m.deviceLists := by
  have hsame : ∀ rs : List OutgoingRequest, (∀ r ∈ rs, r.kind ≠ .keysQuery) →
      rs.foldl noteDecision m.deviceLists = m.deviceLists := by
    intro rs hrs
    induction rs with
    | nil => rfl
    | cons r rs ih =>
      obtain ⟨hr, hrs⟩ := List.forall_mem_cons.1 hrs
      rw [List.foldl_cons, noteDecision_of_ne _ hr, ih hrs]
  rw [addAll_deviceLists]
  exact hsame _ fun r hr => h _ (payload_mem_of_mem_added hr)

theorem onePerKind_addAll (hm : m.Named) (h : ∀ p ∈ ps, p.kind ≠ kind) (payload : Option Payload) :
    (m.addAll ps).onePerKind kind payload = m.onePerKind kind payload := by
  unfold onePerKind Queue.containsKind
  rw [ofKind_addAll hm h]

theorem wantedKeysQueries_addAll (h : ∀ p ∈ ps, p.kind ≠ .keysQuery) (now : Instant) :
    (m.addAll ps).wantedKeysQueries now = m.wantedKeysQueries now := by
  simp only [wantedKeysQueries, deviceLists_addAll h, addAll_settings]

theorem wantedKeysClaim_addAll (hm : m.Named) (h : ∀ p ∈ ps, p.kind ≠ .keysClaim) :
    (m.addAll ps).wantedKeysClaim = m.wantedKeysClaim := by
  simp only [wantedKeysClaim, onePerKind_addAll hm h, addAll_sessions, addAll_settings]

theorem wantedToDevice_addAll (hm : m.Named) (h : ∀ p ∈ ps, p.kind ≠ .toDevice) :
    (m.addAll ps).wantedToDevice = m.wantedToDevice := by
  simp only [wantedToDevice, ofKind_addAll hm h, addAll_messages]

theorem wantedSignatureUpload_addAll (hm : m.Named) (h : ∀ p ∈ ps, p.kind ≠ .signatureUpload) :
    (m.addAll ps).wantedSignatureUpload = m.wantedSignatureUpload := by
  simp only [wantedSignatureUpload, onePerKind_addAll hm h, addAll_ownKeys, addAll_messages]

theorem wantedRoomMessages_addAll (hm : m.Named) (h : ∀ p ∈ ps, p.kind ≠ .roomMessage) :
    (m.addAll ps).wantedRoomMessages = m.wantedRoomMessages := by
  simp only [wantedRoomMessages, ofKind_addAll hm h, addAll_messages]

theorem wantedKeysBackup_addAll (hm : m.Named) (h : ∀ p ∈ ps, p.kind ≠ .keysBackup) :
    (m.addAll ps).wantedKeysBackup = m.wantedKeysBackup := by
  unfold wantedKeysBackup isBackupQueued
  rw [ofKind_addAll hm h, addAll_backup, addAll_settings]

end Machine

/-! ### Going through the stages -/

namespace InPlace

variable {α : Type} {m : Machine} {x y : InPlace Unit} {ps qs : List Payload}

/-- The computation queues the payloads one after the other, as far as they fit, and is refused when one
does not fit. -/
structure Queues (x : InPlace Unit) (m : Machine) (ps : List Payload) : Prop where
  fits : m.Fits ps → exec x m = (.ok ⟨⟩, m.addAll ps)
  full : ¬ m.Fits ps → ∃ e, exec x m = (.error (.queueFull e), m.addAll ps)

namespace Queues

/-- A computation that queues payloads goes on with what it does next, unless it is refused. -/
theorem bind (hx : Queues x m ps) (hy : Queues y (m.addAll ps) qs) :
    Queues (x >>= fun _ => y) m (ps ++ qs) where
  fits h := by
    obtain ⟨hp, hq⟩ := Machine.fits_append.1 h
    rw [exec_bind, hx.fits hp, Machine.addAll_append]
    exact hy.fits hq
  full h := by
    rw [exec_bind, Machine.addAll_append]
    by_cases hp : m.Fits ps
    · rw [hx.fits hp]
      exact hy.full fun hq => h (Machine.fits_append.2 ⟨hp, hq⟩)
    · obtain ⟨e, he⟩ := hx.full hp
      rw [he, Machine.addAll_of_isFull (Machine.isFull_of_not_fits hp)]
      exact ⟨e, rfl⟩

/-- A computation may look at the machine first. -/
theorem get {f : Machine → InPlace Unit} (hf : Queues (f m) m ps) :
    Queues (MonadState.get >>= f) m ps where
  fits h := by
    rw [exec_bind]
    exact hf.fits h
  full h := by
    rw [exec_bind]
    exact hf.full h

theorem of_add {p : Payload} (hx : exec x m = match m.add p with
    | .ok m' => (.ok ⟨⟩, m')
    | .error e => (.error (.queueFull e), m)) : Queues x m [p] := by
  cases hp : m.add p with
  | error e =>
    have hfull := Machine.isFull_of_add_eq_error hp
    rw [hp] at hx
    refine ⟨fun h => absurd h (Machine.not_fits_cons_of_isFull hfull), fun _ => ⟨e, ?_⟩⟩
    rw [Machine.addAll_of_isFull hfull]
    exact hx
  | ok m' =>
    rw [hp] at hx
    have hfits : m.Fits [p] := (Machine.fits_cons_of_ok hp).2 rfl
    refine ⟨fun _ => ?_, fun h => absurd hfits h⟩
    rw [hx, Machine.addAll_cons_of_ok hp]
    rfl

/-- A loop queues what its rounds queue. -/
theorem forM {f : α → InPlace Unit} {payload : α → Payload} {l : List α}
    (h : ∀ a ∈ l, ∀ ps, Queues (f a) (m.addAll ps) [payload a]) :
    Queues (l.forM f) m (l.map payload) := by
  induction l generalizing m with
  | nil => exact ⟨fun _ => rfl, fun h => absurd rfl h⟩
  | cons a l ih =>
    obtain ⟨ha, hl⟩ := List.forall_mem_cons.1 h
    refine (ha []).bind (ih fun b hb ps => ?_)
    rw [← Machine.addAll_append]
    exact hl b hb _

end Queues

/-- A request that is queued under a name is added, but for the note of a query. -/
theorem exec_enqueueNamed (payload : Payload) : exec (enqueueNamed payload) m =
    match m.add payload with
    | .ok m' => (.ok ⟨m.nextId, payload⟩, { m' with deviceLists := m.deviceLists })
    | .error e => (.error (.queueFull e), m) := by
  unfold enqueueNamed Machine.add
  rw [exec_bind, exec_get]
  dsimp only
  rw [exec_bind]
  cases m.queue.enqueue ⟨m.nextId, payload⟩ <;> rfl

/-- A stage queues what is wanted when it begins. -/
theorem queues_stage {wanted : Machine → List Payload} (h : ∀ p ∈ wanted m, p.kind ≠ .keysQuery) :
    Queues (stage wanted) m (wanted m) := by
  have hround : ∀ p ∈ wanted m, ∀ ps, Queues (discard (enqueueNamed p)) (m.addAll ps) [p] := by
    intro p hp ps
    apply Queues.of_add
    show exec (enqueueNamed p >>= fun _ => (pure PUnit.unit : InPlace Unit)) (m.addAll ps) = _
    rw [exec_bind, exec_enqueueNamed]
    cases hadd : (m.addAll ps).add p with
    | error e => rfl
    | ok m' =>
      obtain ⟨queue, -, rfl⟩ := Machine.add_eq_ok hadd
      have hne : OutgoingRequest.kind ⟨(m.addAll ps).nextId, p⟩ ≠ .keysQuery := h p hp
      rw [Machine.noteDecision_of_ne _ hne]
      rfl
  have hloop := Queues.forM hround
  rw [List.map_id'] at hloop
  exact hloop.get

/-- So does the stage of queries. All of them are noted with the invalidations at that time, since there
are no others meanwhile. -/
theorem queues_stageOfQueries (now : Instant) :
    Queues (stageOfQueries now) m (m.wantedKeysQueries now) := by
  refine (Queues.forM fun q hq ps => .of_add ?_).get
  rw [exec_bind, exec_enqueueNamed]
  cases hadd : (m.addAll ps).add (.keysQuery q) with
  | error e => rfl
  | ok m' =>
    obtain ⟨queue, -, rfl⟩ := Machine.add_eq_ok hadd
    dsimp only [Machine.noteDecision]
    rw [Machine.addAll_invalidations]
    rfl

/-- A stage wants what it wanted before requests were added that it does not look at. -/
theorem queues_stage_addAll (ps : List Payload) {kind : RequestKind} {wanted : Machine → List Payload}
    (hsame : wanted (m.addAll ps) = wanted m) (hkind : ∀ p ∈ wanted m, p.kind = kind)
    (hne : kind ≠ .keysQuery) : Queues (stage wanted) (m.addAll ps) (wanted m) := by
  rw [← hsame]
  refine queues_stage fun p hp => ?_
  rw [hkind p (hsame ▸ hp)]
  exact hne

open Machine in
/-- The stages queue what is wanted before the first of them. -/
theorem queues_stages (hm : m.Named) (now : Instant) :
    Queues (do
      stage Machine.wantedKeysUpload
      stageOfQueries now
      stage Machine.wantedKeysClaim
      stage Machine.wantedToDevice
      stage Machine.wantedSignatureUpload
      stage Machine.wantedRoomMessages
      stage Machine.wantedKeysBackup) m (m.wanted now) := by
  have kUpload : ∀ p ∈ m.wantedKeysUpload, p.kind = .keysUpload := fun p => kind_of_mem_wantedKeysUpload
  have kQuery : ∀ p ∈ m.wantedKeysQueries now, p.kind = .keysQuery := fun p =>
    kind_of_mem_wantedKeysQueries
  have kClaim : ∀ p ∈ m.wantedKeysClaim, p.kind = .keysClaim := fun p => kind_of_mem_wantedKeysClaim
  have kDevice : ∀ p ∈ m.wantedToDevice, p.kind = .toDevice := fun p => kind_of_mem_wantedToDevice
  have kSignature : ∀ p ∈ m.wantedSignatureUpload, p.kind = .signatureUpload := fun p =>
    kind_of_mem_wantedSignatureUpload
  have kRoom : ∀ p ∈ m.wantedRoomMessages, p.kind = .roomMessage := fun p =>
    kind_of_mem_wantedRoomMessages
  have kBackup : ∀ p ∈ m.wantedKeysBackup, p.kind = .keysBackup := fun p => kind_of_mem_wantedKeysBackup
  have hUpload : Queues (stage wantedKeysUpload) m m.wantedKeysUpload :=
    queues_stage_addAll [] rfl kUpload (by decide)
  have hQuery : Queues (stageOfQueries now) (m.addAll m.wantedKeysUpload) (m.wantedKeysQueries now) := by
    have hne : ∀ p ∈ m.wantedKeysUpload, p.kind ≠ .keysQuery := by grind
    rw [← wantedKeysQueries_addAll hne now]
    exact queues_stageOfQueries now
  have hClaim := queues_stage_addAll (m.wantedKeysUpload ++ m.wantedKeysQueries now)
    (wantedKeysClaim_addAll hm (by grind)) kClaim (by decide)
  have hDevice := queues_stage_addAll
    (m.wantedKeysUpload ++ m.wantedKeysQueries now ++ m.wantedKeysClaim)
    (wantedToDevice_addAll hm (by grind)) kDevice (by decide)
  have hSignature := queues_stage_addAll
    (m.wantedKeysUpload ++ m.wantedKeysQueries now ++ m.wantedKeysClaim ++ m.wantedToDevice)
    (wantedSignatureUpload_addAll hm (by grind)) kSignature (by decide)
  have hRoom := queues_stage_addAll
    (m.wantedKeysUpload ++ m.wantedKeysQueries now ++ m.wantedKeysClaim ++ m.wantedToDevice ++
      m.wantedSignatureUpload)
    (wantedRoomMessages_addAll hm (by grind)) kRoom (by decide)
  have hBackup := queues_stage_addAll
    (m.wantedKeysUpload ++ m.wantedKeysQueries now ++ m.wantedKeysClaim ++ m.wantedToDevice ++
      m.wantedSignatureUpload ++ m.wantedRoomMessages)
    (wantedKeysBackup_addAll hm (by grind)) kBackup (by decide)
  simp only [addAll_append] at hClaim hDevice hSignature hRoom hBackup
  have hall := hUpload.bind (hQuery.bind (hClaim.bind (hDevice.bind (hSignature.bind
    (hRoom.bind hBackup)))))
  simp only [wanted, List.append_assoc]
  exact hall

/-- **A pass in stages is a decision pass.** -/
theorem exec_passInStages (hm : m.Named) (now : Instant) :
    exec (passInStages now) m = (.ok ⟨⟩, m.decisionPass now) := by
  have hstages := queues_stages hm now
  unfold passInStages
  rw [exec_bind, exec_get]
  dsimp only
  by_cases hfull : m.queue.isFull = true
  · rw [if_pos hfull, Machine.decisionPass, Machine.addAll_of_isFull hfull]
    rfl
  · rw [if_neg hfull, exec_tryCatch]
    by_cases hfits : m.Fits (m.wanted now)
    · rw [hstages.fits hfits]
      rfl
    · obtain ⟨e, he⟩ := hstages.full hfits
      rw [he]
      rfl

end InPlace

/-! ### What a capacity cuts off -/

namespace Machine

variable {m m' : Machine} {p : Payload} {ps : List Payload} {now : Instant} {call : Call}
  {answer : Answer} {h : List Turn}

/-- Without a capacity there is always room. -/
theorem isFull_addAll_of_unlimited (hc : m.queue.capacity = none) (ps : List Payload) :
    (m.addAll ps).queue.isFull ≠ true := by
  rw [Ne, Queue.isFull_iff, capacity_addAll, hc]
  simp

/-- Without a capacity all payloads are added. -/
theorem payloads_added_of_unlimited (hc : m.queue.capacity = none) (ps : List Payload) :
    (m.added ps).map OutgoingRequest.payload = ps :=
  (m.isFull_or_payloads_added ps).resolve_left (isFull_addAll_of_unlimited hc ps)

theorem size_of_add_eq_ok (hm : m.Named) (h : m.add p = .ok m') :
    m'.queue.size = m.queue.size + 1 := by
  rw [Queue.size_eq, Queue.size_eq, Queue.contents, toList_of_add_eq_ok hm h]
  simp [Queue.contents]

/-- With a capacity those payloads are added for which there is room, from the front. -/
theorem payloads_added_of_capacity (hm : m.Named) {c : Nat} (hc : m.queue.capacity = some c)
    (ps : List Payload) :
    (m.added ps).map OutgoingRequest.payload = ps.take (c - m.queue.size) := by
  induction ps generalizing m with
  | nil => simp [added]
  | cons p ps ih =>
    have hfull : m.queue.isFull = true ↔ c ≤ m.queue.size := by
      simp [Queue.isFull_iff, hc, Queue.size_eq]
    cases hp : m.add p with
    | error e =>
      have hle := hfull.1 (isFull_of_add_eq_error hp)
      rw [added_of_isFull (hfull.2 hle), Nat.sub_eq_zero_of_le hle]
      rfl
    | ok m' =>
      have hlt : m.queue.size < c := by
        by_contra hge
        obtain ⟨e, he⟩ := add_of_isFull (hfull.2 (by omega)) p
        rw [he] at hp
        cases hp
      have hc' : m'.queue.capacity = some c := by
        obtain ⟨queue, hq, rfl⟩ := add_eq_ok hp
        exact (Queue.capacity_insert hq).trans hc
      have hroom : c - m.queue.size = c - m'.queue.size + 1 := by
        rw [size_of_add_eq_ok hm hp]
        omega
      rw [added_cons_of_ok hp, List.map_cons, ih (hm.add hp) hc', hroom, List.take_succ_cons]

/-! ### The size of the queue -/

/-- The queue holds no more requests than it can. -/
def WithinCapacity (m : Machine) : Prop := ∀ c, m.queue.capacity = some c → m.queue.size ≤ c

namespace WithinCapacity

theorem of_sublist (hw : m.WithinCapacity) (hc : m'.queue.capacity = m.queue.capacity)
    (hs : m'.queue.contents.Sublist m.queue.contents) : m'.WithinCapacity := by
  intro c hcap
  have hle := hw c (hc ▸ hcap)
  have hlen := hs.length_le
  rw [Queue.size_eq] at *
  omega

theorem addAll (hw : m.WithinCapacity) (hm : m.Named) (ps : List Payload) :
    (m.addAll ps).WithinCapacity := by
  intro c hcap
  rw [capacity_addAll] at hcap
  have hle := hw c hcap
  have hadded := congrArg List.length (payloads_added_of_capacity hm hcap ps)
  rw [List.length_map, List.length_take] at hadded
  rw [Queue.size_eq, contents_addAll hm, List.length_append, ← Queue.size_eq]
  omega

theorem turn (hm : Reached h m) (hw : m.WithinCapacity) (ht : m.Transition now call answer m') :
    m'.WithinCapacity := by
  cases ht with
  | handOut =>
    have hp := hw.addAll hm.agrees.named (m.wanted now)
    refine hp.of_sublist (m.decisionPass now).queue.capacity_drainPending ?_
    show (m.decisionPass now).queue.drainPending.2.contents.Sublist _
    rw [Queue.contents_drainPending]
    exact .refl _
  | complete r outcome inFlight fits =>
    have hrest : (m.withOutcome now r outcome).WithinCapacity := by
      refine hw.of_sublist ?_ ?_
      · rw [withOutcome_queue]
        rfl
      · rw [withOutcome_queue]
        exact m.queue.contents_withoutRequest_sublist r.id
    exact hrest.addAll (hm.agrees.complete inFlight now outcome).named _
  | query users q queue built inserted =>
    intro c hcap
    have hcap : m.queue.capacity = some c := (Queue.capacity_insert inserted).symm.trans hcap
    have hcont := Queue.contents_insert hm.agrees.named.ne_nextId inserted
    have hlt : m.queue.size < c := by
      by_contra hge
      unfold Queue.insert Queue.full? at inserted
      rw [hcap] at inserted
      simp [show c ≤ m.queue.size by omega] at inserted
    show queue.size ≤ c
    rw [Queue.size_eq, hcont, List.length_append, List.length_singleton, ← Queue.size_eq]
    omega
  | enable version nonempty => exact hw.of_sublist rfl (m.queue.contents_retainPending_sublist _)
  | disable => exact hw.of_sublist rfl (m.queue.contents_retainPending_sublist _)
  | _ => exact hw

end WithinCapacity

/-- **The queue never holds more requests than it can.** -/
theorem Reached.withinCapacity (hm : Reached h m) : m.WithinCapacity := by
  induction hm with
  | new userId deviceId deviceKeys settings ids => exact fun c hcap => Nat.zero_le c
  | step now call hm ih => exact ih.turn hm (transition_step _ now call)

/-! ### The main theorem -/

/-- **A bounded queue only postpones.** The queue of a machine never holds more requests than the settings
allow. Take a machine in any state, and give it any settings, and once a queue without a capacity and once
one with a capacity. The pass with the capacity queues, behind what was queued before, the first payloads
of the pass without it for which there is room, and exactly its queries are noted. Nothing else changes,
apart from the names that are used up. Both passes go through their stages one after the other, each of
which looks at the machine as the earlier ones left it. -/
theorem bounded_pass_postpones (userId : UserId) (deviceId : DeviceId) (deviceKeys : Opaque)
    (settings : Settings) (ids : IdSource) (calls : List (Instant × Call)) (other : Settings)
    (capacity : Nat) (now : Instant) :
    let m := ((Machine.new userId deviceId deviceKeys settings ids).run calls).2
    let unlimited := { m with settings := other, queue.capacity := none }
    let bounded := { m with settings := other, queue.capacity := some capacity }
    let wanted := (unlimited.decided now).map OutgoingRequest.payload
    let decided := bounded.decided now
    let passed := bounded.decisionPass now
    (∀ n, settings.maxQueuedRequests = some n → m.queue.size ≤ n.toNat) ∧
    (unlimited.decisionPass now).queue.toList =
      m.queue.toList ++ (unlimited.decided now).map (fun r => (r, .pending)) ∧
    passed.queue.toList = m.queue.toList ++ decided.map (fun r => (r, .pending)) ∧
    decided.map OutgoingRequest.payload =
      wanted.take (min wanted.length (capacity - m.queue.size)) ∧
    (∀ id details, passed.deviceLists.queriesInFlight.get? id = some details ↔
      m.deviceLists.queriesInFlight.get? id = some details ∨
      ∃ q, ⟨id, .keysQuery q⟩ ∈ decided ∧ details = ⟨m.deviceLists.invalidations, q.users⟩) ∧
    passed = { bounded with
      minted := m.minted + decided.length
      deviceLists.queriesInFlight := passed.deviceLists.queriesInFlight
      queue := passed.queue } ∧
    (InPlace.passInStages now).exec unlimited = (.ok ⟨⟩, unlimited.decisionPass now) ∧
    (InPlace.passInStages now).exec bounded = (.ok ⟨⟩, passed) := by
  intro m unlimited bounded wanted decided passed
  have hm : Reached _ m := (Reached.new userId deviceId deviceKeys settings ids).run calls
  have hsettings : m.settings = settings := settings_run _ calls
  have hunlimited : unlimited.Named := hm.agrees.named
  have hbounded : bounded.Named := hm.agrees.named
  have hnotes : bounded.NotesQueries _ := ⟨hm.notesQueries.queued, hm.notesQueries.noted⟩
  -- What is wanted does not depend on the capacity.
  have hwanted : wanted = bounded.wanted now := payloads_added_of_unlimited rfl _
  refine ⟨fun n hn => ?_, toList_addAll hunlimited _, toList_addAll hbounded _, ?_, fun id details => ?_,
    ?_, InPlace.exec_passInStages hunlimited now, InPlace.exec_passInStages hbounded now⟩
  · apply hm.withinCapacity
    rw [hm.coherent.capacity, hsettings, hn]
    rfl
  · rw [Nat.min_comm, ← List.take_eq_take_min, hwanted]
    exact payloads_added_of_capacity hbounded rfl _
  · exact hnotes.get?_addAll_eq_some_iff hbounded
  · have heq := bounded.addAll_eq (bounded.wanted now)
    rw [← addAll_deviceLists, addAll_queriesInFlight] at heq
    exact heq

/-- A machine whose queue holds one request, and that waits for the end of the upload of its keys, wants
two queries and a claim. With room for one of them, only the first query is queued and noted. -/
theorem bounded_pass_postpones_claim :
    let settings := { Settings.default with maxQueuedRequests := some 1 }
    let other := { Settings.default with keyQueryBatchSize := 1 }
    let calls : List (Instant × Call) := [(0, .outgoingRequests), (0, .trackUsers [Sample.bob]),
      (0, .markSessionsMissing Sample.alice ["PHONE"])]
    let m := ((Machine.new Sample.alice "DEVICE" .null settings (.counting "r")).run calls).2
    let unlimited := { m with settings := other, queue.capacity := none }
    let bounded := { m with settings := other, queue.capacity := some 2 }
    m.queue.size ≤ 1 ∧
      (unlimited.decided 0).map OutgoingRequest.kind = [.keysQuery, .keysQuery, .keysClaim] ∧
      (bounded.decided 0).map OutgoingRequest.payload =
        ((unlimited.decided 0).map OutgoingRequest.payload).take 1 ∧
      (bounded.decisionPass 0).sessions = m.sessions := by
  intro settings other calls m unlimited bounded
  obtain ⟨hsize, -, -, hdecided, -, hrest, -, -⟩ := bounded_pass_postpones Sample.alice "DEVICE" .null
    settings (.counting "r") calls other 2 0
  have hqueued : m.queue.size = 1 := by decide +kernel
  have hlength : ((unlimited.decided 0).map OutgoingRequest.payload).length = 3 := by decide +kernel
  refine ⟨hsize 1 rfl, by decide +kernel, ?_, (congrArg Machine.sessions hrest :)⟩
  rw [show min _ _ = 1 by rw [hlength, hqueued]; rfl] at hdecided
  exact hdecided

end Machine
end Outbox
