/-
# Backup round after round

When the request for the next keys is built and answered again and again, each round takes the next batch of
the keys that are not backed up, and marks it. So the rounds are the batches of these keys, in the order of
rooms and sessions; they end when none is left, and what was backed up before is never sent.

The keys can be kept room by room as well. A batch is then cut across the rooms and put together room by room
again, and an answer is taken note of room by room. The rounds are the same.

Key definitions: `Backup.rounds`, `Backup.requestByRoom?`, `Backup.markByRoom`, `Backup.RoundsByRoom`.
Key theorems: `Backup.toList_remaining_markSent`, `Backup.map_rooms_rounds`, `Backup.roundsByRoom_rounds`,
`Backup.rounds_cover`.
-/
import Mathlib.Algebra.Order.Floor.Div
import Outbox.Proofs.NestedCells
import Outbox.Proofs.Quiescence
import Outbox.Proofs.QueryBatches

namespace Outbox

/-! ### Batches -/

section Batches

variable {α : Type}

theorem batchesFrom_eq_drop (n : Nat) : ∀ (skip : Nat) (l : List α),
    batchesFrom n skip l = batchesFrom n 0 (l.drop skip)
  | 0, _ => rfl
  | _ + 1, [] => by simp [batchesFrom]
  | skip + 1, _ :: l => batchesFrom_eq_drop n skip l

/-- The first batch is taken off, and the others are those of the rest. -/
theorem batches_of_ne_nil (n : Nat) {l : List α} (h : l ≠ []) :
    batches n l = l.take (max n 1) :: batches n (l.drop (max n 1)) := by
  obtain ⟨a, l, rfl⟩ := List.exists_cons_of_ne_nil h
  have hsize : max n 1 = n - 1 + 1 := by omega
  rw [batches, batchesFrom, batchesFrom_eq_drop, hsize]
  rfl

/-- There are as many batches as it takes. -/
theorem length_batches (n : Nat) (l : List α) : (batches n l).length = l.length ⌈/⌉ max n 1 := by
  induction hl : l.length using Nat.strongRecOn generalizing l with
  | ind k ih =>
    have hpos : 0 < max n 1 := by omega
    by_cases hnil : l = []
    · subst hnil
      rw [← hl, List.length_nil, zero_ceilDiv, batches, batchesFrom_of_length_le (Nat.zero_le _), List.length_nil]
    · have hk : 0 < k := hl ▸ List.length_pos_iff.2 hnil
      rw [batches_of_ne_nil n hnil, List.length_cons, ih (k - max n 1) (by omega) _ (by rw [List.length_drop, hl]),
        Nat.ceilDiv_eq_add_pred_div, Nat.ceilDiv_eq_add_pred_div]
      by_cases hle : k ≤ max n 1
      · have hlast : (k + max n 1 - 1) / max n 1 = 1 :=
          Nat.div_eq_of_lt_le (by omega) (by omega)
        rw [hlast, Nat.div_eq_of_lt (by omega)]
      · have hsub : k + max n 1 - 1 = k - max n 1 + max n 1 - 1 + max n 1 := by omega
        rw [hsub, Nat.add_div_right _ hpos]

end Batches

namespace SortedMap

variable {κ α : Type} [Ord κ] [Std.TransOrd κ] [Std.LawfulEqOrd κ]

/-- Without its first entries a map has the others. -/
theorem toList_filter_not_contains_take (m : SortedMap κ α) (n : Nat) :
    (m.filter fun k _ => !(m.take n).contains k).toList = m.toList.drop n := by
  have hfirst : ∀ e ∈ m.toList.take n, e.1 ∈ m.take n := by
    intro e he
    exact mem_iff.2 ⟨e.2, mem_toList.1 he⟩
  have hother : ∀ e ∈ m.toList.drop n, e.1 ∉ m.take n := by
    intro e he hin
    obtain ⟨v, hv⟩ := mem_iff.1 hin
    have hsplit : (m.toList.take n ++ m.toList.drop n).Pairwise fun a b => compare a.1 b.1 = .lt := by
      rw [List.take_append_drop]
      exact m.increasing
    have hlt := (List.pairwise_append.1 hsplit).2.2 (e.1, v) (mem_toList.2 hv) e he
    rw [Std.ReflOrd.compare_self] at hlt
    cases hlt
  have hkeep : ∀ l : List (κ × α), (l.filter fun e => !(m.take n).contains e.1) =
      l.filter fun e => decide (e.1 ∉ m.take n) := by
    intro l
    refine List.filter_congr fun e _ => ?_
    simp [← contains_iff]
  calc m.toList.filter (fun e => !(m.take n).contains e.1)
      = (m.toList.take n ++ m.toList.drop n).filter fun e => decide (e.1 ∉ m.take n) := by
        rw [List.take_append_drop, hkeep]
    _ = [] ++ m.toList.drop n := by
        rw [List.filter_append]
        congr 1
        · exact List.filter_eq_nil_iff.2 fun e he => by simpa using hfirst e he
        · exact List.filter_eq_self.2 fun e he => by simpa using hother e he
    _ = m.toList.drop n := rfl

/-- To change the values at given keys, one after the other, changes each once. -/
theorem get?_foldl_modify {δ : Type} {f : δ → α → α} {l : List (κ × δ)}
    (hl : l.Pairwise fun a b => compare a.1 b.1 = .lt) (m : SortedMap κ α) (k : κ) :
    (l.foldl (fun m e => m.modify e.1 (f e.2)) m).get? k =
      (m.get? k).map fun v => (lookup k l).elim v fun d => f d v := by
  induction l generalizing m with
  | nil => simp [lookup]
  | cons e l ih =>
    obtain ⟨he, ht⟩ := List.pairwise_cons.1 hl
    rw [List.foldl_cons, ih ht]
    by_cases hk : k = e.1
    · subst hk
      rw [get?_modify_self, lookup_eq_none_of_lt he, Option.map_map]
      simp only [lookup, Std.ReflOrd.compare_self, if_true]
      rfl
    · have hne : compare k e.1 ≠ .eq := fun h => hk (Std.LawfulEqCmp.eq_of_compare h)
      rw [get?_modify_of_ne _ _ hk]
      simp [lookup, hne]

end SortedMap

namespace Backup

variable {b : Backup} {r : KeysBackup} {batchSize : Nat} {version : String}

/-! ### One round -/

/-- There is a request exactly if a backup is active and some key is not backed up. -/
theorem request?_eq_none_iff (hne : b.version ≠ some "") :
    b.request? batchSize = none ↔ b.version = none ∨ b.remaining.isEmpty = true := by
  rw [request?]
  cases hv : b.version with
  | none => simp
  | some version =>
    have hversion : version ≠ "" := fun he => hne (he ▸ hv)
    rw [Option.bind_some, KeysBackup.ofTable, dif_neg hversion]
    cases hempty : b.remaining.isEmpty with
    | true =>
      rw [SortedMap.isEmpty_iff.1 hempty]
      simp [SortedMap.take, SortedMap.isEmpty, Except.toOption]
    | false =>
      have htake := SortedMap.isEmpty_take (n := max batchSize 1) hempty (by omega)
      simp [htake, Except.toOption]

/-- The answer to a request leaves the keys that the request does not have. -/
theorem remaining_markSent (h : b.request? batchSize = some r) :
    (b.markSent r).remaining = b.remaining.filter fun key _ => !r.rooms.contains key := by
  obtain ⟨hv, hrooms⟩ := rooms_of_request? h
  refine SortedMap.ext fun key => Option.ext fun data => ?_
  have hsent : ∀ e : BackupEntry, (r.rooms.get? key).any (· == e.data) = true → r.rooms.contains key = true := by
    intro e hany
    obtain ⟨d, hd, -⟩ := (Option.any_eq_true _ _).1 hany
    exact SortedMap.contains_iff.2 (SortedMap.mem_iff.2 ⟨d, hd⟩)
  have hkept : ∀ e : BackupEntry, b.roomKeys.get? key = some e → e.backedUp = false →
      r.rooms.contains key = true → (r.rooms.get? key).any (· == e.data) = true := by
    intro e he hb hin
    obtain ⟨d, hd⟩ := SortedMap.mem_iff.1 (SortedMap.contains_iff.1 hin)
    have hrest : b.remaining.get? key = some d := SortedMap.get?_of_get?_take (hrooms ▸ hd)
    rw [get?_remaining_eq_some_iff, he, Option.some.injEq] at hrest
    rw [hd, hrest]
    exact beq_self_eq_true d
  rw [get?_remaining_eq_some_iff, markSent, if_pos hv, SortedMap.get?_mapValues, SortedMap.get?_filter,
    Option.filter_eq_some_iff, get?_remaining_eq_some_iff]
  cases he : b.roomKeys.get? key with
  | none => simp
  | some e =>
    obtain ⟨d, backedUp⟩ := e
    rw [Option.map_some, Option.some.injEq, Option.some.injEq]
    by_cases hany : (r.rooms.get? key).any (· == d) = true
    · have hcontains := hsent ⟨d, backedUp⟩ hany
      simp [hany, hcontains]
    · rw [if_neg hany, Bool.not_eq_true']
      refine iff_self_and.2 fun heq => ?_
      cases heq
      exact Bool.eq_false_iff.2 fun hin => hany (hkept _ he rfl hin)

/-- **A round takes the next batch**, and leaves the others. -/
theorem toList_remaining_markSent (h : b.request? batchSize = some r) :
    r.rooms.toList = b.remaining.toList.take (max batchSize 1) ∧
      (b.markSent r).remaining.toList = b.remaining.toList.drop (max batchSize 1) := by
  obtain ⟨-, hrooms⟩ := rooms_of_request? h
  refine ⟨by rw [hrooms]; rfl, ?_⟩
  rw [remaining_markSent h, hrooms]
  exact b.remaining.toList_filter_not_contains_take _

theorem size_remaining_markSent_lt (h : b.request? batchSize = some r) :
    (b.markSent r).remaining.size < b.remaining.size := by
  obtain ⟨hrooms, hrest⟩ := toList_remaining_markSent h
  have hpos : 0 < r.rooms.toList.length := List.length_pos_iff.2 fun hnil => by
    have hne := r.nonempty
    rw [SortedMap.isEmpty, hnil] at hne
    cases hne
  rw [hrooms, List.length_take] at hpos
  rw [SortedMap.size, SortedMap.size, hrest, List.length_drop]
  omega

/-! ### All rounds -/

/-- Builds a request and answers it, again and again, until there is none. -/
def rounds (batchSize : Nat) (b : Backup) : List KeysBackup × Backup :=
  match _h : b.request? batchSize with
  | none => ([], b)
  | some r =>
    let rest := rounds batchSize (b.markSent r)
    (r :: rest.1, rest.2)
termination_by b.remaining.size
decreasing_by exact size_remaining_markSent_lt _h

theorem rounds_of_none (h : b.request? batchSize = none) : b.rounds batchSize = ([], b) := by
  rw [rounds]
  split
  · rfl
  · next hr => rw [h] at hr; cases hr

theorem rounds_of_some (h : b.request? batchSize = some r) : b.rounds batchSize =
    (r :: ((b.markSent r).rounds batchSize).1, ((b.markSent r).rounds batchSize).2) := by
  rw [rounds]
  split
  · next hr => rw [h] at hr; cases hr
  · next hr => rw [h] at hr; cases hr; rfl

/-- What holds at the end of all rounds, and is kept by one. -/
theorem rounds_induction {motive : Backup → List KeysBackup → Backup → Prop} (batchSize : Nat)
    (done : ∀ b, b.request? batchSize = none → motive b [] b)
    (round : ∀ b r, b.request? batchSize = some r → ∀ requests b', motive (b.markSent r) requests b' →
      motive b (r :: requests) b') (b : Backup) :
    motive b (b.rounds batchSize).1 (b.rounds batchSize).2 := by
  induction hn : b.remaining.size using Nat.strongRecOn generalizing b with
  | ind n ih =>
    cases hr : b.request? batchSize with
    | none =>
      rw [rounds_of_none hr]
      exact done b hr
    | some r =>
      rw [rounds_of_some hr]
      exact round b r hr _ _ (ih _ (hn ▸ size_remaining_markSent_lt hr) _ rfl)

/-- The requests are of the active version, which stays. -/
theorem version_rounds (batchSize : Nat) (b : Backup) :
    (∀ r ∈ (b.rounds batchSize).1, b.version = some r.version) ∧ (b.rounds batchSize).2.version = b.version := by
  refine rounds_induction batchSize (motive := fun b requests b' =>
    (∀ r ∈ requests, b.version = some r.version) ∧ b'.version = b.version) ?_ ?_ b
  · exact fun b _ => ⟨fun r hr => absurd hr List.not_mem_nil, rfl⟩
  · intro b r hr requests b' ⟨hrequests, hb'⟩
    rw [version_markSent] at hrequests hb'
    exact ⟨List.forall_mem_cons.2 ⟨(rooms_of_request? hr).1, hrequests⟩, hb'⟩

/-- **The rounds are the batches** of the keys that are not backed up. -/
theorem map_rooms_rounds (batchSize : Nat) (b : Backup) (hv : b.version = some version) (hne : version ≠ "") :
    (b.rounds batchSize).1.map (fun r => r.rooms.toList) = batches batchSize b.remaining.toList := by
  refine rounds_induction batchSize (motive := fun b requests _ => b.version = some version →
    requests.map (fun r => r.rooms.toList) = batches batchSize b.remaining.toList) ?_ ?_ b hv
  · intro b hnone hv
    have hversion : b.version ≠ some "" := by simpa [hv] using hne
    have hempty : b.remaining.isEmpty = true := by simpa [hv] using (request?_eq_none_iff hversion).1 hnone
    rw [List.isEmpty_iff.1 hempty]
    exact (batchesFrom_of_length_le (Nat.zero_le _)).symm
  · intro b r hr requests b' ih hv
    obtain ⟨hrooms, hrest⟩ := toList_remaining_markSent hr
    have hnil : b.remaining.toList ≠ [] := by
      intro hnil
      have hnonempty := r.nonempty
      rw [SortedMap.isEmpty, hrooms, hnil, List.take_nil] at hnonempty
      cases hnonempty
    rw [List.map_cons, ih ((version_markSent b r).trans hv), hrooms, hrest, ← batches_of_ne_nil _ hnil]

/-- All keys are backed up at the end, with the data that they had. -/
theorem roomKeys_rounds (batchSize : Nat) (b : Backup) (hv : b.version = some version) (hne : version ≠ "") :
    (b.rounds batchSize).2.request? batchSize = none ∧
      (b.rounds batchSize).2 =
        { b with roomKeys := b.roomKeys.mapValues fun _ e => { e with backedUp := true } } := by
  have hend : (b.rounds batchSize).2.request? batchSize = none ∧ ∀ key,
      ((b.rounds batchSize).2.roomKeys.get? key).map BackupEntry.data =
        (b.roomKeys.get? key).map BackupEntry.data := by
    refine rounds_induction batchSize (motive := fun b _ b' => b'.request? batchSize = none ∧
      ∀ key, (b'.roomKeys.get? key).map BackupEntry.data = (b.roomKeys.get? key).map BackupEntry.data) ?_ ?_ b
    · exact fun b hnone => ⟨hnone, fun _ => rfl⟩
    · intro b r _ _ _ ⟨hnone, hdata⟩
      exact ⟨hnone, fun key => (hdata key).trans (data_markSent b r)⟩
  obtain ⟨hnone, hdata⟩ := hend
  have hversion : (b.rounds batchSize).2.version = b.version := (version_rounds batchSize b).2
  have hempty : (b.rounds batchSize).2.remaining.isEmpty = true := by
    have hne' : (b.rounds batchSize).2.version ≠ some "" := by
      rw [hversion, hv]
      simpa using hne
    simpa [hversion, hv] using (request?_eq_none_iff hne').1 hnone
  refine ⟨hnone, ?_⟩
  have hkeys : (b.rounds batchSize).2.roomKeys =
      b.roomKeys.mapValues fun _ e => { e with backedUp := true } := by
    refine SortedMap.ext fun key => ?_
    rw [SortedMap.get?_mapValues]
    have hd := hdata key
    cases he : (b.rounds batchSize).2.roomKeys.get? key with
    | none =>
      rw [he, Option.map_none, eq_comm, Option.map_eq_none_iff] at hd
      rw [hd]
      rfl
    | some e =>
      obtain ⟨d, backedUp⟩ := e
      rw [he, Option.map_some, eq_comm, Option.map_eq_some_iff] at hd
      obtain ⟨e, he', rfl⟩ := hd
      have hup : backedUp ≠ false := by
        rintro rfl
        have hrest := get?_remaining_eq_some_iff.2 he
        rw [SortedMap.isEmpty_iff_get?.1 hempty key] at hrest
        cases hrest
      rw [he', Option.map_some, Bool.eq_true_of_not_eq_false hup]
  cases hb : (b.rounds batchSize).2 with
  | mk version' roomKeys' =>
    rw [hb] at hversion hkeys
    exact congrArg₂ Backup.mk hversion hkeys

/-! ### Room by room -/

/-- A key that was sent with the data that it has is backed up. -/
def markEntry (sent : Opaque) (e : BackupEntry) : BackupEntry :=
  if sent == e.data then { e with backedUp := true } else e

/-- What becomes of the entry of a session when the keys of its room were sent. -/
def markCell (sent : SortedMap SessionId Opaque) (session : SessionId) (entry : Option BackupEntry) :
    Option BackupEntry :=
  entry.map fun e => (sent.get? session).elim e fun data => markEntry data e

/-- The request for the first keys that are not backed up, cut across the rooms and put together again. -/
def requestByRoom? (version : String) (rooms : Rows RoomId SessionId BackupEntry) (batchSize : Nat) :
    Option KeysBackup :=
  let first := (rooms.entries.filter fun e => !e.2.backedUp).take (max batchSize 1)
  (KeysBackup.ofRows version (first.foldl (fun sent e => Rows.put sent e.1 e.2.data) ∅)).toOption

/-- Takes note that a request was answered, one room after the other and one key after the other. -/
def markByRoom (version : String) (rooms : Rows RoomId SessionId BackupEntry) (request : KeysBackup) :
    Rows RoomId SessionId BackupEntry :=
  if version = request.version then
    request.rooms.rows.toList.foldl (fun rooms room =>
      rooms.modify room.1 fun sessions =>
        room.2.toList.foldl (fun sessions key => sessions.modify key.1 (markEntry key.2)) sessions) rooms
  else rooms

/-- Requests are built and answered room by room, until there is none. -/
inductive RoundsByRoom (version : String) (batchSize : Nat) :
    Rows RoomId SessionId BackupEntry → List KeysBackup → Rows RoomId SessionId BackupEntry → Prop where
  /-- There is no request. -/
  | done {rooms : Rows RoomId SessionId BackupEntry} (none : requestByRoom? version rooms batchSize = none) :
      RoundsByRoom version batchSize rooms [] rooms
  /-- A request is answered, and more follow. -/
  | round {rooms rooms' : Rows RoomId SessionId BackupEntry} {r : KeysBackup} {requests : List KeysBackup}
      (built : requestByRoom? version rooms batchSize = some r)
      (others : RoundsByRoom version batchSize (markByRoom version rooms r) requests rooms') :
      RoundsByRoom version batchSize rooms (r :: requests) rooms'

theorem requestByRoom?_eq (version : String) (rooms : Rows RoomId SessionId BackupEntry) (batchSize : Nat) :
    requestByRoom? version rooms batchSize = request? ⟨some version, .ofRows rooms⟩ batchSize := by
  let b : Backup := ⟨some version, .ofRows rooms⟩
  let batch : Table RoomId SessionId Opaque := b.remaining.take (max batchSize 1)
  have hfirst : ((rooms.entries.filter fun e => !e.2.backedUp).take (max batchSize 1)).map
      (fun e => (e.1, e.2.data)) = batch.toList := by
    rw [← Table.toList_ofRows, List.map_take]
    rfl
  have hput : ((rooms.entries.filter fun e => !e.2.backedUp).take (max batchSize 1)).foldl
      (fun sent e => Rows.put sent e.1 e.2.data) ∅ = batch.rows := by
    have hfold := Table.foldl_put batch.toList ∅
    rw [← hfirst, List.foldl_map, hfirst] at hfold
    exact hfold.trans (congrArg Table.rows batch.ofList_toList)
  have hrows : KeysBackup.ofRows version batch.rows = KeysBackup.ofTable version batch := by
    unfold KeysBackup.ofRows
    split
    · next hv => rw [KeysBackup.ofTable, dif_pos hv]
    · rw [Table.ofRows?_rows]
  rw [requestByRoom?, hput, hrows]
  rfl

/-- To mark keys room by room marks them. -/
theorem ofRows_markByRoom (version : String) (rooms : Rows RoomId SessionId BackupEntry) (request : KeysBackup) :
    (⟨some version, .ofRows (markByRoom version rooms request)⟩ : Backup) =
      markSent ⟨some version, .ofRows rooms⟩ request := by
  unfold markByRoom markSent
  by_cases hv : version = request.version
  · rw [if_pos hv, if_pos (congrArg some hv)]
    refine congrArg (Backup.mk (some version)) (SortedMap.ext fun key => ?_)
    have hcell := Rows.cell?_foldl (g := markCell)
      (fun rooms r m x => Rows.cell?_modify (g := markCell m)
        (fun sessions x => SortedMap.get?_foldl_modify m.increasing sessions x) (fun _ => rfl) rooms r x)
      (fun rooms r m c hc => Rows.cell?_modify_of_ne rooms r _ c hc) request.rooms.rows.increasing rooms key
    have hsent : request.rooms.get? key = (request.rooms.rows.get? key.row).bind (·.get? key.column) :=
      (Table.cell?_rows request.rooms key).symm
    rw [Table.get?_ofRows, SortedMap.get?_mapValues, Table.get?_ofRows, hsent]
    refine hcell.trans ?_
    show (request.rooms.rows.get? key.row).elim _ _ = _
    cases request.rooms.rows.get? key.row with
    | none => cases rooms.cell? key <;> rfl
    | some m =>
      cases rooms.cell? key with
      | none => rfl
      | some e =>
        rw [Option.bind_some]
        show markCell m key.column (some e) = _
        rw [markCell]
        cases m.get? key.column <;> rfl
  · rw [if_neg hv, if_neg (fun he => hv (Option.some.inj he))]

/-- The rounds are the same if the keys are kept room by room. -/
theorem roundsByRoom_rounds (batchSize : Nat) (b : Backup) (hv : b.version = some version)
    (rooms : Rows RoomId SessionId BackupEntry) (hrooms : .ofRows rooms = b.roomKeys) :
    ∃ rooms', RoundsByRoom version batchSize rooms (b.rounds batchSize).1 rooms' ∧
      .ofRows rooms' = (b.rounds batchSize).2.roomKeys := by
  have hb : b = ⟨some version, .ofRows rooms⟩ := by
    rw [← hv, hrooms]
  revert rooms
  refine rounds_induction batchSize (motive := fun b requests b' =>
    ∀ rooms : Rows RoomId SessionId BackupEntry, .ofRows rooms = b.roomKeys → b = ⟨some version, .ofRows rooms⟩ →
      ∃ rooms', RoundsByRoom version batchSize rooms requests rooms' ∧ .ofRows rooms' = b'.roomKeys) ?_ ?_ b
  · rintro b hnone rooms hrooms rfl
    exact ⟨rooms, .done ((requestByRoom?_eq version rooms batchSize).trans hnone), rfl⟩
  · rintro b r hr requests b' ih rooms hrooms rfl
    have hmark := ofRows_markByRoom version rooms r
    obtain ⟨rooms', hrounds, heq⟩ := ih (markByRoom version rooms r) (congrArg roomKeys hmark) hmark.symm
    exact ⟨rooms', .round ((requestByRoom?_eq version rooms batchSize).trans hr) hrounds, heq⟩

/-- **Rounds of backups cover every key once**, whatever keys there are and however many fit in a request. To build
a request and answer it, again and again, ends after as many requests as it takes for the keys that are not backed
up; all but the last are full, and a request has at least one key. One after the other the requests, all of the
active version, have exactly these keys with their data, in the order of rooms and sessions, so that a key that was
backed up is not sent. At the end all keys are backed up, with the data that they had. To cut, put together and mark
the keys room by room makes no difference. -/
theorem rounds_cover (b : Backup) (version : String) (batchSize : Nat) (hv : b.version = some version)
    (hne : version ≠ "") :
    let size := max batchSize 1
    let requests := (b.rounds batchSize).1
    let b' := (b.rounds batchSize).2
    let keys := b.roomKeys.toList.filterMap fun e => if e.2.backedUp then none else some (e.1, e.2.data)
    b'.request? batchSize = none ∧
    requests.length = keys.length ⌈/⌉ size ∧
    (∀ r ∈ requests, r.version = version) ∧
    (requests.flatMap fun r => r.rooms.toList) = keys ∧ (keys.Pairwise fun e e' => compare e.1 e'.1 = .lt) ∧
    (∀ r ∈ requests.dropLast, r.keyCount = size) ∧ (∀ r ∈ requests, 1 ≤ r.keyCount ∧ r.keyCount ≤ size) ∧
    b' = { b with roomKeys := b.roomKeys.mapValues fun _ e => { e with backedUp := true } } ∧
    (∀ key, b.isBackedUp key = true → ∀ r ∈ requests, key ∉ r.rooms) ∧
    ∀ rooms, Table.ofRows rooms = b.roomKeys → ∃ rooms', RoundsByRoom version batchSize rooms requests rooms' ∧
      Table.ofRows rooms' = b'.roomKeys := by
  intro size requests b' keys
  have hkeys : b.remaining.toList = keys := by
    show (b.roomKeys.toList.filter fun e => !e.2.backedUp).map (fun e => (e.1, e.2.data)) = keys
    rw [← List.filterMap_eq_map, List.filterMap_filter]
    refine List.filterMap_congr fun e _ => ?_
    cases e.2.backedUp <;> rfl
  have hbatches : requests.map (fun r => r.rooms.toList) = batches batchSize keys := by
    rw [← hkeys]
    exact map_rooms_rounds batchSize b hv hne
  have hflat : (requests.flatMap fun r => r.rooms.toList) = keys := by
    rw [List.flatMap_def, hbatches, flatten_batches]
  have hmem : ∀ r ∈ requests, r.rooms.toList ∈ batches batchSize keys := by
    intro r hr
    rw [← hbatches]
    exact List.mem_map_of_mem hr
  obtain ⟨hnone, hb'⟩ := roomKeys_rounds batchSize b hv hne
  refine ⟨hnone, ?_, ?_, hflat, ?_, ?_, ?_, hb', ?_, roundsByRoom_rounds batchSize b hv⟩
  · rw [← List.length_map fun r : KeysBackup => r.rooms.toList, hbatches, length_batches]
  · intro r hr
    exact Option.some.inj (((version_rounds batchSize b).1 r hr).symm.trans hv)
  · rw [← hkeys]
    exact b.remaining.increasing
  · intro r hr
    have hfull : r.rooms.toList ∈ (batches batchSize keys).dropLast := by
      rw [← hbatches, ← List.map_dropLast]
      exact List.mem_map_of_mem hr
    have hlen := length_of_mem_dropLast_batchesFrom hfull
    show r.rooms.toList.length = size
    omega
  · intro r hr
    have hpos := List.length_pos_iff.2 (ne_nil_of_mem_batchesFrom (hmem r hr))
    have hle := length_le_of_mem_batchesFrom (hmem r hr)
    show 1 ≤ r.rooms.toList.length ∧ r.rooms.toList.length ≤ size
    omega
  · intro key hup r hr hin
    obtain ⟨data, hdata⟩ := SortedMap.mem_iff.1 hin
    have hrest : (key, data) ∈ b.remaining.toList := by
      rw [hkeys, ← hflat]
      exact List.mem_flatMap.2 ⟨r, hr, SortedMap.mem_toList.2 hdata⟩
    rw [SortedMap.mem_toList, get?_remaining_eq_some_iff] at hrest
    rw [isBackedUp, hrest] at hup
    cases hup

/-- Four keys of two rooms, of which the first is backed up. -/
def Sample.keptKeys : Rows RoomId SessionId BackupEntry :=
  let other : RoomId := ⟨"!other:example.org", by decide +kernel⟩
  let sessions (backedUp : Bool) : SortedMap SessionId BackupEntry :=
    .ofList [("a", ⟨.null, backedUp⟩), ("b", ⟨.null, false⟩)]
  .ofList [(other, sessions true), (Sample.roomKey.row, sessions false)]

/-- Two requests for at most two keys cover the other three. The first of them has keys of both rooms, one of
which goes on in the second. -/
theorem rounds_cover_two_rooms :
    let b : Backup := ⟨some "1", .ofRows Sample.keptKeys⟩
    let keys := b.roomKeys.toList.filterMap fun e => if e.2.backedUp then none else some (e.1, e.2.data)
    ∃ first last, (b.rounds 2).1 = [first, last] ∧ first.keyCount = 2 ∧ last.keyCount = 1 ∧
      first.rooms.toList ++ last.rooms.toList = keys ∧ (b.rounds 2).2.request? 2 = none ∧
      ∃ rooms', RoundsByRoom "1" 2 Sample.keptKeys [first, last] rooms' := by
  intro b keys
  obtain ⟨hnone, hlength, -, hflat, -, hfull, -, -, -, hrows⟩ := rounds_cover b "1" 2 rfl (by decide)
  have hkeys : keys.length = 3 := by decide +kernel
  have htwo : (b.rounds 2).1.length = 2 := by
    rw [hlength, hkeys, Nat.ceilDiv_eq_add_pred_div]
    decide
  obtain ⟨first, last, hrequests⟩ := List.length_eq_two.1 htwo
  rw [hrequests] at hflat hfull hrows
  have hsplit : first.rooms.toList ++ last.rooms.toList = keys := by simpa using hflat
  have hfirst : first.keyCount = 2 := hfull first (by simp)
  have hlast : first.keyCount + last.keyCount = 3 := by
    rw [← hkeys, ← hsplit, List.length_append]
    rfl
  obtain ⟨rooms', hrounds, -⟩ := hrows Sample.keptKeys rfl
  exact ⟨first, last, hrequests, hfirst, by omega, hsplit, hnone, rooms', hrounds⟩

end Backup
end Outbox
