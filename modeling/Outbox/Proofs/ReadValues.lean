/-
# Decoders take values for what was written of them

What a decoder takes from the text of a value is the value, given that the levels of nesting are enough. For a
value that is kept as it is this needs that it is plain: a floating point number can be read as one next to it,
and an object whose first member bears the mark of a value that is given by its text is read as that value. For a
map it is enough that it goes for its keys and its values.

A record goes by the names of its members, so that what is written can be varied. A member that says what would
be taken for it if it was missing can be left out, members with other names can be added, and the order does not
matter.

Key definitions: `Json.IsPlain`, `Decoder.ReadsBack`, `Json.Variant`, `Decoder.ReadsMember`.
Key theorems: `Decoder.readsBack_opaqueValue`, `Decoder.readsBack_mapOf`, `Json.Variant.record_eq`,
`Json.Variant.getD_eq`, `Json.Variant.get_eq`.
-/
import Outbox.Proofs.HostView
import Outbox.Proofs.NestedCells
import Outbox.Proofs.ReadTexts
import Outbox.Wire.Response

namespace Outbox

/-! ### Values that are kept -/

namespace Json

mutual

/-- Whether a value that is kept is read as it is written: there is no floating point number in it, and no
object of which the first member bears the mark of a value that is given by its text. -/
def IsPlain : Json → Prop
  | float _ => False
  | arr items => ArePlain items
  | obj members => (∀ m ∈ members.head?, m.1 ≠ Node.textMark) ∧ HavePlainValues members
  | _ => True

/-- Whether all items are plain. -/
def ArePlain : List Json → Prop
  | [] => True
  | a :: as => IsPlain a ∧ ArePlain as

/-- Whether the values of all members are plain. -/
def HavePlainValues : List (String × Json) → Prop
  | [] => True
  | (_, a) :: as => IsPlain a ∧ HavePlainValues as

end

variable {ms ms' : List (String × Json)} {done : List (String × Json)} {k : String} {a : Json}

theorem membersToNode_eq_map (ms : List (String × Json)) :
    membersToNode ms = ms.map fun m => (some m.1, m.2.toNode) := by
  induction ms with
  | nil => rfl
  | cons m ms ih => exact congrArg (_ :: ·) ih

theorem height_le_membersHeight : ∀ {ms : List (String × Json)}, (k, a) ∈ ms →
    a.toNode.height ≤ Node.membersHeight (membersToNode ms)
  | (l, b) :: ms, h => by
    rw [membersToNode, Node.membersHeight]
    rcases List.mem_cons.1 h with h | h
    · cases h
      exact Nat.le_max_left _ _
    · exact (height_le_membersHeight h).trans (Nat.le_max_right _ _)

/-- A member is less nested than its object. -/
theorem height_le_of_mem {depth : Nat} (h : (k, a) ∈ ms) (hheight : (obj ms).toNode.height ≤ depth + 1) :
    a.toNode.height ≤ depth := by
  have hle := height_le_membersHeight h
  have hheight : Node.membersHeight (membersToNode ms) + 1 ≤ depth + 1 := hheight
  omega

mutual

theorem isPlain_toNode : ∀ {a : Json}, a.IsPlain → a.toNode.IsPlain
  | null, _ => trivial
  | bool _, _ => trivial
  | int _, _ => trivial
  | str _, _ => trivial
  | arr _, h => arePlain_itemsToNode h
  | obj [], _ => ⟨rfl, trivial⟩
  | obj ((k, _) :: _), h => by
    refine ⟨?_, havePlainValues_membersToNode h.2⟩
    have hk : k ≠ Node.textMark := h.1 _ rfl
    simpa [membersToNode, Node.isMarked] using hk

theorem arePlain_itemsToNode : ∀ {l : List Json}, ArePlain l → Node.ArePlain (itemsToNode l)
  | [], _ => trivial
  | _ :: _, h => ⟨isPlain_toNode h.1, arePlain_itemsToNode h.2⟩

theorem havePlainValues_membersToNode : ∀ {l : List (String × Json)}, HavePlainValues l →
    Node.HavePlainValues (membersToNode l)
  | [], _ => trivial
  | (_, _) :: _, h => ⟨isPlain_toNode h.1, havePlainValues_membersToNode h.2⟩

end

theorem inIntRange_natCast {n : Nat} (h : n < UInt64.size) : InIntRange n := by
  have hsize : UInt64.size = 18446744073709551616 := rfl
  unfold InIntRange
  omega

/-- An integer is read as an integer, if it is one that is kept as such. -/
theorem toInt?_numeral_intParts {n : Int} (hn : InIntRange n) : (intParts n).numeral.toInt? = some n := by
  have hzero : ¬ ((intParts n).numeral.negative = true ∧ n = 0) := by
    rintro ⟨hnegative, rfl⟩
    cases hnegative
  have hparts : (intParts n).numeral.fraction = none ∧ (intParts n).numeral.exponent = none := by
    cases n <;> exact ⟨rfl, rfl⟩
  rw [Numeral.toInt?, wholeValue_numeral_intParts, if_pos ⟨hparts.1, hparts.2, hzero, hn⟩]

theorem insertEntry_of_last (h : ∀ m ∈ done, compare m.1 k = .lt) :
    SortedMap.insertEntry k a done = done ++ [(k, a)] := by
  induction done with
  | nil => rfl
  | cons m done ih =>
    have hlt : compare m.1 k = .lt := h m List.mem_cons_self
    have hgt : compare k m.1 = .gt := Std.OrientedCmp.gt_of_lt hlt
    rw [SortedMap.insertEntry, hgt, ih fun m' hm' => h m' (List.mem_cons_of_mem _ hm')]
    rfl

mutual

/-- What is written of a plain value in canonical form is read as the value. -/
theorem toJson?_toNode : ∀ {a : Json}, a.IsCanonical → a.IsPlain → a.toNode.toJson? = some a
  | null, _, _ => rfl
  | bool _, _, _ => rfl
  | int n, hc, _ => by
    show Numeral.toJson? _ = _
    rw [Numeral.toJson?, toInt?_numeral_intParts hc]
  | str _, _, _ => rfl
  | arr items, hc, hp => by
    show (Node.itemsToJson? (itemsToNode items)).map arr = _
    rw [itemsToJson?_itemsToNode hc hp]
    rfl
  | obj members, hc, hp => by
    show (Node.membersToJson? [] (membersToNode members)).map obj = _
    rw [membersToJson?_membersToNode [] hc.1 hc.2 hp.2]
    rfl

theorem itemsToJson?_itemsToNode : ∀ {l : List Json}, AreCanonical l → ArePlain l →
    Node.itemsToJson? (itemsToNode l) = some l
  | [], _, _ => rfl
  | _ :: _, hc, hp => by
    rw [itemsToNode, Node.itemsToJson?, toJson?_toNode hc.1 hp.1, itemsToJson?_itemsToNode hc.2 hp.2]
    rfl

-- Since the names increase, each member is the last one of those that are there.
theorem membersToJson?_membersToNode : ∀ {l : List (String × Json)} (done : List (String × Json)),
    NamesIncrease (done ++ l) → HaveCanonicalValues l → HavePlainValues l →
      Node.membersToJson? done (membersToNode l) = some (done ++ l)
  | [], done, _, _, _ => congrArg some (List.append_nil done).symm
  | (k, a) :: l, done, hn, hc, hp => by
    have hlast : ∀ m ∈ done, compare m.1 k = .lt := fun m hm =>
      (List.pairwise_append.1 hn).2.2 m hm (k, a) List.mem_cons_self
    have hrest := membersToJson?_membersToNode (l := l) (done ++ [(k, a)])
      (by rwa [List.append_assoc]) hc.2 hp.2
    rw [List.append_assoc] at hrest
    rw [membersToNode, Node.membersToJson?, toJson?_toNode hc.1 hp.1]
    show Node.membersToJson? (SortedMap.insertEntry k a done) _ = _
    rw [insertEntry_of_last hlast, hrest]
    rfl

end

end Json

theorem Node.toOpaque?_eq_some {n : Node} {v : Opaque} (h : n.toJson? = some v.value) : n.toOpaque? = some v := by
  unfold toOpaque?
  split
  · next j hj =>
    rw [h, Option.some.injEq] at hj
    exact congrArg some (Opaque.eq_of_value_eq hj.symm)
  · next hnone =>
    rw [h] at hnone
    cases hnone

/-! ### Decoders -/

namespace Decoder

variable {α : Type} {d : Decoder α} {a : α} {j : Json}

/-- The decoder takes the value from what is written, if the levels of nesting are enough. -/
def ReadsBack (d : Decoder α) (j : Json) (a : α) : Prop :=
  ∀ depth, j.toNode.height ≤ depth → d depth j.toNode = some a

theorem readsBack_text (s : String) : text.ReadsBack (.str s) s := fun _ _ => rfl

theorem readsBack_ident {form : String → Bool} (i : Ident form) : ident.ReadsBack (.str i.text) i :=
  fun _ _ => Ident.parse?_text i

theorem uint64_num {n : Numeral} {i : UInt64} (h : n.toInt? = some (i.toNat : Int)) (depth : Nat) :
    uint64 depth (.num n) = some i := by
  have hlt : i.toNat < UInt64.size := i.toNat_lt_size
  simp only [uint64, h]
  show (if h : i.toNat < UInt64.size then _ else _) = _
  rw [dif_pos hlt, UInt64.ofNatLT_toNat]

theorem readsBack_uint64 (n : UInt64) : uint64.ReadsBack (.ofNat n.toNat) n := by
  intro depth _
  rw [Json.ofNat, Json.toNode]
  exact uint64_num (Json.toInt?_numeral_intParts (Json.inIntRange_natCast n.toNat_lt_size)) depth

theorem readsBack_nullable_none : (nullable d).ReadsBack .null none := fun _ _ => rfl

theorem readsBack_nullable_some (hj : j ≠ .null) (h : d.ReadsBack j a) : (nullable d).ReadsBack j (some a) := by
  intro depth hheight
  have hread := h depth hheight
  cases j with
  | null => exact absurd rfl hj
  | _ => exact congrArg (Option.map some) hread

theorem readsBack_opaqueValue {v : Opaque} (h : v.value.IsPlain) : opaqueValue.ReadsBack v.value v := by
  intro depth hheight
  rw [opaqueValue, if_pos hheight, Node.expand?_of_isPlain (Json.isPlain_toNode h)]
  exact Node.toOpaque?_eq_some (Json.toJson?_toNode v.canonical h)

theorem mapM_map_eq_some {β γ δ : Type} {f : γ → Option δ} {g : β → γ} {h : β → δ} :
    ∀ {l : List β}, (∀ b ∈ l, f (g b) = some (h b)) → (l.map g).mapM f = some (l.map h)
  | [], _ => rfl
  | b :: l, hl => by
    rw [List.map_cons, List.mapM_cons, hl b List.mem_cons_self,
      mapM_map_eq_some fun c hc => hl c (List.mem_cons_of_mem b hc)]
    rfl

section Maps

variable {κ : Type} [Ord κ] [Std.TransOrd κ] [Std.LawfulEqOrd κ] {key : κ → String} {key? : String → Option κ}
  {value : α → Json} {m : SortedMap κ α}

theorem readsBack_mapOf (hkey : ∀ k, key? (key k) = some k)
    (hvalue : ∀ v ∈ m.values, d.ReadsBack (value v) v) : (mapOf key? d).ReadsBack (.ofMap key value m) m := by
  intro depth hheight
  cases depth with
  | zero => exact absurd hheight (Nat.not_succ_le_zero _)
  | succ depth =>
    have hentry : ∀ e ∈ m.toList, (do
        return (← some (key e.1) >>= key?, ← d depth (value e.2).toNode)) = some e := by
      intro e he
      have hmem : (key e.1, value e.2) ∈ m.toList.map fun e => (key e.1, value e.2) :=
        List.mem_map_of_mem he
      have hle := Json.height_le_of_mem hmem hheight
      have hname : (some (key e.1) >>= key?) = some e.1 := hkey e.1
      rw [hname, hvalue e.2 (List.mem_map_of_mem he) depth hle]
      rfl
    have hmap : (Json.membersToNode (m.toList.map fun e => (key e.1, value e.2))).mapM
        (fun m => do return (← m.1 >>= key?, ← d depth m.2)) = some (m.toList.map id) := by
      rw [Json.membersToNode_eq_map, List.map_map]
      exact mapM_map_eq_some hentry
    show (List.mapM _ (Json.membersToNode (m.toList.map fun e => (key e.1, value e.2))) >>= _) = _
    rw [hmap, List.map_id]
    exact congrArg some m.ofList_toList

end Maps

end Decoder

/-! ### Records -/

/-- The record of the members with given names. -/
def Record.ofMembers (depth : Nat) (names : List String) (ms : List (String × Json)) : Record :=
  ⟨depth, (ms.filter fun m => names.contains m.1).map fun m => (m.1, m.2.toNode)⟩

/-- What an object may say instead of the given members of a record, of which some may be missing. -/
structure Json.Variant (names : List String) (defaults ms ms' : List (String × Json)) : Prop where
  /-- No member of the record is repeated. -/
  once : ((ms'.filter fun m => names.contains m.1).map Prod.fst).Nodup
  /-- The members of the record are given ones. Others may be there, whatever they say. -/
  given : ∀ m ∈ ms', m.1 ∈ names → m ∈ ms
  /-- A member that is left out says what is taken for it then. -/
  kept : ∀ m ∈ ms, m ∈ ms' ∨ m ∈ defaults

namespace Decoder

variable {α : Type} {d : Decoder α} {default a : α} {names : List String} {name : String} {depth : Nat}
  {defaults ms ms' : List (String × Json)}

/-- The members of a record that are read are those with the names of its members. -/
theorem record_toNode {closed : Bool}
    (honce : ((ms.filter fun m => names.contains m.1).map Prod.fst).Nodup)
    (hclosed : closed = true → ∀ m ∈ ms, m.1 ∈ names) :
    record names closed (depth + 1) (Json.obj ms).toNode = some (.ofMembers depth names ms) := by
  have hmembers : (Json.membersToNode ms).mapM (fun m => do return (← m.1, m.2)) =
      some (ms.map fun m => (m.1, m.2.toNode)) := by
    rw [Json.membersToNode_eq_map]
    exact mapM_map_eq_some fun _ _ => rfl
  have hknown : (ms.map fun m => (m.1, m.2.toNode)).filter (fun m => names.contains m.1) =
      (Record.ofMembers depth names ms).members := List.filter_map
  have hall : closed = true → (Record.ofMembers depth names ms).members.length =
      (ms.map fun m => (m.1, m.2.toNode)).length := by
    intro h
    have hfilter : (ms.filter fun m => names.contains m.1) = ms :=
      List.filter_eq_self.2 fun m hm => List.contains_iff_mem.2 (hclosed h m hm)
    rw [Record.ofMembers, hfilter]
  have honce' : ((Record.ofMembers depth names ms).members.map Prod.fst).Nodup := by
    rw [Record.ofMembers, List.map_map]
    exact honce
  show (List.mapM _ (Json.membersToNode ms) >>= _) = _
  rw [hmembers]
  show (if _ ∧ _ then _ else _) = _
  rw [hknown, if_pos ⟨honce', hall⟩]
  rfl

/-- What is written of a member of a record, and what is taken for it when it is missing, are read as a value
and as its default. -/
structure ReadsMember (d : Decoder α) (name : String) (defaults ms : List (String × Json)) (default a : α) :
    Prop where
  /-- The value is read from what is written. -/
  written : ∀ j, (name, j) ∈ ms → d.ReadsBack j a
  /-- Nothing is written of the default only. -/
  absent : (∀ j, (name, j) ∉ ms) → a = default
  /-- A member that may be left out says the default. -/
  missing : ∀ j, (name, j) ∈ defaults → d.ReadsBack j default

end Decoder

namespace Json.Variant

open Decoder

variable {α : Type} {d : Decoder α} {default a : α} {names : List String} {name : String} {depth : Nat}
  {defaults ms ms' : List (String × Json)}

/-- Members that say a default may be left out, and members that are not known may be added, anywhere. -/
theorem of_perm (keep : String × Json → Bool) (extra : List (String × Json)) (hms : (ms.map Prod.fst).Nodup)
    (hkeep : ∀ m ∈ ms, keep m = false → m ∈ defaults) (hextra : ∀ m ∈ extra, m.1 ∉ names)
    (hperm : ms'.Perm (ms.filter keep ++ extra)) : Variant names defaults ms ms' where
  once := by
    have hunknown : (extra.filter fun m => names.contains m.1) = [] :=
      List.filter_eq_nil_iff.2 fun m hm h => hextra m hm (List.contains_iff_mem.1 h)
    have hknown : (ms'.filter fun m => names.contains m.1).Perm
        ((ms.filter keep).filter fun m => names.contains m.1) := by
      have h := hperm.filter fun m => names.contains m.1
      rwa [List.filter_append, hunknown, List.append_nil] at h
    exact ((hknown.map Prod.fst).nodup_iff).2
      (hms.sublist ((List.filter_sublist.trans List.filter_sublist).map Prod.fst))
  given m hm hname := by
    rcases List.mem_append.1 (hperm.mem_iff.1 hm) with h | h
    · exact List.mem_of_mem_filter h
    · exact absurd hname (hextra m h)
  kept m hm := by
    cases hk : keep m with
    | true => exact .inl (hperm.mem_iff.2 (List.mem_append_left _ (List.mem_filter.2 ⟨hm, hk⟩)))
    | false => exact .inr (hkeep m hm hk)

/-- An object may say just the given members. -/
theorem refl (h : (ms.map Prod.fst).Nodup) : Variant names defaults ms ms :=
  of_perm (fun _ => true) [] h nofun nofun (by simp)

theorem record_eq (hv : Variant names defaults ms ms') (depth : Nat) :
    record names false (depth + 1) (obj ms').toNode = some (.ofMembers depth names ms') :=
  record_toNode hv.once nofun

/-- What is found under the name of a member is what is written of it. -/
theorem exists_of_lookup (hv : Variant names defaults ms ms') {n : Node}
    (h : (Record.ofMembers depth names ms').members.lookup name = some n) :
    ∃ j, (name, j) ∈ ms ∧ j.toNode = n := by
  obtain ⟨before, after, hsplit, -⟩ := List.lookup_eq_some_iff.1 h
  have hmem : (name, n) ∈ (Record.ofMembers depth names ms').members := by simp [hsplit]
  obtain ⟨⟨k, j⟩, hm, heq⟩ := List.mem_map.1 hmem
  obtain ⟨hm, hk⟩ := List.mem_filter.1 hm
  cases heq
  exact ⟨j, hv.given _ hm (List.contains_iff_mem.1 hk), rfl⟩

/-- Nothing is found under the name of a member that is missing. -/
theorem notMem_of_lookup (hname : name ∈ names)
    (h : (Record.ofMembers depth names ms').members.lookup name = none) (j : Json) : (name, j) ∉ ms' := by
  intro hm
  have hmem : (name, j.toNode) ∈ (Record.ofMembers depth names ms').members :=
    List.mem_map.2 ⟨(name, j), List.mem_filter.2 ⟨hm, List.contains_iff_mem.2 hname⟩, rfl⟩
  have hne := List.lookup_eq_none_iff.1 h _ hmem
  simp at hne

/-- **A member of a record is read as its value**, also if it is left out. -/
theorem getD_eq (hv : Variant names defaults ms ms') (name : String)
    (hheight : (obj ms).toNode.height ≤ depth + 1) (hname : name ∈ names)
    (h : d.ReadsMember name defaults ms default a) :
    (Record.ofMembers depth names ms').getD name d default = some a := by
  rw [Record.getD]
  cases hlookup : (Record.ofMembers depth names ms').members.lookup name with
  | some n =>
    obtain ⟨j, hm, rfl⟩ := hv.exists_of_lookup hlookup
    exact h.written j hm depth (height_le_of_mem hm hheight)
  | none =>
    have hnot := notMem_of_lookup hname hlookup
    refine congrArg some (Eq.symm ?_)
    by_cases hm : ∃ j, (name, j) ∈ ms
    · obtain ⟨j, hm⟩ := hm
      -- What is left out is read both as the value and as the default.
      have hdefault := (hv.kept _ hm).resolve_left (hnot j)
      have hle := height_le_of_mem hm hheight
      have hread := h.written j hm depth hle
      rw [h.missing j hdefault depth hle, Option.some.injEq] at hread
      exact hread.symm
    · exact h.absent (not_exists.1 hm)

/-- A member that has no default is read as its value. -/
theorem get_eq {j : Json} (hv : Variant names defaults ms ms') (name : String)
    (hheight : (obj ms).toNode.height ≤ depth + 1) (hname : name ∈ names)
    (hms : ∀ i, (name, i) ∈ ms ↔ i = j) (hnever : ∀ i, (name, i) ∉ defaults) (h : d.ReadsBack j a) :
    (Record.ofMembers depth names ms').get name d = some a := by
  have hm : (name, j) ∈ ms := (hms j).2 rfl
  rw [Record.get]
  cases hlookup : (Record.ofMembers depth names ms').members.lookup name with
  | some n =>
    obtain ⟨i, hi, rfl⟩ := hv.exists_of_lookup hlookup
    rw [(hms i).1 hi]
    exact h depth (height_le_of_mem hm hheight)
  | none => exact absurd ((hv.kept _ hm).resolve_right (hnever j)) (notMem_of_lookup hname hlookup j)

end Json.Variant
end Outbox
