/-
# How long a failure is waited out

What is on record of an item is told by its failures since it was last taken off the record: the wait is 15
seconds after the first of them and twice as long after each further one, up to 15 minutes, and starts anew
with each. The number of repetitions is counted in 8 bits and the wait is computed in 64, but both stop at the
largest number instead of starting over, and the wait has reached its bound long before either does.

Key definitions: `Backoff.Event`, `Backoff.failures`, `Backoff.lastFailure?`, `Backoff.delayWord`.
Key theorems: `Backoff.delaySeconds_min`, `Backoff.toNat_delayWord`, `Backoff.get?_extend`,
`Backoff.get?_foldl_after`, `Backoff.waits_follow_failures`.
-/
import Mathlib.Data.List.DropRight
import Mathlib.Data.List.Induction
import Mathlib.Logic.Function.Iterate
import Mathlib.Tactic.IntervalCases
import Outbox.Backoff.Lemmas

namespace Outbox
namespace Backoff

/-! ### Waits -/

/-- The wait doubles with each repetition, up to its bound; to stop counting does not change it. -/
theorem delaySeconds_min (n : Nat) :
    delaySeconds (min n maxRepetitions) = min (firstDelaySeconds * 2 ^ n) maxDelaySeconds := by
  by_cases hn : n ≤ 5
  · interval_cases n <;> rfl
  · -- from the sixth repetition on both sides have reached the bound
    have hsize : UInt64.size = 18446744073709551616 := rfl
    have hle : 2 ^ 6 ≤ 2 ^ n := Nat.pow_le_pow_right (by decide) (by omega)
    have hcount : 2 ^ 6 ≤ 2 ^ min n maxRepetitions :=
      Nat.pow_le_pow_right (by decide) (by simp only [maxRepetitions]; omega)
    simp only [delaySeconds, saturate, Nat.one_shiftLeft, firstDelaySeconds, maxDelaySeconds, hsize]
    omega

/-- The wait never gets shorter as failures repeat. -/
theorem delaySeconds_min_mono {n n' : Nat} (h : n ≤ n') :
    delaySeconds (min n maxRepetitions) ≤ delaySeconds (min n' maxRepetitions) := by
  have hpow : 2 ^ n ≤ 2 ^ n' := Nat.pow_le_pow_right (by decide) h
  rw [delaySeconds_min, delaySeconds_min]
  simp only [firstDelaySeconds]
  omega

/-! ### Waits in words -/

/-- The next number of 8 bits, or the largest one again. -/
def nextWord (c : UInt8) : UInt8 := if c.toNat + 1 < UInt8.size then c + 1 else c

/-- The product of numbers of 64 bits, or the largest one. -/
def mulWord (a b : UInt64) : UInt64 :=
  if a.toNat * b.toNat < UInt64.size then a * b else .ofNat (UInt64.size - 1)

/-- A power of a number of 64 bits, or the largest one. -/
def powWord (a : UInt64) : Nat → UInt64
  | 0 => 1
  | n + 1 => mulWord (powWord a n) a

/-- The wait, in seconds, after a failure that was repeated the given number of times. -/
def delayWord (repetitions : UInt8) : UInt64 :=
  let delay := mulWord (powWord 2 repetitions.toNat) 15
  if delay < 1 then 1 else if 900 < delay then 900 else delay

theorem toNat_nextWord (c : UInt8) : (nextWord c).toNat = min (c.toNat + 1) maxRepetitions := by
  have hc : c.toNat < 256 := c.toNat_lt
  have hsize : UInt8.size = 256 := rfl
  unfold nextWord
  split
  · next h =>
    rw [UInt8.toNat_add]
    simp only [maxRepetitions, UInt8.reduceToNat]
    omega
  · simp only [maxRepetitions]
    omega

theorem toNat_nextWord_iterate (n : Nat) : (nextWord^[n] 0).toNat = min n maxRepetitions := by
  induction n with
  | zero => rfl
  | succ n ih =>
    rw [Function.iterate_succ_apply', toNat_nextWord, ih]
    simp only [maxRepetitions]
    omega

/-- A product never wraps around. -/
theorem toNat_mulWord (a b : UInt64) : (mulWord a b).toNat = saturate (a.toNat * b.toNat) := by
  unfold mulWord saturate
  split
  · next h =>
    rw [UInt64.toNat_mul, Nat.mod_eq_of_lt h]
    omega
  · next h =>
    rw [UInt64.toNat_ofNat_of_lt' (by decide)]
    omega

theorem toNat_powWord (n : Nat) : (powWord 2 n).toNat = saturate (2 ^ n) := by
  have hsize : UInt64.size = 18446744073709551616 := rfl
  induction n with
  | zero => rfl
  | succ n ih =>
    rw [powWord, toNat_mulWord, ih, Nat.pow_succ]
    simp only [saturate, hsize, UInt64.reduceToNat]
    omega

/-- **In words the wait is the same number**, so that nothing wraps around on the way to it. -/
theorem toNat_delayWord (c : UInt8) : (delayWord c).toNat = delaySeconds c.toNat := by
  have hproduct : (mulWord (powWord 2 c.toNat) 15).toNat = saturate (saturate (2 ^ c.toNat) * 15) := by
    rw [toNat_mulWord, toNat_powWord]
    rfl
  simp only [delayWord, UInt64.lt_iff_toNat_lt, hproduct, UInt64.reduceToNat, delaySeconds, Nat.one_shiftLeft,
    firstDelaySeconds, maxDelaySeconds]
  split
  · simp only [UInt64.reduceToNat]
    omega
  · split
    · simp only [UInt64.reduceToNat]
      omega
    · rw [hproduct]
      omega

/-! ### What happens to a record -/

/-- Something that a record of failures is told. -/
inductive Event (κ : Type) where
  /-- Items failed. -/
  | extend (now : Instant) (items : List κ)
  /-- Items succeeded. -/
  | remove (items : List κ)

section Events

variable {κ : Type} [DecidableEq κ]

namespace Event

/-- Whether the item is taken off the record. -/
def removes (k : κ) : Event κ → Bool
  | extend _ _ => false
  | remove items => decide (k ∈ items)

/-- How often the item fails. -/
def failures (k : κ) : Event κ → Nat
  | extend _ items => items.count k
  | remove _ => 0

/-- When the item fails, if it does. -/
def failedAt? (k : κ) : Event κ → Option Instant
  | extend now items => if k ∈ items then some now else none
  | remove _ => none

end Event

/-- What happened since the item was last taken off the record. -/
def sinceRemoved (k : κ) (events : List (Event κ)) : List (Event κ) :=
  events.rtakeWhile fun e => !e.removes k

/-- How often the item failed since it was last taken off the record. -/
def failures (k : κ) (events : List (Event κ)) : Nat := ((sinceRemoved k events).map (Event.failures k)).sum

/-- When the item last failed, if it did since it was last taken off the record. -/
def lastFailure? (k : κ) (events : List (Event κ)) : Option Instant :=
  ((sinceRemoved k events).filterMap (Event.failedAt? k)).getLast?

variable {k : κ} {events : List (Event κ)} {e : Event κ}

theorem failures_snoc : failures k (events ++ [e]) =
    if e.removes k then 0 else failures k events + e.failures k := by
  unfold failures sinceRemoved
  rw [List.rtakeWhile_concat]
  cases e.removes k <;> simp

theorem lastFailure?_snoc : lastFailure? k (events ++ [e]) =
    if e.removes k then none else (e.failedAt? k).or (lastFailure? k events) := by
  unfold lastFailure? sinceRemoved
  rw [List.rtakeWhile_concat]
  cases e.removes k with
  | true => rfl
  | false => cases he : e.failedAt? k <;> simp [he]

/-- An item has failed exactly if there is a time at which it failed last. -/
theorem lastFailure?_eq_none_iff : lastFailure? k events = none ↔ failures k events = 0 := by
  have hevent : ∀ e : Event κ, e.failedAt? k = none ↔ e.failures k = 0 := by
    intro e
    cases e with
    | extend now items => simp [Event.failedAt?, Event.failures, List.count_eq_zero]
    | remove items => simp [Event.failedAt?, Event.failures]
  simp [lastFailure?, failures, hevent, List.sum_eq_zero_iff_forall_eq_nat]

/-- Until an item is taken off the record its failures become no fewer. -/
theorem failures_le_append {later : List (Event κ)} (h : ∀ e ∈ later, e.removes k = false) :
    failures k events ≤ failures k (events ++ later) := by
  induction later using List.reverseRecOn with
  | nil => simp
  | append_singleton later e ih =>
    obtain ⟨hlater, he⟩ := List.forall_mem_append.1 h
    rw [← List.append_assoc, failures_snoc, he e List.mem_cons_self]
    exact Nat.le_add_right_of_le (ih hlater)

end Events

variable {κ : Type} [Ord κ] [Std.TransOrd κ] [Std.LawfulEqOrd κ] {b : Backoff κ} {k : κ} {now : Instant}

/-! ### One event -/

/-- The record after it was told something. -/
def after (b : Backoff κ) : Event κ → Backoff κ
  | .extend now items => b.extend now items
  | .remove items => b.remove items

/-- What is on record after a number of failures, the last one at the given time. -/
def Item.ofFailures? (n : Nat) (last : Option Instant) : Option Item :=
  last.map fun since => ⟨since, min (n - 1) maxRepetitions⟩

theorem get?_record_self {n : Nat} {last : Option Instant} (hn : last = none ↔ n = 0)
    (h : b.items.get? k = Item.ofFailures? n last) :
    (b.record now k).items.get? k = Item.ofFailures? (n + 1) (some now) := by
  rw [record, SortedMap.get?_insert_self, h]
  cases last with
  | none =>
    rw [hn.1 rfl]
    rfl
  | some since =>
    have hpos : n ≠ 0 := fun hzero => nomatch hn.2 hzero
    have hnext : min (min (n - 1) maxRepetitions + 1) maxRepetitions = min (n + 1 - 1) maxRepetitions := by
      simp only [maxRepetitions]
      omega
    simp only [Item.ofFailures?, Option.map_some, hnext]

variable [DecidableEq κ] {events : List (Event κ)}

/-- Failures add up, and the last one counts for the time. -/
theorem get?_extend {n : Nat} {last : Option Instant} (hn : last = none ↔ n = 0)
    (h : b.items.get? k = Item.ofFailures? n last) (l : List κ) :
    (b.extend now l).items.get? k =
      Item.ofFailures? (n + l.count k) (if k ∈ l then some now else last) := by
  unfold extend
  induction l generalizing b n last with
  | nil => simpa using h
  | cons x l ih =>
    rw [List.foldl_cons]
    by_cases hx : k = x
    · subst hx
      rw [ih (by simp) (get?_record_self hn h), List.count_cons_self, if_pos List.mem_cons_self, ite_self]
      congr 1
      omega
    · have hsame : (b.record now x).items.get? k = Item.ofFailures? n last :=
        (SortedMap.get?_insert_of_ne _ _ hx).trans h
      rw [ih hn hsame, List.count_cons_of_ne (Ne.symm hx)]
      simp [hx]

/-! ### All events -/

/-- What is on record of an item is told by its failures since it was last taken off the record. -/
theorem get?_foldl_after (events : List (Event κ)) (k : κ) :
    (events.foldl after ∅ : Backoff κ).items.get? k =
      Item.ofFailures? (failures k events) (lastFailure? k events) := by
  induction events using List.reverseRecOn with
  | nil => rfl
  | append_singleton events e ih =>
    rw [List.foldl_append, List.foldl_cons, List.foldl_nil, failures_snoc, lastFailure?_snoc]
    cases e with
    | extend now items =>
      refine (get?_extend lastFailure?_eq_none_iff ih items).trans ?_
      by_cases hk : k ∈ items <;> simp [Event.removes, Event.failures, Event.failedAt?, hk]
    | remove items =>
      by_cases hk : k ∈ items
      · refine (get?_remove_of_mem hk).trans ?_
        simp [Event.removes, hk, Item.ofFailures?]
      · refine (get?_remove_of_notMem hk).trans ?_
        simp [Event.removes, Event.failures, Event.failedAt?, hk, ih]

/-- **The wait follows the failures** since the item was last taken off the record, in however many calls and
however often in one. There is an entry exactly if there were any. It has the number of repetitions, counted up
to 255, and the time of the last failure; the wait is 15 seconds, doubled by each repetition, up to 900, which
is also what comes of counting and computing in words. The item is left alone until the wait is over, and the
wait becomes no shorter until the item is taken off the record. -/
theorem waits_follow_failures (events : List (Event κ)) (k : κ) :
    let b : Backoff κ := events.foldl after ∅
    let n := failures k events
    (k ∈ b.items ↔ 0 < n) ∧
    (∀ i, b.items.get? k = some i →
      i.repetitions = min (n - 1) 255 ∧ i.delay = min (15 * 2 ^ (n - 1)) 900 ∧
      i.repetitions = (nextWord^[n - 1] 0).toNat ∧ i.delay = (delayWord (nextWord^[n - 1] 0)).toNat ∧
      lastFailure? k events = some i.since ∧
      (∀ now, b.contains now k = true ↔ now < i.since + i.delay * nanosPerSecond) ∧
      ∀ later, (∀ e ∈ later, e.removes k = false) →
        ∃ i', ((events ++ later).foldl after ∅ : Backoff κ).items.get? k = some i' ∧ i.delay ≤ i'.delay) ∧
    (n = 0 → ∀ now, b.contains now k = false) := by
  intro b n
  have hget : b.items.get? k = Item.ofFailures? n (lastFailure? k events) := get?_foldl_after events k
  refine ⟨?_, ?_, ?_⟩
  · rw [SortedMap.mem_iff, hget, Nat.pos_iff_ne_zero, ne_eq, ← lastFailure?_eq_none_iff]
    cases lastFailure? k events <;> simp [Item.ofFailures?]
  · intro i hi
    obtain ⟨since, hlast, rfl⟩ := Option.map_eq_some_iff.1 (hget.symm.trans hi)
    have hcount := toNat_nextWord_iterate (n - 1)
    refine ⟨rfl, delaySeconds_min (n - 1), hcount.symm, ?_, hlast, ?_, ?_⟩
    · rw [toNat_delayWord, hcount]
      rfl
    · intro now
      rw [contains, hi, Option.any_some, Item.isActive_iff]
    · intro later hkept
      have hle : n ≤ failures k (events ++ later) := failures_le_append hkept
      have hsome : lastFailure? k (events ++ later) ≠ none := by
        have hne : ¬ n = 0 := fun hzero => by simp [lastFailure?_eq_none_iff.2 hzero] at hlast
        rw [ne_eq, lastFailure?_eq_none_iff]
        omega
      obtain ⟨since', hlast'⟩ := Option.ne_none_iff_exists'.1 hsome
      refine ⟨⟨since', min (failures k (events ++ later) - 1) maxRepetitions⟩, ?_, ?_⟩
      · rw [get?_foldl_after, hlast']
        rfl
      · exact delaySeconds_min_mono (Nat.sub_le_sub_right hle 1)
  · intro hzero now
    rw [contains, hget, lastFailure?_eq_none_iff.2 hzero]
    rfl

/-- Two failures in one call, a success of another item and a third failure a minute later: the item is left
alone for a minute from then on, and no shorter after further failures. -/
theorem waits_follow_failures_thrice :
    let events : List (Event String) :=
      [.extend 0 ["a"], .remove ["a", "b"], .extend 5 ["a", "b", "a"], .remove ["b"], .extend 65 ["a"]]
    let b : Backoff String := events.foldl after ∅
    "a" ∈ b.items ∧ b.contains (65 + 60 * nanosPerSecond - 1) "a" = true ∧
      b.contains (65 + 60 * nanosPerSecond) "a" = false ∧
      ∃ i i', b.items.get? "a" = some i ∧
        ((events ++ [Event.extend 70 ["a"]]).foldl after ∅ : Backoff String).items.get? "a" = some i' ∧
        i.delay ≤ i'.delay := by
  intro events b
  have hn : failures "a" events = 3 := by decide +kernel
  obtain ⟨hmem, hitem, -⟩ := waits_follow_failures events "a"
  have hin : "a" ∈ b.items := hmem.2 (by rw [hn]; decide)
  obtain ⟨i, hi⟩ := SortedMap.mem_iff.1 hin
  obtain ⟨-, hdelay, -, -, hlast, hactive, hlater⟩ := hitem i hi
  rw [hn] at hdelay
  have hsince : i.since = 65 := by
    have hat : lastFailure? "a" events = some 65 := by decide +kernel
    exact Option.some.inj (hlast.symm.trans hat)
  obtain ⟨i', hi', hle⟩ := hlater [Event.extend 70 ["a"]] (by simp [Event.removes])
  refine ⟨hin, (hactive _).2 ?_, Bool.eq_false_iff.2 fun h => ?_, i, i', hi, hi', hle⟩
  · rw [hsince, hdelay]
    decide
  · have hlt := (hactive _).1 h
    rw [hsince, hdelay] at hlt
    revert hlt
    decide

end Backoff
end Outbox
