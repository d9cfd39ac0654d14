/-
# Backing off from what failed

A `Backoff` remembers what failed, when, and how often in a row. An item that failed is left alone
for a while, first for 15 seconds and for twice as long after each further failure, up to 15 minutes.
An item whose time is over stays on record, so that the next failure is answered with a longer wait;
only a success takes it off.

Key definitions: `Backoff`, `Backoff.contains`, `Backoff.extend`, `Backoff.remove`,
`Backoff.delaySeconds`.
-/
import Outbox.Duration
import Outbox.SortedMap.Basic

namespace Outbox

namespace Backoff

/-- The longest wait, in seconds. -/
def maxDelaySeconds : Nat := 15 * 60

/-- The wait after a first failure, in seconds. -/
def firstDelaySeconds : Nat := 15

/-- The largest number of repetitions that is counted. -/
def maxRepetitions : Nat := 255

/-- The largest 64-bit number that is not larger than a number. -/
def saturate (n : Nat) : Nat := min n (UInt64.size - 1)

/-- The wait, in seconds, after a failure that was repeated the given number of times. -/
def delaySeconds (repetitions : Nat) : Nat :=
  max 1 (min (saturate (saturate (1 <<< repetitions) * firstDelaySeconds)) maxDelaySeconds)

/-- What is known of an item that failed. -/
structure Item where
  /-- When the last failure was recorded. -/
  since : Instant
  /-- How many failures there were after the first one, as far as they are counted. -/
  repetitions : Nat
deriving DecidableEq, Repr

namespace Item

/-- How long the item is left alone, in seconds. -/
def delay (i : Item) : Nat := delaySeconds i.repetitions

/-- Whether the item is still left alone at a time. -/
def isActive (i : Item) (now : Instant) : Bool := now - i.since < i.delay * nanosPerSecond

end Item

end Backoff

/-- What failed, and when and how often. -/
structure Backoff (κ : Type) [Ord κ] where
  /-- The items that failed since they last succeeded. -/
  items : SortedMap κ Backoff.Item

namespace Backoff

variable {κ : Type} [Ord κ] [Std.TransOrd κ] [Std.LawfulEqOrd κ]

/-- Nothing failed. -/
def empty : Backoff κ := ⟨∅⟩

instance : EmptyCollection (Backoff κ) := ⟨empty⟩

/-- Whether an item is to be left alone at a time. -/
def contains (b : Backoff κ) (now : Instant) (k : κ) : Bool :=
  (b.items.get? k).any (·.isActive now)

/-- Records the failure of an item. -/
def record (b : Backoff κ) (now : Instant) (k : κ) : Backoff κ :=
  let repetitions :=
    match b.items.get? k with
    | some i => min (i.repetitions + 1) maxRepetitions
    | none => 0
  ⟨b.items.insert k ⟨now, repetitions⟩⟩

/-- Records the failure of items, one after the other. -/
def extend (b : Backoff κ) (now : Instant) (l : List κ) : Backoff κ :=
  l.foldl (fun b k => b.record now k) b

/-- Takes items off the record. -/
def remove (b : Backoff κ) (l : List κ) : Backoff κ := ⟨l.foldl SortedMap.erase b.items⟩

end Backoff
end Outbox
