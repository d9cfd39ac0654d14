/-
# Lengths of time

A `Duration` counts whole nanoseconds, up to as many seconds as a 64-bit number can hold. Instants on
the clock are nanoseconds as well, counted from an arbitrary beginning.

Key definitions: `Duration`, `Duration.ofParts?`, `Duration.cappedMillis`, `Instant`.
-/

namespace Outbox

/-- Nanoseconds in a second. -/
def nanosPerSecond : Nat := 1000000000

/-- Nanoseconds in a millisecond. -/
def nanosPerMilli : Nat := 1000000

/-- A length of time. -/
structure Duration where
  /-- The number of nanoseconds. -/
  nanoseconds : Nat
  /-- The whole seconds fit 64 bits. -/
  bounded : nanoseconds < UInt64.size * nanosPerSecond
deriving DecidableEq, Repr

namespace Duration

/-- The whole seconds. -/
def seconds (d : Duration) : Nat := d.nanoseconds / nanosPerSecond

/-- The nanoseconds beyond the whole seconds. -/
def subsecNanos (d : Duration) : Nat := d.nanoseconds % nanosPerSecond

/-- The whole milliseconds, or the largest 64-bit number if there are more. -/
def cappedMillis (d : Duration) : Nat := min (d.nanoseconds / nanosPerMilli) (UInt64.size - 1)

/-- The sum of seconds and nanoseconds, unless it is too long. -/
def ofParts? (seconds nanos : Nat) : Option Duration :=
  let total := seconds * nanosPerSecond + nanos
  if h : total < UInt64.size * nanosPerSecond then some ⟨total, h⟩ else none

theorem ofParts?_seconds_subsecNanos (d : Duration) :
    ofParts? d.seconds d.subsecNanos = some d := by
  have h : d.seconds * nanosPerSecond + d.subsecNanos = d.nanoseconds :=
    Nat.div_add_mod' d.nanoseconds nanosPerSecond
  unfold ofParts?
  simp only [h]
  exact dif_pos d.bounded

end Duration

/-- A point in time, in nanoseconds. -/
abbrev Instant := Nat

end Outbox
