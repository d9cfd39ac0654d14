/-
# Settings of the engine

Key definitions: `Settings`, `Settings.default`.
-/
import Outbox.Duration

namespace Outbox

/-- What can be adjusted about the requests that are made. -/
structure Settings where
  /-- How many requests may be queued at a time, if that is bounded. -/
  maxQueuedRequests : Option UInt64
  /-- How long the server may wait for other servers in a query for devices. -/
  keyQueryTimeout : Duration
  /-- How long the server may wait for other servers in a claim of keys. -/
  keyClaimTimeout : Duration
  /-- How many users one query for devices may name. -/
  keyQueryBatchSize : UInt64
  /-- How many room keys one backup request may hold. -/
  backupBatchSize : UInt64
deriving DecidableEq, Repr

namespace Settings

/-- Ten seconds. -/
def defaultTimeout : Duration := ⟨10 * nanosPerSecond, by decide⟩

/-- The settings that are used unless others are asked for: an unbounded queue, ten seconds for other
servers to answer, 250 users in a query and 100 keys in a backup request. -/
def default : Settings := ⟨none, defaultTimeout, defaultTimeout, 250, 100⟩

instance : Inhabited Settings := ⟨default⟩

end Settings
end Outbox
