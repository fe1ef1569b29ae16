import GasEscalator.Duration

/-!
# Settings of the service
-/
namespace GasEscalator

structure Settings where
  /-- How often the store is polled for records to watch. -/
  pollInterval : Duration
  /-- A sender with this many open records has no room for another. -/
  maxQueuePerSigner : UInt64
  /-- The longest a single call to a chain may take; none waits for ever. -/
  callTimeout : Option Duration
deriving DecidableEq

/-- Polling every ten seconds, ten records a sender, calls without a limit. -/
def Settings.standard : Settings :=
  { pollInterval := .ofMillis 10000, maxQueuePerSigner := 10, callTimeout := none }

end GasEscalator
