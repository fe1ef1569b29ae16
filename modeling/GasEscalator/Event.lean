import GasEscalator.Chain
import GasEscalator.Record

/-!
# Events

What the service does that can be seen from outside, and the beginning and end of its watchers.
-/
namespace GasEscalator

inductive Event
  /-- The store answered a poll with these ids, or did not answer. -/
  | polled (ids : Option (List String))
  /-- A watcher began its work. -/
  | started (id : String)
  /-- A watcher was brought down: its timers could not be set, or code that it calls gave way. -/
  | crashed (id : String)
  /-- A watcher left. -/
  | ended (id : String)
  /-- A call for a record began. -/
  | called (id : String) (chainId : UInt64) (call : Call)
  /-- The signer under an address was asked to sign for a record. -/
  | signing (id : String) (signer : Address) (chainId : UInt64) (tx : UnsignedTx)
  /-- A record was written, or should have been. -/
  | wrote (record : Record) (ok : Bool)
  /-- A failure was reported, with the record as its watcher knows it. -/
  | logged (record : Record) (failure : Failure)
deriving DecidableEq

end GasEscalator
