import GasEscalator.Failure
import GasEscalator.Moment

/-!
# Stored records

A record follows one transaction from the moment it is handed over to its final status. Its
deadline is fixed by its creation and its policy.
-/
namespace GasEscalator

/-- How far a transaction has come. -/
inductive Status
  | pending
  | priceIncreased
  | failed
  | succeeded
deriving DecidableEq

namespace Status

/-- A final status never changes again. -/
def isTerminal : Status → Bool
  | .failed | .succeeded => true
  | .pending | .priceIncreased => false

def name : Status → String
  | .pending => "Pending"
  | .priceIncreased => "PriceIncreased"
  | .failed => "Failed"
  | .succeeded => "Succeeded"

def ofName? : String → Option Status
  | "Pending" => some .pending
  | "PriceIncreased" => some .priceIncreased
  | "Failed" => some .failed
  | "Succeeded" => some .succeeded
  | _ => none

end Status

/-- A transaction that the service looks after, as it is stored. -/
structure Record where
  id : String
  chainId : UInt64
  /-- The text of the sender's address; old records may have none. -/
  sender : String
  status : Status
  policy : Policy
  /-- The wire form of the transaction sent last. -/
  latestTx : List UInt8
  createdAt : Moment
deriving DecidableEq

namespace Record

/-- The record of a transaction that has just been sent. -/
def initial (id : String) (tx : SignedTx) (sender : Address) (policy : Policy) (now : Moment) :
    Record :=
  { id, chainId := tx.chainId, sender := sender.checksumText, status := .pending, policy,
    latestTx := tx.encode, createdAt := now }

def latest (r : Record) : Except DecodeError SignedTx := SignedTx.decode r.latestTx

/-- When the record runs out of time; nothing when no clock can show that moment. -/
def deadline? (r : Record) : Option Moment :=
  let d := r.createdAt + r.policy.timeout
  if d.isRepresentable then some d else none

/-- The time left at `now`, zero once the deadline has passed. -/
def remaining? (r : Record) (now : Moment) : Option Duration := r.deadline?.map now.timeTo

/-- Whether the deadline has come at `now`. -/
def expired? (r : Record) (now : Moment) : Option Bool := r.deadline?.map fun d => decide (d ≤ now)

/-- The record once `tx` has been sent for it. -/
def withLatest (r : Record) (tx : SignedTx) : Record :=
  { r with status := .priceIncreased, latestTx := tx.encode }

def withStatus (r : Record) (status : Status) : Record := { r with status }

end Record

end GasEscalator
