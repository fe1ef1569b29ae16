import GasEscalator.Duration
import GasEscalator.Price
import GasEscalator.Decimal

/-!
# Retry policies

How long and how eagerly one transaction is pushed, fixed when it is handed over. A policy is
usable when every interval is positive, the factor is a finite number greater than one and the
ceiling is not zero; of several faults the first in that order is reported.
-/
namespace GasEscalator

/-- The retry policy of one transaction. -/
structure Policy where
  /-- The time from the record's creation to its deadline. -/
  timeout : Duration
  checkInterval : Duration
  increaseInterval : Duration
  priceMultiplier : Binary64
  maxPrice : Price
deriving DecidableEq

inductive PolicyError
  | zeroTimeout
  | zeroCheckInterval
  | zeroIncreaseInterval
  | invalidMultiplier (multiplier : Binary64)
  | zeroMaxPrice
deriving DecidableEq

def PolicyError.message : PolicyError → String
  | .zeroTimeout => "timeout must be greater than zero"
  | .zeroCheckInterval => "check interval must be greater than zero"
  | .zeroIncreaseInterval => "increase interval must be greater than zero"
  | .invalidMultiplier m =>
    "price multiplier must be a finite number greater than 1, got " ++ m.messageText
  | .zeroMaxPrice => "max price must be greater than zero"

namespace Policy

/-- The first fault of a policy, if it has one. -/
def validate (p : Policy) : Except PolicyError Unit :=
  if p.timeout.isZero then .error .zeroTimeout
  else if p.checkInterval.isZero then .error .zeroCheckInterval
  else if p.increaseInterval.isZero then .error .zeroIncreaseInterval
  else if !(p.priceMultiplier.isFinite && p.priceMultiplier.exceedsOne) then
    .error (.invalidMultiplier p.priceMultiplier)
  else if p.maxPrice.val = 0 then .error .zeroMaxPrice
  else .ok ()

def raise (p : Policy) (price : Price) : Price := price.scale p.priceMultiplier

end Policy

end GasEscalator
