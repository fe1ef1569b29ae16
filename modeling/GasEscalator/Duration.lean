/-!
# Lengths of time

A duration counts nanoseconds; its whole seconds fit in 64 bits. Stored records keep it as whole
milliseconds, taken modulo `2 ^ 64`.
-/
namespace GasEscalator

abbrev nanosPerSecond : Nat := 1000000000

abbrev nanosPerMilli : Nat := 1000000

/-- One more than the most seconds a duration holds. -/
abbrev secondsBound : Nat := 0x10000000000000000

structure Duration where
  nanos : Nat
  nanos_lt : nanos < secondsBound * nanosPerSecond
deriving DecidableEq

namespace Duration

def zero : Duration := ⟨0, by decide⟩

def ofMillis (ms : UInt64) : Duration :=
  ⟨ms.toNat * nanosPerMilli, by
    have h := ms.toNat_lt
    simp only [nanosPerMilli, nanosPerSecond, secondsBound]
    omega⟩

/-- Seconds and nanoseconds, when their sum fits. -/
def ofParts? (seconds nanos : Nat) : Option Duration :=
  if h : seconds * nanosPerSecond + nanos < secondsBound * nanosPerSecond then some ⟨_, h⟩ else none

/-- The given nanoseconds, or the longest duration when they do not fit. -/
def saturating (nanos : Nat) : Duration :=
  ⟨min nanos (secondsBound * nanosPerSecond - 1), by simp only [nanosPerSecond, secondsBound]; omega⟩

def seconds (d : Duration) : Nat := d.nanos / nanosPerSecond

def subsecondNanos (d : Duration) : Nat := d.nanos % nanosPerSecond

def millis (d : Duration) : Nat := d.nanos / nanosPerMilli

/-- The whole milliseconds as they are stored, without what 64 bits do not hold. -/
def storedMillis (d : Duration) : UInt64 := UInt64.ofNat d.millis

def isZero (d : Duration) : Bool := d.nanos = 0

/-- A count of `places` decimal digits as the fraction behind a point, trailing zeros left out. -/
def fractionChars (places n : Nat) : List Char :=
  let digits := (toString n).toList
  let padded := List.replicate (places - digits.length) '0' ++ digits
  match (padded.reverse.dropWhile (· = '0')).reverse with
  | [] => []
  | kept => '.' :: kept

/-- A number of units and a fraction of `places` digits, in front of the unit's name. -/
def unitText (whole places fraction : Nat) (unit : String) : String :=
  toString whole ++ String.ofList (fractionChars places fraction) ++ unit

/-- The duration as messages show it: in the largest unit of which it holds at least one. -/
def messageText (d : Duration) : String :=
  if nanosPerSecond ≤ d.nanos then unitText d.seconds 9 d.subsecondNanos "s"
  else if nanosPerMilli ≤ d.nanos then
    unitText (d.nanos / nanosPerMilli) 6 (d.nanos % nanosPerMilli) "ms"
  else if 1000 ≤ d.nanos then unitText (d.nanos / 1000) 3 (d.nanos % 1000) "µs"
  else unitText d.nanos 0 0 "ns"

end Duration

end GasEscalator
