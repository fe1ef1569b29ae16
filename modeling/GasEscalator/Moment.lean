import GasEscalator.Duration

/-!
# Points in time

A moment counts the nanoseconds since the Unix epoch or, on the clock that timers go by, since that
clock began. Clocks show it with a signed 64-bit number of seconds, so that a moment computed from a
stored record or for a timer may be out of their reach.
-/
namespace GasEscalator

/-- A point in time at or after the beginning of a clock. -/
structure Moment where
  nanos : Nat
deriving DecidableEq

namespace Moment

instance : LE Moment := ⟨fun a b => a.nanos ≤ b.nanos⟩
instance : LT Moment := ⟨fun a b => a.nanos < b.nanos⟩
instance (a b : Moment) : Decidable (a ≤ b) := inferInstanceAs (Decidable (a.nanos ≤ b.nanos))
instance (a b : Moment) : Decidable (a < b) := inferInstanceAs (Decidable (a.nanos < b.nanos))

instance : HAdd Moment Duration Moment := ⟨fun m d => ⟨m.nanos + d.nanos⟩⟩

def ofMillis (ms : Nat) : Moment := ⟨ms * nanosPerMilli⟩

def millis (m : Moment) : Nat := m.nanos / nanosPerMilli

/-- The first whole millisecond not before the moment. -/
def ceilMilli (m : Moment) : Moment :=
  ofMillis ((m.nanos + (nanosPerMilli - 1)) / nanosPerMilli)

def seconds (m : Moment) : Nat := m.nanos / nanosPerSecond

def subsecondNanos (m : Moment) : Nat := m.nanos % nanosPerSecond

def ofParts (seconds nanos : Nat) : Moment := ⟨seconds * nanosPerSecond + nanos⟩

/-- One more than the most seconds a clock shows. -/
abbrev clockBound : Nat := 0x8000000000000000

/-- Whether a clock can show the moment. -/
def isRepresentable (m : Moment) : Bool := m.seconds < clockBound

def earliest (a b : Moment) : Moment := if a ≤ b then a else b

/-- The time from one moment to a later one, and zero if it is not later. -/
def timeTo (a b : Moment) : Duration := .saturating (b.nanos - a.nanos)

end Moment

end GasEscalator
