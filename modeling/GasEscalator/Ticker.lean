import GasEscalator.Moment

/-!
# Periodic timers

A ticker fires one period after it was started and then again and again. A tick taken on time keeps
the rhythm; one taken more than five milliseconds late starts a new rhythm from then on.
-/
namespace GasEscalator

/-- A timer that fires at `due` and every `period` after it. -/
structure Ticker where
  due : Moment
  period : Duration
deriving DecidableEq

namespace Ticker

/-- How late a tick may be taken without changing the rhythm. -/
def tolerance : Duration := .ofMillis 5

/-- A ticker that starts now, when the clock of the timers shows `uptime`. That clock has to be able
to show the first tick. -/
def start? (now uptime : Moment) (period : Duration) : Option Ticker :=
  if (uptime + period).isRepresentable then some ⟨now + period, period⟩ else none

def isDue (t : Ticker) (now : Moment) : Bool := t.due ≤ now

def next (t : Ticker) (now : Moment) : Ticker :=
  if now ≤ t.due + tolerance then { t with due := t.due + t.period }
  else { t with due := now + t.period }

/-- At most how many ticks can be taken without time passing. -/
def backlog (t : Ticker) (now : Moment) : Nat :=
  if t.due ≤ now then (now.nanos - t.due.nanos) / t.period.nanos + 1 else 0

end Ticker

end GasEscalator
