import GasEscalator.Service
import Mathlib.Logic.Function.Basic

/-!
# Interleaved polls

A store may take its time to answer a poll, and other tasks may go on while a poller works through
the answer. In this finer view of the service a poll is one step that takes the tick and reads the
records, and one more for each record that is offered. Everything else that the service and its
environment do may come in between. That a watcher takes its mark away in the move of its last write
leaves nothing out: between the two the record would be passed over, as it is before the write.
-/
namespace GasEscalator

/-- The service while polls are under way. -/
structure Interleaving where
  service : Service
  /-- For each poller, the open records of its last answer that it has not offered yet. -/
  unoffered : Nat → List Record

inductive Stride
  /-- A poller takes its tick, and the store reads the records. -/
  | read (poller : Nat)
  /-- A poller offers the next record. -/
  | offer (poller : Nat)
  /-- Any move but an answered poll. -/
  | move (m : Move)

namespace Interleaving

/-- The service while no poll is under way. -/
def ofService (s : Service) : Interleaving := { service := s, unoffered := fun _ => [] }

def isFree (i : Interleaving) (poller : Nat) : Bool := (i.unoffered poller).isEmpty

def freePollers (i : Interleaving) : List Poller :=
  (i.service.pollers.zipIdx.filter fun p => i.isFree p.2).map (·.1)

def carry (i : Interleaving) (next : Service × List Event) : Interleaving × List Event :=
  ({ i with service := next.1 }, next.2)

/-- The state after a stride and what happened, if the stride is possible. Time does not wait for
the tick of a poller that is still working through an answer. -/
def apply (i : Interleaving) (c : Setup) : Stride → Option (Interleaving × List Event)
  | .read poller =>
    if i.isFree poller then do
      let s ← i.service.takeTick poller
      let records := c.readable s.store
      let opened := records.filter fun r => !r.status.isTerminal
      return ({ service := s, unoffered := Function.update i.unoffered poller opened },
        [.polled (some (records.map (·.id)))])
    else none
  | .offer poller =>
    match i.unoffered poller with
    | [] => none
    | r :: rest =>
      let next := i.service.offer c r
      some ({ service := next.1, unoffered := Function.update i.unoffered poller rest }, next.2)
  | .move (.poll poller outcome) =>
    if i.isFree poller && !outcome.isOk then
      (i.service.apply c (.poll poller outcome)).map i.carry
    else none
  | .move (.advance target) =>
    if Service.mayAdvance { i.service with pollers := i.freePollers } c target then
      some (i.carry ({ i.service with now := target }, []))
    else none
  | .move m => (i.service.apply c m).map i.carry

end Interleaving

end GasEscalator
