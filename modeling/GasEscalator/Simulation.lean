import GasEscalator.Chain.Simulated
import GasEscalator.Service

/-!
# A service on a simulated chain

The service over a store without faults, together with the simulated chain. The chain takes a
transaction in as it answers its broadcast, and answers every call as it then stands. Somebody else
may send transactions to it too, and the service may be brought down at any moment and begun anew
over the same store.
-/
namespace GasEscalator

/-- The chain once it has been called. -/
def SimulatedChain.receive (c : SimulatedChain) : Call → SimulatedChain
  | .send tx => c.broadcast tx
  | .lookup _ | .receipt _ => c

/-- Whether the environment has no part in a move but to let it work: what the store is asked for it
does, and the chain is left out. -/
def Move.isSmooth : Move → Bool
  | .insert _ _ _ _ outcome | .poll _ outcome | .stored _ outcome => outcome.isOk
  | .answer .. | .expire _ => false
  | .place _ | .startPoller | .wake _ | .crash _ | .stop | .advance _ => true

namespace Service

/-- The call that the watcher of a record waits for. -/
def call? (s : Service) (id : String) : Option Call :=
  match (s.watcher? id).map Watcher.phase with
  | some (.calling _ call) => some call
  | _ => none

/-- A service begun anew, now and over the same store. -/
def restarted (s : Service) : Service := { initial s.now with store := s.store }

end Service

structure Simulation where
  service : Service
  chain : SimulatedChain

/-- A step of the service, of the chain or of somebody else. -/
inductive Act
  /-- Somebody else sends a transaction to the chain. -/
  | send (tx : SignedTx)
  /-- The chain answers the call of a watcher. -/
  | answer (id : String)
  /-- A move that works. -/
  | move (m : Move)
  /-- The service is brought down and begun anew. -/
  | restart

namespace Simulation

/-- A service that has not been started, on a chain that has seen no transaction. -/
def initial (now : Moment) (marketPrice : Price) : Simulation :=
  { service := .initial now, chain := .new marketPrice }

def apply (s : Simulation) (c : Setup) : Act → Option (Simulation × List Event)
  | .send tx => some ({ s with chain := s.chain.broadcast tx }, [])
  | .answer id => do
    let chain := s.chain.receive (← s.service.call? id)
    let (service, events) ← s.service.apply c (.answer id chain.replies)
    return ({ service, chain }, events)
  | .move m =>
    if m.isSmooth then do
      let (service, events) ← s.service.apply c m
      return ({ s with service }, events)
    else none
  | .restart => some ({ s with service := s.service.restarted }, [])

end Simulation

end GasEscalator
