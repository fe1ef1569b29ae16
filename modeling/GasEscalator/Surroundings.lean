import GasEscalator.Service

/-!
# The surroundings of one record

What a record can meet outside the service: how the calls about it end, what the store answers and
when, what is asked of the service, and which of several things that are due at one instant comes
first. It all depends on what is asked, on the time and on what was done about the record before, so
that no other record has a part in it. A record may be left without an answer for ever, and the code
that its watcher calls may bring the watcher down.
-/
namespace GasEscalator

/-- Something that is asked of the service and bears on a record. -/
inductive Request
  /-- A transaction is handed over to be stored. -/
  | insert (tx : SignedTx) (policy : Policy) (sender : Address)
  /-- The record is stored by somebody else. -/
  | place (record : Record)
  | startPoller
  | stop

/-- A request as a move, for the record under an id and with the store's answer to a write. -/
def Request.move (id : String) (outcome : Except StorageError Unit) : Request → Move
  | .insert tx policy sender => .insert id tx policy sender outcome
  | .place r => .place { r with id }
  | .startPoller => .startPoller
  | .stop => .stop

namespace Move

def isRequest : Move → Bool
  | .insert .. | .place _ | .startPoller | .stop => true
  | _ => false

/-- Whether a move bears on a record: it is made for it, or for all records. -/
def concerns (id : String) : Move → Bool
  | .insert new .. => new = id
  | .place r => r.id = id
  | .wake i | .answer i _ | .expire i | .stored i _ | .crash i => i = id
  | .startPoller | .poll .. | .stop => true
  | .advance _ => false

end Move

/-- The surroundings of a record. What was done about it before is a list of moves with their times,
the latest first. -/
structure Surroundings where
  /-- How long a call to a chain takes that begins at a moment; a call may hang. -/
  delay : Moment → UInt64 → Call → Option Duration
  /-- What a chain answers to the calls that begin at a moment. -/
  replies : Moment → UInt64 → Replies
  /-- What the store answers to a poll. -/
  reads : Moment → Except StorageError Unit
  /-- What the store answers to a write. -/
  writes : Moment → Except StorageError Unit
  /-- Whether the code that the record's watcher calls brings it down. -/
  collapses : Moment → Watcher → Bool
  /-- What is asked of the service, in this order and not before the given times. -/
  requests : List (Moment × Request)
  /-- Which of several moves that are due at one instant is made. -/
  choice : List (Moment × Move) → Nat

namespace Surroundings

variable (e : Surroundings) (c : Setup) (id : String) (seen : List (Moment × Move)) (s : Service)

/-- What the watcher of the record does now, if it has something to do. A call that ends at its
limit is answered. -/
def turn (w : Watcher) : Option Move :=
  match w.phase with
  | .waiting => if (w.wake c.signers s.stopped s.now).isSome then some (.wake id) else none
  | .calling since call =>
    if (e.delay since w.record.chainId call).any fun d => since + d ≤ s.now then
      some (.answer id (e.replies since w.record.chainId))
    else if c.settings.callTimeout.any fun limit => since + limit ≤ s.now then some (.expire id)
    else none
  | .writing .. => some (.stored id (e.writes s.now))
  | .done => none

/-- The turn of the record's watcher, unless the watcher is brought down in it. -/
def ownMove : Option Move := do
  let w ← s.watcher? id
  let m ← e.turn c id s w
  return if e.collapses s.now w then .crash id else m

def pollMoves : List Move :=
  ((List.range s.pollers.length).filter fun i => (s.takeTick i).isSome).map fun i =>
    .poll i (e.reads s.now)

def requestMove : Option Move := do
  let (time, request) ← e.requests[seen.countP fun p => p.2.isRequest]?
  if time ≤ s.now then some (request.move id (e.writes s.now)) else none

/-- The moves that are due now and bear on the record. -/
def ready : List Move :=
  (e.ownMove c id s).toList ++ e.pollMoves s ++ (e.requestMove id seen s).toList

def next : Option Move := (e.ready c id seen s)[e.choice seen % (e.ready c id seen s).length]?

end Surroundings

end GasEscalator
