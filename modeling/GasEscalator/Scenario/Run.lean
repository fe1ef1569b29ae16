import GasEscalator.Scenario.Script
import GasEscalator.Service

/-!
# Runs in scripted surroundings

A run carries out the moves of the service in a fixed order: at one instant first the watchers, from
the oldest to the latest, and then the pollers, until nothing is due; then the clock moves on to the
next whole millisecond at which something is. What happens is kept with its time.
-/
namespace GasEscalator.Scenario

/-- An event, its time, and the transaction that a call was about when it began. -/
structure Entry where
  time : Nat
  event : Event
  subject : Option SignedTx

/-- How a call in flight will end: under a rule, at a moment unless it hangs. -/
structure Plan where
  rule : Rule
  ready : Option Moment

structure Run where
  setup : Setup
  start : Moment
  readFaults : List Window
  writeFaults : List Window
  service : Service
  chain : ScriptedChain
  /-- The calls in flight, under the ids of their records. -/
  plans : List (String × Plan)
  /-- What happened since the entries were last taken out, the latest first. -/
  entries : List Entry

namespace Run

def time (r : Run) : Nat := r.service.now.millis - r.start.millis

def readOutcome (r : Run) : Except StorageError Unit :=
  if within r.time r.readFaults then .error ⟨"database is locked"⟩ else .ok ()

def writeOutcome (r : Run) : Except StorageError Unit :=
  if within r.time r.writeFaults then .error ⟨"disk is full"⟩ else .ok ()

/-! ## Moves -/

/-- Keeps an event; the end of a call that begins is laid down. -/
def note (r : Run) (e : Event) : Run :=
  match e with
  | .called id _ call =>
    let rule := r.chain.ruleFor r.time call
    let ready := if rule.hangs then none else
      some (r.service.now + Duration.ofMillis (.ofNat rule.delay))
    { r with
      entries := ⟨r.time, e, r.chain.subject call⟩ :: r.entries
      plans := (id, ⟨rule, ready⟩) :: r.plans.filter fun p => p.1 != id }
  | _ => { r with entries := ⟨r.time, e, none⟩ :: r.entries }

def perform (r : Run) (m : Move) : Run :=
  match r.service.apply r.setup m with
  | some (service, events) => events.foldl note { r with service }
  | none => r

/-- The move that a watcher makes now, if it makes one. A call that is ready at its limit counts as
ready. -/
def watcherMove (r : Run) (w : Watcher) : Option Move :=
  let now := r.service.now
  match w.phase with
  | .waiting =>
    if (w.dueAt none r.service.stopped now).any (· ≤ now) then some (.wake w.id) else none
  | .calling since _ =>
    match r.plans.lookup w.id with
    | none => none
    | some plan =>
      if plan.ready.any (· ≤ now) then some (.answer w.id (r.chain.replies plan.rule))
      else if r.setup.settings.callTimeout.any fun limit => since + limit ≤ now then
        some (.expire w.id)
      else none
  | .writing .. => some (.stored w.id r.writeOutcome)
  | .done => none

def pollerMove (r : Run) : Option Move :=
  (List.range r.service.pollers.length).findSome? fun i =>
    (r.service.takeTick i).map fun _ => .poll i r.readOutcome

def nextMove (r : Run) : Option Move :=
  match r.service.watchers.findSome? r.watcherMove with
  | some m => some m
  | none => r.pollerMove

/-- Carries out a move of the service itself. A call that is answered takes effect on the chain. -/
def advanceBy (r : Run) (m : Move) : Run :=
  match m with
  | .answer id _ =>
    match r.plans.lookup id, (r.service.watcher? id).map Watcher.phase with
    | some plan, some (Phase.calling _ call) =>
      { r with chain := r.chain.commit plan.rule call }.perform m
    | _, _ => r.perform m
  | _ => r.perform m

/-! ## Time -/

/-- More moves than an instant can take: every tick of a watcher and its writes take less than eight,
and so does a watcher that a poll starts. -/
def workload (r : Run) : Nat :=
  let now := r.service.now
  let ticks := r.service.watchers.foldl
    (fun total w => total + 2 + w.check.backlog now + w.increase.backlog now) 0
  let polls := r.service.pollers.foldl (fun total p => total + p.backlog now) 0
  8 * ticks + polls * (1 + 16 * r.service.store.size) + 1

/-- At most `n` moves at this instant. -/
def settleWithin : (n : Nat) → Run → Run
  | 0, r => r
  | n + 1, r =>
    match r.nextMove with
    | some m => settleWithin n (r.advanceBy m)
    | none => r

def settle (r : Run) : Run := settleWithin r.workload r

/-- The next instant at which something is due or a call returns. -/
def nextInstant (r : Run) : Option Moment :=
  let returns := r.plans.filterMap fun (id, plan) =>
    if (r.service.watcher? id).any fun w => w.phase matches .calling .. then plan.ready else none
  let moments := (r.service.dueMoments r.setup ++ returns).map Moment.ceilMilli
  moments.foldl (fun found m => some (found.elim m m.earliest)) none

/-- Lets time pass up to a moment, or until `enough` holds after an instant, over at most `n`
instants. -/
def passWithin (enough : Run → Bool) (target : Moment) : (n : Nat) → Run → Run
  | 0, r => r
  | n + 1, r =>
    if enough r then r
    else match r.nextInstant with
      | some t =>
        if t ≤ target then passWithin enough target n (r.perform (.advance t)).settle
        else r.perform (.advance target)
      | none => r.perform (.advance target)

/-- Lets milliseconds pass, or fewer if `enough` holds after an instant. Each instant is at least
one millisecond after the one before. -/
def pass (r : Run) (enough : Run → Bool) (ms : Nat) : Run :=
  passWithin enough ⟨r.service.now.nanos + ms * nanosPerMilli⟩ (ms + 1) r

end Run

end GasEscalator.Scenario
