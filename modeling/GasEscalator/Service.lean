import GasEscalator.Settings
import GasEscalator.Store
import GasEscalator.Watcher
import GasEscalator.WatchSet

/-!
# The service

Pollers read the open records from the store at regular times and start a watcher for each that has
none yet. A move is one step of the service in an environment that is free to answer as it likes:
the move carries the answers of the store and the chain. A move that is not possible in a state
gives nothing, so that one definition serves to run the service and to reason about every run.
-/
namespace GasEscalator

/-- What stays fixed while the service runs. -/
structure Setup where
  settings : Settings
  signers : Registry Signer
  /-- Whether the store answers only the open records of the registered signers, and not all. -/
  filtering : Bool
  /-- When the clock of the timers began, in nanoseconds since the epoch and before it if negative.
  It runs as fast as the clock on the wall. -/
  booted : Int

namespace Setup

/-- What the clock of the timers shows at a moment. -/
def uptime (c : Setup) (now : Moment) : Moment := ⟨(now.nanos - c.booted).toNat⟩

/-- The records that the store answers to a poll. -/
def readable (c : Setup) (store : Store) : List Record :=
  if c.filtering then store.toCheck c.signers.addresses else store.records

def canSign (c : Setup) (sender : Address) : Bool := (c.signers.resolveAddress sender).isSome

def canQueue (c : Setup) (store : Store) (sender : Address) : Bool :=
  decide (store.queueLength sender < c.settings.maxQueuePerSigner.toNat)

end Setup

inductive Poller
  | ticking (ticker : Ticker)
  /-- Its timer could not be set. -/
  | crashed

/-- A poller that starts now. A timer needs a period that is neither zero nor out of reach. -/
def Poller.start (c : Setup) (now : Moment) : Poller :=
  if c.settings.pollInterval.isZero then .crashed
  else match Ticker.start? now (c.uptime now) c.settings.pollInterval with
    | some t => .ticking t
    | none => .crashed

/-- At most how many ticks a poller can take without time passing. -/
def Poller.backlog : Poller → Moment → Nat
  | .ticking t, now => t.backlog now
  | .crashed, _ => 0

/-- The state of the service and of what it works on. -/
structure Service where
  now : Moment
  store : Store
  /-- The ids that are marked as watched. -/
  marks : WatchSet
  watchers : List Watcher
  pollers : List Poller
  stopped : Bool

/-- A step of the service, with the answers of its environment. -/
inductive Move
  /-- A transaction is handed over to be stored under an id. -/
  | insert (id : String) (tx : SignedTx) (policy : Policy) (sender : Address)
      (outcome : Except StorageError Unit)
  /-- A record is stored by somebody else. -/
  | place (record : Record)
  /-- Another poller is started. -/
  | startPoller
  /-- A poller takes its tick. -/
  | poll (poller : Nat) (outcome : Except StorageError Unit)
  /-- A watcher takes what is due. -/
  | wake (id : String)
  /-- The chain answers the call of a watcher. -/
  | answer (id : String) (replies : Replies)
  /-- The call of a watcher is given up at its limit. -/
  | expire (id : String)
  /-- The store answers the write of a watcher. -/
  | stored (id : String) (outcome : Except StorageError Unit)
  /-- A watcher is brought down from within the code that it calls. -/
  | crash (id : String)
  | stop
  /-- Time passes up to a whole millisecond. -/
  | advance (target : Moment)

namespace Service

/-- A service that has not been started, over an empty store. -/
def initial (now : Moment) : Service :=
  { now, store := .empty, marks := .empty, watchers := [], pollers := [], stopped := false }

/-! ## Records -/

/-- The store after a write, if it worked. -/
def written (s : Service) (r : Record) : Except StorageError Unit → Service
  | .ok () => { s with store := s.store.upsert r }
  | .error _ => s

/-- Hands a transaction over: its policy must be usable and the store must take the record. -/
def insert (s : Service) (id : String) (tx : SignedTx) (policy : Policy) (sender : Address)
    (outcome : Except StorageError Unit) : Except Failure (Service × List Event) :=
  match policy.validate with
  | .error e => .error (.invalidPolicy e)
  | .ok () =>
    let r := Record.initial id tx sender policy s.now
    .ok (s.written r outcome, [.wrote r outcome.isOk])

/-! ## Watchers -/

def watcher? (s : Service) (id : String) : Option Watcher := s.watchers.find? fun w => w.id = id

/-- Puts the next state of a watcher in its place; one that is done is removed and its mark is
released. -/
def replace (s : Service) (w : Watcher) : Service :=
  if w.phase = .done then
    { s with watchers := s.watchers.filter (fun v => v.id ≠ w.id), marks := s.marks.unmark w.id }
  else { s with watchers := s.watchers.map fun v => if v.id = w.id then w else v }

def carry (s : Service) (next : Watcher × List Event) : Service × List Event :=
  (s.replace next.1, next.2 ++ if next.1.phase = .done then [.ended next.1.id] else [])

/-- Offers a record to be watched. It is passed over when the service is stopped or the record is
watched already, and an unusable policy is reported. A watcher that cannot set its timers leaves at
once. -/
def offer (s : Service) (c : Setup) (r : Record) : Service × List Event :=
  if s.stopped || s.marks.contains r.id then (s, [])
  else match r.policy.validate with
    | .error e => (s, [.logged r (.invalidPolicy e)])
    | .ok () =>
      match s.marks.guard? r.id with
      | none => (s, [])
      | some (guard, marks) =>
        match Watcher.start? s.now (c.uptime s.now) r with
        | some w => ({ s with marks, watchers := s.watchers ++ [w] }, [.started r.id])
        | none => ({ s with marks := marks.release guard }, [.started r.id, .crashed r.id])

def offerAll (s : Service) (c : Setup) : List Record → Service × List Event
  | [] => (s, [])
  | r :: rest =>
    let (s, first) := s.offer c r
    let (s, others) := s.offerAll c rest
    (s, first ++ others)

/-! ## Pollers -/

/-- Takes the tick of a poller that is due: the state with its next tick set. -/
def takeTick (s : Service) (poller : Nat) : Option Service :=
  match s.pollers[poller]? with
  | some (.ticking t) =>
    if !s.stopped && t.isDue s.now then
      some { s with pollers := s.pollers.set poller (.ticking (t.next s.now)) }
    else none
  | _ => none

/-- Deals with what the store answered to a poll. Records with a final status are passed over. -/
def take (s : Service) (c : Setup) (records : List Record) : Service × List Event :=
  let (s, events) := s.offerAll c (records.filter fun r => !r.status.isTerminal)
  (s, .polled (some (records.map (·.id))) :: events)

/-! ## Time -/

/-- The moments at which something is due by itself. -/
def dueMoments (s : Service) (c : Setup) : List Moment :=
  (s.pollers.filterMap fun
    | .ticking t => if s.stopped then none else some t.due
    | .crashed => none) ++
  s.watchers.filterMap fun w => w.dueAt c.settings.callTimeout s.stopped s.now

/-- Whether time may pass up to a moment without anything due being left behind. Timers fire at
the first whole millisecond that is not before their time. -/
def mayAdvance (s : Service) (c : Setup) (target : Moment) : Bool :=
  s.now ≤ target && target = target.ceilMilli &&
    (s.dueMoments c).all fun d => target ≤ d.ceilMilli

/-! ## Moves -/

/-- The state after a move and what happened, if the move is possible. -/
def apply (s : Service) (c : Setup) : Move → Option (Service × List Event)
  | .insert id tx policy sender outcome =>
    match s.insert id tx policy sender outcome with
    | .ok next => some next
    | .error _ => some (s, [])
  | .place r => some ({ s with store := s.store.upsert r }, [])
  | .startPoller =>
    some ({ s with pollers := s.pollers ++ [.start c s.now] }, [])
  | .poll poller outcome => do
    let s ← s.takeTick poller
    match outcome with
    | .ok () => return s.take c (c.readable s.store)
    | .error _ => return (s, [.polled none])
  | .wake id => do
    let w ← s.watcher? id
    return s.carry (← w.wake c.signers s.stopped s.now)
  | .answer id replies => do
    let w ← s.watcher? id
    return s.carry (← w.answer s.now replies)
  | .expire id => do
    let w ← s.watcher? id
    let limit ← c.settings.callTimeout
    match w.phase with
    | .calling since _ =>
      if since + limit ≤ s.now then return s.carry (← w.answer s.now (.timedOut limit)) else none
    | _ => none
  | .stored id outcome => do
    let w ← s.watcher? id
    match w.phase with
    | .writing r after =>
      let (s, events) := (s.written r outcome).carry (w.stored s.now r after outcome)
      return (s, .wrote r outcome.isOk :: events)
    | _ => none
  | .crash id => do
    let w ← s.watcher? id
    return (s.replace { w with phase := .done }, [.crashed id])
  | .stop => some ({ s with stopped := true }, [])
  | .advance target =>
    if s.mayAdvance c target then some ({ s with now := target }, []) else none

/-- For each poller, whether it has come to its end. -/
def pollersEnded (s : Service) : List Bool :=
  s.pollers.map fun
    | .ticking _ => s.stopped
    | .crashed => true

end Service

end GasEscalator
