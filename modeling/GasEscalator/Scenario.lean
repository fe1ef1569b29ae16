import GasEscalator.Scenario.Run

/-!
# Scenarios

A scenario is a service in scripted surroundings and a list of steps to take with it. After each step
everything that is due has been done, and the report of the step lists what happened: by time, then
the polls, then record by record in the order in which the records first came up, then what belongs
to no record. Calls and signatures belong to the record whose transaction first had their nonce.
-/
namespace GasEscalator.Scenario

inductive Step
  /-- Starts a poller. -/
  | start
  | advance (ms : Nat)
  | stop
  | isStopped
  | insert (tx : SignedTx) (policy : Policy) (sender : Address)
  /-- Stores a record behind the service's back, of the given age in milliseconds. -/
  | put (id : String) (chainId : UInt64) (sender : String) (status : Status) (policy : Policy)
      (latestTx : List UInt8) (age : Int)
  /-- Sends a transaction to the chain directly. -/
  | send (tx : SignedTx)
  | get (id : String)
  | all
  | canSign (sender : Address)
  | canQueue (sender : Address)
  | watching
  /-- Stops, and waits until every watcher has left. -/
  | shutdown
  /-- Which pollers have come to their end. -/
  | ended

inductive Result
  | nothing
  | flag (b : Bool)
  | count (n : Nat)
  | inserted (outcome : Except Failure String)
  | sent (outcome : Except ChainError Unit)
  | record (found : Option Record)
  | records (found : List Record)
  | room (outcome : Except Failure Bool)
  | shutDown (complete : Bool)
  | flags (bs : List Bool)

structure Report where
  time : Nat
  now : Moment
  result : Result
  watching : Nat
  entries : List Entry

/-- How long a shutdown may take, in milliseconds. -/
def patience : Nat := 3600000

/-- A run and what names its records. -/
structure Stage where
  run : Run
  /-- How many transactions have been handed over. -/
  inserted : Nat
  /-- The ids of the records in the order in which they first came up. -/
  appeared : List String
  /-- The record whose transaction first had a nonce. -/
  owners : List (UInt64 × String)

namespace Stage

/-- A record with its transaction has come up. -/
def introduce (s : Stage) (id : String) (tx : Option SignedTx) : Stage :=
  let appeared := if s.appeared.contains id then s.appeared else s.appeared ++ [id]
  match tx with
  | none => { s with appeared }
  | some tx =>
    let owners :=
      if (s.owners.lookup tx.nonce).isSome then s.owners else s.owners ++ [(tx.nonce, id)]
    { s with appeared, owners, run := { s.run with chain := s.run.chain.learn tx } }

/-- Hands a transaction over; it is named by its number. -/
def insert (s : Stage) (tx : SignedTx) (policy : Policy) (sender : Address) : Result × Stage :=
  let outcome := s.run.writeOutcome
  let id := if outcome.isOk then "#" ++ toString s.inserted else "new"
  match s.run.service.insert id tx policy sender outcome with
  | .error e => (.inserted (.error e), s)
  | .ok _ =>
    let s := { s with run := s.run.perform (.insert id tx policy sender outcome) }
    match outcome with
    | .error e => (.inserted (.error (.storage e)), s)
    | .ok () => (.inserted (.ok id), { s with inserted := s.inserted + 1 }.introduce id (some tx))

def send (s : Stage) (tx : SignedTx) : Result × Stage :=
  let r := s.run
  let call := Call.send tx
  let rule := r.chain.ruleFor r.time call
  let entry : Entry := ⟨r.time, .called "" tx.chainId call, some tx⟩
  (.sent (r.chain.replies rule call),
    { s with run := { r with entries := entry :: r.entries, chain := r.chain.commit rule call } })

def take (s : Stage) : Step → Result × Stage
  | .start => (.nothing, { s with run := s.run.perform .startPoller })
  | .advance ms => (.nothing, { s with run := s.run.pass (fun _ => false) ms })
  | .stop => (.nothing, { s with run := s.run.perform .stop })
  | .isStopped => (.flag s.run.service.stopped, s)
  | .insert tx policy sender => s.insert tx policy sender
  | .put id chainId sender status policy latestTx age =>
    let createdAt := Moment.ofMillis ((s.run.service.now.millis : Int) - age).toNat
    let r : Record := { id, chainId, sender, status, policy, latestTx, createdAt }
    (.nothing, { s with run := s.run.perform (.place r) }.introduce id r.latest.toOption)
  | .send tx => s.send tx
  | .get id => (.record (s.run.service.store.get? id), s)
  | .all => (.records s.run.service.store.records, s)
  | .canSign sender => (.flag (s.run.setup.canSign sender), s)
  | .canQueue sender =>
    match s.run.readOutcome with
    | .error e => (.room (.error (.storage e)), s)
    | .ok () => (.room (.ok (s.run.setup.canQueue s.run.service.store sender)), s)
  | .watching => (.count s.run.service.marks.size, s)
  | .shutdown =>
    let left (r : Run) : Bool := r.service.watchers.isEmpty
    let r := (s.run.perform .stop).settle.pass left patience
    (.shutDown (left r), { s with run := r })
  | .ended => (.flags s.run.service.pollersEnded, s)

/-- The place of a record in the report. -/
def rankOf (s : Stage) (id : String) : Nat := 1 + s.appeared.idxOf id

/-- The place in the report of what belongs to the owner of a nonce. -/
def rankOfNonce (s : Stage) (nonce : Option UInt64) : Nat :=
  match nonce.bind fun n => s.owners.lookup n with
  | some id => s.rankOf id
  | none => 1 + s.appeared.length

def rank (s : Stage) (e : Entry) : Nat :=
  match e.event with
  | .polled _ => 0
  | .started id | .crashed id | .ended id => s.rankOf id
  | .wrote r _ | .logged r _ => s.rankOf r.id
  | .called .. => s.rankOfNonce (e.subject.map (·.nonce))
  | .signing _ _ _ tx => s.rankOfNonce (some tx.nonce)

/-- The entries since the last step, in the order of the report. -/
def sorted (s : Stage) : List Entry :=
  s.run.entries.reverse.mergeSort fun a b =>
    a.time < b.time || (a.time = b.time && s.rank a ≤ s.rank b)

/-- Takes a step and does all that is due after it. -/
def step (s : Stage) (next : Step) : Report × Stage :=
  let (result, s) := s.take next
  let s := { s with run := s.run.settle }
  let report : Report :=
    { time := s.run.time, now := s.run.service.now, result, watching := s.run.service.marks.size,
      entries := s.sorted }
  (report, { s with run := { s.run with entries := [] } })

def steps (s : Stage) : List Step → List Report
  | [] => []
  | next :: rest =>
    let (report, s) := s.step next
    report :: s.steps rest

end Stage

end Scenario

/-- A service in scripted surroundings, and what to do with it. -/
structure Scenario where
  settings : Settings
  signers : List Scenario.ScriptedSigner
  chain : Scenario.ScriptedChain
  readFaults : List Scenario.Window
  writeFaults : List Scenario.Window
  /-- Whether the store answers only the open records of the signers. -/
  filtering : Bool
  /-- Whether the reports show the polls. -/
  tracesPolls : Bool
  /-- Whether somebody is told of failures. -/
  observed : Bool
  steps : List Scenario.Step

namespace Scenario

/-- When every run begins. -/
def beginning : Moment := .ofMillis 1700000000000

/-- When the machine of every run was started: an hour before. -/
def booted : Int := beginning.nanos - 3600 * nanosPerSecond

/-- Whether the reports show an event. -/
def shows (s : Scenario) (e : Entry) : Bool :=
  match e.event with
  | .polled _ => s.tracesPolls
  | .logged .. => s.observed
  | .called .. | .signing .. | .wrote .. => true
  | .started _ | .crashed _ | .ended _ => false

/-- The reports of the steps. -/
def reports (s : Scenario) : List Report :=
  let signers := s.signers.foldl
    (fun (r : Registry Signer) x => r.insert x.address (x.signer beginning)) .empty
  let run : Run :=
    { setup := { settings := s.settings, signers, filtering := s.filtering, booted },
      start := beginning, readFaults := s.readFaults, writeFaults := s.writeFaults,
      service := .initial beginning, chain := s.chain, plans := [], entries := [] }
  (Stage.steps ⟨run, 0, [], []⟩ s.steps).map fun r => { r with entries := r.entries.filter s.shows }

end Scenario

end GasEscalator
