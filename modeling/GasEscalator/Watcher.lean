import GasEscalator.Event
import GasEscalator.Registry
import GasEscalator.Signer
import GasEscalator.Ticker

/-!
# Watchers

A watcher drives one record to its final status. Between its ticks it waits; of several things due
at once it takes a stop first, then the deadline, a status check and a price increase. A status
check asks the chain for the transaction and then for its receipt; a price increase signs, sends and
stores the transaction at a higher price. Each step below goes from one point of waiting to the
next and lists what happened on the way.
-/
namespace GasEscalator

/-- What a watcher does once a record has been written. -/
inductive AfterWrite
  /-- It is through with its record. -/
  | finish
  /-- It goes on with the record written. -/
  | resume
  /-- It leaves, whether the write worked or not. -/
  | giveUp
deriving DecidableEq

/-- What a watcher waits for. -/
inductive Phase
  /-- For the next thing that is due. -/
  | waiting
  /-- For the chain, since the call began. -/
  | calling (since : Moment) (call : Call)
  /-- For the store to take a record. -/
  | writing (record : Record) (after : AfterWrite)
  /-- For nothing; it is about to be removed. -/
  | done
deriving DecidableEq

structure Watcher where
  record : Record
  deadline : Moment
  check : Ticker
  increase : Ticker
  phase : Phase
deriving DecidableEq

namespace Watcher

def id (w : Watcher) : String := w.record.id

/-- A watcher for a record, when its timers can be set. -/
def start? (now uptime : Moment) (r : Record) : Option Watcher := do
  let deadline ← r.deadline?
  let check ← Ticker.start? now uptime r.policy.checkInterval
  let increase ← Ticker.start? now uptime r.policy.increaseInterval
  return { record := r, deadline, check, increase, phase := .waiting }

/-! ## Ways on -/

def wait (w : Watcher) : Watcher × List Event := ({ w with phase := .waiting }, [])

def leave (w : Watcher) : Watcher × List Event := ({ w with phase := .done }, [])

def write (w : Watcher) (r : Record) (after : AfterWrite) : Watcher × List Event :=
  ({ w with phase := .writing r after }, [])

/-- Asks for the record to get its final status. -/
def settle (w : Watcher) (status : Status) : Watcher × List Event :=
  w.write (w.record.withStatus status) .finish

def call (w : Watcher) (now : Moment) (c : Call) : Watcher × List Event :=
  ({ w with phase := .calling now c }, [.called w.id w.record.chainId c])

/-- The step `next`, with an event in front of it. -/
def noting (e : Event) (next : Watcher × List Event) : Watcher × List Event :=
  (next.1, e :: next.2)

/-- Leaves the record to a later poll, unless its deadline has come. -/
def bail (w : Watcher) (now : Moment) (e : Failure) : Watcher × List Event :=
  noting (.logged w.record e) <|
    if w.deadline ≤ now then w.write (w.record.withStatus .failed) .giveUp else w.leave

def fail (w : Watcher) (now : Moment) (e : Failure) : Watcher × List Event :=
  if e.forcesFailure then noting (.logged w.record e) (w.settle .failed) else w.bail now e

/-! ## Status checks -/

def beginCheck (w : Watcher) (now : Moment) : Watcher × List Event :=
  match w.record.latest with
  | .error e => w.fail now (.decode e)
  | .ok tx => w.call now (.lookup tx.hash)

def judge (w : Watcher) (r : Receipt) : Watcher × List Event :=
  if r.status = Receipt.successful then w.settle .succeeded
  else if r.status = Receipt.unsuccessful then w.settle .failed
  else noting (.logged w.record (.unknownReceiptStatus r.status w.id r.hash)) (w.settle .failed)

/-! ## Price increases -/

/-- Begins a price increase: checks the ceiling, finds the signer and has the transaction signed. -/
def beginIncrease (w : Watcher) (signers : Registry Signer) (now : Moment) :
    Watcher × List Event :=
  match w.record.latest with
  | .error e => w.fail now (.decode e)
  | .ok latest =>
    let price := w.record.policy.raise latest.gasPrice
    if w.record.policy.maxPrice < price then
      w.fail now (.priceLimit w.id w.record.policy.maxPrice w.record.chainId)
    else
      let tx := latest.payload.withGasPrice price
      match signers.resolve w.record.sender with
      | none => w.fail now (.missingSigner w.record.sender)
      | some (address, signer) =>
        noting (.signing w.id address w.record.chainId tx) <|
          match signer now tx w.record.chainId with
          | .error e => w.fail now (.sign e)
          | .ok signed => w.call now (.send signed)

/-! ## Steps -/

/-- Takes the first thing that is due, if anything is. -/
def wake (w : Watcher) (signers : Registry Signer) (stopped : Bool) (now : Moment) :
    Option (Watcher × List Event) :=
  match w.phase with
  | .waiting =>
    if stopped then some w.leave
    else if w.deadline ≤ now then some (w.settle .failed)
    else if w.check.isDue now then some ({ w with check := w.check.next now }.beginCheck now)
    else if w.increase.isDue now then
      some ({ w with increase := w.increase.next now }.beginIncrease signers now)
    else none
  | _ => none

def resume (w : Watcher) (now : Moment) :
    (c : Call) → Except ChainError c.Result → Watcher × List Event
  | .lookup _, .error e => w.fail now (.chain .lookup e)
  | .lookup _, .ok true => w.wait
  | .lookup hash, .ok false => w.call now (.receipt hash)
  | .receipt _, .error e => w.fail now (.chain .receipt e)
  | .receipt _, .ok r => w.judge r
  | .send _, .error e => w.fail now (.broadcast e)
  | .send tx, .ok () => w.write (w.record.withLatest tx) .resume

def answer (w : Watcher) (now : Moment) (replies : Replies) : Option (Watcher × List Event) :=
  match w.phase with
  | .calling _ c => some (w.resume now c (replies c))
  | _ => none

/-- Takes the store's answer to the write of `r`. -/
def stored (w : Watcher) (now : Moment) (r : Record) (after : AfterWrite) :
    Except StorageError Unit → Watcher × List Event
  | .ok () =>
    match after with
    | .finish | .giveUp => w.leave
    | .resume => { w with record := r }.wait
  | .error e =>
    match after with
    | .finish | .resume => w.bail now (.storage e)
    | .giveUp => noting (.logged w.record (.storage e)) w.leave

/-- When the watcher next has something to do by itself: at once when it is stopped or writing, at
its first timer when it waits, and at the limit when it calls. -/
def dueAt (w : Watcher) (limit : Option Duration) (stopped : Bool) (now : Moment) :
    Option Moment :=
  match w.phase with
  | .waiting =>
    if stopped then some now
    else some ((w.deadline.earliest w.check.due).earliest w.increase.due)
  | .calling since _ => limit.map fun d => since + d
  | .writing .. => some now
  | .done => none

end Watcher

end GasEscalator
