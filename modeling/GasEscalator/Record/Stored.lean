import GasEscalator.Record
import GasEscalator.Settings
import GasEscalator.Json.Number
import GasEscalator.Json.Reader
import GasEscalator.Json.Printer

/-!
# The stored form of records

Records, policies and settings as JSON. A duration is a whole number of milliseconds, a status is
its name, and a moment is its seconds and nanoseconds. Reading takes the keys in any order or an
array of the values in the order written; a missing or repeated key is refused, except that settings
fall back to their standard where a key is missing.
-/
namespace GasEscalator

/-! ## Leaves -/

namespace Json

def ofDuration (d : Duration) : Json := .ofNat d.storedMillis.toNat

def uint64? (v : Json) : Option UInt64 := (v.natBelow? 0x10000000000000000).map UInt64.ofNat

def byte? (v : Json) : Option UInt8 := (v.natBelow? 0x100).map UInt8.ofNat

def price? (v : Json) : Option Price := do Price.ofNat? (← v.nat?)

def duration? (v : Json) : Option Duration := v.uint64?.map Duration.ofMillis

def optionalDuration? : Json → Option (Option Duration)
  | .null => some none
  | v => v.duration?.map some

end Json

/-- A name, or an object whose only key is the name, over null. -/
def Status.ofJson? : Json → Option Status
  | .text name => name.bind Status.ofName?
  | .object [(name, .null)] => name.bind Status.ofName?
  | _ => none

def Moment.keys : List String := ["secs_since_epoch", "nanos_since_epoch"]

def Moment.toJson (m : Moment) : Json :=
  .ofMembers [("secs_since_epoch", .ofNat m.seconds), ("nanos_since_epoch", .ofNat m.subsecondNanos)]

/-- Nanoseconds beyond a second carry over; the moment must be one that clocks can show. -/
def Moment.ofJson? (v : Json) : Option Moment := do
  match ← v.exactFields? Moment.keys with
  | [some seconds, some nanos] =>
    let m := Moment.ofParts (← seconds.natBelow? 0x10000000000000000) (← nanos.natBelow? 0x100000000)
    if m.isRepresentable then some m else none
  | _ => none

/-! ## Policies -/

def Policy.keys : List String :=
  ["timeout", "check_interval", "increase_interval", "price_multiplier", "max_price"]

def Policy.toJson (p : Policy) : Json :=
  .ofMembers (Policy.keys.zip
    [.ofDuration p.timeout, .ofDuration p.checkInterval, .ofDuration p.increaseInterval,
      .ofBinary64 p.priceMultiplier, .ofNat p.maxPrice.val])

def Policy.ofJson? (v : Json) : Option Policy := do
  match ← v.fields? Policy.keys with
  | [some timeout, some check, some increase, some multiplier, some price] =>
    return {
      timeout := ← timeout.duration?
      checkInterval := ← check.duration?
      increaseInterval := ← increase.duration?
      priceMultiplier := ← multiplier.binary64?
      maxPrice := ← price.price? }
  | _ => none

def Policy.stored (p : Policy) : String := p.toJson.render

def Policy.ofStored? (text : String) : Option Policy := do Policy.ofJson? (← Json.parse? text)

/-! ## Settings -/

def Settings.keys : List String := ["pull_interval", "max_queue_per_signer", "call_timeout"]

def Settings.toJson (s : Settings) : Json :=
  .ofMembers (Settings.keys.zip
    [.ofDuration s.pollInterval, .ofNat s.maxQueuePerSigner.toNat,
      s.callTimeout.elim .null .ofDuration])

/-- Reads a value where there is one, and keeps the given one else. -/
def orStandard {α : Type} (standard : α) (read : Json → Option α) : Option Json → Option α
  | none => some standard
  | some v => read v

def Settings.ofJson? (v : Json) : Option Settings := do
  match ← v.fields? Settings.keys with
  | [interval, queue, limit] =>
    return {
      pollInterval := ← orStandard Settings.standard.pollInterval Json.duration? interval
      maxQueuePerSigner := ← orStandard Settings.standard.maxQueuePerSigner Json.uint64? queue
      callTimeout := ← orStandard Settings.standard.callTimeout Json.optionalDuration? limit }
  | _ => none

def Settings.stored (s : Settings) : String := s.toJson.render

def Settings.ofStored? (text : String) : Option Settings := do Settings.ofJson? (← Json.parse? text)

/-! ## Records -/

def Record.keys : List String :=
  ["unique_id", "chain_id", "sender_address_hex", "state", "opts", "latest_tx", "created_at"]

def Record.toJson (r : Record) : Json :=
  .ofMembers (Record.keys.zip
    [.ofText r.id, .ofNat r.chainId.toNat, .ofText r.sender, .ofText r.status.name, r.policy.toJson,
      .array (r.latestTx.map fun b => .ofNat b.toNat), r.createdAt.toJson])

def Record.ofJson? (v : Json) : Option Record := do
  match ← v.fields? Record.keys with
  | [some id, some chain, some sender, some status, some policy, some latest, some created] =>
    return {
      id := ← id.text?
      chainId := ← chain.uint64?
      sender := ← sender.text?
      status := ← Status.ofJson? status
      policy := ← Policy.ofJson? policy
      latestTx := ← (← latest.items?).mapM Json.byte?
      createdAt := ← Moment.ofJson? created }
  | _ => none

def Record.stored (r : Record) : String := r.toJson.render

def Record.ofStored? (text : String) : Option Record := do Record.ofJson? (← Json.parse? text)

end GasEscalator
