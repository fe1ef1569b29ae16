import GasEscalator.Service

/-!
# Histories of a service

A history lists the moves that a service has made since it began over an empty store, the latest
first, each with the state before and after it and with what happened. The environment is free at
every move, so that what holds of every history holds for every chain, every signer, every pattern
of storage faults and every order of what is due at one instant.
-/
namespace GasEscalator

structure Transition where
  before : Service
  move : Move
  after : Service
  events : List Event

/-- The move was possible and did what the transition says. -/
def Transition.Made (c : Setup) (x : Transition) : Prop :=
  x.before.apply c x.move = some (x.after, x.events)

/-- The service has made the moves of a list, the latest first, and is now in a state. -/
inductive History (c : Setup) : List Transition → Service → Prop
  | start (now : Moment) : History c [] (.initial now)
  | step {past : List Transition} {s s' : Service} {m : Move} {events : List Event}
      (run : History c past s) (made : s.apply c m = some (s', events)) :
      History c (⟨s, m, s', events⟩ :: past) s'

namespace History

variable {c : Setup} {past later : List Transition} {x : Transition} {s : Service}

/-- The latest move led to the present state, from a state with a history of its own. -/
theorem cons_iff : History c (x :: past) s ↔
    History c past x.before ∧ x.Made c ∧ s = x.after := by
  constructor
  · intro run
    cases run with
    | step run made => exact ⟨run, made, rfl⟩
  · rintro ⟨run, made, rfl⟩
    exact .step run made

/-- What lies behind a move of a history is the history of the state after it. -/
theorem of_append (run : History c (later ++ x :: past) s) : History c (x :: past) x.after := by
  induction later generalizing s with
  | nil =>
    obtain ⟨run, made, -⟩ := cons_iff.mp run
    exact .step run made
  | cons y later ih => exact ih (cons_iff.mp run).1

/-- A move among the later ones of a history was made with the earlier ones behind it. -/
theorem of_mem_append {earlier : List Transition} (run : History c (later ++ earlier) s)
    (hx : x ∈ later) :
    ∃ after before, later = after ++ x :: before ∧
      History c (x :: (before ++ earlier)) x.after := by
  obtain ⟨after, before, rfl⟩ := List.append_of_mem hx
  rw [List.append_assoc] at run
  exact ⟨after, before, rfl, of_append run⟩

/-- What holds after a move and is kept by every later one holds from then on. -/
theorem since {P : List Transition → Service → Prop} (run : History c (later ++ x :: past) s)
    (first : P [] x.after)
    (next : ∀ y later, History c (y :: (later ++ x :: past)) y.after → P later y.before →
      P (y :: later) y.after) : P later s := by
  induction later generalizing s with
  | nil =>
    obtain ⟨-, -, rfl⟩ := cons_iff.mp run
    exact first
  | cons y later ih =>
    obtain ⟨before, -, rfl⟩ := cons_iff.mp run
    exact next y later run (ih before)

end History

/-- Makes moves one after the other, as long as each is possible. -/
def replay (c : Setup) : List Move → List Transition → Service → Option (List Transition × Service)
  | [], past, s => some (past, s)
  | m :: rest, past, s => do
    let (s', events) ← s.apply c m
    replay c rest (⟨s, m, s', events⟩ :: past) s'

/-- Moves that could be made are a history. -/
theorem History.of_replay {c : Setup} {moves : List Move} {past past' : List Transition}
    {s s' : Service} (run : History c past s)
    (made : replay c moves past s = some (past', s')) :
    History c past' s' ∧ past'.map (·.move) = moves.reverse ++ past.map (·.move) := by
  induction moves generalizing past s with
  | nil =>
    obtain ⟨rfl, rfl⟩ := Prod.mk.inj (Option.some.inj made)
    exact ⟨run, rfl⟩
  | cons m rest ih =>
    obtain ⟨⟨s₁, events⟩, first, made⟩ := Option.bind_eq_some_iff.mp made
    obtain ⟨run', moves'⟩ := ih (run.step first) made
    exact ⟨run', by rw [moves']; simp⟩

/-- A test that moves from an empty store pass is passed by a history of just these moves. -/
theorem History.exists_of_replay {c : Setup} (moves : List Move) (now : Moment)
    (test : List Transition → Bool)
    (passed : (replay c moves [] (.initial now)).any (fun p => test p.1) = true) :
    ∃ past s, History c past s ∧ past.map (·.move) = moves.reverse ∧ test past = true := by
  obtain ⟨⟨past, s⟩, made, passed⟩ := (Option.any_eq_true ..).mp passed
  obtain ⟨run, moves'⟩ := History.of_replay (.start now) made
  exact ⟨past, s, run, by rw [moves']; simp, passed⟩

/-- What a test says of a list when it is split after its first `n` members. -/
def splitTest {α : Type} (n : Nat) (test : List α → α → List α → Bool) (all : List α) : Bool :=
  match all.drop n with
  | [] => false
  | x :: past => test (all.take n) x past

/-- The same with the history split at one of the moves. -/
theorem History.exists_split_of_replay {c : Setup} (earlier : List Move) (m : Move)
    (later : List Move) (now : Moment)
    (test : List Transition → Transition → List Transition → Bool)
    (passed : (replay c (earlier ++ m :: later) [] (.initial now)).any
      (fun p => splitTest later.length test p.1) = true) :
    ∃ after x past s, History c (after ++ x :: past) s ∧ after.map (·.move) = later.reverse ∧
      x.move = m ∧ past.map (·.move) = earlier.reverse ∧ test after x past = true := by
  obtain ⟨all, s, run, moves, passed⟩ :=
    History.exists_of_replay (earlier ++ m :: later) now (splitTest later.length test) passed
  rw [List.reverse_append, List.reverse_cons, List.append_assoc, List.map_eq_append_iff] at moves
  obtain ⟨after, rest, rfl, made, moves⟩ := moves
  obtain ⟨x, past, rfl, hm, moves⟩ := List.map_eq_cons_iff.mp moves
  have length : after.length = later.length := by
    rw [← List.length_map, made, List.length_reverse]
  rw [splitTest, List.take_left' length, List.drop_left' length] at passed
  exact ⟨after, x, past, s, run, made, hm, moves, passed⟩

/-! ## Who stores what -/

/-- Whether a move stores a record under an id on behalf of somebody outside the service. -/
def Move.introduces (id : String) : Move → Bool
  | .insert new .. => new = id
  | .place r => r.id = id
  | _ => false

/-- A record is stored from outside under an id that has one. The ids that the service makes up for
new records are fresh, so that an honest insertion never does this. -/
def Transition.Rewrites (x : Transition) (id : String) : Prop :=
  x.move.introduces id = true ∧ (x.before.store.get? id).isSome = true

instance (x : Transition) (id : String) : Decidable (x.Rewrites id) :=
  inferInstanceAs (Decidable (_ ∧ _))

/-! ## A small service

One record, one signer that signs for every sender, and a store that answers all its records. -/

namespace Sample

/-- A transaction at the price 40. -/
def tx : SignedTx :=
  { chainId := 1
    payload :=
      { nonce := 12, gasPrice := .saturating 40, gasLimit := 60000, recipient := none,
        value := .zero 32, data := [0xa9, 0x05] }
    signature := [0] }

/-- A minute in all, a status check every ten seconds, the double price every four, at most 100. -/
def policy : Policy :=
  { timeout := .ofMillis 60000, checkInterval := .ofMillis 10000,
    increaseInterval := .ofMillis 4000, priceMultiplier := ⟨0x4000000000000000⟩,
    maxPrice := .saturating 100 }

/-- A record from before senders were kept. -/
def record : Record :=
  { id := "a", chainId := 1, sender := "", status := .pending, policy, latestTx := tx.encode,
    createdAt := ⟨0⟩ }

def timed (timeout check increase : UInt64) : Record :=
  { record with policy := { policy with
      timeout := .ofMillis timeout, checkInterval := .ofMillis check,
      increaseInterval := .ofMillis increase } }

def signer : Signer := fun _ payload chainId => .ok { chainId, payload, signature := [1] }

def setup : Setup :=
  { settings := { pollInterval := .ofMillis 10000, maxQueuePerSigner := 2, callTimeout := none }
    signers := Registry.empty.insert .zero signer
    filtering := false
    booted := 0 }

/-- The answers of a chain on which everything is mined and carried out. -/
def mined : Replies
  | .lookup _ => .ok false
  | .receipt hash => .ok ⟨hash, Receipt.successful⟩
  | .send _ => .ok ()

/-- The sample transaction at another price, as the signer signs it. -/
def bumped (price : Nat) : SignedTx :=
  { chainId := 1, payload := tx.payload.withGasPrice (.saturating price), signature := [1] }

/-- The record is placed and polled ten seconds later. -/
def begun (r : Record) : List Move :=
  [.place r, .startPoller, .advance (.ofMillis 10000), .poll 0 (.ok ())]

/-- Before the first status check the price goes from 40 to 80 and the next one would be above the
ceiling. -/
def failing : List Move := begun record ++
  [.advance (.ofMillis 14000), .wake "a", .answer "a" mined, .stored "a" (.ok ()),
   .advance (.ofMillis 18000), .wake "a", .stored "a" (.ok ())]

def failed : Record := (record.withLatest (bumped 80)).withStatus .failed

end Sample

end GasEscalator
