import GasEscalator.Proofs.Strides

/-!
# Winding down

A stop starts nothing and interrupts nothing. A poll that it falls into goes on to offer its records,
but no offer does anything any more. What a watcher of a stopped service still does can be read off
the point at which it waits: no turn of it gives more than it takes from that, and when it is back
between its ticks it leaves.
-/
namespace GasEscalator

/-- What a watcher does: its calls, the latest first, the answers of the store about its writes, how
many of them say that the record is stored, and its moves. -/
structure Budget where
  calls : List Call
  writes : Nat
  saves : Nat
  moves : Nat
deriving DecidableEq

namespace Budget

def nothing : Budget := ⟨[], 0, 0, 0⟩

instance : Add Budget :=
  ⟨fun a b => ⟨a.calls ++ b.calls, a.writes + b.writes, a.saves + b.saves, a.moves + b.moves⟩⟩

instance : LE Budget :=
  ⟨fun a b => a.calls.Sublist b.calls ∧ a.writes ≤ b.writes ∧ a.saves ≤ b.saves ∧
    a.moves ≤ b.moves⟩

theorem le_iff {a b : Budget} : a ≤ b ↔ a.calls.Sublist b.calls ∧ a.writes ≤ b.writes ∧
    a.saves ≤ b.saves ∧ a.moves ≤ b.moves := Iff.rfl

@[simp] theorem calls_add (a b : Budget) : (a + b).calls = a.calls ++ b.calls := rfl
@[simp] theorem writes_add (a b : Budget) : (a + b).writes = a.writes + b.writes := rfl
@[simp] theorem saves_add (a b : Budget) : (a + b).saves = a.saves + b.saves := rfl
@[simp] theorem moves_add (a b : Budget) : (a + b).moves = a.moves + b.moves := rfl

theorem le_refl (a : Budget) : a ≤ a :=
  ⟨.refl _, Nat.le_refl _, Nat.le_refl _, Nat.le_refl _⟩

theorem add_nothing (a : Budget) : a + nothing = a := by
  show Budget.mk (a.calls ++ []) a.writes a.saves a.moves = a
  rw [List.append_nil]

/-- What is spent in two steps is paid from what was there before the first. -/
theorem le_of_spent {a b d spent spent' : Budget} (first : b + spent ≤ a) (second : d + spent' ≤ b) :
    d + (spent' + spent) ≤ a := by
  obtain ⟨calls, writes, saves, moves⟩ := first
  obtain ⟨calls', writes', saves', moves'⟩ := second
  simp only [calls_add, writes_add, saves_add, moves_add] at *
  refine ⟨?_, ?_, ?_, ?_⟩
  · rw [calls_add, calls_add, ← List.append_assoc]
    exact (calls'.append_right _).trans calls
  all_goals
    simp only [writes_add, saves_add, moves_add]
    omega

end Budget

/-- What a watcher of a stopped service may still do, at the point where it waits. A lookup is
followed by the receipt of the same transaction; a write that fails can be followed by another. -/
def Phase.budget : Phase → Budget
  | .done => .nothing
  | .waiting => ⟨[], 0, 0, 1⟩
  | .calling _ (.lookup hash) => ⟨[.receipt hash], 2, 1, 4⟩
  | .calling _ (.receipt _) | .calling _ (.send _) => ⟨[], 2, 1, 3⟩
  | .writing _ .finish | .writing _ .resume => ⟨[], 2, 1, 2⟩
  | .writing _ .giveUp => ⟨[], 1, 1, 1⟩

def Service.budget (s : Service) (id : String) : Budget :=
  match s.watcher? id with
  | some w => w.phase.budget
  | none => .nothing

/-- The call that an event begins for a record. -/
def Event.call? (id : String) : Event → Option Call
  | .called i _ call => if i = id then some call else none
  | _ => none

@[simp] theorem Event.call?_logged (id : String) (r : Record) (f : Failure) :
    Event.call? id (.logged r f) = none := rfl

@[simp] theorem Event.call?_called (id : String) (chainId : UInt64) (call : Call) :
    Event.call? id (.called id chainId call) = some call := if_pos rfl

def Move.writes : Move → Nat
  | .stored .. => 1
  | _ => 0

def Move.saves : Move → Nat
  | .stored _ (.ok ()) => 1
  | _ => 0

/-- What the watcher of a record does in a move. -/
def Transition.spent (x : Transition) (id : String) : Budget where
  calls := x.events.filterMap (Event.call? id)
  writes := if x.move.actor = some id then x.move.writes else 0
  saves := if x.move.actor = some id then x.move.saves else 0
  moves := if x.move.actor = some id then 1 else 0

/-- What the watcher of a record does in moves, the latest first. -/
def spent (id : String) : List Transition → Budget
  | [] => .nothing
  | x :: past => x.spent id + spent id past

/-! ## Turns -/

section Turns

variable {c : Setup} {x : Transition} {w w' : Watcher} {events : List Event}

/-- A watcher in a call has a write and two more moves before it. -/
theorem Phase.budget_calling (since : Moment) (call : Call) :
    (Phase.calling since call).budget.writes = 2 ∧ (Phase.calling since call).budget.saves = 1 ∧
      3 ≤ (Phase.calling since call).budget.moves := by
  cases call <;> simp [budget]

theorem Phase.budget_moves_pos {p : Phase} (live : p ≠ .done) : 1 ≤ p.budget.moves := by
  cases p with
  | waiting => exact Nat.le_refl 1
  | calling since call =>
    have := (Phase.budget_calling since call).2.2
    omega
  | writing r after => cases after <;> simp [budget]
  | done => exact absurd rfl live

theorem Phase.budget_bounds (p : Phase) : p.budget.saves ≤ 1 ∧ p.budget.moves ≤ 4 := by
  cases p with
  | waiting | done => simp [budget, Budget.nothing]
  | calling since call => cases call <;> simp [budget]
  | writing r after => cases after <;> simp [budget]

theorem Transition.Hears.writes {id : String} {call : Call} {result : Except ChainError call.Result}
    (heard : x.Hears c id call result) : x.move.writes = 0 ∧ x.move.saves = 0 := by
  cases heard with
  | answer hm | expire hm =>
    rw [hm]
    exact ⟨rfl, rfl⟩

theorem Transition.Begins.running {id : String} {k : TickKind} (tick : x.Begins id k) :
    x.before.stopped = false := by
  obtain ⟨-, w, -, tick⟩ := tick
  exact tick.running

/-- In a stopped service a record is given up for what was heard about it only. -/
theorem Grounds.phase {k : TickKind} (grounds : Grounds c w.record x k)
    (hw : x.before.watcher? w.id = some w) (stopped : x.before.stopped = true) :
    (∃ since call, w.phase = .calling since call) ∧ x.move.writes = 0 ∧ x.move.saves = 0 := by
  rcases grounds.origin with tick | ⟨call, result, heard⟩
  · have running := tick.running
    simp [stopped] at running
  · obtain ⟨since, calling⟩ := heard.calling hw
    exact ⟨⟨since, call, calling⟩, heard.writes⟩

theorem Setback.phase {e : Failure} (setback : Setback c x w.id e)
    (hw : x.before.watcher? w.id = some w) :
    x.move.saves = 0 ∧ x.move.writes + 1 ≤ w.phase.budget.writes ∧ w.phase.budget.saves = 1 ∧
      2 ≤ w.phase.budget.moves := by
  rcases setback.origin with ⟨call, result, heard⟩ | ⟨r, after, e, learned, again⟩
  · obtain ⟨since, calling⟩ := heard.calling hw
    obtain ⟨writes, saves⟩ := heard.writes
    have bound := Phase.budget_calling since call
    rw [calling]
    omega
  · rw [learned.writing hw, learned.1]
    cases after with
    | finish | resume => simp [Move.saves, Move.writes, Phase.budget]
    | giveUp => exact absurd rfl again

theorem Turn.winds (turn : Turn c x w w' events) (hw : x.before.watcher? w.id = some w)
    (stopped : x.before.stopped = true) :
    w'.phase.budget +
      ⟨events.filterMap (Event.call? w.id), x.move.writes, x.move.saves, 1⟩ ≤ w.phase.budget := by
  rw [Budget.le_iff]
  cases turn with
  | stop hm waiting =>
    rw [hm, waiting]
    simp [Phase.budget, Budget.nothing, Move.writes, Move.saves]
  | timeUp _ _ _ running =>
    rw [stopped] at running
    cases running
  | ask _ tick | send _ tick =>
    have running := tick.running
    rw [stopped] at running
    cases running
  | pending _ heard | mined _ heard | success _ heard | sent _ heard =>
    obtain ⟨since, calling⟩ := heard.calling hw
    obtain ⟨writes, saves⟩ := heard.writes
    rw [calling, writes, saves]
    simp [Phase.budget]
  | condemn grounds _ reports =>
    obtain ⟨⟨since, call, calling⟩, writes, saves⟩ := grounds.phase hw stopped
    have bound := Phase.budget_calling since call
    have silent : events.filterMap (Event.call? w.id) = [] := by
      rw [List.filterMap_eq_nil_iff]
      intro e he
      rcases reports e he with ⟨f, rfl⟩ | ⟨-, address, tx, rfl⟩ <;> rfl
    rw [calling, writes, saves, silent]
    generalize (Phase.calling since call).budget = left at bound
    simp [Phase.budget]
    omega
  | leave setback =>
    have bound := setback.phase hw
    generalize w.phase.budget = left at bound
    simp [Phase.budget, Budget.nothing, List.filterMap_cons]
    omega
  | giveUp setback =>
    -- its failure is still to be written: the first write after a call, the second after a write
    have bound := setback.phase hw
    generalize w.phase.budget = left at bound
    simp [Phase.budget, List.filterMap_cons]
    omega
  | resume _ learned =>
    rw [learned.writing hw, learned.1]
    simp [Phase.budget, Move.writes, Move.saves]
  | @finish r after learned last =>
    rw [learned.writing hw, learned.1]
    cases after <;> simp_all [Phase.budget, Budget.nothing, Move.writes, Move.saves]
  | silent learned =>
    rw [learned.writing hw, learned.1]
    simp [Phase.budget, Budget.nothing, Move.writes, Move.saves]

end Turns

/-! ## Moves -/

namespace Service

theorem offer_of_stopped {s : Service} (c : Setup) (r : Record) (stopped : s.stopped = true) :
    s.offer c r = (s, []) := by
  rw [offer, stopped]
  rfl

/-- Offers to a stopped service do nothing. -/
theorem offerAll_of_stopped {s : Service} (c : Setup) (records : List Record)
    (stopped : s.stopped = true) : s.offerAll c records = (s, []) := by
  induction records with
  | nil => rfl
  | cons r rest ih => rw [offerAll_cons, offer_of_stopped c r stopped, ih, List.append_nil]

theorem budget_congr {s t : Service} {id : String} (same : t.watchers = s.watchers) :
    t.budget id = s.budget id := by
  unfold budget watcher?
  rw [same]

theorem budget_replace {s : Service} {w v : Watcher} (there : s.watcher? w.id = some v) :
    (s.replace w).budget w.id = w.phase.budget := by
  unfold budget
  rw [watcher?_replace, if_pos rfl, there]
  by_cases gone : w.phase = .done
  · rw [if_pos gone, gone]
    rfl
  · rw [if_neg gone]
    rfl

theorem budget_replace_other {s : Service} {w : Watcher} {id : String} (other : w.id ≠ id) :
    (s.replace w).budget id = s.budget id := by
  unfold budget
  rw [watcher?_replace, if_neg other]

end Service

section Moves

variable {c : Setup} {x : Transition} {id : String}

/-- Who makes no move and is not called for spends nothing. -/
theorem Transition.winds_idle (same : x.after.budget id = x.before.budget id)
    (calls : x.events.filterMap (Event.call? id) = []) (other : x.move.actor ≠ some id) :
    x.after.budget id + x.spent id ≤ x.before.budget id := by
  have spent : x.spent id = .nothing := by
    rw [Transition.spent, calls, if_neg other, if_neg other, if_neg other]
    rfl
  rw [spent, Budget.add_nothing, same]
  exact Budget.le_refl _

theorem Turn.calls_other {w w' : Watcher} {events : List Event} (turn : Turn c x w w' events)
    (other : w.id ≠ id) : events.filterMap (Event.call? id) = [] := by
  rw [List.filterMap_eq_nil_iff]
  intro e he
  rcases turn.event_cases he with ⟨call, rfl⟩ | ⟨address, tx, rfl⟩ | ⟨f, rfl⟩
  · exact if_neg other
  · rfl
  · rfl

theorem Watcher.calls_farewell (w : Watcher) (id : String) :
    w.farewell.filterMap (Event.call? id) = [] := by
  rw [List.filterMap_eq_nil_iff]
  intro e he
  rw [(Watcher.of_mem_farewell he).2]
  rfl

theorem Turn.winds_after {w w' : Watcher} {events : List Event} {store : Store}
    (turn : Turn c x w w' events) (hw : x.before.watcher? w.id = some w)
    (hm : x.move.actor = some w.id) (stopped : x.before.stopped = true)
    (after : x.after = { x.before with store }.replace w')
    (calls : x.events.filterMap (Event.call? id) = events.filterMap (Event.call? id)) :
    x.after.budget id + x.spent id ≤ x.before.budget id := by
  by_cases own : w.id = id
  · subst own
    have left : x.after.budget w.id = w'.phase.budget := by
      rw [after, ← turn.id_eq]
      exact Service.budget_replace (turn.id_eq ▸ hw)
    have whole : x.before.budget w.id = w.phase.budget := by rw [Service.budget, hw]
    rw [left, whole, Transition.spent, calls, if_pos hm, if_pos hm, if_pos hm]
    exact turn.winds hw stopped
  · have other : w'.id ≠ id := turn.id_eq ▸ own
    refine Transition.winds_idle ?_ (calls.trans (turn.calls_other own)) ?_
    · rw [after]
      exact Service.budget_replace_other other
    · rw [hm]
      exact fun h => own (Option.some.inj h)

/-- A move of a stopped service is paid from what was left before it. -/
theorem Effect.winds (effect : Effect c x) (stopped : x.before.stopped = true)
    (live : ∀ w ∈ x.before.watchers, w.phase ≠ .done) (id : String) :
    x.after.budget id + x.spent id ≤ x.before.budget id := by
  cases effect with
  | refused hm _ after events | placed hm after events | pollerStarted hm after events
  | stopped hm after events | advanced hm _ after events =>
    refine x.winds_idle (Service.budget_congr (by rw [after])) (by rw [events]; rfl) ?_
    rw [hm]
    nofun
  | inserted hm _ after events =>
    obtain ⟨store, h⟩ := Service.written_frame x.before _ _
    refine x.winds_idle (Service.budget_congr (by rw [after, h])) (by rw [events]; rfl) ?_
    rw [hm]
    nofun
  | @polled poller pollers records news hm _ _ told after events =>
    have nothing := Service.offerAll_of_stopped (s := { x.before with pollers }) c records stopped
    rw [nothing] at after events
    refine x.winds_idle (Service.budget_congr (by rw [after])) ?_ (by rw [hm]; nofun)
    rw [events, List.append_nil, List.filterMap_eq_nil_iff]
    intro e he
    obtain ⟨ids, rfl⟩ := told e he
    rfl
  | pollFailed _ tick =>
    have running := (Service.takeTick_frame tick).1
    rw [stopped] at running
    cases running
  | acted hw hm turn after events =>
    refine turn.winds_after hw hm stopped after ?_
    rw [events, List.filterMap_append, Watcher.calls_farewell, List.append_nil]
  | stored hw hm _ turn after events =>
    obtain ⟨store, h⟩ := Service.written_frame x.before _ _
    refine turn.winds_after hw hm stopped (h ▸ after) ?_
    rw [events, List.filterMap_cons_none rfl, List.filterMap_append, Watcher.calls_farewell,
      List.append_nil]
  | @crashed w hw hm after events =>
    have silent : x.events.filterMap (Event.call? id) = [] := by rw [events]; rfl
    by_cases own : w.id = id
    · subst own
      have left : x.after.budget w.id = .nothing := by
        rw [after]
        exact Service.budget_replace (w := { w with phase := .done }) hw
      have whole : x.before.budget w.id = w.phase.budget := by rw [Service.budget, hw]
      have spent : x.spent w.id = ⟨[], 0, 0, 1⟩ := by
        rw [Transition.spent, silent, hm]
        simp [Move.actor, Move.writes, Move.saves]
      -- brought down, it spends a move that it had left
      have pays := Phase.budget_moves_pos (live w (List.mem_of_find?_eq_some hw))
      rw [left, whole, spent]
      exact ⟨List.nil_sublist _, Nat.zero_le _, Nat.zero_le _, pays⟩
    · refine x.winds_idle ?_ silent ?_
      · rw [after]
        exact Service.budget_replace_other own
      · rw [hm]
        exact fun h => own (Option.some.inj h)

end Moves

/-! ## Chronicles -/

section Chronicles

variable {c : Setup} {past later : List Transition} {x : Transition} {s : Service}

theorem Chronicle.stopped_of_stop (run : Chronicle c (later ++ x :: past) s)
    (stop : x.move = .stop) : s.stopped = true :=
  run.stopped_since (by rw [run.of_append.effect.of_stop stop])

theorem Chronicle.winds (run : Chronicle c (later ++ x :: past) s)
    (stopped : x.after.stopped = true) (id : String) :
    s.budget id + spent id later ≤ x.after.budget id := by
  refine run.since (P := fun later t => t.budget id + spent id later ≤ x.after.budget id) ?_ ?_
  · rw [spent, Budget.add_nothing]
    exact Budget.le_refl _
  · intro y later upto paid
    exact Budget.le_of_spent paid
      (upto.effect.winds (upto.before.stopped_since stopped) upto.before.not_done id)

/-- From a stop on, a watcher spends no more than its share. -/
theorem Chronicle.spent_bounds {w : Watcher} (run : Chronicle c (later ++ x :: past) s)
    (stopped : x.after.stopped = true) (hw : w ∈ x.after.watchers) :
    (spent w.id later).calls.Sublist w.phase.budget.calls ∧ (spent w.id later).saves ≤ 1 ∧
      (spent w.id later).moves ≤ 4 ∧
      (w.phase = .waiting → (spent w.id later).calls = [] ∧ (spent w.id later).writes = 0) := by
  have whole : x.after.budget w.id = w.phase.budget := by
    rw [Service.budget, run.of_append.watcher?_of_mem hw]
  obtain ⟨calls, writes, saves, moves⟩ := run.winds stopped w.id
  rw [whole, Budget.calls_add] at calls
  rw [whole, Budget.writes_add] at writes
  rw [whole, Budget.saves_add] at saves
  rw [whole, Budget.moves_add] at moves
  have bounds := w.phase.budget_bounds
  have within := (List.sublist_append_right _ _).trans calls
  refine ⟨within, by omega, by omega, ?_⟩
  intro waiting
  rw [waiting] at within writes
  exact ⟨List.sublist_nil.mp within, by simp only [Phase.budget] at writes; omega⟩

/-- In a stopped service no other records get watchers. -/
theorem Chronicle.watched_before (run : Chronicle c (x :: past) s)
    (stopped : x.before.stopped = true) :
    ∀ v ∈ x.after.watchers, ∃ w ∈ x.before.watchers, w.id = v.id := by
  intro v hv
  cases run.effect.origin hv with
  | idle was _ => exact ⟨v, was, rfl⟩
  | turned hw _ turn _ => exact ⟨_, List.mem_of_find?_eq_some hw, turn.id_eq.symm⟩
  | started _ _ _ starts =>
    have running := starts.running
    simp [stopped] at running

theorem Chronicle.unwatched_since (run : Chronicle c (later ++ x :: past) s)
    (stopped : x.after.stopped = true) (gone : x.after.watchers = []) : s.watchers = [] := by
  refine run.since (P := fun _ t => t.watchers = []) gone ?_
  intro y later upto none
  apply List.eq_nil_iff_forall_not_mem.mpr
  intro v hv
  obtain ⟨w, hw, -⟩ := upto.watched_before (upto.before.stopped_since stopped) v hv
  simp [none] at hw

/-- Nothing is done for records in a service without watchers but to take in new ones. -/
theorem Effect.quiet_of_unwatched {e : Event} (effect : Effect c x) (gone : x.before.watchers = [])
    (he : e ∈ x.events) : (∀ id chainId call, e ≠ .called id chainId call) ∧
      ∀ r ok, e = .wrote r ok →
        ∃ tx policy sender outcome, x.move = .insert r.id tx policy sender outcome := by
  cases effect.source he with
  | @inserted id tx policy sender outcome _ hm =>
    refine ⟨by simp, ?_⟩
    rintro r ok ⟨⟩
    exact ⟨tx, policy, sender, outcome, hm⟩
  | polled | ended | crashed => simp
  | offered _ _ _ event => cases event <;> simp
  | turned hw _ _ => simp [Service.watcher?, gone] at hw
  | wrote hw _ _ _ _ _ => simp [Service.watcher?, gone] at hw

end Chronicles

/-! ## Runs -/

/-- A shutdown has come to its end: it stops the service and waits for the last watcher to leave. -/
def Service.ShutDown (s : Service) : Prop := s.stopped = true ∧ s.watchers = []

section Runs

open Interleaving

variable {c : Setup} {past later : List Step} {x y : Step} {i : Interleaving}

theorem Interleaving.Step.Taken.unpolled_of_stopped (taken : y.Taken c)
    (stopped : y.before.service.stopped = true) (poller : Nat) :
    y.stride ≠ .read poller ∧
      (y.stride = .offer poller → y.after.service = y.before.service ∧ y.events = []) := by
  constructor
  · intro hs
    cases taken.outcome with
    | read _ tick => simp [(Service.takeTick_frame tick).1] at stopped
    | offer hs' | advance hs' | move hs' => cases hs.symm.trans hs'
  · intro hs
    cases taken.outcome with
    | offer _ _ service _ events =>
      rw [Service.offer_of_stopped c _ stopped] at service events
      exact ⟨service, events⟩
    | read hs' | advance hs' | move hs' => cases hs.symm.trans hs'

theorem Interleaving.Step.Taken.idle_of_stop (taken : y.Taken c)
    (stopped : y.before.service.stopped = true) (stop : y.stride = .move .stop) :
    y.after = y.before ∧ y.events = [] := by
  unfold Step.Taken at taken
  rw [stop] at taken
  obtain ⟨after, events⟩ := Prod.mk.inj (Option.some.inj taken)
  refine ⟨?_, events.symm⟩
  rw [← after, ← stopped]

/-- After a shutdown nothing is done but to take in what is handed over. -/
theorem Interleaving.Run.quiet_since (run : Run c (later ++ x :: past) i)
    (shut : x.after.service.ShutDown) :
    x.after.service.marks.size = 0 ∧ i.service.watchers = [] ∧ ∀ z ∈ later, ∀ e ∈ z.events,
      (∀ id chainId call, e ≠ .called id chainId call) ∧
        ∀ r ok, e = .wrote r ok →
          ∃ tx policy sender outcome, z.stride = .move (.insert r.id tx policy sender outcome) := by
  obtain ⟨still, gone⟩ := shut
  have chronicle := run.chronicle_append
  refine ⟨?_, chronicle.unwatched_since still gone, ?_⟩
  · have marked : x.after.service.marks.ids.length =
        (x.after.service.watchers.map (·.id)).length := chronicle.of_append.guarded.length_eq
    rw [WatchSet.size, marked, gone]
    rfl
  · intro z hz e he
    obtain ⟨after, before, rfl, upto⟩ := run.of_mem_append hz
    have unwatched := (Run.cons_iff.mp upto).1.chronicle_append.unwatched_since still gone
    obtain ⟨silent, writes⟩ := upto.chronicle.effect.quiet_of_unwatched unwatched he
    refine ⟨silent, ?_⟩
    intro r ok wrote
    obtain ⟨tx, policy, sender, outcome, hm⟩ := writes r ok wrote
    exact ⟨tx, policy, sender, outcome, Step.stride_eq_insert hm⟩

/-- **A stopped service winds down.** After a stop, into whatever poll it falls, no watcher and no
tick begins: nothing is read, and what is offered changes nothing. A watcher that waits between its
ticks leaves without a call or a write; one in a tick makes the calls that the tick still needs, has
its record stored once at most and leaves, and only the chain can keep it from doing so. Another stop
changes nothing. After a shutdown there is no watcher and no mark, nothing is called, and nothing is
written but the records of transactions that are still handed over. -/
theorem stopped_service_winds_down (run : Run c (later ++ x :: past) i)
    (stop : x.stride = .move .stop) :
    (∀ y ∈ later, (∀ id, ¬ y.asMove.Starts id) ∧ (∀ id k, ¬ y.asMove.Begins id k) ∧
      ∀ poller, y.stride ≠ .read poller ∧
        (y.stride = .offer poller → y.after.service = y.before.service ∧ y.events = [])) ∧
    (∀ w ∈ x.after.service.watchers,
      (spent w.id (moves later)).calls.Sublist w.phase.budget.calls ∧
      (spent w.id (moves later)).saves ≤ 1 ∧ (spent w.id (moves later)).moves ≤ 4 ∧
      (w.phase = .waiting →
        (spent w.id (moves later)).calls = [] ∧ (spent w.id (moves later)).writes = 0)) ∧
    (i.service.AtRest c → ∀ w ∈ i.service.watchers, ∃ since call, w.phase = .calling since call) ∧
    (∀ y ∈ later, y.stride = .move .stop → y.after = y.before ∧ y.events = []) ∧
    ∀ after y before, later ++ [x] = after ++ y :: before → y.after.service.ShutDown →
      y.after.service.marks.size = 0 ∧ i.service.watchers = [] ∧ ∀ z ∈ after, ∀ e ∈ z.events,
        (∀ id chainId call, e ≠ .called id chainId call) ∧
          ∀ r ok, e = .wrote r ok →
            ∃ tx policy sender outcome, z.stride = .move (.insert r.id tx policy sender outcome) := by
  have halted : x.asMove.move = .stop := congrArg Stride.asMove stop
  have stopped : x.asMove.after.stopped = true := by
    rw [run.chronicle_append.of_append.effect.of_stop halted]
  have still {y : Step} (hy : y ∈ later) : ∃ earlier, Run c (y :: (earlier ++ x :: past)) y.after ∧
      y.Taken c ∧ y.before.service.stopped = true := by
    obtain ⟨-, earlier, -, upto⟩ := run.of_mem_append hy
    obtain ⟨before, taken, -⟩ := Run.cons_iff.mp upto
    exact ⟨earlier, upto, taken, before.chronicle_append.stopped_since stopped⟩
  refine ⟨?_, ?_, ?_, ?_, ?_⟩
  · intro y hy
    obtain ⟨earlier, upto, taken, still⟩ := still hy
    refine ⟨fun id starts => ?_, fun id k tick => ?_, fun poller => ?_⟩
    · have running := (upto.chronicle.effect.of_starts starts).1
      exact absurd still (ne_true_of_eq_false running)
    · exact absurd still (ne_true_of_eq_false tick.running)
    · exact taken.unpolled_of_stopped still poller
  · intro w hw
    exact run.chronicle_append.spent_bounds stopped hw
  · intro rest w hw
    exact run.chronicle_append.calling_of_atRest rest hw
      (.inl (run.chronicle_append.stopped_since stopped))
  · intro y hy again
    obtain ⟨-, -, taken, still⟩ := still hy
    exact taken.idle_of_stop still again
  · intro after y before split shut
    rw [List.append_cons, split, List.append_assoc, List.cons_append] at run
    exact run.quiet_since shut

end Runs

open Interleaving in
/-- A service that has been shut down still takes in what is handed over. -/
theorem closed_sample_is_written_to : ∃ later x past i, Run Sample.setup (later ++ x :: past) i ∧
    x.stride = .move .stop ∧ x.after.service.ShutDown ∧
    ∃ y ∈ later, ∃ r, .wrote r true ∈ y.events ∧ r.status = .pending := by
  obtain ⟨later, x, past, i, run, -, stop, -, passed⟩ := Run.exists_split_of_replay
    (c := Sample.setup) [] (.move .stop)
    [.move (.insert "a" Sample.tx Sample.policy .zero (.ok ()))] ⟨0⟩
    (fun later x _ => (x.after.service.stopped = true ∧ x.after.service.watchers = []) ∧
      ∃ y ∈ later, .wrote (.initial "a" Sample.tx .zero Sample.policy ⟨0⟩) true ∈ y.events)
    (by decide +kernel)
  obtain ⟨shut, y, hy, wrote⟩ := of_decide_eq_true passed
  exact ⟨later, x, past, i, run, stop, shut, y, hy, _, wrote, rfl⟩

namespace Sample

/-- The sample's new price is on its way when a poll reads it again, with another record. -/
def crowding : List Stride :=
  [.move (.place record), .move .startPoller, .move (.advance (.ofMillis 10000)), .read 0, .offer 0,
   .move (.place { record with id := "b" }), .move (.advance (.ofMillis 14000)), .move (.wake "a"),
   .move (.advance (.ofMillis 20000)), .read 0]

/-- What is still done when the service is stopped before the poll goes on. -/
def leaving : List Stride :=
  [.offer 0, .move (.answer "a" mined), .offer 0, .move (.stored "a" (.ok ())), .move .stop,
   .move (.wake "a")]

end Sample

open Interleaving in
theorem leaving_sample_winds_down : ∃ later x past i,
    Run Sample.setup (later ++ x :: past) i ∧ x.stride = .move .stop ∧
      later.map (·.stride) = Sample.leaving.reverse ∧
      (x.before.unoffered 0).map (·.id) = ["a", "b"] ∧ spent "a" (moves later) = ⟨[], 1, 1, 3⟩ ∧
      i.service.watchers = [] ∧ i.service.marks.size = 0 ∧
      ∀ y ∈ later, (∀ id, ¬ y.asMove.Starts id) ∧ (∀ id k, ¬ y.asMove.Begins id k) ∧
        ∀ poller, y.stride ≠ .read poller ∧
          (y.stride = .offer poller → y.after.service = y.before.service ∧ y.events = []) := by
  obtain ⟨later, x, past, i, run, taken, stop, -, passed⟩ := Run.exists_split_of_replay
    (c := Sample.setup) Sample.crowding (.move .stop) Sample.leaving ⟨0⟩
    (fun later x _ => (x.before.unoffered 0).map (·.id) = ["a", "b"] ∧
      spent "a" (moves later) = ⟨[], 1, 1, 3⟩ ∧
      later.head?.any fun y => y.after.service.stopped && y.after.service.watchers.isEmpty)
    (by decide +kernel)
  obtain ⟨read, spent, left⟩ := of_decide_eq_true passed
  obtain ⟨y, hy, left⟩ := (Option.any_eq_true ..).mp left
  obtain ⟨rest, rfl⟩ := List.head?_eq_some_iff.mp hy
  obtain ⟨-, -, rfl⟩ := Run.cons_iff.mp run
  have shut : y.after.service.ShutDown := by simpa [Service.ShutDown] using left
  obtain ⟨begins, -, -, -, ends⟩ := stopped_service_winds_down run stop
  obtain ⟨marks, gone, -⟩ := ends [] y (rest ++ [x]) rfl shut
  exact ⟨y :: rest, x, past, y.after, run, stop, taken, read, spent, gone, marks, begins⟩

end GasEscalator
