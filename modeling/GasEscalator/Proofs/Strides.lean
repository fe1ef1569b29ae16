import GasEscalator.Interleaving
import GasEscalator.Proofs.Clock
import GasEscalator.Proofs.Copies

/-!
# Runs of strides

A run lists the strides that a service has taken while its polls may be under way, the latest first.
Every run is a chronicle of the service: a stride is a move of it or a part of a poll, which takes a
tick and offers nothing or offers a record that was read before. What holds of every chronicle holds
of every run therefore. Only a watcher that starts from what is no longer stored disturbs a record
that nobody outside rewrites.
-/
namespace GasEscalator

/-- The move of the service that a stride is, or the poll that it is a part of. -/
def Stride.asMove : Stride → Move
  | .read poller | .offer poller => .poll poller (.ok ())
  | .move m => m

namespace Interleaving

structure Step where
  before : Interleaving
  stride : Stride
  after : Interleaving
  events : List Event

namespace Step

def Taken (c : Setup) (x : Step) : Prop := x.before.apply c x.stride = some (x.after, x.events)

def asMove (x : Step) : Transition :=
  ⟨x.before.service, x.stride.asMove, x.after.service, x.events⟩

/-- A record is stored from outside under an id that has one. -/
def Rewrites (x : Step) (id : String) : Prop :=
  ∃ m, x.stride = .move m ∧ m.introduces id = true ∧
    (x.before.service.store.get? id).isSome = true

/-- The store takes the write of a record's watcher. -/
def Overtakes (x : Step) (id : String) : Prop := x.stride = .move (.stored id (.ok ()))

/-- An offer starts a watcher. -/
structure Starts (x : Step) (poller : Nat) (r : Record) : Prop where
  offers : x.stride = .offer poller
  next : ∃ rest, x.before.unoffered poller = r :: rest
  started : .started r.id ∈ x.events

/-- An offer starts a watcher from a record that is not what is stored. -/
def StartsStale (x : Step) (id : String) : Prop :=
  ∃ poller r, x.Starts poller r ∧ r.id = id ∧ x.before.service.store.get? id ≠ some r

end Step

/-- What the service has done in a list of steps. -/
def moves (past : List Step) : List Transition := past.map Step.asMove

/-- Any move but an answered poll is a stride of its own. -/
theorem Step.stride_eq_move {x : Step} {m : Move} (hm : x.asMove.move = m)
    (unpolled : ∀ poller, m ≠ .poll poller (.ok ())) : x.stride = .move m := by
  have hm : x.stride.asMove = m := hm
  cases hs : x.stride with
  | move m' =>
    rw [hs] at hm
    exact congrArg Stride.move hm
  | read poller | offer poller =>
    rw [hs] at hm
    exact absurd hm.symm (unpolled poller)

theorem Step.stride_eq_insert {x : Step} {id : String} {tx : SignedTx} {policy : Policy}
    {sender : Address} {outcome : Except StorageError Unit}
    (hm : x.asMove.move = .insert id tx policy sender outcome) :
    x.stride = .move (.insert id tx policy sender outcome) :=
  stride_eq_move hm nofun

/-- Strides taken from an empty store on, the latest first, and where they have led. -/
inductive Run (c : Setup) : List Step → Interleaving → Prop
  | start (now : Moment) : Run c [] (.ofService (.initial now))
  | step {past : List Step} {i i' : Interleaving} {d : Stride} {events : List Event}
      (run : Run c past i) (taken : i.apply c d = some (i', events)) :
      Run c (⟨i, d, i', events⟩ :: past) i'

inductive Outcome (c : Setup) (x : Step) : Prop
  | read {poller : Nat} {s : Service} (hs : x.stride = .read poller)
      (tick : x.before.service.takeTick poller = some s) (service : x.after.service = s)
      (unoffered : x.after.unoffered = Function.update x.before.unoffered poller
        ((c.readable s.store).filter fun r => !r.status.isTerminal))
      (events : x.events = [.polled (some ((c.readable s.store).map (·.id)))])
  | offer {poller : Nat} {r : Record} {rest : List Record} (hs : x.stride = .offer poller)
      (next : x.before.unoffered poller = r :: rest)
      (service : x.after.service = (x.before.service.offer c r).1)
      (unoffered : x.after.unoffered = Function.update x.before.unoffered poller rest)
      (events : x.events = (x.before.service.offer c r).2)
  | advance {target : Moment} (hs : x.stride = .move (.advance target))
      (may : x.before.service.MayPass c target)
      (service : x.after.service = { x.before.service with now := target })
      (unoffered : x.after.unoffered = x.before.unoffered) (events : x.events = [])
  | move {m : Move} (hs : x.stride = .move m) (unpolled : ∀ poller, m ≠ .poll poller (.ok ()))
      (made : x.asMove.Made c) (unoffered : x.after.unoffered = x.before.unoffered)

section Steps

variable {c : Setup} {x : Step} {past later : List Step} {i : Interleaving} {id : String}

theorem Run.cons_iff : Run c (x :: past) i ↔ Run c past x.before ∧ x.Taken c ∧ i = x.after := by
  constructor
  · intro run
    cases run with
    | step run taken => exact ⟨run, taken, rfl⟩
  · rintro ⟨run, taken, rfl⟩
    exact .step run taken

theorem Run.of_append (run : Run c (later ++ x :: past) i) : Run c (x :: past) x.after := by
  induction later generalizing i with
  | nil =>
    obtain ⟨run, taken, -⟩ := cons_iff.mp run
    exact .step run taken
  | cons y later ih => exact ih (cons_iff.mp run).1

/-- A step among the later ones of a run was taken with the earlier ones behind it. -/
theorem Run.of_mem_append {earlier : List Step} (run : Run c (later ++ earlier) i)
    (hx : x ∈ later) :
    ∃ after before, later = after ++ x :: before ∧ Run c (x :: (before ++ earlier)) x.after := by
  obtain ⟨after, before, rfl⟩ := List.append_of_mem hx
  rw [List.append_assoc] at run
  exact ⟨after, before, rfl, of_append run⟩

theorem moves_append (later : List Step) (x : Step) (past : List Step) :
    moves (later ++ x :: past) = moves later ++ x.asMove :: moves past :=
  List.map_append

theorem Step.Taken.outcome (taken : x.Taken c) : Outcome c x := by
  have of_move {m : Move} (hs : x.stride = .move m) (unpolled : ∀ poller, m ≠ .poll poller (.ok ()))
      (made : (x.before.service.apply c m).map x.before.carry = some (x.after, x.events)) :
      Outcome c x := by
    obtain ⟨⟨s, events⟩, made, ends⟩ := Option.map_eq_some_iff.mp made
    obtain ⟨after, told⟩ := Prod.mk.inj ends
    refine .move hs unpolled ?_ (by rw [← after])
    show x.before.service.apply c x.stride.asMove = some (x.after.service, x.events)
    rw [hs, ← after, ← told]
    exact made
  unfold Taken at taken
  cases hs : x.stride with
  | read poller =>
    rw [hs, apply] at taken
    split at taken
    case isFalse => cases taken
    case isTrue =>
      obtain ⟨s, tick, ends⟩ := Option.bind_eq_some_iff.mp taken
      obtain ⟨after, events⟩ := Prod.mk.inj (Option.some.inj ends)
      exact .read hs tick (by rw [← after]) (by rw [← after]) events.symm
  | offer poller =>
    rw [hs, apply] at taken
    split at taken
    case h_1 => cases taken
    case h_2 r rest next =>
      obtain ⟨after, events⟩ := Prod.mk.inj (Option.some.inj taken)
      exact .offer hs next (by rw [← after]) (by rw [← after]) events.symm
  | move m =>
    rw [hs] at taken
    cases m with
    | poll poller outcome =>
      rw [apply] at taken
      split at taken
      case isFalse => cases taken
      case isTrue failed =>
        refine of_move hs ?_ taken
        rintro poller' ⟨⟩
        simp [Except.isOk, Except.toBool] at failed
    | advance target =>
      rw [apply] at taken
      split at taken
      case isFalse => cases taken
      case isTrue may =>
        obtain ⟨after, events⟩ := Prod.mk.inj (Option.some.inj taken)
        have may := Service.mayPass_of_mayAdvance may
        exact .advance hs ⟨may.ahead, may.whole, may.due⟩ (by rw [← after]) (by rw [← after])
          events.symm
    | _ => exact of_move hs nofun taken

/-! ## What is still to be offered -/

/-- What is still to be offered was to be offered before, or has just been read. -/
theorem Outcome.of_mem_unoffered {poller : Nat} {r : Record} (outcome : Outcome c x)
    (mem : r ∈ x.after.unoffered poller) :
    r ∈ x.before.unoffered poller ∧ x.stride ≠ .read poller ∨
      x.stride = .read poller ∧ x.before.service.store.get? r.id = some r ∧
        r.status.isTerminal = false ∧ x.after.service.store = x.before.service.store := by
  cases outcome with
  | @read poller' s hs tick service unoffered =>
    rw [unoffered] at mem
    by_cases same : poller = poller'
    · subst same
      rw [Function.update_self] at mem
      obtain ⟨-, pollers, rfl⟩ := Service.takeTick_frame tick
      obtain ⟨read, unsettled⟩ := List.mem_filter.mp mem
      exact .inr ⟨hs, Setup.get?_of_mem_readable read, by simpa using unsettled, by rw [service]⟩
    · rw [Function.update_of_ne same] at mem
      refine .inl ⟨mem, ?_⟩
      rw [hs]
      exact fun h => same (Stride.read.inj h).symm
  | @offer poller' r' rest hs next _ unoffered =>
    refine .inl ⟨?_, by rw [hs]; nofun⟩
    rw [unoffered] at mem
    by_cases same : poller = poller'
    · subst same
      rw [Function.update_self] at mem
      rw [next]
      exact List.mem_cons_of_mem r' mem
    · rw [Function.update_of_ne same] at mem
      exact mem
  | advance hs _ _ unoffered | move hs _ _ unoffered =>
    exact .inl ⟨unoffered ▸ mem, by rw [hs]; nofun⟩

/-- What is still to be offered is open and was stored at some time. -/
theorem Run.offered_seen (run : Run c past i) {poller : Nat} {r : Record}
    (mem : r ∈ i.unoffered poller) :
    r.status.isTerminal = false ∧ ∃ y ∈ past, y.after.service.store.get? r.id = some r := by
  induction past generalizing i with
  | nil =>
    cases run with
    | start => cases mem
  | cons x past ih =>
    obtain ⟨before, taken, rfl⟩ := cons_iff.mp run
    rcases taken.outcome.of_mem_unoffered mem with ⟨was, -⟩ | ⟨-, stored, unsettled, same⟩
    · obtain ⟨unsettled, y, hy, stored⟩ := ih before was
      exact ⟨unsettled, y, List.mem_cons_of_mem x hy, stored⟩
    · exact ⟨unsettled, x, List.mem_cons_self, by rw [same, stored]⟩

/-! ## Chronicles of runs -/

/-- The clock shows a whole millisecond, or nothing could have begun yet. -/
def Punctual (i : Interleaving) : Prop :=
  i.service.Punctual ∧
    (i.service.now = i.service.now.ceilMilli ∨ ∀ poller, i.unoffered poller = [])

theorem Outcome.effect (outcome : Outcome c x) (sound : ∀ w ∈ x.before.service.watchers, w.Sound c)
    (opened : ∀ poller, ∀ r ∈ x.before.unoffered poller, r.status.isTerminal = false) :
    Effect c x.asMove := by
  cases outcome with
  | @read poller s hs tick service _ events =>
    obtain ⟨-, pollers, rfl⟩ := Service.takeTick_frame tick
    have polled : x.asMove.move = .poll poller (.ok ()) := congrArg Stride.asMove hs
    have after : x.asMove.after =
        (Service.offerAll { x.before.service with pollers } c []).1 := service
    have told : x.asMove.events =
        x.events ++ (Service.offerAll { x.before.service with pollers } c []).2 :=
      (List.append_nil x.events).symm
    refine .polled polled (fun _ => List.forall_mem_nil _) (List.forall_mem_nil _) ?_ after told
    intro e he
    rw [events] at he
    exact ⟨_, List.mem_singleton.mp he⟩
  | @offer poller r rest hs next service _ events =>
    have polled : x.asMove.move = .poll poller (.ok ()) := congrArg Stride.asMove hs
    have after : x.asMove.after = (Service.offerAll
        { x.before.service with pollers := x.before.service.pollers } c [r]).1 := service
    have told : x.asMove.events = [] ++ (Service.offerAll
        { x.before.service with pollers := x.before.service.pollers } c [r]).2 :=
      events.trans (List.append_nil _).symm
    refine .polled polled ?_ ?_ (List.forall_mem_nil _) after told
    · -- a whole poll says what it has read, which an offer does not
      intro made
      obtain ⟨-, pollers, -, answered⟩ := made.of_poll polled
      have spoken : Event.polled (some ((c.readable x.before.service.store).map (·.id))) ∈
          (x.before.service.offer c r).2 := by
        have answered : x.events = _ := answered
        rw [← events, answered]
        exact List.mem_cons_self
      cases Service.event_offer spoken
    · intro r' hr'
      obtain rfl := List.mem_singleton.mp hr'
      exact opened poller r' (by rw [next]; exact List.mem_cons_self)
  | advance hs may service _ events =>
    exact .advanced (congrArg Stride.asMove hs) may service events
  | move _ _ made => exact .of_made sound made

/-- What a watcher does is a move of the service. -/
theorem Outcome.made_of_actor (outcome : Outcome c x) (own : x.asMove.move.actor = some id) :
    x.asMove.Made c := by
  have of_stride {d : Stride} (hs : x.stride = d) : d.asMove.actor = some id := hs ▸ own
  cases outcome with
  | read hs | offer hs | advance hs => cases of_stride hs
  | move _ _ made => exact made

theorem Outcome.punctual (outcome : Outcome c x) (sound : ∀ w ∈ x.before.service.watchers, w.Sound c)
    (punctual : x.before.Punctual) : x.after.Punctual := by
  have of_whole (whole : x.after.service.now = x.after.service.now.ceilMilli) : x.after.Punctual :=
    ⟨.inl whole, .inl whole⟩
  obtain ⟨service, ready⟩ := punctual
  cases outcome with
  | read _ tick after =>
    have whole := service.whole_of_tick tick
    obtain ⟨-, pollers, rfl⟩ := Service.takeTick_frame tick
    exact of_whole (by rw [after]; exact whole)
  | @offer poller r _ _ next after =>
    obtain ⟨marks, watchers, frame⟩ := Service.offer_frame x.before.service c r
    refine of_whole ?_
    rw [after, frame]
    rcases ready with whole | idle
    · exact whole
    · rw [idle poller] at next
      cases next
  | advance _ may after => exact of_whole (by rw [after]; exact may.whole)
  | move _ _ made unoffered =>
    have made : Transition.Made c x.asMove := made
    refine ⟨made.punctual sound service, ?_⟩
    rcases (Effect.of_made sound made).now_cases with same | ⟨target, -, may, after⟩
    · have same : x.after.service.now = x.before.service.now := same
      rw [same, unoffered]
      exact ready
    · refine .inl ?_
      show x.asMove.after.now = x.asMove.after.now.ceilMilli
      rw [after]
      exact may.whole

/-- A watcher that an offer has started looks after the record offered. -/
theorem Outcome.offered_of_new {w : Watcher} (outcome : Outcome c x)
    (polled : ∃ poller, x.asMove.move = .poll poller (.ok ())) (hw : w ∈ x.after.service.watchers)
    (new : w ∉ x.before.service.watchers) :
    ∃ poller, w.record ∈ x.before.unoffered poller ∧ x.Starts poller w.record := by
  have of_stride {d : Stride} (hs : x.stride = d) : ∃ poller, d.asMove = .poll poller (.ok ()) :=
    hs ▸ polled
  cases outcome with
  | read _ tick service =>
    obtain ⟨-, pollers, rfl⟩ := Service.takeTick_frame tick
    rw [service] at hw
    exact absurd hw new
  | @offer poller r rest hs next service _ events =>
    rw [service] at hw
    have starts := (Service.mem_watchers_offer hw).resolve_left new
    obtain ⟨rfl, -⟩ := Watcher.start?_eq_some starts.set
    refine ⟨poller, by rw [next]; exact List.mem_cons_self, hs, ⟨rest, next⟩, ?_⟩
    rw [events]
    exact Service.started_of_new hw new
  | advance hs =>
    obtain ⟨poller, polled⟩ := of_stride hs
    cases polled
  | move hs unpolled =>
    obtain ⟨poller, polled⟩ := of_stride hs
    exact absurd polled (unpolled poller)

/-- A run is a chronicle of the service, and its clock is as punctual. -/
theorem Run.chronicle_punctual (run : Run c past i) :
    Chronicle c (moves past) i.service ∧ i.Punctual := by
  induction past generalizing i with
  | nil =>
    cases run with
    | start now => exact ⟨.start now, .inr ⟨rfl, nofun⟩, .inr fun _ => rfl⟩
  | cons x past ih =>
    obtain ⟨before, taken, rfl⟩ := cons_iff.mp run
    obtain ⟨chronicle, punctual⟩ := ih before
    have outcome := taken.outcome
    have effect := outcome.effect chronicle.sound fun poller r hr => (before.offered_seen hr).1
    have punctual' := outcome.punctual chronicle.sound punctual
    refine ⟨Chronicle.step (x := x.asMove) chronicle effect (fun id own => outcome.made_of_actor own)
      (fun w hw => punctual'.1.whole hw) ?_, punctual'⟩
    intro w hw
    cases effect.origin hw with
    | idle was => exact .inl was
    | turned _ hm turn => exact .inr (.inl (by rw [hm, turn.id_eq]))
    | started polled _ _ _ new =>
      obtain ⟨poller, offered, -⟩ := outcome.offered_of_new polled hw new
      obtain ⟨-, y, hy, stored⟩ := before.offered_seen offered
      exact .inr (.inr ⟨y.asMove, List.mem_cons_of_mem _ (List.mem_map_of_mem hy), stored⟩)

theorem Run.chronicle (run : Run c past i) : Chronicle c (moves past) i.service :=
  run.chronicle_punctual.1

theorem Run.chronicle_append (run : Run c (later ++ x :: past) i) :
    Chronicle c (moves later ++ x.asMove :: moves past) i.service :=
  moves_append later x past ▸ run.chronicle

theorem Step.rewrites_iff : x.asMove.Rewrites id ↔ x.Rewrites id := by
  constructor
  · rintro ⟨introduces, known⟩
    cases hs : x.stride with
    | move m =>
      refine ⟨m, hs, ?_, known⟩
      have introduces : x.stride.asMove.introduces id = true := introduces
      rwa [hs] at introduces
    | read poller | offer poller =>
      have introduces : x.stride.asMove.introduces id = true := introduces
      rw [hs] at introduces
      cases introduces
  · rintro ⟨m, hs, introduces, known⟩
    refine ⟨?_, known⟩
    show x.stride.asMove.introduces id = true
    rw [hs]
    exact introduces

theorem moves_kept (kept : ∀ x ∈ past, ¬ x.Rewrites id) : ∀ y ∈ moves past, ¬ y.Rewrites id := by
  intro y hy
  obtain ⟨x, hx, rfl⟩ := List.mem_map.mp hy
  exact fun rewrites => kept x hx (Step.rewrites_iff.mp rewrites)

/-- What nobody outside rewrites is disturbed only by watchers that start from what is no longer
stored. -/
theorem Step.Taken.calm (taken : x.Taken c) (kept : ¬ x.Rewrites id)
    (current : ¬ x.StartsStale id) : ¬ x.asMove.Disturbs id := by
  rintro (rewrites | ⟨polled, w, hw, new, rfl, stale⟩)
  · exact kept (Step.rewrites_iff.mp rewrites)
  · obtain ⟨poller, -, starts⟩ := taken.outcome.offered_of_new polled hw new
    exact current ⟨poller, w.record, starts, rfl, stale⟩

theorem Run.calm_since (run : Run c (later ++ past) i) (kept : ∀ x ∈ later, ¬ x.Rewrites id)
    (current : ∀ x ∈ later, ¬ x.StartsStale id) : ∀ y ∈ moves later, ¬ y.Disturbs id := by
  intro y hy
  obtain ⟨x, hx, rfl⟩ := List.mem_map.mp hy
  obtain ⟨-, earlier, -, upto⟩ := run.of_mem_append hx
  exact (cons_iff.mp upto).2.1.calm (kept x hx) (current x hx)

theorem Run.calm (run : Run c past i) (kept : ∀ x ∈ past, ¬ x.Rewrites id)
    (current : ∀ x ∈ past, ¬ x.StartsStale id) : ∀ y ∈ moves past, ¬ y.Disturbs id :=
  Run.calm_since ((List.append_nil past).symm ▸ run) kept current

/-- An offer starts no second watcher of a record. -/
theorem Run.unwatched_of_starts {poller : Nat} {r : Record} (run : Run c (x :: past) i)
    (starts : x.Starts poller r) : ∀ w ∈ x.before.service.watchers, w.id ≠ r.id := by
  obtain ⟨before, taken, -⟩ := cons_iff.mp run
  obtain ⟨rest, next⟩ := starts.next
  cases taken.outcome with
  | read hs | advance hs | move hs => cases starts.offers.symm.trans hs
  | offer hs next' _ _ events =>
    obtain rfl := Stride.offer.inj (starts.offers.symm.trans hs)
    obtain ⟨rfl, -⟩ := List.cons.inj (next.symm.trans next')
    exact Service.unwatched_of_started before.chronicle.guarded (events ▸ starts.started)

end Steps

/-! ## Replaying strides -/

instance (x : Step) (id : String) : Decidable (x.Rewrites id) :=
  decidable_of_iff _ Step.rewrites_iff

/-- The record that a stride offers, if it offers one. -/
def Step.offered? (x : Step) : Option Record :=
  match x.stride with
  | .offer poller => (x.before.unoffered poller).head?
  | _ => none

theorem Step.startsStale_iff {x : Step} {id : String} : x.StartsStale id ↔
    ∃ r ∈ x.offered?, .started r.id ∈ x.events ∧ r.id = id ∧
      x.before.service.store.get? id ≠ some r := by
  constructor
  · rintro ⟨poller, r, ⟨hs, ⟨rest, next⟩, started⟩, own, stale⟩
    refine ⟨r, ?_, started, own, stale⟩
    rw [offered?, hs]
    dsimp only
    rw [next]
    rfl
  · rintro ⟨r, offered, started, own, stale⟩
    unfold offered? at offered
    split at offered
    case h_2 => cases offered
    case h_1 poller hs =>
      exact ⟨poller, r, ⟨hs, List.head?_eq_some_iff.mp offered, started⟩, own, stale⟩

instance (x : Step) (id : String) : Decidable (x.StartsStale id) :=
  decidable_of_iff _ Step.startsStale_iff.symm

/-- Takes strides one after the other, as long as each is possible. -/
def replay (c : Setup) : List Stride → List Step → Interleaving → Option (List Step × Interleaving)
  | [], past, i => some (past, i)
  | d :: rest, past, i => do
    let (i', events) ← i.apply c d
    replay c rest (⟨i, d, i', events⟩ :: past) i'

theorem Run.of_replay {c : Setup} {strides : List Stride} {past past' : List Step}
    {i i' : Interleaving} (run : Run c past i)
    (taken : replay c strides past i = some (past', i')) :
    Run c past' i' ∧ past'.map (·.stride) = strides.reverse ++ past.map (·.stride) := by
  induction strides generalizing past i with
  | nil =>
    obtain ⟨rfl, rfl⟩ := Prod.mk.inj (Option.some.inj taken)
    exact ⟨run, rfl⟩
  | cons d rest ih =>
    obtain ⟨⟨next, events⟩, first, taken⟩ := Option.bind_eq_some_iff.mp taken
    obtain ⟨run', strides'⟩ := ih (run.step first) taken
    exact ⟨run', by rw [strides']; simp⟩

/-- A test that strides from an empty store pass is passed by a run of just these strides. -/
theorem Run.exists_of_replay {c : Setup} (strides : List Stride) (now : Moment)
    (test : List Step → Bool)
    (passed : (replay c strides [] (.ofService (.initial now))).any (fun p => test p.1) = true) :
    ∃ past i, Run c past i ∧ past.map (·.stride) = strides.reverse ∧ test past = true := by
  obtain ⟨⟨past, i⟩, taken, passed⟩ := (Option.any_eq_true ..).mp passed
  obtain ⟨run, strides'⟩ := Run.of_replay (.start now) taken
  exact ⟨past, i, run, by rw [strides']; simp, passed⟩

/-- The same with the run split at one of the strides. -/
theorem Run.exists_split_of_replay {c : Setup} (earlier : List Stride) (d : Stride)
    (later : List Stride) (now : Moment) (test : List Step → Step → List Step → Bool)
    (passed : (replay c (earlier ++ d :: later) [] (.ofService (.initial now))).any
      (fun p => splitTest later.length test p.1) = true) :
    ∃ after x past i, Run c (after ++ x :: past) i ∧ after.map (·.stride) = later.reverse ∧
      x.stride = d ∧ past.map (·.stride) = earlier.reverse ∧ test after x past = true := by
  obtain ⟨all, i, run, strides, passed⟩ :=
    Run.exists_of_replay (earlier ++ d :: later) now (splitTest later.length test) passed
  rw [List.reverse_append, List.reverse_cons, List.append_assoc, List.map_eq_append_iff] at strides
  obtain ⟨after, rest, rfl, taken, strides⟩ := strides
  obtain ⟨x, past, rfl, hd, strides⟩ := List.map_eq_cons_iff.mp strides
  have length : after.length = later.length := by
    rw [← List.length_map, taken, List.length_reverse]
  rw [splitTest, List.take_left' length, List.drop_left' length] at passed
  exact ⟨after, x, past, i, run, taken, hd, strides, passed⟩

end Interleaving

end GasEscalator
