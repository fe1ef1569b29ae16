import GasEscalator.Proofs.Copies

/-!
# A final status is final

Nothing is done for a record once a final status is stored for it, nor for one that is final or has
an unusable policy when it is first stored. What carries the proof is that such a record has no
watcher: every way to a final status makes the watcher leave in the move that stores it, and as long
as nobody disturbs a record a poll starts one only for what is stored, if that is open and has a
usable policy.
-/
namespace GasEscalator

/-- The event is work on the record of an id: a watcher that begins, a call, a signature or a write,
whether it worked or not. -/
def Event.WorksOn (id : String) : Event → Prop
  | .started i | .called i .. | .signing i .. => i = id
  | .wrote r _ => r.id = id
  | .polled _ | .crashed _ | .ended _ | .logged .. => False

/-- A record that no watcher may work on. -/
def Record.Idle (r : Record) : Prop :=
  r.status.isTerminal = true ∨ ∃ e, r.policy.validate = .error e

/-- A record is stored under the id, no watcher may work on it and none does. -/
structure Service.Settled (s : Service) (id : String) : Prop where
  unwatched : ∀ w ∈ s.watchers, w.id ≠ id
  idle : ∃ r, s.store.get? id = some r ∧ r.Idle

theorem Turn.worksOn {c : Setup} {x : Transition} {w w' : Watcher} {events : List Event} {e : Event}
    {id : String} (turn : Turn c x w w' events) (he : e ∈ events) (works : e.WorksOn id) :
    w.id = id := by
  rcases turn.event_cases he with ⟨call, rfl⟩ | ⟨address, tx, rfl⟩ | ⟨f, rfl⟩
  · exact works
  · exact works
  · exact works.elim

theorem Transition.Made.worksOn {c : Setup} {x : Transition} {e : Event} {id : String}
    (made : x.Made c) (sound : ∀ w ∈ x.before.watchers, w.Sound c) (he : e ∈ x.events)
    (works : e.WorksOn id) :
    x.move.introduces id = true ∨ (∃ w ∈ x.before.watchers, w.id = id) ∨
      ∃ r, x.before.store.get? id = some r ∧ ¬ r.Idle := by
  cases (Effect.of_made sound made).source he with
  | polled | ended | crashed => exact works.elim
  | inserted hm => exact .inl (by rw [hm]; exact decide_eq_true works)
  | turned hw turn he =>
    exact .inr (.inl ⟨_, List.mem_of_find?_eq_some hw, turn.worksOn he works⟩)
  | wrote hw learned =>
    have mem := List.mem_of_find?_eq_some hw
    obtain ⟨_, v, hv, writing⟩ := learned
    obtain rfl := Option.some.inj (hw.symm.trans hv)
    exact .inr (.inl ⟨_, mem, ((sound _ mem).id_of_writing writing).symm.trans works⟩)
  | @offered r _ _ read unsettled event =>
    cases event with
    | crashed | unusable => exact works.elim
    | started _ valid =>
      obtain rfl : r.id = id := works
      refine .inr (.inr ⟨r, Setup.get?_of_mem_readable (read made), ?_⟩)
      rintro (final | ⟨e, invalid⟩)
      · rw [final] at unsettled
        cases unsettled
      · rw [valid] at invalid
        cases invalid

/-- No watcher begins for a record when it is offered. -/
def Service.Bars (s : Service) (c : Setup) (r : Record) : Prop :=
  r.status.isTerminal = false → ∀ w, ¬ s.Starts c r w

theorem Record.Idle.barred {r : Record} (idle : r.Idle) (s : Service) (c : Setup) :
    s.Bars c r := by
  intro unsettled w starts
  rcases idle with final | ⟨e, invalid⟩
  · rw [final] at unsettled
    cases unsettled
  · rw [starts.valid] at invalid
    cases invalid

/-- A record is stored and not watched. -/
structure Service.Untouched (s : Service) (r : Record) : Prop where
  stored : s.store.get? r.id = some r
  unwatched : ∀ w ∈ s.watchers, w.id ≠ r.id

/-- Only who disturbs a record that no watcher begins for can touch it. -/
theorem Service.Untouched.after {c : Setup} {x : Transition} {r : Record}
    (untouched : x.before.Untouched r) (barred : x.before.Bars c r) (effect : Effect c x)
    (sound : ∀ w ∈ x.before.watchers, w.Sound c) (calm : ¬ x.Disturbs r.id) :
    x.after.Untouched r := by
  constructor
  · rcases effect.get?_cases sound r.id with same | ⟨r', -, introduced | ⟨_, _, w, hw, -⟩⟩
    · exact same.trans untouched.stored
    · exact absurd (.inl ⟨introduced, by rw [untouched.stored]; rfl⟩) calm
    · exact absurd (Watcher.id_of_watcher? hw)
        (untouched.unwatched w (List.mem_of_find?_eq_some hw))
  · intro v hv hid
    cases effect.origin hv with
    | idle was _ => exact untouched.unwatched v was hid
    | @started r' polled _ unsettled starts new =>
      have stored : x.before.store.get? r.id = some v.record := by
        by_contra stale
        exact calm (.inr ⟨polled, v, hv, new, hid, stale⟩)
      rw [untouched.stored, (Watcher.start?_eq_some starts.set).1] at stored
      obtain rfl := Option.some.inj stored
      exact barred unsettled _ starts
    | turned hw _ turn _ =>
      exact untouched.unwatched _ (List.mem_of_find?_eq_some hw) (turn.id_eq ▸ hid)

namespace Service.Settled

variable {c : Setup} {x : Transition} {id : String}

theorem not_worksOn (settled : x.before.Settled id) (made : x.Made c)
    (sound : ∀ w ∈ x.before.watchers, w.Sound c) (kept : ¬ x.Rewrites id) :
    ∀ e ∈ x.events, ¬ e.WorksOn id := by
  intro e he works
  obtain ⟨r, stored, idle⟩ := settled.idle
  rcases made.worksOn sound he works with introduced | ⟨w, hw, hid⟩ | ⟨r', stored', active⟩
  · exact kept ⟨introduced, by rw [stored]; rfl⟩
  · exact settled.unwatched w hw hid
  · obtain rfl := Option.some.inj (stored.symm.trans stored')
    exact active idle

/-- Only who disturbs a record can unsettle it. -/
theorem after (settled : x.before.Settled id) (effect : Effect c x)
    (sound : ∀ w ∈ x.before.watchers, w.Sound c) (calm : ¬ x.Disturbs id) :
    x.after.Settled id := by
  obtain ⟨r, stored, idle⟩ := settled.idle
  obtain rfl := (Store.get?_eq_some stored).2
  have untouched : x.before.Untouched r := ⟨stored, settled.unwatched⟩
  obtain ⟨stored, unwatched⟩ := untouched.after (idle.barred _ c) effect sound calm
  exact ⟨unwatched, r, stored, idle⟩

end Service.Settled

/-! ## How a record is settled -/

namespace Chronicle

variable {c : Setup} {past : List Transition} {x : Transition} {s : Service} {id : String}

theorem watched_stored (run : Chronicle c past s) :
    ∀ w ∈ s.watchers, (s.store.get? w.id).isSome = true := by
  intro w hw
  obtain ⟨y, hy, stored⟩ := run.copy_seen w hw
  exact run.stored_of_mem hy stored

theorem unwatched_of_fresh (run : Chronicle c past s) (fresh : s.store.get? id = none) :
    ∀ w ∈ s.watchers, w.id ≠ id := by
  rintro w hw rfl
  have watched := run.watched_stored w hw
  rw [fresh] at watched
  cases watched

theorem learns_of_wrote_final (run : Chronicle c (x :: past) s) {r : Record} {ok : Bool}
    (wrote : .wrote r ok ∈ x.events) (final : r.status.isTerminal = true) :
    ∃ after outcome, x.Learns r.id r after outcome := by
  cases run.effect.source wrote with
  | inserted => cases final
  | offered _ _ _ event => cases event
  | turned _ turn h => exact absurd h turn.not_wrote
  | wrote hw learned =>
    have sound := run.before.sound _ (List.mem_of_find?_eq_some hw)
    exact ⟨_, _, sound.id_of_writing (learned.writing hw) ▸ learned⟩

/-- The move that stores a final status is the last of its watcher. -/
theorem of_wrote_final (run : Chronicle c (x :: past) s) {r : Record}
    (wrote : .wrote r true ∈ x.events) (final : r.status.isTerminal = true) :
    x.events = [.wrote r true, .ended r.id] ∧ ∃ w : Watcher, w.id = r.id ∧
      x.after = (x.before.written r (.ok ())).replace { w with phase := .done } := by
  cases run.effect.source wrote with
  | inserted => cases final
  | offered _ _ _ event => cases event
  | turned _ turn h => exact absurd h turn.not_wrote
  | @wrote w w' _ _ then_ outcome _ hw learned turn after events ok =>
    cases outcome with
    | error e => cases ok
    | ok done =>
      have ⟨_, v, hv, writing⟩ := learned
      obtain rfl := Option.some.inj (hw.symm.trans hv)
      have sound := run.before.sound w (List.mem_of_find?_eq_some hw)
      have hid := sound.id_of_writing writing
      obtain ⟨rfl, ⟨rfl, -⟩ | ⟨-, rfl⟩⟩ := turn.of_learned_ok learned
      · -- a new price is no final status
        have about := sound.2
        rw [writing] at about
        obtain ⟨tx, -, rfl⟩ := about
        cases final
      · refine ⟨?_, w, hid.symm, after⟩
        rw [events, hid]
        rfl

/-- The move that stores a final status leaves no watcher behind. -/
theorem settled_of_wrote (run : Chronicle c (x :: past) s) {r : Record}
    (wrote : .wrote r true ∈ x.events) (final : r.status.isTerminal = true) :
    x.after.Settled r.id := by
  obtain ⟨-, w, hid, after⟩ := run.of_wrote_final wrote final
  constructor
  · intro v hv h
    rw [after] at hv
    rcases Service.mem_replace hv with ⟨-, other⟩ | ⟨-, live⟩
    · exact other (h.trans hid.symm)
    · exact live rfl
  · obtain ⟨marks, watchers, h⟩ := Service.replace_frame
      (x.before.written r (.ok ())) { w with phase := .done }
    refine ⟨r, ?_, .inl final⟩
    rw [after, h, Service.written, Store.get?_upsert, if_pos rfl]

/-- A record that is stored for the first time has no watcher yet. -/
theorem untouched_of_first (run : Chronicle c (x :: past) s) {r : Record}
    (first : x.before.store.get? r.id = none) (stored : x.after.store.get? r.id = some r) :
    x.after.Untouched r := by
  have unpolled : ∀ poller, x.move ≠ .poll poller (.ok ()) := by
    intro poller polled
    rw [run.effect.store_eq_of_poll run.before.sound polled, first] at stored
    cases stored
  exact ⟨stored, run.effect.unwatched_of_unpolled unpolled (run.before.unwatched_of_fresh first)⟩

end Chronicle

/-- A move after which nothing may be done for the record of an id: a final status is stored for it,
or it is idle when it is first stored. -/
def Transition.Closes (x : Transition) (id : String) : Prop :=
  ∃ r, r.id = id ∧ (.wrote r true ∈ x.events ∧ r.status.isTerminal = true ∨
    x.before.store.get? id = none ∧ x.after.store.get? id = some r ∧ r.Idle)

theorem Chronicle.settled_of_closes {c : Setup} {past : List Transition} {x : Transition}
    {s : Service} {id : String} (run : Chronicle c (x :: past) s) (closes : x.Closes id) :
    x.after.Settled id := by
  obtain ⟨r, rfl, ⟨wrote, final⟩ | ⟨first, stored, idle⟩⟩ := closes
  · exact run.settled_of_wrote wrote final
  · exact ⟨(run.untouched_of_first first stored).unwatched, r, stored, idle⟩

/-- As long as nobody disturbs a settled record, it stays settled. -/
theorem Chronicle.settled_of_calm {c : Setup} {past later : List Transition} {x : Transition}
    {s : Service} {id : String} (run : Chronicle c (later ++ x :: past) s)
    (settled : x.after.Settled id) (calm : ∀ y ∈ later, ¬ y.Disturbs id) : s.Settled id := by
  induction later generalizing s with
  | nil =>
    obtain ⟨-, -, rfl⟩ := run.of_cons
    exact settled
  | cons y later ih =>
    obtain ⟨before, effect, rfl⟩ := run.of_cons
    have settled' := ih before fun z hz => calm z (List.mem_cons_of_mem y hz)
    exact settled'.after effect before.sound (calm y List.mem_cons_self)

/-- **Final is final.** A final status is stored for a record just before its watcher leaves. After
that, and after an idle record is first stored, no history shows a watcher, a call, a signature or a
write for it, whatever the chain, the signers, the store and the polls do, unless somebody outside
rewrites it. -/
theorem final_record_is_left_alone {c : Setup} {past later : List Transition} {x : Transition}
    {s : Service} {id : String} (run : History c (later ++ x :: past) s) (closes : x.Closes id)
    (kept : ∀ y ∈ later, ¬ y.Rewrites id) :
    (∀ r, r.id = id → r.status.isTerminal = true → .wrote r true ∈ x.events →
      x.events = [.wrote r true, .ended id]) ∧
    ∀ y ∈ later, ∀ e ∈ y.events, ¬ e.WorksOn id := by
  constructor
  · rintro r rfl final wrote
    exact (run.chronicle.of_append.of_wrote_final wrote final).1
  · intro y hy
    obtain ⟨after, before, rfl, upto⟩ := run.of_mem_append hy
    obtain ⟨through, made, -⟩ := History.cons_iff.mp upto
    have calm : ∀ z ∈ before, ¬ z.Disturbs id := fun z hz =>
      through.calm (List.mem_append_left _ hz) (kept z (by simp [hz]))
    have settled : y.before.Settled id := through.chronicle.settled_of_calm
      (through.chronicle.of_append.settled_of_closes closes) calm
    exact settled.not_worksOn made through.sound (kept y hy)

/-- The poll after its last write is answered with the failed sample. -/
theorem failed_sample_is_left_alone : ∃ later x past s,
    History Sample.setup (later ++ x :: past) s ∧
      later.map (·.move) = [.poll 0 (.ok ()), .advance (.ofMillis 20000)] ∧
      (x :: past).map (·.move) = Sample.failing.reverse ∧ x.Closes "a" ∧
      (∀ y ∈ later, ¬ y.Rewrites "a") ∧ x.events = [.wrote Sample.failed true, .ended "a"] ∧
      ∀ y ∈ later, ∀ e ∈ y.events, ¬ e.WorksOn "a" := by
  obtain ⟨all, s, run, moves, passed⟩ := History.exists_of_replay (c := Sample.setup)
    (Sample.failing ++ [Move.advance (.ofMillis 20000), .poll 0 (.ok ())]) ⟨0⟩
    (fun all => (∀ y ∈ all.take 2, ¬ y.Rewrites "a") ∧
      (all.drop 2).head?.any fun x => .wrote Sample.failed true ∈ x.events) (by decide +kernel)
  obtain ⟨kept, wrote⟩ := of_decide_eq_true passed
  obtain ⟨x, hx, wrote⟩ := (Option.any_eq_true ..).mp wrote
  obtain ⟨past, split⟩ := List.head?_eq_some_iff.mp hx
  have wrote := of_decide_eq_true wrote
  have closes : x.Closes "a" := ⟨Sample.failed, rfl, .inl ⟨wrote, rfl⟩⟩
  have later : (all.take 2).map (·.move) = [.poll 0 (.ok ()), .advance (.ofMillis 20000)] := by
    rw [List.map_take, moves]
    rfl
  have earlier : (x :: past).map (·.move) = Sample.failing.reverse := by
    rw [← split, List.map_drop, moves]
    rfl
  rw [← List.take_append_drop 2 all, split] at run
  obtain ⟨last, quiet⟩ := final_record_is_left_alone run closes kept
  exact ⟨all.take 2, x, past, s, run, later, earlier, closes, kept,
    last Sample.failed rfl rfl wrote, quiet⟩

end GasEscalator
