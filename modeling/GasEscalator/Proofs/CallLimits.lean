import GasEscalator.Proofs.Verdicts
import GasEscalator.Proofs.WindDown
import Mathlib.Algebra.GroupWithZero.Nat
import Mathlib.Algebra.Order.BigOperators.Group.List
import Mathlib.Algebra.Order.Group.Nat
import Mathlib.Data.Finset.Max

/-!
# Limited calls

A call that is limited is given up at the first whole millisecond at which its limit has passed. A
tick makes two calls at most, and the store answers at once, so that no tick lasts longer than two
limits. A stopped service begins no tick, and what keeps it going is paid from what its watchers had
left: it comes to its end by itself, even if the chain never answers again.
-/
namespace GasEscalator

/-! ## Limits -/

/-- The nanoseconds of a duration, rounded up to whole milliseconds. -/
def Duration.ceilNanos (d : Duration) : Nat :=
  (d.nanos + (nanosPerMilli - 1)) / nanosPerMilli * nanosPerMilli

theorem Duration.nanos_le_ceilNanos (d : Duration) : d.nanos ≤ d.ceilNanos := by
  simp only [ceilNanos, nanosPerMilli]
  omega

theorem Moment.nanos_ceilMilli (m : Moment) :
    m.ceilMilli.nanos = (m.nanos + (nanosPerMilli - 1)) / nanosPerMilli * nanosPerMilli := rfl

theorem Moment.nanos_add (m : Moment) (d : Duration) : (m + d).nanos = m.nanos + d.nanos := rfl

theorem Moment.le_ceilMilli (m : Moment) : m ≤ m.ceilMilli := by
  show m.nanos ≤ m.ceilMilli.nanos
  rw [nanos_ceilMilli]
  simp only [nanosPerMilli]
  omega

theorem Moment.ceilMilli_ceilMilli (m : Moment) : m.ceilMilli.ceilMilli = m.ceilMilli := by
  refine Moment.eq_of_nanos ?_
  rw [nanos_ceilMilli, nanos_ceilMilli]
  simp only [nanosPerMilli]
  omega

theorem Moment.exists_first {moments : List Moment} (some : moments ≠ []) :
    ∃ d ∈ moments, ∀ d' ∈ moments, d.ceilMilli ≤ d'.ceilMilli := by
  obtain ⟨d, hd, first⟩ := moments.toFinset.exists_min_image (fun d => d.ceilMilli.nanos)
    ((List.toFinset_nonempty_iff _).mpr some)
  exact ⟨d, List.mem_toFinset.mp hd, fun d' hd' => first d' (List.mem_toFinset.mpr hd')⟩

/-- A timer that is set at a whole millisecond fires at one. -/
theorem Moment.nanos_ceilMilli_add {m : Moment} (whole : m = m.ceilMilli) (d : Duration) :
    (m + d).ceilMilli.nanos = m.nanos + d.ceilNanos := by
  have aligned := congrArg Moment.nanos whole
  rw [nanos_ceilMilli] at aligned ⊢
  rw [nanos_add, Duration.ceilNanos]
  simp only [nanosPerMilli] at *
  omega

/-! ## Ticks -/

/-- How many calls a tick has made before. -/
def Call.earlier : Call → Nat
  | .lookup _ | .send _ => 0
  | .receipt _ => 1

theorem Call.earlier_le (call : Call) : call.earlier ≤ 1 := by
  cases call <;> simp [earlier]

/-- A watcher has not been at its tick for longer than the calls made so far may take. -/
def Watcher.Within (limit : Duration) (begun now : Moment) (w : Watcher) : Prop :=
  match w.phase with
  | .waiting => True
  | .calling since call => since = since.ceilMilli ∧
    since.nanos ≤ begun.nanos + call.earlier * limit.ceilNanos ∧
    now.nanos ≤ since.nanos + limit.ceilNanos
  | .writing .. | .done => now.nanos ≤ begun.nanos + 2 * limit.ceilNanos

section Turns

variable {c : Setup} {x : Transition} {past : List Transition} {s : Service} {w w' : Watcher}
  {events : List Event} {limit : Duration} {begun now : Moment}

theorem Watcher.Within.now_le (within : w.Within limit begun now) (busy : w.phase ≠ .waiting) :
    now.nanos ≤ begun.nanos + 2 * limit.ceilNanos := by
  unfold Within at within
  split at within
  case h_1 waiting => exact absurd waiting busy
  case h_2 call _ =>
    obtain ⟨-, first, last⟩ := within
    have earlier := Nat.mul_le_mul_right limit.ceilNanos call.earlier_le
    omega
  case h_3 | h_4 => exact within

theorem Turn.within_of_wake (turn : Turn c x w w' events) (wakes : x.move = .wake w.id)
    (whole : x.before.now = x.before.now.ceilMilli) :
    w'.Within limit x.before.now x.before.now := by
  cases turn with
  | ask | send => exact ⟨whole, Nat.le_add_right _ _, Nat.le_add_right _ _⟩
  | mined _ heard =>
    have other := heard.not_wakes w.id
    simp [wakes, Move.wakes] at other
  | pending | resume => trivial
  | stop | timeUp | success | sent | condemn | leave | giveUp | finish | silent =>
    exact Nat.le_add_right _ _

/-- A receipt is asked for when the answer to the lookup has come. Anything else that a tick goes on
to do takes no time. -/
theorem Turn.within (turn : Turn c x w w' events) (hw : x.before.watcher? w.id = some w)
    (busy : w.phase ≠ .waiting) (within : w.Within limit begun x.before.now)
    (whole : x.before.now = x.before.now.ceilMilli) : w'.Within limit begun x.before.now := by
  have bound := within.now_le busy
  cases turn with
  | stop _ waiting | timeUp _ waiting => exact absurd waiting busy
  | ask _ tick | send _ tick => exact absurd tick.waiting busy
  | mined _ heard =>
    obtain ⟨since, calling⟩ := heard.calling hw
    rw [Watcher.Within, calling] at within
    obtain ⟨-, first, last⟩ := within
    refine ⟨whole, ?_, Nat.le_add_right _ _⟩
    simp only [Call.earlier] at first ⊢
    omega
  | pending | resume => trivial
  | success | sent | condemn | leave | giveUp | finish | silent => exact bound

/-- Time does not pass beyond the limit of a call. -/
theorem Watcher.Within.later (within : w.Within limit begun x.before.now)
    (run : Chronicle c (x :: past) s) (limited : c.settings.callTimeout = some limit)
    (hw : w ∈ x.before.watchers) : w.Within limit begun x.after.now := by
  cases phase : w.phase with
  | waiting => rw [Within, phase]; trivial
  | done => exact absurd phase (run.before.not_done w hw)
  | writing r after =>
    rw [run.now_eq_of_writing hw phase]
    exact within
  | calling since call =>
    rw [Within, phase] at within ⊢
    obtain ⟨whole, first, last⟩ := within
    refine ⟨whole, first, ?_⟩
    rcases run.effect.now_cases with same | ⟨target, -, may, after⟩
    · rw [same]
      exact last
    · have due : w.dueAt c.settings.callTimeout x.before.stopped x.before.now =
          some (since + limit) := by
        rw [dueAt, phase, limited]
        rfl
      have reached := may.due w hw _ due
      rw [after, ← Moment.nanos_ceilMilli_add whole]
      exact reached

end Turns

section Runs

variable {c : Setup} {past later : List Transition} {x : Transition} {s : Service} {w : Watcher}
  {limit : Duration}

theorem Chronicle.within (run : Chronicle c past s)
    (limited : c.settings.callTimeout = some limit) :
    ∀ w ∈ s.watchers, w.phase ≠ .waiting →
      ∃ x ∈ tick w.id past, x.move = .wake w.id ∧ w.Within limit x.before.now s.now := by
  induction run with
  | start now =>
    intro w hw
    cases hw
  | @step past x before effect acts whole seen ih =>
    have run := before.step effect acts whole seen
    intro v hv busy
    cases effect.origin hv with
    | idle was other =>
      obtain ⟨y, hy, wakes, within⟩ := ih v was busy
      exact ⟨y, tick_subset (Move.wakes_of_actor other) hy, wakes, within.later run limited was⟩
    | started _ _ _ starts => exact absurd (Watcher.start?_eq_some starts.set).2.1 busy
    | @turned w _ hw hm turn _ =>
      have mem := List.mem_of_find?_eq_some hw
      have whole := before.now_eq_ceilMilli mem
      rw [turn.id_eq, effect.now_eq_of_actor hm]
      by_cases waiting : w.phase = .waiting
      · have wakes := (turn.wake_iff hw).mpr waiting
        exact ⟨_, mem_tick_self _ _ _, wakes, turn.within_of_wake wakes whole⟩
      · obtain ⟨y, hy, wakes, within⟩ := ih w mem waiting
        have other : x.move.wakes w.id = false :=
          Move.not_wakes fun hm => waiting ((turn.wake_iff hw).mp hm)
        exact ⟨y, tick_subset other hy, wakes, turn.within hw waiting within whole⟩

/-! ## After a stop -/

theorem Turn.done_of_stopped {w' : Watcher} {events : List Event} (turn : Turn c x w w' events)
    (hw : x.before.watcher? w.id = some w) (stopped : x.before.stopped = true)
    (waiting : w.phase = .waiting) : w'.phase = .done := by
  by_contra live
  have left := Phase.budget_moves_pos live
  have pays : w'.phase.budget.moves + 1 ≤ w.phase.budget.moves := (turn.winds hw stopped).2.2.2
  have one : w.phase.budget.moves = 1 := by rw [waiting]; rfl
  omega

/-- Once the service is stopped, the ticks that were under way are all that keeps watchers there. -/
theorem Chronicle.within_since_stop (run : Chronicle c (later ++ x :: past) s)
    (limited : c.settings.callTimeout = some limit) (stop : x.move = .stop) :
    ∀ w ∈ s.watchers, s.now.nanos ≤ x.before.now.nanos + 2 * limit.ceilNanos ∧
      (w.phase ≠ .waiting → ∃ begun, begun ≤ x.before.now ∧ w.Within limit begun s.now) := by
  have upto := run.of_append
  have after := upto.effect.of_stop stop
  have stopped : x.after.stopped = true := by rw [after]
  refine run.since (P := fun _ t => ∀ w ∈ t.watchers,
    t.now.nanos ≤ x.before.now.nanos + 2 * limit.ceilNanos ∧
      (w.phase ≠ .waiting → ∃ begun, begun ≤ x.before.now ∧ w.Within limit begun t.now)) ?_ ?_
  · intro w hw
    have same : x.after.now = x.before.now := by rw [after]
    refine ⟨by rw [same]; exact Nat.le_add_right _ _, ?_⟩
    intro busy
    obtain ⟨y, hy, -, within⟩ := upto.within limited w hw busy
    obtain ⟨between, first, split⟩ := List.append_of_mem (tick_subset_past w.id _ hy)
    have begun : y.before.now ≤ x.after.now := (split ▸ upto).now_mono
    exact ⟨y.before.now, same ▸ begun, within⟩
  · intro y later run held v hv
    have before := run.before
    have still : y.before.stopped = true := before.stopped_since stopped
    cases run.effect.origin hv with
    | idle was _ =>
      obtain ⟨bound, begun⟩ := held v was
      by_cases waiting : v.phase = .waiting
      · have due : v.dueAt c.settings.callTimeout y.before.stopped y.before.now =
            some y.before.now := by
          rw [Watcher.dueAt, waiting, still]
          rfl
        rw [run.now_eq_of_due was due]
        exact ⟨bound, begun⟩
      · obtain ⟨begun, early, within⟩ := begun waiting
        have within := within.later run limited was
        have last := within.now_le waiting
        have early : begun.nanos ≤ x.before.now.nanos := early
        exact ⟨by omega, fun _ => ⟨begun, early, within⟩⟩
    | started _ _ _ starts =>
      have running := starts.running
      simp [still] at running
    | @turned w _ hw hm turn live =>
      have mem := List.mem_of_find?_eq_some hw
      obtain ⟨bound, begun⟩ := held w mem
      rw [run.effect.now_eq_of_actor hm]
      refine ⟨bound, fun _ => ?_⟩
      have busy : w.phase ≠ .waiting := fun waiting =>
        live (turn.done_of_stopped hw still waiting)
      obtain ⟨begun, early, within⟩ := begun busy
      exact ⟨begun, early, turn.within hw busy within (before.now_eq_ceilMilli mem)⟩

/-! ## The end of a shutdown -/

/-- A move that the service makes by itself while the store answers: it hears nothing from the chain
and takes nothing in. -/
def Move.IsOwn (outcome : Except StorageError Unit) : Move → Prop
  | .wake _ | .expire _ | .advance _ => True
  | .stored _ said => said = outcome
  | _ => False

/-- The later ones of these moves are the service's own, where the store answers as told. -/
def OwnMoves (answers : List Transition → Except StorageError Unit) (past : List Transition) :
    List Transition → Prop
  | [] => True
  | x :: later => x.move.IsOwn (answers (later ++ past)) ∧ OwnMoves answers past later

/-- The moves that the watchers of some records still have left. -/
def Service.movesLeft (s : Service) (ids : List String) : Nat :=
  (ids.map fun id => (s.budget id).moves).sum

/-- A watcher of a stopped service can make its turn unless it is in a call that may still take its
time. -/
theorem Chronicle.exists_turn (run : Chronicle c past s) (stopped : s.stopped = true)
    (hw : w ∈ s.watchers) (limited : c.settings.callTimeout = some limit)
    (due : ∀ since call, w.phase = .calling since call → since + limit ≤ s.now)
    (outcome : Except StorageError Unit) : ∃ m s' events, s.apply c m = some (s', events) ∧
      m.actor = some w.id ∧ m.isPrompt = true ∧ m.IsOwn outcome := by
  have there := run.watcher?_of_mem hw
  cases phase : w.phase with
  | waiting =>
    obtain ⟨next, wakes⟩ : ∃ next, w.wake c.signers s.stopped s.now = some next :=
      Watcher.exists_wake phase (.inl stopped)
    refine ⟨.wake w.id, (s.carry next).1, (s.carry next).2, ?_, rfl, rfl, trivial⟩
    simp [Service.apply, there, wakes]
  | calling since call =>
    have late := due since call phase
    obtain ⟨next, heard⟩ : ∃ next, w.answer s.now (.timedOut limit) = some next := by
      rw [Watcher.answer, phase]
      exact ⟨_, rfl⟩
    refine ⟨.expire w.id, (s.carry next).1, (s.carry next).2, ?_, rfl, rfl, trivial⟩
    simp [Service.apply, there, limited, phase, late, heard]
  | writing r after =>
    obtain ⟨next, ends⟩ : ∃ next, (s.written r outcome).carry (w.stored s.now r after outcome) =
      next := ⟨_, rfl⟩
    refine ⟨.stored w.id outcome, next.1, .wrote r outcome.isOk :: next.2, ?_, rfl, rfl, rfl⟩
    simp [Service.apply, there, phase, ends]
  | done => exact absurd phase (run.not_done w hw)

/-- When twice the limit has passed since a stop, a watcher that is still there has a turn to make. -/
theorem History.unwatched_of_late (run : History c (later ++ x :: past) s)
    (limited : c.settings.callTimeout = some limit) (stop : x.move = .stop) (rest : s.AtRest c)
    (late : x.before.now.nanos + 2 * limit.ceilNanos ≤ s.now.nanos) : s.watchers = [] := by
  by_contra watched
  obtain ⟨w, hw⟩ := List.exists_mem_of_ne_nil _ watched
  have due : ∀ since call, w.phase = .calling since call → since + limit ≤ s.now := by
    intro since call phase
    obtain ⟨begun, early, within⟩ := (run.chronicle.within_since_stop limited stop w hw).2
      (by rw [phase]; nofun)
    rw [Watcher.Within, phase] at within
    obtain ⟨-, first, -⟩ := within
    have calls := Nat.mul_le_mul_right limit.ceilNanos call.earlier_le
    have short := limit.nanos_le_ceilNanos
    have early : begun.nanos ≤ x.before.now.nanos := early
    show since.nanos + limit.nanos ≤ s.now.nanos
    omega
  obtain ⟨m, s', events, made, -, prompt, -⟩ :=
    run.chronicle.exists_turn (run.chronicle.stopped_of_stop stop) hw limited due (.ok ())
  rw [rest m prompt] at made
  cases made

theorem Service.of_mem_dueMoments {d : Moment} (stopped : s.stopped = true)
    (hd : d ∈ s.dueMoments c) :
    ∃ w ∈ s.watchers, w.dueAt c.settings.callTimeout s.stopped s.now = some d := by
  rcases List.mem_append.mp hd with hd | hd
  · obtain ⟨p, -, hd⟩ := List.mem_filterMap.mp hd
    cases p with
    | ticking t => simp [stopped] at hd
    | crashed => cases hd
  · exact List.mem_filterMap.mp hd

/-- Where every watcher is in a call that may still take its time, time may pass until one of the
calls has taken it. -/
theorem History.exists_advance (stopped : s.stopped = true)
    (limited : c.settings.callTimeout = some limit) (watched : s.watchers ≠ [])
    (calls : ∀ w ∈ s.watchers, ∃ since call, w.phase = .calling since call ∧
      s.now ≤ since + limit) :
    ∃ target, s.mayAdvance c target = true ∧ ∃ w ∈ s.watchers, ∃ since call,
      w.phase = .calling since call ∧ since + limit ≤ target := by
  have due {w : Watcher} {since : Moment} {call : Call} (phase : w.phase = .calling since call) :
      w.dueAt c.settings.callTimeout s.stopped s.now = some (since + limit) := by
    rw [Watcher.dueAt, phase, limited]
    rfl
  obtain ⟨v, hv⟩ := List.exists_mem_of_ne_nil _ watched
  obtain ⟨_, _, phase, -⟩ := calls v hv
  obtain ⟨d, hd, first⟩ := Moment.exists_first
    (List.ne_nil_of_mem (Service.mem_dueMoments hv (due phase)))
  obtain ⟨w, hw, at_d⟩ := Service.of_mem_dueMoments stopped hd
  obtain ⟨since, call, phase, ahead⟩ := calls w hw
  obtain rfl := Option.some.inj ((due phase).symm.trans at_d)
  have reached := (since + limit).le_ceilMilli
  exact ⟨(since + limit).ceilMilli, Service.mayAdvance_iff.mpr
    ⟨Nat.le_trans ahead reached, (Moment.ceilMilli_ceilMilli _).symm, first⟩,
    w, hw, since, call, phase, reached⟩

/-- A turn takes one of the moves that are left, and nothing adds to them. -/
theorem Chronicle.movesLeft_after (run : Chronicle c (x :: past) s)
    (stopped : x.before.stopped = true) (ids : List String) : x.after.movesLeft ids ≤ x.before.movesLeft ids ∧
      ∀ id ∈ ids, x.move.actor = some id → x.after.movesLeft ids < x.before.movesLeft ids := by
  have spent (id : String) :
      (x.after.budget id).moves + (x.spent id).moves ≤ (x.before.budget id).moves :=
    (run.effect.winds stopped run.before.not_done id).2.2.2
  have kept (id : String) : (x.after.budget id).moves ≤ (x.before.budget id).moves :=
    (Nat.le_add_right _ _).trans (spent id)
  refine ⟨List.sum_le_sum fun id _ => kept id, ?_⟩
  intro id hid own
  refine List.sum_lt_sum _ _ (fun id _ => kept id) ⟨id, hid, ?_⟩
  have one : (x.spent id).moves = 1 := if_pos own
  have := spent id
  omega

theorem History.exists_spent (run : History c (later ++ x :: past) s)
    (limited : c.settings.callTimeout = some limit) (stop : x.move = .stop) (hw : w ∈ s.watchers)
    (due : ∀ since call, w.phase = .calling since call → since + limit ≤ s.now) {ids : List String}
    (known : ∀ w ∈ s.watchers, w.id ∈ ids) (outcome : Except StorageError Unit) :
    ∃ y : Transition, History c (y :: (later ++ x :: past)) y.after ∧ y.move.IsOwn outcome ∧
      (∀ w ∈ y.after.watchers, w.id ∈ ids) ∧
      y.after.now.nanos ≤ x.before.now.nanos + 2 * limit.ceilNanos ∧
      y.after.movesLeft ids < s.movesLeft ids := by
  have stopped := run.chronicle.stopped_of_stop stop
  obtain ⟨m, s', events, made, own, -, byItself⟩ :=
    run.chronicle.exists_turn stopped hw limited due outcome
  have run' := run.step made
  have same : s'.now = s.now := run'.effect.now_eq_of_actor own
  have bound := (run.chronicle.within_since_stop limited stop w hw).1
  rw [← same] at bound
  have known' : ∀ v ∈ s'.watchers, v.id ∈ ids := by
    intro v hv
    obtain ⟨w, hw, same⟩ := run'.chronicle.watched_before stopped v hv
    exact same ▸ known w hw
  exact ⟨_, run', byItself, known', bound,
    (run'.chronicle.movesLeft_after stopped ids).2 w.id (known w hw) own⟩

theorem History.exists_fewer (run : History c (later ++ x :: past) s)
    (limited : c.settings.callTimeout = some limit) (stop : x.move = .stop)
    (watched : s.watchers ≠ []) {ids : List String} (known : ∀ w ∈ s.watchers, w.id ∈ ids)
    (answers : List Transition → Except StorageError Unit) :
    ∃ rest s', History c (rest ++ (later ++ x :: past)) s' ∧
      OwnMoves answers (later ++ x :: past) rest ∧ (∀ w ∈ s'.watchers, w.id ∈ ids) ∧
      s'.now.nanos ≤ x.before.now.nanos + 2 * limit.ceilNanos ∧
      s'.movesLeft ids < s.movesLeft ids := by
  have stopped := run.chronicle.stopped_of_stop stop
  by_cases ready : ∃ w ∈ s.watchers,
      ∀ since call, w.phase = .calling since call → since + limit ≤ s.now
  · obtain ⟨w, hw, due⟩ := ready
    obtain ⟨y, run', own, known', bound, fewer⟩ :=
      run.exists_spent limited stop hw due known (answers (later ++ x :: past))
    exact ⟨[y], y.after, run', ⟨own, trivial⟩, known', bound, fewer⟩
  · -- time passes first
    have calls : ∀ w ∈ s.watchers, ∃ since call, w.phase = .calling since call ∧
        s.now ≤ since + limit := by
      intro w hw
      by_contra none
      refine ready ⟨w, hw, fun since call phase => ?_⟩
      exact Nat.le_of_not_le fun ahead => none ⟨since, call, phase, ahead⟩
    obtain ⟨target, may, w, hw, since, call, phase, reached⟩ :=
      History.exists_advance stopped limited watched calls
    have made : s.apply c (.advance target) = some ({ s with now := target }, []) := by
      rw [Service.apply, if_pos may]
    have run₁ := run.step made
    rw [← List.cons_append] at run₁
    have due : ∀ since' call', w.phase = .calling since' call' → since' + limit ≤ target := by
      intro since' call' phase'
      obtain ⟨rfl, -⟩ := Phase.calling.inj (phase.symm.trans phase')
      exact reached
    obtain ⟨y, run₂, own, known', bound, fewer⟩ :=
      run₁.exists_spent limited stop hw due known (answers (_ :: (later ++ x :: past)))
    exact ⟨[y, _], y.after, run₂, ⟨own, trivial, trivial⟩, known', bound, fewer⟩

theorem OwnMoves.append {answers : List Transition → Except StorageError Unit}
    {first : List Transition} (earlier : OwnMoves answers past first)
    (own : OwnMoves answers (first ++ past) later) : OwnMoves answers past (later ++ first) := by
  induction later with
  | nil => exact earlier
  | cons y later ih =>
    obtain ⟨this, own⟩ := own
    refine ⟨?_, ih own⟩
    show y.move.IsOwn (answers (later ++ first ++ past))
    rw [List.append_assoc]
    exact this

/-- A stopped service comes to its end by itself. The induction is on the moves that are left. -/
theorem History.exists_shutDown (run : History c (later ++ x :: past) s)
    (limited : c.settings.callTimeout = some limit) (stop : x.move = .stop)
    (answers : List Transition → Except StorageError Unit) :
    ∃ rest s', History c (rest ++ (later ++ x :: past)) s' ∧
      OwnMoves answers (later ++ x :: past) rest ∧ s'.ShutDown ∧
      s'.now.nanos ≤ max s.now.nanos (x.before.now.nanos + 2 * limit.ceilNanos) := by
  have known : ∀ w ∈ s.watchers, w.id ∈ s.watchers.map (·.id) :=
    fun w hw => List.mem_map_of_mem hw
  generalize s.watchers.map (·.id) = ids at known
  induction left : s.movesLeft ids using Nat.strong_induction_on generalizing later s with
  | _ n ih =>
    by_cases gone : s.watchers = []
    · exact ⟨[], s, run, trivial, ⟨run.chronicle.stopped_of_stop stop, gone⟩, Nat.le_max_left _ _⟩
    · obtain ⟨first, s₁, run₁, own₁, known₁, bound₁, fewer⟩ :=
        run.exists_fewer limited stop gone known answers
      rw [← List.append_assoc] at run₁
      obtain ⟨rest, s₂, run₂, own₂, ends, bound₂⟩ := ih _ (left ▸ fewer) run₁ known₁ rfl
      rw [List.append_assoc] at run₂ own₂
      refine ⟨rest ++ first, s₂, ?_, own₁.append own₂, ends, ?_⟩
      · rw [List.append_assoc]
        exact run₂
      · rw [Nat.max_eq_right bound₁] at bound₂
        exact bound₂.trans (Nat.le_max_right _ _)

/-- **Limited calls bound every tick.** Where calls have a limit, no watcher is at a tick for longer
than twice that limit, rounded up to whole milliseconds, whatever the chain does. After a stop no
watcher is there for longer than that, so that at rest at that time all have left; and at every
point the service can come to the end of its shutdown by itself within that time, without a word
from the chain and whatever the store answers. The polls of these histories are answered at once. -/
theorem limited_calls_bound_ticks (run : History c past s)
    (limited : c.settings.callTimeout = some limit) :
    (∀ w ∈ s.watchers, w.phase ≠ .waiting → ∃ x ∈ tick w.id past, x.move = .wake w.id ∧
      s.now.nanos ≤ x.before.now.nanos + 2 * limit.ceilNanos) ∧
    ∀ later x earlier, past = later ++ x :: earlier → x.move = .stop →
      (s.watchers ≠ [] → s.now.nanos ≤ x.before.now.nanos + 2 * limit.ceilNanos) ∧
      (s.AtRest c → x.before.now.nanos + 2 * limit.ceilNanos ≤ s.now.nanos → s.watchers = []) ∧
      ∀ answers, ∃ rest s', History c (rest ++ past) s' ∧ OwnMoves answers past rest ∧
        s'.ShutDown ∧
        (s.watchers ≠ [] → s'.now.nanos ≤ x.before.now.nanos + 2 * limit.ceilNanos) := by
  constructor
  · intro w hw busy
    obtain ⟨x, hx, wakes, within⟩ := run.chronicle.within limited w hw busy
    exact ⟨x, hx, wakes, within.now_le busy⟩
  · rintro later x earlier rfl stop
    have bound : s.watchers ≠ [] → s.now.nanos ≤ x.before.now.nanos + 2 * limit.ceilNanos := by
      intro watched
      obtain ⟨w, hw⟩ := List.exists_mem_of_ne_nil _ watched
      exact (run.chronicle.within_since_stop limited stop w hw).1
    refine ⟨bound, run.unwatched_of_late limited stop, ?_⟩
    intro answers
    obtain ⟨rest, s', run', own, ends, last⟩ := run.exists_shutDown limited stop answers
    refine ⟨rest, s', run', own, ends, fun watched => ?_⟩
    rwa [Nat.max_eq_right (bound watched)] at last

end Runs

namespace Sample

def limited : Setup :=
  { setup with settings := { setup.settings with callTimeout := some (.ofMillis 1500) } }

/-- The service is stopped when the lookup has just begun. The chain answers it in the last moment
and says nothing about the receipt. -/
def hanging : List Move :=
  [.advance (.ofMillis 15500), .answer "a" mined, .advance (.ofMillis 17000)]

end Sample

/-- The watcher is still there when twice the limit has passed, and the shutdown ends just then. -/
theorem hanging_sample_shuts_down : ∃ later x earlier s,
    History Sample.limited (later ++ x :: earlier) s ∧ x.move = .stop ∧
      later.map (·.move) = Sample.hanging.reverse ∧ x.before.now = .ofMillis 14000 ∧
      s.now = .ofMillis 17000 ∧ s.watchers ≠ [] ∧
      ∃ rest s', History Sample.limited (rest ++ (later ++ x :: earlier)) s' ∧
        OwnMoves (fun _ => .ok ()) (later ++ x :: earlier) rest ∧ s'.ShutDown ∧
        s'.now.nanos ≤ 17000 * nanosPerMilli := by
  obtain ⟨later, x, earlier, s, run, made, stop, -, passed⟩ := History.exists_split_of_replay
    (c := Sample.limited)
    (Sample.begun (Sample.timed 60000 4000 10000) ++ [.advance (.ofMillis 14000), .wake "a"])
    .stop Sample.hanging ⟨0⟩ (fun later x _ => x.before.now = .ofMillis 14000 ∧
      later.head?.any fun y => y.after.now = .ofMillis 17000 && !y.after.watchers.isEmpty)
    (by decide +kernel)
  obtain ⟨asked, hangs⟩ := of_decide_eq_true passed
  obtain ⟨y, hy, still⟩ := (Option.any_eq_true ..).mp hangs
  obtain ⟨rest, rfl⟩ := List.head?_eq_some_iff.mp hy
  obtain ⟨-, -, rfl⟩ := History.cons_iff.mp run
  simp only [Bool.and_eq_true, decide_eq_true_eq, Bool.not_eq_true', List.isEmpty_eq_false_iff]
    at still
  obtain ⟨now, watched⟩ := still
  have limited : Sample.limited.settings.callTimeout = some (.ofMillis 1500) := rfl
  obtain ⟨-, after⟩ := limited_calls_bound_ticks run limited
  obtain ⟨-, -, ends⟩ := after (y :: rest) x earlier rfl stop
  obtain ⟨more, s', run', own, shut, bound⟩ := ends fun _ => .ok ()
  refine ⟨y :: rest, x, earlier, y.after, run, stop, made, asked, now, watched, more, s', run',
    own, shut, ?_⟩
  have last := bound watched
  rw [asked] at last
  exact last

end GasEscalator
