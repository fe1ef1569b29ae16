import GasEscalator.Proofs.Effects

/-!
# Chronicles

A store that takes its time to answer a poll lets others go on in between. A chronicle keeps of a
service what does not depend on that: every move has its effect, the clock shows a whole millisecond
whenever there is a watcher, and a watcher begins from a record that was stored at some time. The
histories, whose polls are answered at once, are chronicles in which each watcher begins from what
is stored just then.
-/
namespace GasEscalator

/-! ## The clock -/

/-- Only a move of the clock changes the time. -/
theorem Effect.now_cases {c : Setup} {x : Transition} (effect : Effect c x) :
    x.after.now = x.before.now ∨
      ∃ target, x.move = .advance target ∧ x.before.MayPass c target ∧
        x.after = { x.before with now := target } := by
  rcases effect.frame with ⟨-, same, -⟩ | ⟨-, after⟩ | advance
  · exact .inl same
  · exact .inl (by rw [after])
  · exact .inr advance

theorem Effect.now_eq_of_actor {c : Setup} {x : Transition} {id : String} (effect : Effect c x)
    (hm : x.move.actor = some id) : x.after.now = x.before.now := by
  rcases effect.now_cases with same | ⟨target, advance, -⟩
  · exact same
  · rw [advance] at hm
    cases hm

theorem Effect.now_le {c : Setup} {x : Transition} (effect : Effect c x) :
    x.before.now ≤ x.after.now := by
  rcases effect.now_cases with same | ⟨target, -, may, after⟩
  · rw [same]
    exact Nat.le_refl _
  · rw [after]
    exact may.ahead

/-- The clock shows a whole millisecond, or nothing could have begun yet. -/
def Service.Punctual (s : Service) : Prop :=
  s.now = s.now.ceilMilli ∨
    s.watchers = [] ∧ ∀ t, Poller.ticking t ∈ s.pollers → s.now < t.due

theorem Service.Punctual.whole {s : Service} {w : Watcher} (punctual : s.Punctual)
    (hw : w ∈ s.watchers) : s.now = s.now.ceilMilli := by
  rcases punctual with whole | ⟨unwatched, -⟩
  · exact whole
  · rw [unwatched] at hw
    cases hw

theorem Service.takeTick_due {s t : Service} {poller : Nat} (h : s.takeTick poller = some t) :
    ∃ ticker, Poller.ticking ticker ∈ s.pollers ∧ ticker.due ≤ s.now := by
  unfold takeTick at h
  split at h
  case h_2 => cases h
  case h_1 ticker there =>
    split at h
    case isFalse => cases h
    case isTrue due =>
      simp only [Ticker.isDue, Bool.and_eq_true, decide_eq_true_eq] at due
      exact ⟨ticker, List.mem_of_getElem? there, due.2⟩

/-- Who can take a tick is late enough for the clock to have moved. -/
theorem Service.Punctual.whole_of_tick {s t : Service} {poller : Nat} (punctual : s.Punctual)
    (tick : s.takeTick poller = some t) : s.now = s.now.ceilMilli := by
  rcases punctual with whole | ⟨-, ahead⟩
  · exact whole
  · obtain ⟨ticker, there, due⟩ := takeTick_due tick
    exact absurd due (Nat.not_le_of_lt (ahead ticker there))

/-- The first tick of a poller is still to come. -/
theorem Poller.start_due {c : Setup} {now : Moment} {t : Ticker}
    (h : Poller.start c now = .ticking t) : now < t.due := by
  unfold Poller.start at h
  split at h
  case isTrue => cases h
  case isFalse positive =>
    have positive : c.settings.pollInterval.nanos ≠ 0 := by simpa [Duration.isZero] using positive
    split at h
    case h_2 => cases h
    case h_1 started =>
      obtain rfl := Poller.ticking.inj h
      unfold Ticker.start? at started
      split at started
      case isFalse => cases started
      case isTrue =>
        obtain rfl := Option.some.inj started
        show now.nanos < now.nanos + c.settings.pollInterval.nanos
        omega

theorem Transition.Made.punctual {c : Setup} {x : Transition} (made : x.Made c)
    (sound : ∀ w ∈ x.before.watchers, w.Sound c) (before : x.before.Punctual) :
    x.after.Punctual := by
  have effect := Effect.of_made sound made
  rcases before with whole | ⟨unwatched, ahead⟩
  · rcases effect.now_cases with same | ⟨target, -, may, after⟩
    · refine .inl ?_
      rw [same]
      exact whole
    · rw [after]
      exact .inl may.whole
  · -- nothing is due yet, so that the move is none of a watcher and none of a poller
    have idle {id : String} {w : Watcher} (hw : x.before.watcher? id = some w) : False := by
      have there := List.mem_of_find?_eq_some hw
      rw [unwatched] at there
      cases there
    have early {poller : Nat} {t : Service} (tick : x.before.takeTick poller = some t) : False := by
      obtain ⟨ticker, there, due⟩ := Service.takeTick_due tick
      exact Nat.not_lt_of_le due (ahead ticker there)
    cases effect with
    | refused _ _ after | placed _ after | stopped _ after =>
      rw [after]
      exact .inr ⟨unwatched, ahead⟩
    | inserted _ _ after =>
      obtain ⟨store, h⟩ := Service.written_frame x.before _ _
      rw [after, h]
      exact .inr ⟨unwatched, ahead⟩
    | pollerStarted _ after =>
      rw [after]
      refine .inr ⟨unwatched, ?_⟩
      intro t ht
      rcases List.mem_append.mp ht with ht | ht
      · exact ahead t ht
      · exact Poller.start_due (List.mem_singleton.mp ht).symm
    | polled hm =>
      unfold Transition.Made at made
      rw [hm] at made
      obtain ⟨t, tick, -⟩ := Option.bind_eq_some_iff.mp made
      exact (early tick).elim
    | pollFailed _ tick => exact (early tick).elim
    | acted hw | stored hw | crashed hw => exact (idle hw).elim
    | advanced _ may after =>
      rw [after]
      exact .inl may.whole

theorem History.punctual {c : Setup} {past : List Transition} {s : Service}
    (run : History c past s) : s.Punctual := by
  induction run with
  | start now => exact .inr ⟨rfl, fun t ht => nomatch ht⟩
  | step before made ih =>
    exact Transition.Made.punctual (x := ⟨_, _, _, _⟩) made before.sound ih

/-! ## Chronicles -/

/-- A poll has a watcher begin from a record that is not what is stored. -/
def Transition.StartsLate (x : Transition) (id : String) : Prop :=
  (∃ poller, x.move = .poll poller (.ok ())) ∧ ∃ w ∈ x.after.watchers, w ∉ x.before.watchers ∧
    w.id = id ∧ x.before.store.get? id ≠ some w.record

/-- What keeps the watchers of a record from working on what is stored. -/
def Transition.Disturbs (x : Transition) (id : String) : Prop := x.Rewrites id ∨ x.StartsLate id

/-- The service has made the moves of a list, the latest first, and is now in a state, whether or
not its polls were answered at once. -/
inductive Chronicle (c : Setup) : List Transition → Service → Prop
  | start (now : Moment) : Chronicle c [] (.initial now)
  | step {past : List Transition} {x : Transition} (run : Chronicle c past x.before)
      (effect : Effect c x) (acts : ∀ id, x.move.actor = some id → x.Made c)
      (whole : ∀ w ∈ x.after.watchers, x.after.now = x.after.now.ceilMilli)
      (seen : ∀ w ∈ x.after.watchers, w ∈ x.before.watchers ∨ x.move.actor = some w.id ∨
        ∃ y ∈ x :: past, y.after.store.get? w.id = some w.record) :
      Chronicle c (x :: past) x.after

namespace Chronicle

variable {c : Setup} {past later : List Transition} {x : Transition} {s : Service}

/-- The latest move led to the present state, from a state with a chronicle of its own. -/
theorem of_cons (run : Chronicle c (x :: past) s) :
    Chronicle c past x.before ∧ Effect c x ∧ s = x.after := by
  cases run with
  | step before effect => exact ⟨before, effect, rfl⟩

theorem before (run : Chronicle c (x :: past) s) : Chronicle c past x.before := run.of_cons.1

theorem effect (run : Chronicle c (x :: past) s) : Effect c x := run.of_cons.2.1

/-- What a watcher does is a move of the service. -/
theorem made {id : String} (run : Chronicle c (x :: past) s) (own : x.move.actor = some id) :
    x.Made c := by
  cases run with
  | step _ _ acts => exact acts id own

/-- What lies behind a move of a chronicle is the chronicle of the state after it. -/
theorem of_append (run : Chronicle c (later ++ x :: past) s) : Chronicle c (x :: past) x.after := by
  induction later generalizing s with
  | nil =>
    obtain ⟨-, -, rfl⟩ := run.of_cons
    exact run
  | cons y later ih => exact ih run.before

/-- A move among the later ones of a chronicle was made with the earlier ones behind it. -/
theorem of_mem_append {earlier : List Transition} (run : Chronicle c (later ++ earlier) s)
    (hx : x ∈ later) :
    ∃ after before, later = after ++ x :: before ∧
      Chronicle c (x :: (before ++ earlier)) x.after := by
  obtain ⟨after, before, rfl⟩ := List.append_of_mem hx
  rw [List.append_assoc] at run
  exact ⟨after, before, rfl, of_append run⟩

/-- What holds after a move and is kept by every later one holds from then on. -/
theorem since {P : List Transition → Service → Prop} (run : Chronicle c (later ++ x :: past) s)
    (first : P [] x.after)
    (next : ∀ y later, Chronicle c (y :: (later ++ x :: past)) y.after → P later y.before →
      P (y :: later) y.after) : P later s := by
  induction later generalizing s with
  | nil =>
    obtain ⟨-, -, rfl⟩ := run.of_cons
    exact first
  | cons y later ih =>
    obtain ⟨before, -, rfl⟩ := run.of_cons
    exact next y later run (ih before)

/-- In every chronicle the watchers are sound. -/
theorem sound (run : Chronicle c past s) : ∀ w ∈ s.watchers, w.Sound c := by
  induction run with
  | start now =>
    intro w hw
    cases hw
  | step _ effect _ _ _ ih => exact effect.sound ih

/-- The clock shows a whole millisecond as soon as there is a watcher. -/
theorem now_eq_ceilMilli {w : Watcher} (run : Chronicle c past s) (hw : w ∈ s.watchers) :
    s.now = s.now.ceilMilli := by
  cases run with
  | start now => cases hw
  | step _ _ _ whole => exact whole w hw

theorem now_le (run : Chronicle c (later ++ x :: past) s) : x.after.now ≤ s.now := by
  refine run.since (P := fun _ t => x.after.now ≤ t.now) (Nat.le_refl _) ?_
  intro y later upto so_far
  exact Nat.le_trans so_far upto.effect.now_le

theorem now_mono (run : Chronicle c (later ++ x :: past) s) : x.before.now ≤ s.now :=
  Nat.le_trans run.of_append.effect.now_le run.now_le

theorem stopped_since (run : Chronicle c (later ++ x :: past) s)
    (stopped : x.after.stopped = true) : s.stopped = true := by
  refine run.since (P := fun _ t => t.stopped = true) stopped ?_
  intro y later upto still
  exact upto.effect.stopped_after still

end Chronicle

/-! ## Turns -/

/-- The moves of the watchers of a record, the latest first. -/
def turnsOf (id : String) (past : List Transition) : List Transition :=
  past.filter fun x => x.move.actor = some id

section Turns

variable {x : Transition} {past : List Transition} {id : String}

theorem turnsOf_own (own : x.move.actor = some id) : turnsOf id (x :: past) = x :: turnsOf id past :=
  List.filter_cons_of_pos (decide_eq_true own)

theorem turnsOf_other (other : x.move.actor ≠ some id) : turnsOf id (x :: past) = turnsOf id past :=
  List.filter_cons_of_neg (by simpa using other)

end Turns

/-! ## Histories -/

theorem Effect.store_eq_of_poll {c : Setup} {x : Transition} {poller : Nat} (effect : Effect c x)
    (sound : ∀ w ∈ x.before.watchers, w.Sound c) (polled : x.move = .poll poller (.ok ())) :
    x.after.store = x.before.store := by
  rcases effect.store_cases sound with same | ⟨r, -, stores⟩
  · exact same
  · cases stores with
    | inserted hm | placed hm =>
      rw [polled] at hm
      cases hm
    | learned learned => cases polled.symm.trans learned.1

/-- A watcher that a poll answered at once has started works on what is stored. -/
theorem Transition.Made.current {c : Setup} {x : Transition} {w : Watcher} (made : x.Made c)
    (sound : ∀ w ∈ x.before.watchers, w.Sound c) (polled : ∃ poller, x.move = .poll poller (.ok ()))
    (hw : w ∈ x.after.watchers) (new : w ∉ x.before.watchers) :
    x.before.store.get? w.id = some w.record := by
  obtain ⟨poller, polled⟩ := polled
  cases (Effect.of_made sound made).origin hw with
  | idle was => exact absurd was new
  | turned _ hm =>
    rw [polled] at hm
    cases hm
  | started _ read _ starts =>
    obtain ⟨rfl, -⟩ := Watcher.start?_eq_some starts.set
    exact Setup.get?_of_mem_readable (read made)

/-- Where polls are answered at once, nobody but an outsider disturbs a record. -/
theorem Transition.Made.calm {c : Setup} {x : Transition} {id : String} (made : x.Made c)
    (sound : ∀ w ∈ x.before.watchers, w.Sound c) (kept : ¬ x.Rewrites id) : ¬ x.Disturbs id := by
  rintro (rewrites | ⟨polled, w, hw, new, rfl, stale⟩)
  · exact kept rewrites
  · exact stale (made.current sound polled hw new)

namespace History

variable {c : Setup} {past : List Transition} {s : Service} {id : String}

/-- A history is a chronicle. -/
theorem chronicle (run : History c past s) : Chronicle c past s := by
  induction run with
  | start now => exact .start now
  | @step past s s' m events before made ih =>
    have run := before.step made
    have made : Transition.Made c ⟨s, m, s', events⟩ := made
    refine Chronicle.step (x := ⟨s, m, s', events⟩) ih run.effect (fun _ _ => made)
      (fun w hw => run.punctual.whole hw) ?_
    intro w hw
    cases run.effect.origin hw with
    | idle was => exact .inl was
    | turned _ hm turn => exact .inr (.inl (by rw [hm, turn.id_eq]))
    | started polled _ _ _ new =>
      have stored := made.current before.sound polled hw new
      obtain ⟨poller, polled⟩ := polled
      refine .inr (.inr ⟨_, List.mem_cons_self, ?_⟩)
      rw [run.effect.store_eq_of_poll before.sound polled]
      exact stored

theorem calm (run : History c past s) {x : Transition} (hx : x ∈ past) (kept : ¬ x.Rewrites id) :
    ¬ x.Disturbs id := by
  obtain ⟨later, earlier, rfl⟩ := List.append_of_mem hx
  obtain ⟨before, made, -⟩ := cons_iff.mp run.of_append
  exact made.calm before.sound kept

theorem undisturbed (run : History c past s) (kept : ∀ x ∈ past, ¬ x.Rewrites id) :
    ∀ x ∈ past, ¬ x.Disturbs id :=
  fun x hx => run.calm hx (kept x hx)

end History

end GasEscalator
