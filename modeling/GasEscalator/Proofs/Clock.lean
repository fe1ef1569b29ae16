import GasEscalator.Proofs.Marks

/-!
# The clock

Time stands still while a watcher has the store take a record: the clock shows a whole millisecond
whenever there is a watcher, and only starts between two of them.

An instant is over for the service when it is at rest: nothing is left to do that waits for neither
the time nor the chain.
-/
namespace GasEscalator

theorem Moment.eq_of_nanos {a b : Moment} (h : a.nanos = b.nanos) : a = b := by
  cases a
  cases b
  rw [Moment.mk.injEq]
  exact h

namespace Chronicle

variable {c : Setup} {past : List Transition} {x : Transition} {s : Service} {w : Watcher}

/-- Time stands still while a watcher has something to do at once. -/
theorem now_eq_of_due (run : Chronicle c (x :: past) s) (hw : w ∈ x.before.watchers)
    (due : w.dueAt c.settings.callTimeout x.before.stopped x.before.now = some x.before.now) :
    x.after.now = x.before.now := by
  rcases run.effect.now_cases with same | ⟨target, -, may, after⟩
  · exact same
  · have bound : target ≤ x.before.now := by
      have first := may.due w hw _ due
      rwa [← run.before.now_eq_ceilMilli hw] at first
    rw [after]
    exact Moment.eq_of_nanos (Nat.le_antisymm bound may.ahead)

/-- Time stands still while a watcher waits for the store. -/
theorem now_eq_of_writing {r : Record} {after : AfterWrite} (run : Chronicle c (x :: past) s)
    (hw : w ∈ x.before.watchers) (writing : w.phase = .writing r after) :
    x.after.now = x.before.now :=
  run.now_eq_of_due hw (by rw [Watcher.dueAt, writing])

end Chronicle

/-! ## Rest -/

/-- Whether a move is made at once when it is possible. -/
def Move.isPrompt : Move → Bool
  | .poll .. | .wake _ | .expire _ | .stored .. => true
  | _ => false

/-- Nothing that is due at this instant is left to do. -/
def Service.AtRest (c : Setup) (s : Service) : Prop := ∀ m, m.isPrompt = true → s.apply c m = none

/-- Nobody watches and no poller is due. -/
def Service.isQuiet (s : Service) : Bool :=
  s.watchers.isEmpty && s.pollers.all fun p => p.backlog s.now = 0

theorem Service.atRest_of_isQuiet {c : Setup} {s : Service} (quiet : s.isQuiet = true) :
    s.AtRest c := by
  obtain ⟨gone, early⟩ := Bool.and_eq_true_iff.mp quiet
  have unwatched (id : String) : s.watcher? id = none := by
    rw [watcher?, List.isEmpty_iff.mp gone, List.find?_nil]
  have untaken (poller : Nat) : s.takeTick poller = none := by
    rw [Option.eq_none_iff_forall_ne_some]
    intro t tick
    obtain ⟨ticker, there, due⟩ := takeTick_due tick
    have none := List.all_eq_true.mp early _ there
    simp [Poller.backlog, Ticker.backlog, due] at none
  intro m prompt
  cases m with
  | poll poller outcome => simp [apply, untaken]
  | wake id | expire id | stored id => simp [apply, unwatched]
  | _ => cases prompt

theorem Watcher.exists_wake {w : Watcher} {signers : Registry Signer} {stopped : Bool}
    {now : Moment} (waiting : w.phase = .waiting) (due : stopped = true ∨ w.deadline ≤ now) :
    ∃ next, w.wake signers stopped now = some next := by
  unfold wake
  rw [waiting]
  dsimp only
  split
  · exact ⟨_, rfl⟩
  case isFalse running =>
    have late : w.deadline ≤ now := due.resolve_left running
    exact ⟨_, if_pos late⟩

namespace Chronicle

variable {c : Setup} {past : List Transition} {s : Service} {w : Watcher}

theorem not_done (run : Chronicle c past s) : ∀ w ∈ s.watchers, w.phase ≠ .done := by
  induction run with
  | start now => simp [Service.initial]
  | step _ effect _ _ _ ih =>
    intro v hv
    cases effect.origin hv with
    | idle was _ => exact ih v was
    | started _ _ _ starts =>
      rw [(Watcher.start?_eq_some starts.set).2.1]
      nofun
    | turned _ _ _ live => exact live

/-- At rest, a watcher that is stopped or out of time is waiting for the chain. -/
theorem calling_of_atRest (run : Chronicle c past s) (rest : s.AtRest c) (hw : w ∈ s.watchers)
    (due : s.stopped = true ∨ w.deadline ≤ s.now) : ∃ since call, w.phase = .calling since call := by
  have there := run.watcher?_of_mem hw
  cases phase : w.phase with
  | waiting =>
    obtain ⟨next, wakes⟩ : ∃ next, w.wake c.signers s.stopped s.now = some next :=
      Watcher.exists_wake phase due
    have idle := rest (.wake w.id) rfl
    simp [Service.apply, there, wakes] at idle
  | calling since call => exact ⟨since, call, rfl⟩
  | writing r after =>
    have idle := rest (.stored w.id (.ok ())) rfl
    simp [Service.apply, there, phase] at idle
  | done => exact absurd phase (run.not_done w hw)

end Chronicle

end GasEscalator
