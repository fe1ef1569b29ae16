import GasEscalator.Proofs.Persistence
import GasEscalator.Proofs.Verdicts

/-!
# Deadlines

A record's deadline is fixed when the record is first stored, and every watcher of it goes by the
same one, however late it was started. From the deadline on a watcher begins nothing: what is under
way is still heard, and then the record is marked as failed. This rests on watchers that can set
their timers; one that cannot leaves its record open for good.
-/
namespace GasEscalator

/-- Both timers of a watcher can be set when their clock shows `uptime`. -/
def Policy.Settable (p : Policy) (uptime : Moment) : Prop :=
  (uptime + p.checkInterval).isRepresentable = true ∧
    (uptime + p.increaseInterval).isRepresentable = true

instance (p : Policy) (uptime : Moment) : Decidable (p.Settable uptime) :=
  inferInstanceAs (Decidable (_ ∧ _))

theorem Watcher.exists_start? {r : Record} {d uptime : Moment} (now : Moment)
    (settable : r.policy.Settable uptime) (timed : r.deadline? = some d) :
    ∃ w, Watcher.start? now uptime r = some w := by
  obtain ⟨check, increase⟩ := settable
  rw [start?, timed, Ticker.start?, if_pos check, Ticker.start?, if_pos increase]
  exact ⟨_, rfl⟩

/-- The event is a call to the chain or a request to a signer for the record of an id. -/
def Event.Asks (id : String) : Event → Prop
  | .called i .. | .signing i .. => i = id
  | _ => False

/-- Nothing is begun for a record in a move: no tick is taken, its watcher does nothing that is due
but leave or write, and all that is asked for is the receipt that a status check under way still
needs. -/
structure Transition.BeginsNothing (x : Transition) (id : String) : Prop where
  tick : ∀ k, ¬ x.Begins id k
  wake : x.move = .wake id → ∀ e ∈ x.events, e = .ended id
  asks : ∀ e ∈ x.events, e.Asks id → ∃ chainId hash, e = .called id chainId (.receipt hash)

/-- A poll reads an open record that has a usable policy and is not watched. -/
structure Transition.PicksUp (c : Setup) (x : Transition) (r : Record) : Prop where
  polled : ∃ poller, x.move = .poll poller (.ok ())
  read : r ∈ c.readable x.before.store
  unsettled : r.status.isTerminal = false
  valid : r.policy.validate = .ok ()
  unwatched : ∀ w ∈ x.before.watchers, w.id ≠ r.id

/-! ## Turns at or after the deadline -/

section Turns

variable {c : Setup} {x : Transition} {w w' : Watcher} {events : List Event}

theorem Transition.Begins.early {k : TickKind} (tick : x.Begins w.id k)
    (hw : x.before.watcher? w.id = some w) : x.before.now < w.deadline := by
  obtain ⟨-, v, hv, tick⟩ := tick
  obtain rfl := Option.some.inj (hw.symm.trans hv)
  exact tick.early

theorem Turn.events_of_late (turn : Turn c x w w' events) (hw : x.before.watcher? w.id = some w)
    (late : w.deadline ≤ x.before.now) :
    (x.move = .wake w.id → events = []) ∧
      ∀ e ∈ events, (∃ f, e = .logged w.record f) ∨
        (∃ since call, w.phase = .calling since call) ∧
          ∃ hash, e = .called w.id w.record.chainId (.receipt hash) := by
  have no_tick {k : TickKind} (tick : x.Begins w.id k) : False :=
    Nat.not_lt_of_le late (tick.early hw)
  have no_wake {call : Call} {result : Except ChainError call.Result}
      (heard : x.Hears c w.id call result) (hm : x.move = .wake w.id) : False := by
    have other := heard.not_wakes w.id
    simp [hm, Move.wakes] at other
  cases turn with
  | stop | timeUp | pending | success | sent | resume | finish =>
    refine ⟨fun _ => rfl, ?_⟩
    intro e he
    cases he
  | ask hm tick | send hm tick => exact (no_tick ⟨hm, w, hw, tick⟩).elim
  | mined _ heard =>
    refine ⟨fun hm => (no_wake heard hm).elim, ?_⟩
    intro e he
    obtain ⟨since, calling⟩ := heard.calling hw
    exact .inr ⟨⟨since, _, calling⟩, _, List.mem_singleton.mp he⟩
  | condemn grounds _ reports =>
    rcases grounds.origin with tick | ⟨call, result, heard⟩
    · exact (no_tick tick).elim
    · refine ⟨fun hm => (no_wake heard hm).elim, ?_⟩
      intro e he
      rcases reports e he with h | ⟨tick, -⟩
      · exact .inl h
      · exact (no_tick tick).elim
  | leave _ early => exact absurd early (Nat.not_lt_of_le late)
  | giveUp setback =>
    refine ⟨fun hm => ?_, fun e he => .inl ⟨_, List.mem_singleton.mp he⟩⟩
    rcases setback.origin with ⟨call, result, heard⟩ | ⟨r, after, e, learned, -⟩
    · exact (no_wake heard hm).elim
    · cases learned.1.symm.trans hm
  | silent learned =>
    refine ⟨fun hm => ?_, fun e he => .inl ⟨_, List.mem_singleton.mp he⟩⟩
    cases learned.1.symm.trans hm

theorem Turn.not_calling_of_late (turn : Turn c x w w' events)
    (hw : x.before.watcher? w.id = some w) (late : w.deadline ≤ x.before.now)
    (free : ∀ since call, w.phase ≠ .calling since call) :
    ∀ since call, w'.phase ≠ .calling since call := by
  intro since call
  cases turn with
  | ask hm tick | send hm tick => exact absurd tick.early (Nat.not_lt_of_le late)
  | mined _ heard => exact absurd free (heard.not_free hw)
  | _ => nofun

/-- A watcher that waits past its deadline marks its record as failed. -/
theorem Turn.eq_of_waiting (turn : Turn c x w w' events) (hw : x.before.watcher? w.id = some w)
    (waiting : w.phase = .waiting) (late : w.deadline ≤ x.before.now)
    (running : x.before.stopped = false) :
    w' = { w with phase := .writing (w.record.withStatus .failed) .finish } := by
  have free : ∀ since call, w.phase ≠ .calling since call := by simp [waiting]
  have no_write {r : Record} {after : AfterWrite} {outcome : Except StorageError Unit}
      (learned : x.Learns w.id r after outcome) : False := by
    cases waiting.symm.trans (learned.writing hw)
  cases turn with
  | stop _ _ stopped => cases running.symm.trans stopped
  | timeUp => rfl
  | ask hm tick | send hm tick => exact absurd tick.early (Nat.not_lt_of_le late)
  | pending _ heard | mined _ heard | success _ heard | sent _ heard => exact absurd free (heard.not_free hw)
  | condemn grounds =>
    rcases grounds.origin with tick | ⟨call, result, heard⟩
    · exact absurd (tick.early hw) (Nat.not_lt_of_le late)
    · exact absurd free (heard.not_free hw)
  | leave setback | giveUp setback =>
    rcases setback.origin with ⟨call, result, heard⟩ | ⟨r, after, e, learned, -⟩
    · exact absurd free (heard.not_free hw)
    · exact (no_write learned).elim
  | resume _ learned | finish learned | silent learned => exact (no_write learned).elim

/-- After its deadline a watcher leaves when its last write is stored, when that write fails or when
it is stopped. -/
theorem Turn.learns_of_gone (turn : Turn c x w w' events) (late : w.deadline ≤ x.before.now)
    (running : x.before.stopped = false) (stores : ∀ e, x.move ≠ .stored w.id (.error e))
    (gone : w'.phase = .done) : ∃ r after, x.Learns w.id r after (.ok ()) ∧ after ≠ .resume := by
  cases turn with
  | stop _ _ stopped => cases running.symm.trans stopped
  | leave _ early => exact absurd early (Nat.not_lt_of_le late)
  | finish learned last => exact ⟨_, _, learned, last⟩
  | silent learned => exact absurd learned.1 (stores _)
  | _ => cases gone

theorem Watcher.Sound.final {r : Record} {after : AfterWrite} (sound : w.Sound c)
    (writing : w.phase = .writing r after) (last : after ≠ .resume) :
    r.status.isTerminal = true := by
  have about := sound.2
  rw [writing] at about
  cases after with
  | finish => rcases about with rfl | rfl <;> rfl
  | giveUp => rw [about]; rfl
  | resume => exact absurd rfl last

end Turns

/-! ## Moves at or after the deadline -/

section Moves

variable {c : Setup} {x : Transition} {id : String}

theorem Transition.Made.watched_of_picksUp {r : Record} {d : Moment} (made : x.Made c)
    (guarded : x.before.Guarded) (picked : x.PicksUp c r)
    (settable : r.policy.Settable (c.uptime x.before.now)) (timed : r.deadline? = some d) :
    ∃ w ∈ x.after.watchers, w.record = r ∧ w.phase = .waiting := by
  obtain ⟨⟨poller, polled⟩, read, unsettled, valid, unwatched⟩ := picked
  obtain ⟨running, pollers, after, -⟩ := made.of_poll polled
  obtain ⟨w, set⟩ := Watcher.exists_start? x.before.now settable timed
  obtain ⟨record, waiting, -⟩ := Watcher.start?_eq_some set
  refine ⟨w, ?_, record, waiting⟩
  rw [after, Service.take]
  refine Service.mem_offerAll (s := { x.before with pollers }) guarded unwatched
    ⟨running, valid, set⟩ ?_ (List.mem_filter.mpr ⟨read, by simp [unsettled]⟩)
  exact (c.nodup_readable x.before.store).sublist (List.filter_sublist.map _)

theorem Effect.turned_of_asks {e : Event} (effect : Effect c x) (he : e ∈ x.events)
    (asks : e.Asks id) :
    ∃ w w' events, x.before.watcher? w.id = some w ∧ w.id = id ∧ Turn c x w w' events ∧
      e ∈ events := by
  cases effect.source he with
  | inserted | polled | wrote | ended | crashed => exact asks.elim
  | offered _ _ _ event => cases event <;> exact asks.elim
  | turned hw turn h =>
    refine ⟨_, _, _, hw, ?_, turn, h⟩
    rcases turn.event_cases h with ⟨_, rfl⟩ | ⟨_, _, rfl⟩ | ⟨_, rfl⟩
    · exact asks
    · exact asks
    · exact asks.elim

theorem Effect.beginsNothing (effect : Effect c x)
    (late : ∀ w, x.before.watcher? id = some w → w.deadline ≤ x.before.now) :
    x.BeginsNothing id := by
  constructor
  · rintro k ⟨-, w, hw, tick⟩
    exact absurd tick.early (Nat.not_lt_of_le (late w hw))
  · intro hm e he
    cases effect with
    | refused h | inserted h | placed h | pollerStarted h | polled h | pollFailed h | stopped h
    | advanced h | crashed _ h =>
      rw [hm] at h
      cases h
    | stored _ _ learned => cases hm.symm.trans learned.1
    | acted hw own turn _ events =>
      rw [hm] at own
      obtain rfl := Option.some.inj own
      rw [events, (turn.events_of_late hw (late _ hw)).1 hm, List.nil_append] at he
      rw [(Watcher.of_mem_farewell he).2, turn.id_eq]
  · intro e he asks
    obtain ⟨w, w', events, hw, rfl, turn, h⟩ := effect.turned_of_asks he asks
    rcases (turn.events_of_late hw (late w hw)).2 e h with ⟨f, rfl⟩ | ⟨-, hash, rfl⟩
    · exact asks.elim
    · exact ⟨_, hash, rfl⟩

/-- A watcher is brought down from within the code that it calls, or as it begins because its timers
cannot be set. -/
theorem Effect.crash_cases (effect : Effect c x) (made : x.Made c)
    (crashed : .crashed id ∈ x.events) :
    x.move = .crash id ∨
      ∃ r, x.before.store.get? id = some r ∧
        Watcher.start? x.before.now (c.uptime x.before.now) r = none := by
  cases effect.source crashed with
  | crashed _ hm => exact .inl hm
  | turned _ turn h => rcases turn.event_cases h with ⟨_, h⟩ | ⟨_, _, h⟩ | ⟨_, h⟩ <;> cases h
  | offered _ read _ event =>
    cases event with
    | crashed unset => exact .inr ⟨_, Setup.get?_of_mem_readable (read made), unset⟩

/-- As long as a watcher is past its deadline and in no call, it asks for nothing. -/
theorem Effect.silent_of_late (effect : Effect c x)
    (late : ∀ w, x.before.watcher? id = some w → w.deadline ≤ x.before.now)
    (free : ∀ w, x.before.watcher? id = some w → ∀ since call, w.phase ≠ .calling since call) :
    (∀ w, x.after.watcher? id = some w → ∀ since call, w.phase ≠ .calling since call) ∧
      ∀ e ∈ x.events, ¬ e.Asks id := by
  constructor
  · intro v hv
    cases effect.fate id with
    | same _ kept => exact free v (kept ▸ hv)
    | started _ _ _ starts _ after =>
      obtain rfl := Option.some.inj (after.symm.trans hv)
      rw [(Watcher.start?_eq_some starts.set).2.1]
      nofun
    | @turned w w' _ hw _ turn after =>
      rw [after] at hv
      split at hv
      · cases hv
      · obtain rfl := Option.some.inj hv
        obtain rfl := Watcher.id_of_watcher? hw
        exact turn.not_calling_of_late hw (late w hw) (free w hw)
    | crashed _ after => cases after.symm.trans hv
  · intro e he asks
    obtain ⟨w, w', events, hw, rfl, turn, h⟩ := effect.turned_of_asks he asks
    rcases (turn.events_of_late hw (late w hw)).2 e h with ⟨f, rfl⟩ | ⟨⟨since, call, calling⟩, -⟩
    · exact asks.elim
    · exact free w hw since call calling

end Moves

/-! ## Runs -/

section Runs

variable {c : Setup} {past later earlier : List Transition} {x : Transition} {s : Service}
  {id : String} {r old : Record} {d : Moment}

/-- The deadline and the policy of a record are those that it had at any time before. -/
theorem History.terms_of (run : History c (later ++ x :: past) s)
    (kept : ∀ y ∈ later ++ x :: past, ¬ y.Rewrites id) (stored : s.store.get? id = some r)
    (was : x.before.store.get? id = some old) :
    r.deadline? = old.deadline? ∧ r.policy = old.policy := by
  obtain ⟨status, latestTx, found⟩ := run.chronicle.frame_since (run.undisturbed kept) was
  obtain rfl := Option.some.inj (stored.symm.trans found)
  exact ⟨rfl, rfl⟩

theorem History.deadline_of_watcher {w : Watcher} (run : History c (later ++ x :: past) s)
    (kept : ∀ y ∈ later ++ x :: past, ¬ y.Rewrites id) (stored : s.store.get? id = some r)
    (timed : r.deadline? = some d) (hw : x.before.watcher? id = some w) : w.deadline = d := by
  have before := (cons_iff.mp run.of_append).1
  have mem := List.mem_of_find?_eq_some hw
  have copy := before.chronicle.copy_stored (before.undisturbed fun y hy => kept y (by simp [hy]))
    w mem (Watcher.id_of_watcher? hw)
  have same := (run.terms_of kept stored copy).1
  rw [timed, (before.sound w mem).1] at same
  exact (Option.some.inj same).symm

/-- A record that is watched past its deadline will be marked as failed, or has been. -/
def Service.Expires (s : Service) (id : String) (old : Record) : Prop :=
  (∃ w, s.watcher? id = some w ∧
      (w.phase = .waiting ∨ w.phase = .writing (old.withStatus .failed) .finish) ∧
      s.store.get? id = some old) ∨
    s.watcher? id = none ∧ s.store.get? id = some (old.withStatus .failed)

theorem Service.Expires.after (expires : x.before.Expires id old) (run : History c (x :: past) s)
    (kept : ∀ y ∈ x :: past, ¬ y.Rewrites id)
    (late : ∀ w, x.before.watcher? id = some w → w.deadline ≤ x.before.now)
    (running : x.before.stopped = false) (intact : x.move ≠ .crash id)
    (stores : ∀ e, x.move ≠ .stored id (.error e)) : x.after.Expires id old := by
  obtain ⟨before, made, -⟩ := History.cons_iff.mp run
  have calm := run.undisturbed kept
  -- what `id` has in the store can only change in a turn of its watcher
  cases run.effect.fate id with
  | crashed hm => exact absurd hm intact
  | same other same =>
    have unchanged {r : Record} (stored : x.before.store.get? id = some r) :
        x.after.store.get? id = some r := by
      rcases run.chronicle.rewritten calm stored with same | ⟨_, _, -, learned, -⟩
      · exact same
      · exact absurd (by rw [learned.1]; rfl) other
    unfold Expires
    rw [same]
    exact expires.imp (fun ⟨w, hw, point, stored⟩ => ⟨w, hw, point, unchanged stored⟩)
      (And.imp_right unchanged)
  | @started r w _ read unsettled starts fresh after =>
    -- a poll starts nothing here: there is a watcher, or the record is final
    rcases expires with ⟨w', hw', -⟩ | ⟨-, stored⟩
    · cases fresh.symm.trans hw'
    · have hid : r.id = id := by
        rw [← (Watcher.start?_eq_some starts.set).1]
        exact Watcher.id_of_watcher? after
      have stored' := Setup.get?_of_mem_readable (read made)
      rw [hid, stored] at stored'
      obtain rfl := Option.some.inj stored'
      cases unsettled
  | @turned w w' events hw hm turn after =>
    obtain rfl := Watcher.id_of_watcher? hw
    rcases expires with ⟨v, hv, point, stored⟩ | ⟨none, -⟩
    case inr => cases none.symm.trans hw
    obtain rfl := Option.some.inj (hv.symm.trans hw)
    have copy := before.chronicle.copy_stored
      (before.undisturbed fun y hy => kept y (List.mem_cons_of_mem x hy)) v
      (List.mem_of_find?_eq_some hw) rfl
    obtain rfl := Option.some.inj (stored.symm.trans copy)
    -- the one turn left is the write of the failure, and then the answer to it
    rcases point with waiting | writing
    · obtain rfl := turn.eq_of_waiting hw waiting (late v hw) running
      refine .inl ⟨_, after, .inr rfl, ?_⟩
      rcases run.chronicle.rewritten calm stored with same | ⟨_, _, -, learned, -⟩
      · exact same
      · cases waiting.symm.trans (learned.writing hw)
    · obtain ⟨outcome, learned⟩ := turn.learns_of_writing hw writing
      cases outcome with
      | error e => exact absurd learned.1 (stores e)
      | ok done =>
        obtain ⟨-, ⟨again, -⟩ | ⟨-, rfl⟩⟩ := turn.of_learned_ok learned
        · cases again
        · exact .inr ⟨after, learned.get? made before.sound⟩

theorem History.silent_since (run : History c (later ++ x :: past) s)
    (late : ∀ y ∈ later, ∀ w, y.before.watcher? id = some w → w.deadline ≤ y.before.now)
    (free : ∀ w, x.after.watcher? id = some w → ∀ since call, w.phase ≠ .calling since call) :
    (∀ w, s.watcher? id = some w → ∀ since call, w.phase ≠ .calling since call) ∧
      ∀ y ∈ later, ∀ e ∈ y.events, ¬ e.Asks id := by
  refine run.since (P := fun later t =>
    (∀ y ∈ later, ∀ w, y.before.watcher? id = some w → w.deadline ≤ y.before.now) →
      (∀ w, t.watcher? id = some w → ∀ since call, w.phase ≠ .calling since call) ∧
        ∀ y ∈ later, ∀ e ∈ y.events, ¬ e.Asks id) ?_ ?_ late
  · exact fun _ => ⟨free, List.forall_mem_nil _⟩
  · intro y later upto so_far late
    obtain ⟨free, silent⟩ := so_far fun z hz => late z (List.mem_cons_of_mem y hz)
    obtain ⟨free, quiet⟩ := upto.effect.silent_of_late (late y List.mem_cons_self) free
    exact ⟨free, List.forall_mem_cons.mpr ⟨quiet, silent⟩⟩

theorem History.expires_since (run : History c (later ++ x :: past) s)
    (kept : ∀ y ∈ later ++ x :: past, ¬ y.Rewrites id)
    (late : ∀ y ∈ later, ∀ w, y.before.watcher? id = some w → w.deadline ≤ y.before.now)
    (running : s.stopped = false)
    (intact : ∀ y ∈ later, y.move ≠ .crash id ∧ ∀ e, y.move ≠ .stored id (.error e))
    (expires : x.after.Expires id old) : s.Expires id old := by
  induction later generalizing s with
  | nil =>
    obtain ⟨-, -, rfl⟩ := cons_iff.mp run
    exact expires
  | cons y later ih =>
    obtain ⟨before, -, rfl⟩ := cons_iff.mp run
    have running' : y.before.stopped = false := by
      by_contra stopped
      simp [run.effect.stopped_after (Bool.eq_true_of_not_eq_false stopped)] at running
    obtain ⟨whole, stores⟩ := intact y List.mem_cons_self
    have expires' := ih before (fun z hz => kept z (List.mem_cons_of_mem y hz))
      (fun z hz => late z (List.mem_cons_of_mem y hz)) running'
      fun z hz => intact z (List.mem_cons_of_mem y hz)
    exact expires'.after run kept (late y List.mem_cons_self) running' whole stores

section Kept

variable (run : History c past s) (kept : ∀ y ∈ past, ¬ y.Rewrites id)
  (stored : s.store.get? id = some r) (timed : r.deadline? = some d)
include run kept stored timed

theorem History.late_at (split : past = later ++ x :: earlier) (due : d ≤ x.before.now) :
    ∀ w, x.before.watcher? id = some w → w.deadline ≤ x.before.now := by
  subst split
  intro w hw
  rw [run.deadline_of_watcher kept stored timed hw]
  exact due

theorem History.calling_of_late (rest : s.AtRest c) (due : d ≤ s.now) :
    ∀ w ∈ s.watchers, w.id = id → ∃ since call, w.phase = .calling since call := by
  intro w hw hid
  obtain rfl := Option.some.inj (stored.symm.trans (run.chronicle.copy_stored (run.undisturbed kept) w hw hid))
  obtain rfl := Option.some.inj (timed.symm.trans (run.sound w hw).1)
  exact run.chronicle.calling_of_atRest rest hw (.inr due)

theorem History.final_of_exit (split : past = later ++ x :: earlier)
    (settable : r.policy.Settable (c.uptime x.before.now))
    (exits : .ended id ∈ x.events ∨ .crashed id ∈ x.events) (due : d ≤ x.before.now)
    (running : x.before.stopped = false) (intact : x.move ≠ .crash id)
    (stores : ∀ e, x.move ≠ .stored id (.error e)) :
    ∃ r', x.after.store.get? id = some r' ∧ r'.status.isTerminal = true := by
  have late := run.late_at kept stored timed split due
  subst split
  have upto := run.of_append
  obtain ⟨before, made, -⟩ := cons_iff.mp upto
  rcases exits with ended | crashed
  · cases upto.effect.source ended with
    | offered _ _ _ event => cases event
    | turned _ turn h => rcases turn.event_cases h with ⟨_, h⟩ | ⟨_, _, h⟩ | ⟨_, h⟩ <;> cases h
    | @ended w w' _ hw turn gone =>
      rw [turn.id_eq] at late stores ⊢
      obtain ⟨r', after, learned, last⟩ := turn.learns_of_gone (late w hw) running stores gone
      have sound := before.sound w (List.mem_of_find?_eq_some hw)
      exact ⟨r', learned.get? made before.sound, sound.final (learned.writing hw) last⟩
  · rcases upto.effect.crash_cases made crashed with hm | ⟨r', stored', unset⟩
    · exact absurd hm intact
    · obtain ⟨deadline, policy⟩ := run.terms_of kept stored stored'
      obtain ⟨w, set⟩ :=
        Watcher.exists_start? x.before.now (policy ▸ settable) (deadline ▸ timed)
      cases unset.symm.trans set

theorem History.fails_of_picksUp (split : past = later ++ x :: earlier)
    (settable : r.policy.Settable (c.uptime x.before.now)) (picked : x.PicksUp c old) (hid : old.id = id)
    (due : d ≤ x.before.now) :
    (∀ y ∈ later, ∀ e ∈ y.events, ¬ e.Asks id) ∧
      (s.AtRest c → s.stopped = false →
        (∀ y ∈ later, y.move ≠ .crash id ∧ ∀ e, y.move ≠ .stored id (.error e)) →
          s.store.get? id = some (old.withStatus .failed)) := by
  subst hid split
  have upto := run.of_append
  obtain ⟨before, made, -⟩ := cons_iff.mp upto
  have late : ∀ y ∈ later, ∀ w, y.before.watcher? old.id = some w → w.deadline ≤ y.before.now := by
    intro y hy
    obtain ⟨after, between, rfl, since⟩ := run.of_mem_append hy
    refine run.late_at kept stored timed (List.append_assoc ..) ?_
    exact Nat.le_trans due (cons_iff.mp since).1.chronicle.now_mono
  obtain ⟨deadline, policy⟩ := run.terms_of kept stored (Setup.get?_of_mem_readable picked.read)
  obtain ⟨w, hw, rfl, waiting⟩ := made.watched_of_picksUp before.chronicle.guarded picked
    (policy ▸ settable) (deadline.symm.trans timed)
  have there : x.after.watcher? w.record.id = some w := upto.chronicle.watcher?_of_mem hw
  refine ⟨(run.silent_since late ?_).2, ?_⟩
  · intro v hv since call
    obtain rfl := Option.some.inj (there.symm.trans hv)
    rw [waiting]
    nofun
  · intro rest running intact
    have copy := upto.chronicle.copy_stored
      (upto.undisturbed fun y hy => kept y (List.mem_append_right later hy)) w hw rfl
    rcases run.expires_since kept late running intact (.inl ⟨w, there, .inl waiting, copy⟩) with
      ⟨v, hv, point, -⟩ | ⟨-, failed⟩
    · -- at rest it would be in a call
      obtain ⟨since, call, calling⟩ := run.calling_of_late kept stored timed rest
        (Nat.le_trans due run.chronicle.now_mono) v (List.mem_of_find?_eq_some hv)
        (Watcher.id_of_watcher? hv)
      rcases point with h | h <;> cases h.symm.trans calling
    · exact failed

end Kept

/-- **The deadline is absolute.** From a record's deadline on nothing is begun for it. At rest its
watcher is then in a call, if there is one; when its watcher leaves, a final status is stored, and
one that a poll starts marks the record as failed and asks for nothing, unless it is stopped or
brought down, or the store does not take its write. The last two need timers that can be set. The
polls of these histories are answered at once. -/
theorem deadline_is_absolute (run : History c past s) (kept : ∀ y ∈ past, ¬ y.Rewrites id)
    (stored : s.store.get? id = some r) (timed : r.deadline? = some d) :
    (∀ y ∈ past, d ≤ y.before.now → y.BeginsNothing id) ∧
    (s.AtRest c → d ≤ s.now → ∀ w ∈ s.watchers, w.id = id →
      ∃ since call, w.phase = .calling since call) ∧
    (∀ (later earlier : List Transition) (y : Transition), past = later ++ y :: earlier →
      r.policy.Settable (c.uptime y.before.now) → .ended id ∈ y.events ∨ .crashed id ∈ y.events →
      d ≤ y.before.now → y.before.stopped = false → y.move ≠ .crash id →
      (∀ e, y.move ≠ .stored id (.error e)) →
        ∃ r', y.after.store.get? id = some r' ∧ r'.status.isTerminal = true) ∧
    (∀ (later earlier : List Transition) (y : Transition) (old : Record),
      past = later ++ y :: earlier → r.policy.Settable (c.uptime y.before.now) →
      y.PicksUp c old → old.id = id → d ≤ y.before.now →
        (∀ z ∈ later, ∀ e ∈ z.events, ¬ e.Asks id) ∧
        (s.AtRest c → s.stopped = false →
          (∀ z ∈ later, z.move ≠ .crash id ∧ ∀ e, z.move ≠ .stored id (.error e)) →
            s.store.get? id = some (old.withStatus .failed))) := by
  refine ⟨?_, run.calling_of_late kept stored timed, ?_, ?_⟩
  · intro y hy due
    obtain ⟨later, earlier, split⟩ := List.append_of_mem hy
    have late := run.late_at kept stored timed split due
    subst split
    exact run.of_append.effect.beginsNothing late
  · intro later earlier y
    exact run.final_of_exit kept stored timed
  · intro later earlier y old
    exact run.fails_of_picksUp kept stored timed

end Runs

/-- The sample is first picked up twenty seconds after its deadline. -/
def Sample.overdue : List Move :=
  [.place record, .advance (.ofMillis 70000), .startPoller, .advance (.ofMillis 80000)]

theorem overdue_sample_fails_at_once : ∃ later y past s d,
    History Sample.setup (later ++ y :: past) s ∧
    later.map (·.move) = [.stored "a" (.ok ()), .wake "a"] ∧
    (∀ z ∈ later ++ y :: past, ¬ z.Rewrites "a") ∧ y.PicksUp Sample.setup Sample.record ∧
    Sample.record.deadline? = some d ∧ d ≤ y.before.now ∧
    Sample.record.policy.Settable (Sample.setup.uptime y.before.now) ∧
    s.AtRest Sample.setup ∧ (∀ z ∈ later, ∀ e ∈ z.events, ¬ e.Asks "a") ∧
      s.store.get? "a" = some (Sample.record.withStatus .failed) := by
  obtain ⟨later, y, past, s, run, moves, hm, -, passed⟩ := History.exists_split_of_replay
    (c := Sample.setup) Sample.overdue (.poll 0 (.ok ())) [.wake "a", .stored "a" (.ok ())] ⟨0⟩
    (fun later y past => (∀ z ∈ later ++ y :: past, ¬ z.Rewrites "a") ∧
      Sample.record ∈ Sample.setup.readable y.before.store ∧ y.before.watchers = [] ∧
      .ofMillis 60000 ≤ y.before.now ∧
      Sample.record.policy.Settable (Sample.setup.uptime y.before.now) ∧ later.head?.any fun z => z.after.isQuiet ∧
        z.after.stopped = false ∧
        z.after.store.get? "a" = some (Sample.record.withStatus .failed)) (by decide +kernel)
  obtain ⟨kept, read, unwatched, due, settable, last⟩ := of_decide_eq_true passed
  obtain ⟨z, hz, last⟩ := (Option.any_eq_true ..).mp last
  obtain ⟨quiet, running, stored⟩ := of_decide_eq_true last
  obtain ⟨rest, rfl⟩ := List.head?_eq_some_iff.mp hz
  obtain ⟨-, -, rfl⟩ := History.cons_iff.mp run
  have picked : y.PicksUp Sample.setup Sample.record :=
    ⟨⟨0, hm⟩, read, rfl, by decide +kernel, by simp [unwatched]⟩
  have timed : (Sample.record.withStatus .failed).deadline? = some (.ofMillis 60000) := by decide
  have atRest : z.after.AtRest Sample.setup := Service.atRest_of_isQuiet quiet
  obtain ⟨-, -, -, picks⟩ := deadline_is_absolute run kept stored timed
  obtain ⟨silent, fails⟩ := picks (z :: rest) past y Sample.record rfl settable picked rfl due
  refine ⟨z :: rest, y, past, z.after, _, run, moves, kept, picked, timed, due, settable, atRest,
    silent, fails atRest running ?_⟩
  intro x hx
  have move : x.move = .stored "a" (.ok ()) ∨ x.move = .wake "a" := by
    simpa [moves] using List.mem_map_of_mem (f := (·.move)) hx
  rcases move with h | h <;> simp [h]

/-- The sample with five seconds in all and the longest time between two status checks. -/
def Sample.endless : Record :=
  { record with
    policy :=
      { policy with
        timeout := .ofMillis 5000
        checkInterval := .saturating (secondsBound * nanosPerSecond) } }

/-- A usable policy does not make sure that the timers can be set. -/
theorem endless_sample_outlives_deadline : ∃ y past s d, History Sample.setup (y :: past) s ∧
    (y :: past).map (·.move) =
      [.poll 0 (.ok ()), .advance (.ofMillis 10000), .startPoller, .place Sample.endless] ∧
    (∀ z ∈ y :: past, ¬ z.Rewrites "a") ∧ y.PicksUp Sample.setup Sample.endless ∧
    Sample.endless.deadline? = some d ∧ d ≤ y.before.now ∧
    ¬ Sample.endless.policy.Settable (Sample.setup.uptime y.before.now) ∧
    .crashed "a" ∈ y.events ∧ s.stopped = false ∧ s.AtRest Sample.setup ∧ s.watchers = [] ∧
      s.store.get? "a" = some Sample.endless := by
  obtain ⟨all, s, run, moves, passed⟩ := History.exists_of_replay (c := Sample.setup)
    [.place Sample.endless, .startPoller, .advance (.ofMillis 10000), .poll 0 (.ok ())] ⟨0⟩
    (fun all => (∀ z ∈ all, ¬ z.Rewrites "a") ∧ all.head?.any fun y =>
      Sample.endless ∈ Sample.setup.readable y.before.store ∧ y.before.watchers = [] ∧
        .ofMillis 5000 ≤ y.before.now ∧
        ¬ Sample.endless.policy.Settable (Sample.setup.uptime y.before.now) ∧
        .crashed "a" ∈ y.events ∧ y.after.isQuiet ∧
        y.after.stopped = false ∧ y.after.watchers = [] ∧
        y.after.store.get? "a" = some Sample.endless) (by decide +kernel)
  obtain ⟨kept, last⟩ := of_decide_eq_true passed
  obtain ⟨y, hy, last⟩ := (Option.any_eq_true ..).mp last
  obtain ⟨read, unwatched, due, unsettable, crashed, quiet, running, gone, stored⟩ :=
    of_decide_eq_true last
  obtain ⟨past, rfl⟩ := List.head?_eq_some_iff.mp hy
  obtain ⟨-, -, rfl⟩ := History.cons_iff.mp run
  have hm : y.move = .poll 0 (.ok ()) := (List.cons.inj moves).1
  exact ⟨y, past, y.after, .ofMillis 5000, run, moves, kept,
    ⟨⟨0, hm⟩, read, rfl, by decide +kernel, by simp [unwatched]⟩, by decide, due, unsettable,
    crashed, running, Service.atRest_of_isQuiet quiet, gone, stored⟩

end GasEscalator
