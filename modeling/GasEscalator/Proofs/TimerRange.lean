import GasEscalator.Proofs.Deadlines
import GasEscalator.Proofs.Finality

/-!
# The range of timers

A usable policy has a lower bound for each of its durations and no upper one, but clocks and timers
have one. A watcher can begin for a record if the clock on the wall can show its deadline and the
clock of the timers the first ticks of both its intervals. As that clock goes on all the time, an
interval that can be set now may be too long later. While a record is in range it is never left
because of its durations. A watcher that begins later than that is brought down as it begins, and so
at every poll: the record stays as it was.
-/
namespace GasEscalator

/-- A watcher of the record can set its timers when their clock shows `uptime`. -/
def Record.Watchable (r : Record) (uptime : Moment) : Prop :=
  (r.createdAt + r.policy.timeout).isRepresentable = true ∧ r.policy.Settable uptime

instance (r : Record) (uptime : Moment) : Decidable (r.Watchable uptime) :=
  inferInstanceAs (Decidable (_ ∧ _))

section Timers

variable {r : Record} {now uptime : Moment}

theorem Setup.uptime_mono (c : Setup) {a b : Moment} (h : a ≤ b) : c.uptime a ≤ c.uptime b := by
  have h : a.nanos ≤ b.nanos := h
  show (a.nanos - c.booted).toNat ≤ (b.nanos - c.booted).toNat
  omega

theorem Moment.isRepresentable_add_of_le {a b : Moment} {d : Duration} (h : a ≤ b)
    (shown : (b + d).isRepresentable = true) : (a + d).isRepresentable = true := by
  have h : a.nanos + d.nanos ≤ b.nanos + d.nanos := Nat.add_le_add_right h _
  exact decide_eq_true (Nat.lt_of_le_of_lt (Nat.div_le_div_right h) (of_decide_eq_true shown))

/-- What is out of range stays so. -/
theorem Record.Watchable.of_le {earlier later : Moment} (watchable : r.Watchable later)
    (h : earlier ≤ later) : r.Watchable earlier :=
  ⟨watchable.1, Moment.isRepresentable_add_of_le h watchable.2.1,
    Moment.isRepresentable_add_of_le h watchable.2.2⟩

theorem Record.isSome_deadline? :
    r.deadline?.isSome = (r.createdAt + r.policy.timeout).isRepresentable := by
  unfold deadline?
  dsimp only
  split
  case isTrue shown => rw [shown]; rfl
  case isFalse hidden => rw [Bool.eq_false_of_not_eq_true hidden]; rfl

theorem Record.Watchable.deadline? (watchable : r.Watchable uptime) :
    r.deadline? = some (r.createdAt + r.policy.timeout) := if_pos watchable.1

theorem Ticker.settable_of_start? {period : Duration} {t : Ticker}
    (set : Ticker.start? now uptime period = some t) :
    (uptime + period).isRepresentable = true := by
  unfold start? at set
  split at set
  case isTrue settable => exact settable
  case isFalse => cases set

theorem Watcher.isSome_start?_iff :
    (Watcher.start? now uptime r).isSome = true ↔ r.Watchable uptime := by
  constructor
  · intro begins
    obtain ⟨w, set⟩ := Option.isSome_iff_exists.mp begins
    obtain ⟨-, -, timed, check, increase⟩ := Watcher.start?_eq_some set
    refine ⟨?_, Ticker.settable_of_start? check, Ticker.settable_of_start? increase⟩
    rw [← Record.isSome_deadline?, timed]
    rfl
  · intro watchable
    obtain ⟨w, set⟩ := Watcher.exists_start? now watchable.2 watchable.deadline?
    rw [set]
    rfl

theorem Record.barred_of_not_watchable {c : Setup} {s : Service}
    (unwatchable : ¬ r.Watchable (c.uptime s.now)) : s.Bars c r := by
  intro _ w starts
  exact unwatchable (Watcher.isSome_start?_iff.mp (by rw [starts.set]; rfl))

end Timers

/-! ## Polls -/

theorem Transition.Made.crashed_of_picksUp {c : Setup} {x : Transition} {r : Record}
    (made : x.Made c) (guarded : x.before.Guarded) (picked : x.PicksUp c r)
    (unwatchable : ¬ r.Watchable (c.uptime x.before.now)) : .crashed r.id ∈ x.events := by
  obtain ⟨⟨poller, polled⟩, read, unsettled, valid, unwatched⟩ := picked
  obtain ⟨running, pollers, -, events⟩ := made.of_poll polled
  have unset : Watcher.start? x.before.now (c.uptime x.before.now) r = none := by
    rw [← Option.not_isSome_iff_eq_none, Watcher.isSome_start?_iff]
    exact unwatchable
  rw [events, Service.take]
  refine List.mem_cons_of_mem _ ?_
  refine Service.crashed_offerAll (s := { x.before with pollers }) guarded unwatched running valid
    unset ?_ (List.mem_filter.mpr ⟨read, by simp [unsettled]⟩)
  exact (c.nodup_readable x.before.store).sublist (List.filter_sublist.map _)

section Runs

variable {c : Setup} {past later earlier : List Transition} {x : Transition} {s : Service}
  {id : String} {first r : Record} {tx : SignedTx} {policy : Policy} {sender : Address}

/-- A record that nobody watches when it gets out of range is left as it is. -/
theorem History.untouched_since (run : History c (later ++ x :: past) s)
    (unwatchable : ¬ r.Watchable (c.uptime x.after.now)) (untouched : x.after.Untouched r)
    (kept : ∀ y ∈ later, ¬ y.Rewrites r.id) : s.Untouched r := by
  induction later generalizing s with
  | nil =>
    obtain ⟨-, -, rfl⟩ := cons_iff.mp run
    exact untouched
  | cons y later ih =>
    obtain ⟨before, made, rfl⟩ := cons_iff.mp run
    have untouched := ih before fun z hz => kept z (List.mem_cons_of_mem y hz)
    have barred : y.before.Bars c r := Record.barred_of_not_watchable fun watchable =>
      unwatchable (watchable.of_le (c.uptime_mono before.chronicle.now_le))
    exact untouched.after barred run.effect before.sound
      (made.calm before.sound (kept y List.mem_cons_self))

/-- What the timers of a record depend on, but for the time, does not change while it is looked
after. -/
theorem History.watchable_at (run : History c (later ++ x :: past) s)
    (kept : ∀ y ∈ later ++ x :: past, ¬ y.Rewrites id) (stored : x.after.store.get? id = some first)
    {y : Transition} {after before : List Transition} (split : later = after ++ y :: before)
    (found : y.before.store.get? id = some r) (uptime : Moment) :
    r.Watchable uptime ↔ first.Watchable uptime := by
  subst split
  rw [List.append_assoc] at run kept
  have upto : History c (before ++ x :: past) y.before := (cons_iff.mp run.of_append).1
  obtain ⟨status, latestTx, framed⟩ := upto.chronicle.frame_after (upto.undisturbed fun z hz =>
    kept z (List.mem_append_right after (List.mem_cons_of_mem y hz))) stored
  obtain rfl := Option.some.inj (framed.symm.trans found)
  exact Iff.rfl

/-- In range a watcher is brought down from outside only. -/
theorem History.crash_of_watchable (run : History c (later ++ x :: past) s)
    (kept : ∀ y ∈ later ++ x :: past, ¬ y.Rewrites id) (stored : x.after.store.get? id = some first)
    {y : Transition} (hy : y ∈ later) (watchable : first.Watchable (c.uptime y.before.now))
    (crashed : .crashed id ∈ y.events) : y.move = .crash id := by
  obtain ⟨after, before, rfl, upto⟩ := run.of_mem_append hy
  rcases upto.effect.crash_cases (cons_iff.mp upto).2.1 crashed with hm | ⟨r, stored', unset⟩
  · exact hm
  · have watchable := (run.watchable_at kept stored rfl stored' _).mpr watchable
    obtain ⟨w, set⟩ := Watcher.exists_start? y.before.now watchable.2 watchable.deadline?
    cases unset.symm.trans set

/-- A poll that picks a record up leaves it with a watcher in range, and fails to watch it out of
range. -/
theorem History.picked_up (run : History c (later ++ x :: past) s)
    (kept : ∀ y ∈ later ++ x :: past, ¬ y.Rewrites id) (stored : x.after.store.get? id = some first)
    {y : Transition} {after before : List Transition} (split : later = after ++ y :: before)
    {old : Record} (picked : y.PicksUp c old) (hid : old.id = id) :
    (first.Watchable (c.uptime y.before.now) → ∃ w ∈ y.after.watchers, w.record = old) ∧
      (¬ first.Watchable (c.uptime y.before.now) → .crashed id ∈ y.events) := by
  have found := hid ▸ Setup.get?_of_mem_readable picked.read
  have same := run.watchable_at kept stored split found
  have split : later ++ x :: past = after ++ y :: (before ++ x :: past) := by
    rw [split, List.append_assoc, List.cons_append]
  have upto : History c (y :: (before ++ x :: past)) y.after := (split ▸ run).of_append
  obtain ⟨before, made, -⟩ := cons_iff.mp upto
  have guarded := before.chronicle.guarded
  constructor
  · intro watchable
    have watchable := (same _).mpr watchable
    obtain ⟨w, hw, record, -⟩ :=
      made.watched_of_picksUp guarded picked watchable.2 watchable.deadline?
    exact ⟨w, hw, record⟩
  · intro unwatchable
    rw [← hid]
    exact made.crashed_of_picksUp guarded picked fun h => unwatchable ((same _).mp h)

/-- **Only durations out of range bring watchers down.** As long as nobody outside rewrites the
record of a transaction that was handed over with a usable policy, everything that is computed from
its durations can be computed if and only if the record is in range. While it is, no watcher of it is
brought down but from within the code that it calls, each poll that picks it up leaves it with a
watcher, and a poll at or after its deadline lets it fail. Once it is not, each poll that picks it up
brings a watcher down, and from the time on at which it is out of range and not watched it stays as
it is: if it is handed over like that, for good. The polls of these histories are answered at once. -/
theorem only_out_of_range_records_crash_watchers (run : History c (later ++ x :: earlier) s)
    (inserted : x.move = .insert id tx policy sender (.ok ())) (valid : policy.validate = .ok ())
    (kept : ∀ y ∈ later ++ x :: earlier, ¬ y.Rewrites id) {first : Record}
    (created : first = .initial id tx sender policy x.before.now) :
    (∃ r, s.store.get? id = some r ∧ ∀ now uptime,
      r.deadline?.isSome = (first.createdAt + policy.timeout).isRepresentable ∧
      (r.remaining? now).isSome = r.deadline?.isSome ∧
      (r.expired? now).isSome = r.deadline?.isSome ∧
      ((Watcher.start? now uptime r).isSome = true ↔ first.Watchable uptime)) ∧
    (∀ y ∈ later, first.Watchable (c.uptime y.before.now) → .crashed id ∈ y.events →
      y.move = .crash id) ∧
    (∀ after y before old, later = after ++ y :: before → y.PicksUp c old → old.id = id →
      (first.Watchable (c.uptime y.before.now) →
        (∃ w ∈ y.after.watchers, w.record = old) ∧
        (first.createdAt + policy.timeout ≤ y.before.now → s.AtRest c → s.stopped = false →
          (∀ z ∈ after, z.move ≠ .crash id ∧ ∀ e, z.move ≠ .stored id (.error e)) →
            s.store.get? id = some (old.withStatus .failed))) ∧
      (¬ first.Watchable (c.uptime y.before.now) → .crashed id ∈ y.events)) ∧
    x.after.Untouched first ∧
    ∀ after y before r, later ++ x :: earlier = after ++ y :: before → r.id = id →
      y.after.Untouched r → ¬ r.Watchable (c.uptime y.after.now) → s.Untouched r := by
  have inserting := run.of_append
  obtain rfl : first.id = id := by rw [created]; rfl
  have terms : first.policy = policy := by rw [created]; rfl
  have stored : x.after.store.get? first.id = some first := by
    have found := inserting.effect.get?_of_insert inserted valid
    rwa [← created] at found
  have fresh := Transition.fresh_of_insert inserted (kept x (by simp))
  obtain ⟨status, latestTx, framed⟩ :=
    run.chronicle.frame_after (run.undisturbed kept) stored
  refine ⟨⟨_, framed, fun now uptime => ⟨?_, Option.isSome_map, Option.isSome_map, ?_⟩⟩, ?_, ?_,
    inserting.chronicle.untouched_of_first fresh stored, ?_⟩
  · rw [Record.isSome_deadline?, ← terms]
  · exact Watcher.isSome_start?_iff
  · intro y hy watchable crashed
    exact run.crash_of_watchable kept stored hy watchable crashed
  · intro after y before old split picked hid
    obtain ⟨watched, crashed⟩ := run.picked_up kept stored split picked hid
    refine ⟨fun watchable => ⟨watched watchable, fun due => ?_⟩, crashed⟩
    have split : later ++ x :: earlier = after ++ y :: (before ++ x :: earlier) := by
      rw [split, List.append_assoc, List.cons_append]
    rw [← terms] at due
    exact (run.fails_of_picksUp kept framed watchable.deadline? split watchable.2 picked hid due).2
  · intro after y before r split hid untouched unwatchable
    rw [split] at run kept
    exact run.untouched_since unwatchable untouched fun z hz => hid ▸ kept z (by simp [hz])

end Runs

namespace Sample

def brief : Policy := { policy with timeout := .ofMillis 5000 }

/-- The sample's policy with more time than a clock can show. -/
def eternal : Policy := { policy with timeout := .saturating (Moment.clockBound * nanosPerSecond) }

/-- The sample's policy with a time between two status checks that is just not too long for a clock
that has only begun. -/
def unhurried : Policy :=
  { policy with checkInterval := .saturating ((Moment.clockBound - 2) * nanosPerSecond) }

/-- A transaction is handed over and polled ten seconds later. -/
def handing (p : Policy) : List Move :=
  [.insert "a" tx p .zero (.ok ()), .startPoller, .advance (.ofMillis 10000), .poll 0 (.ok ())]

end Sample

example : Sample.unhurried.validate = .ok () ∧ Sample.unhurried.Settable ⟨0⟩ ∧
    ¬ Sample.unhurried.Settable (.ofMillis 10000) := by decide +kernel

/-- A transaction that is handed over with five seconds in all is picked up after ten, and fails. -/
theorem brief_sample_fails_in_range : ∃ rest y before x s old,
    History Sample.setup (rest ++ y :: (before ++ [x])) s ∧
    x.move = .insert "a" Sample.tx Sample.brief .zero (.ok ()) ∧
    Sample.brief.validate = .ok () ∧ (∀ z ∈ rest ++ y :: (before ++ [x]), ¬ z.Rewrites "a") ∧
    (Record.initial "a" Sample.tx .zero Sample.brief x.before.now).Watchable
      (Sample.setup.uptime y.before.now) ∧
    y.PicksUp Sample.setup old ∧ old.id = "a" ∧ (∃ w ∈ y.after.watchers, w.record = old) ∧
    s.store.get? "a" = some (old.withStatus .failed) := by
  obtain ⟨rest, y, past, s, run, moves, hm, first, passed⟩ := History.exists_split_of_replay
    (c := Sample.setup) ((Sample.handing Sample.brief).take 3) (.poll 0 (.ok ()))
    [.wake "a", .stored "a" (.ok ())] ⟨0⟩
    (fun rest y past => (∀ z ∈ rest ++ y :: past, ¬ z.Rewrites "a") ∧ y.before.watchers = [] ∧
      .ofMillis 5000 ≤ y.before.now ∧ (past.getLast?.any fun x => x.before.now = ⟨0⟩) ∧
      (Record.initial "a" Sample.tx .zero Sample.brief ⟨0⟩).Watchable
        (Sample.setup.uptime y.before.now) ∧
      (y.before.store.records.map fun r => (r.id, r.policy, r.status)) =
        [("a", Sample.brief, .pending)] ∧
      rest.head?.any fun z => z.after.isQuiet ∧ z.after.stopped = false) (by decide +kernel)
  obtain ⟨kept, unwatched, due, oldest, watchable, stored, last⟩ := of_decide_eq_true passed
  obtain ⟨z, hz, last⟩ := (Option.any_eq_true ..).mp last
  obtain ⟨quiet, running⟩ := of_decide_eq_true last
  obtain ⟨later, rfl⟩ := List.head?_eq_some_iff.mp hz
  obtain ⟨-, -, rfl⟩ := History.cons_iff.mp run
  obtain ⟨old, records, terms⟩ := List.map_eq_singleton_iff.mp stored
  obtain ⟨hid, policy, status⟩ : old.id = "a" ∧ old.policy = Sample.brief ∧
      old.status = .pending := by simpa using terms
  obtain ⟨x, hx, start⟩ := (Option.any_eq_true ..).mp oldest
  have start := of_decide_eq_true start
  obtain ⟨before, rfl⟩ := List.getLast?_eq_some_iff.mp hx
  have inserted : x.move = .insert "a" Sample.tx Sample.brief .zero (.ok ()) := by
    have last := congrArg List.getLast? first
    rw [List.map_append, List.map_singleton, List.getLast?_concat] at last
    exact Option.some.inj last
  have picked : y.PicksUp Sample.setup old := by
    refine ⟨⟨0, hm⟩, ?_, by rw [status]; rfl, by rw [policy]; decide +kernel, by simp [unwatched]⟩
    show old ∈ y.before.store.records
    rw [records]
    exact List.mem_singleton_self old
  rw [← start] at watchable
  have valid : Sample.brief.validate = .ok () := by decide +kernel
  have run' : History Sample.setup ((z :: later ++ y :: before) ++ x :: []) z.after := by
    simpa using run
  obtain ⟨-, -, driven, -⟩ :=
    only_out_of_range_records_crash_watchers run' inserted valid (by simpa using kept) rfl
  obtain ⟨watched, fails⟩ := (driven (z :: later) y before old rfl picked hid).1 watchable
  refine ⟨z :: later, y, before, x, z.after, old, run, inserted, valid, kept, watchable, picked,
    hid, watched, ?_⟩
  refine fails ?_ (Service.atRest_of_isQuiet quiet) running ?_
  · rw [start]
    exact due
  · intro u hu
    have move : u.move = .stored "a" (.ok ()) ∨ u.move = .wake "a" := by
      simpa [moves] using List.mem_map_of_mem (f := (·.move)) hu
    rcases move with h | h <;> simp [h]

/-- A usable policy can ask for more time than a clock can show: the watcher is brought down as it
begins, and the record stays open. -/
theorem eternal_sample_is_never_watched : ∃ y past s, History Sample.setup (y :: past) s ∧
    (y :: past).map (·.move) = (Sample.handing Sample.eternal).reverse ∧
    Sample.eternal.validate = .ok () ∧
    (Record.initial "a" Sample.tx .zero Sample.eternal ⟨0⟩).deadline? = none ∧
    .started "a" ∈ y.events ∧ .crashed "a" ∈ y.events ∧ s.stopped = false ∧
    s.AtRest Sample.setup ∧ s.watchers = [] ∧
    (s.store.get? "a").map (·.status) = some .pending := by
  obtain ⟨all, s, run, moves, passed⟩ := History.exists_of_replay (c := Sample.setup)
    (Sample.handing Sample.eternal) ⟨0⟩ (fun all => all.head?.any fun y =>
      .started "a" ∈ y.events ∧ .crashed "a" ∈ y.events ∧ y.after.stopped = false ∧
        y.after.isQuiet ∧ y.after.watchers = [] ∧
        (y.after.store.get? "a").map (·.status) = some .pending)
    (by decide +kernel)
  obtain ⟨y, hy, last⟩ := (Option.any_eq_true ..).mp passed
  obtain ⟨past, rfl⟩ := List.head?_eq_some_iff.mp hy
  obtain ⟨-, -, rfl⟩ := History.cons_iff.mp run
  obtain ⟨started, crashed, running, quiet, gone, stored⟩ := of_decide_eq_true last
  exact ⟨y, past, y.after, run, moves, by decide +kernel, by decide +kernel, started, crashed,
    running, Service.atRest_of_isQuiet quiet, gone, stored⟩

end GasEscalator
