import GasEscalator.Proofs.Rebroadcasts

/-!
# The pace of broadcasts

A watcher sends for the first time an interval after its start and then at most once an interval,
but for the few milliseconds by which a tick may be late and leave the rhythm as it is. What carries
this from one broadcast to the next is the ticker of whoever watches the record: it never goes back,
however late its ticks are taken, and a watcher that starts later begins a whole interval later.

The runs are those in which polls may be interrupted, so that a watcher may start late. That its
record is out of date then does no harm here, because its policy is not.
-/
namespace GasEscalator

/-! ## Tickers -/

namespace Ticker

variable (t : Ticker) (now : Moment)

theorem period_next : (t.next now).period = t.period := by
  unfold next
  split <;> rfl

theorem due_le_next : t.due ≤ (t.next now).due := by
  unfold next
  split
  case isTrue =>
    show t.due.nanos ≤ t.due.nanos + t.period.nanos
    omega
  case isFalse late =>
    have late : ¬ now.nanos ≤ t.due.nanos + tolerance.nanos := late
    show t.due.nanos ≤ now.nanos + t.period.nanos
    omega

/-- After a tick the next one comes a period later, less the time by which this one was late. -/
theorem le_next_due : now + t.period ≤ (t.next now).due + tolerance := by
  unfold next
  split
  case isTrue onTime =>
    have onTime : now.nanos ≤ t.due.nanos + tolerance.nanos := onTime
    show now.nanos + t.period.nanos ≤ t.due.nanos + t.period.nanos + tolerance.nanos
    omega
  case isFalse =>
    show now.nanos + t.period.nanos ≤ now.nanos + t.period.nanos + tolerance.nanos
    omega

end Ticker

theorem Service.Starts.increase_eq {c : Setup} {s : Service} {r : Record} {w : Watcher}
    (starts : s.Starts c r w) :
    w.increase = ⟨s.now + r.policy.increaseInterval, r.policy.increaseInterval⟩ := by
  obtain ⟨-, -, -, -, set⟩ := Watcher.start?_eq_some starts.set
  unfold Ticker.start? at set
  split at set
  case isFalse => cases set
  case isTrue => exact (Option.some.inj set).symm

/-- The record that a watcher writes has the policy of its copy. -/
theorem Watcher.Sound.policy_of_writing {c : Setup} {w : Watcher} {r : Record} {after : AfterWrite}
    (sound : w.Sound c) (writing : w.phase = .writing r after) :
    r.policy = w.record.policy := by
  have about := sound.2
  rw [writing] at about
  cases after with
  | finish => rcases about with rfl | rfl <;> rfl
  | giveUp => rw [about]; rfl
  | resume =>
    obtain ⟨tx, -, rfl⟩ := about
    rfl

/-! ## Turns -/

section Turns

variable {c : Setup} {x : Transition} {w w' : Watcher} {events : List Event}

theorem Turn.increase_cases (turn : Turn c x w w' events) :
    w'.increase = w.increase ∨ w'.increase = w.increase.next x.before.now := by
  cases turn with
  | send => exact .inr rfl
  | condemn _ same =>
    rcases same with rfl | ⟨k, rfl⟩
    · exact .inl rfl
    · cases k with
      | check => exact .inl rfl
      | increase => exact .inr rfl
  | _ => exact .inl rfl

theorem Turn.policy_eq (turn : Turn c x w w' events) : w'.record.policy = w.record.policy := by
  rcases turn.record_cases with same | ⟨tx, -, raised, -⟩
  · rw [same]
  · rw [raised]
    rfl

theorem filterMap_sent?_eq_nil {id : String}
    (none : ∀ chainId tx, .called id chainId (.send tx) ∉ events) :
    events.filterMap (Event.sent? id) = [] := by
  refine List.filterMap_eq_nil_iff.mpr fun e he => ?_
  cases sent : e.sent? id with
  | none => rfl
  | some tx =>
    obtain ⟨chainId, rfl⟩ := Event.sent?_eq_some sent
    exact absurd he (none chainId tx)

/-- In a turn a watcher sends one transaction at most, and for that it takes a tick. -/
theorem Turn.sent_cases (turn : Turn c x w w' events) (id : String) :
    events.filterMap (Event.sent? id) = [] ∨
      w.id = id ∧ w.Ticks x.before .increase ∧ w'.increase = w.increase.next x.before.now ∧
        ∃ tx, events.filterMap (Event.sent? id) = [tx] := by
  cases turn with
  | @send _ tx _ _ _ tick =>
    rw [List.filterMap_cons_none rfl]
    by_cases own : w.id = id
    · exact .inr ⟨own, tick, rfl, tx, List.filterMap_cons_some (if_pos own)⟩
    · exact .inl (List.filterMap_cons_none (if_neg own))
  | condemn _ _ reports =>
    refine .inl (filterMap_sent?_eq_nil fun chainId tx he => ?_)
    rcases reports _ he with ⟨_, h⟩ | ⟨-, _, _, h⟩ <;> cases h
  | _ => exact .inl rfl

end Turns

/-- In a move at most one transaction is sent for a record, and for that its watcher takes a
tick. -/
theorem Effect.sent_cases {c : Setup} {x : Transition} (effect : Effect c x) (id : String) :
    x.events.filterMap (Event.sent? id) = [] ∨
      ∃ w tx, x.before.watcher? id = some w ∧ w.Ticks x.before .increase ∧
        x.events.filterMap (Event.sent? id) = [tx] ∧
          ∀ v ∈ x.after.watchers, v.id = id → v.increase = w.increase.next x.before.now := by
  by_cases woken : x.move = .wake id
  case neg => exact .inl (filterMap_sent?_eq_nil fun _ _ sent => woken (effect.of_sent sent).1)
  cases effect with
  | refused hm | inserted hm | placed hm | pollerStarted hm | polled hm | pollFailed hm
  | crashed _ hm | stopped hm | advanced hm => cases woken.symm.trans hm
  | stored _ _ learned => cases woken.symm.trans learned.1
  | @acted w w' told hw hm turn after events =>
    have silent : w'.farewell.filterMap (Event.sent? id) = [] := by
      unfold Watcher.farewell
      split <;> rfl
    rw [events, List.filterMap_append, silent, List.append_nil]
    rcases turn.sent_cases id with none | ⟨rfl, tick, next, tx, one⟩
    · exact .inl none
    · refine .inr ⟨w, tx, hw, tick, one, ?_⟩
      intro v hv own
      rw [after] at hv
      rcases Service.mem_replace hv with ⟨-, other⟩ | ⟨rfl, -⟩
      · exact absurd (own.trans turn.id_eq.symm) other
      · exact next

/-! ## The invariants -/

/-- What is stored under an id has an interval between its price increases, at which the tickers of
its watchers run. -/
structure Service.Paced (s : Service) (id : String) (interval : Duration) : Prop where
  stored : ∀ r ∈ s.store.get? id, r.policy.increaseInterval = interval
  watched : ∀ w ∈ s.watchers, w.id = id →
    w.record.policy.increaseInterval = interval ∧ w.increase.period = interval

/-- Whoever watches a record takes no tick for its price before a moment, but for some slack. -/
def Service.Awaits (s : Service) (id : String) (first : Moment) (slack : Duration) : Prop :=
  ∀ w ∈ s.watchers, w.id = id → first ≤ w.increase.due + slack

section Services

variable {c : Setup} {x : Transition} {s : Service} {r : Record} {w : Watcher} {id : String}
  {interval slack : Duration} {t : Moment}

theorem Service.Starts.paced (starts : s.Starts c r w)
    (same : r.policy.increaseInterval = interval) :
    w.record.policy.increaseInterval = interval ∧ w.increase.period = interval := by
  obtain ⟨rfl, -⟩ := Watcher.start?_eq_some starts.set
  rw [starts.increase_eq]
  exact ⟨same, same⟩

/-- A watcher that starts waits for a whole interval. -/
theorem Service.Starts.awaits (starts : s.Starts c r w)
    (same : r.policy.increaseInterval = interval) (passed : t ≤ s.now) :
    t + interval ≤ w.increase.due + slack := by
  have passed : t.nanos ≤ s.now.nanos := passed
  rw [starts.increase_eq, same]
  show t.nanos + interval.nanos ≤ s.now.nanos + interval.nanos + slack.nanos
  omega

theorem Effect.awaits (effect : Effect c x) (paced : x.after.Paced id interval)
    (passed : t ≤ x.before.now) (awaits : x.before.Awaits id (t + interval) slack) :
    x.after.Awaits id (t + interval) slack := by
  intro v hv own
  cases effect.origin hv with
  | idle was _ => exact awaits v was own
  | started _ _ _ starts =>
    have same := (paced.watched v hv own).1
    rw [(Watcher.start?_eq_some starts.set).1] at same
    exact starts.awaits same passed
  | @turned w _ hw _ turn =>
    have before : (t + interval).nanos ≤ w.increase.due.nanos + slack.nanos :=
      awaits w (List.mem_of_find?_eq_some hw) (turn.id_eq ▸ own)
    have later : w.increase.due.nanos ≤ v.increase.due.nanos := by
      rcases turn.increase_cases with same | next
      · rw [same]
      · rw [next]
        exact w.increase.due_le_next x.before.now
    show (t + interval).nanos ≤ v.increase.due.nanos + slack.nanos
    omega

/-- A broadcast comes when its tick is due, and the next one has to wait. -/
theorem Effect.of_sent_one {tx : SignedTx} (effect : Effect c x)
    (paced : x.before.Paced id interval) (sent : x.events.filterMap (Event.sent? id) = [tx]) :
    (∀ first slack, x.before.Awaits id first slack → first ≤ x.before.now + slack) ∧
      x.after.Awaits id (x.before.now + interval) Ticker.tolerance := by
  rcases effect.sent_cases id with none | ⟨w, tx', hw, tick, -, next⟩
  · rw [none] at sent
    cases sent
  have mem := List.mem_of_find?_eq_some hw
  have own := Watcher.id_of_watcher? hw
  have due : w.increase.due.nanos ≤ x.before.now.nanos := of_decide_eq_true tick.due.2
  constructor
  · intro first slack awaits
    have bound : first.nanos ≤ w.increase.due.nanos + slack.nanos := awaits w mem own
    show first.nanos ≤ x.before.now.nanos + slack.nanos
    omega
  · intro v hv same
    rw [next v hv same, ← (paced.watched w mem own).2]
    exact w.increase.le_next_due x.before.now

end Services

/-! ## Chronicles -/

/-- What a move stores from outside under an id has a given interval between its price increases. -/
def Transition.KeepsPace (x : Transition) (id : String) (interval : Duration) : Prop :=
  x.move.introduces id = true →
    ∀ r ∈ x.after.store.get? id, r.policy.increaseInterval = interval

section Chronicles

variable {c : Setup} {x : Transition} {past later : List Transition} {s : Service} {id : String}
  {interval slack : Duration}

/-- Every version of the record has the interval, and so has every copy. -/
theorem Chronicle.paced (run : Chronicle c past s) (kept : ∀ x ∈ past, x.KeepsPace id interval) :
    (∀ y ∈ past, ∀ r ∈ y.after.store.get? id, r.policy.increaseInterval = interval) ∧
      s.Paced id interval := by
  induction run with
  | start now => exact ⟨nofun, nofun, nofun⟩
  | @step past x before effect _ _ seen ih =>
    obtain ⟨versions, paced⟩ := ih fun y hy => kept y (List.mem_cons_of_mem x hy)
    have stored : ∀ r ∈ x.after.store.get? id, r.policy.increaseInterval = interval := by
      intro r hr
      rcases effect.get?_cases before.sound id with
        same | ⟨r', stored, introduced | ⟨after, learned⟩⟩
      · exact paced.stored r (same ▸ hr)
      · exact kept x List.mem_cons_self introduced r hr
      · obtain rfl := Option.some.inj (stored.symm.trans hr)
        obtain ⟨-, w, hw, writing⟩ := learned
        have mem := List.mem_of_find?_eq_some hw
        rw [(before.sound w mem).policy_of_writing writing]
        exact (paced.watched w mem (Watcher.id_of_watcher? hw)).1
    have versions : ∀ y ∈ x :: past, ∀ r ∈ y.after.store.get? id,
        r.policy.increaseInterval = interval := List.forall_mem_cons.mpr ⟨stored, versions⟩
    refine ⟨versions, stored, ?_⟩
    rintro v hv rfl
    cases effect.origin hv with
    | idle was _ => exact paced.watched v was rfl
    | started polled _ _ starts new =>
      obtain ⟨poller, polled⟩ := polled
      have unturned : x.move.actor ≠ some v.id := by
        rw [polled]
        nofun
      obtain ⟨y, hy, copied⟩ := ((seen v hv).resolve_left new).resolve_left unturned
      have same := versions y hy _ copied
      rw [(Watcher.start?_eq_some starts.set).1] at same
      exact starts.paced same
    | turned hw _ turn _ =>
      have before := paced.watched _ (List.mem_of_find?_eq_some hw) turn.id_eq.symm
      rw [turn.policy_eq]
      refine ⟨before.1, ?_⟩
      rcases turn.increase_cases with same | next
      · rw [same]
        exact before.2
      · rw [next, Ticker.period_next]
        exact before.2

/-- Who has to wait for an interval after a move is followed by others who have to. -/
theorem Chronicle.awaits_since (run : Chronicle c (later ++ x :: past) s)
    (kept : ∀ y ∈ later ++ x :: past, y.KeepsPace id interval)
    (first : x.after.Awaits id (x.before.now + interval) slack) :
    s.Awaits id (x.before.now + interval) slack := by
  induction later generalizing s with
  | nil =>
    obtain ⟨-, -, rfl⟩ := run.of_cons
    exact first
  | cons y later ih =>
    obtain ⟨before, effect, rfl⟩ := run.of_cons
    exact effect.awaits (run.paced kept).2 before.now_mono
      (ih before fun z hz => kept z (List.mem_cons_of_mem y hz))

end Chronicles

/-! ## Runs -/

namespace Interleaving

/-- The moments at which a transaction was sent for a record, the latest first. -/
def broadcastTimes (id : String) (past : List Step) : List Moment :=
  past.flatMap fun x => (x.events.filterMap (Event.sent? id)).map fun _ => x.before.service.now

/-- What is stored from outside under an id has a given interval between its price increases. -/
def Step.KeepsPace (x : Step) (id : String) (interval : Duration) : Prop :=
  ∀ m, x.stride = .move m → m.introduces id = true →
    ∀ r ∈ x.after.service.store.get? id, r.policy.increaseInterval = interval

section Steps

variable {c : Setup} {x : Step} {past later : List Step} {i : Interleaving} {id : String}
  {interval slack : Duration} {t : Moment}

theorem Step.KeepsPace.asMove (kept : x.KeepsPace id interval) : x.asMove.KeepsPace id interval := by
  intro introduced
  refine kept _ (Step.stride_eq_move rfl ?_) introduced
  intro poller polled
  rw [polled] at introduced
  cases introduced

theorem moves_keepPace (kept : ∀ x ∈ past, x.KeepsPace id interval) :
    ∀ y ∈ moves past, y.KeepsPace id interval := by
  intro y hy
  obtain ⟨x, hx, rfl⟩ := List.mem_map.mp hy
  exact (kept x hx).asMove

/-- In a stride one transaction at most is sent for a record, when whoever watches it has waited. -/
theorem Run.sent_cases (run : Run c (x :: past) i) (kept : ∀ y ∈ past, y.KeepsPace id interval) :
    x.events.filterMap (Event.sent? id) = [] ∨
      (∃ tx, x.events.filterMap (Event.sent? id) = [tx]) ∧
      (∀ first slack, x.before.service.Awaits id first slack →
        first ≤ x.before.service.now + slack) ∧
      x.after.service.Awaits id (x.before.service.now + interval) Ticker.tolerance := by
  have paced := (run.chronicle.before.paced (moves_keepPace kept)).2
  rcases run.chronicle.effect.sent_cases id with none | ⟨_, tx, -, -, one, -⟩
  · exact .inl none
  · exact .inr ⟨⟨tx, one⟩, run.chronicle.effect.of_sent_one paced one⟩

/-- Who starts to watch a record waits for a whole interval, and nobody else watches it. -/
theorem Run.awaits_of_starts {poller : Nat} {r : Record} (run : Run c (x :: past) i)
    (kept : ∀ y ∈ x :: past, y.KeepsPace id interval) (starts : x.Starts poller r)
    (own : r.id = id) :
    x.after.service.Awaits id (x.before.service.now + interval) .zero := by
  obtain ⟨-, -, rfl⟩ := cons_iff.mp run
  intro v hv watches
  cases run.chronicle.effect.origin hv with
  | idle was _ => exact absurd (watches.trans own.symm) (run.unwatched_of_starts starts v was)
  | started _ _ _ begins =>
    have same := ((run.chronicle.paced (moves_keepPace kept)).2.watched v hv watches).1
    rw [(Watcher.start?_eq_some begins.set).1] at same
    exact begins.awaits same (Nat.le_refl _)
  | turned _ hm =>
    have polled : x.asMove.move = .poll poller (.ok ()) := congrArg Stride.asMove starts.offers
    rw [polled] at hm
    cases hm

theorem broadcastTimes_cons (x : Step) (past : List Step) :
    broadcastTimes id (x :: past) = broadcastTimes id [x] ++ broadcastTimes id past := by
  simp only [broadcastTimes, List.flatMap_cons, List.flatMap_nil, List.append_nil]

theorem exists_of_mem_broadcastTimes (h : t ∈ broadcastTimes id past) :
    ∃ later x earlier, past = later ++ x :: earlier ∧ t = x.before.service.now ∧
      x.events.filterMap (Event.sent? id) ≠ [] := by
  obtain ⟨x, hx, h⟩ := List.mem_flatMap.mp h
  obtain ⟨tx, sent, rfl⟩ := List.mem_map.mp h
  obtain ⟨later, earlier, rfl⟩ := List.append_of_mem hx
  exact ⟨later, x, earlier, rfl, rfl, List.ne_nil_of_mem sent⟩

/-- A broadcast after a stride comes no earlier than those who watched then could begin it. -/
theorem Run.le_broadcastTimes (run : Run c (later ++ x :: past) i)
    (kept : ∀ y ∈ later ++ x :: past, y.KeepsPace id interval)
    (first : x.after.service.Awaits id (x.before.service.now + interval) slack)
    (h : t ∈ broadcastTimes id later) : x.before.service.now + interval ≤ t + slack := by
  obtain ⟨after, y, between, rfl, rfl, sent⟩ := exists_of_mem_broadcastTimes h
  rw [List.append_assoc] at run kept
  obtain ⟨before, -, -⟩ := cons_iff.mp run.of_append
  have kept' : ∀ z ∈ between ++ x :: past, z.KeepsPace id interval :=
    fun z hz => kept z (List.mem_append_right after (List.mem_cons_of_mem y hz))
  have awaits := before.chronicle_append.awaits_since
    (moves_append between x past ▸ moves_keepPace kept') first
  rcases run.of_append.sent_cases kept' with none | ⟨-, due, -⟩
  · exact absurd none sent
  · exact due _ _ awaits

end Steps

end Interleaving

open Interleaving in
/-- **Broadcasts keep their pace.** As long as everything that is stored under an id from outside
has the same interval between its price increases, of two broadcasts for the record the later one
comes at least this interval after the other, less the five milliseconds by which a tick may be
late. After a watcher has started no broadcast comes before the whole interval has passed. -/
theorem broadcasts_keep_pace {c : Setup} {past : List Step} {i : Interleaving} {id : String}
    {interval : Duration} (run : Run c past i) (kept : ∀ x ∈ past, x.KeepsPace id interval) :
    (broadcastTimes id past).Pairwise (fun later earlier =>
      earlier + interval ≤ later + Ticker.tolerance) ∧
    ∀ later x earlier poller r, past = later ++ x :: earlier → x.Starts poller r → r.id = id →
      ∀ t ∈ broadcastTimes id later, x.before.service.now + interval ≤ t := by
  constructor
  · induction past generalizing i with
    | nil => exact .nil
    | cons x past ih =>
      obtain ⟨before, -, -⟩ := Run.cons_iff.mp run
      have kept' : ∀ y ∈ past, y.KeepsPace id interval :=
        fun y hy => kept y (List.mem_cons_of_mem x hy)
      rw [broadcastTimes_cons]
      refine List.pairwise_append.mpr ⟨?_, ih before kept', ?_⟩
      · rcases run.sent_cases kept' with none | ⟨⟨tx, one⟩, -⟩
        · simp [broadcastTimes, none]
        · simp [broadcastTimes, one]
      · intro t ht u hu
        obtain ⟨later, y, earlier, rfl, rfl, sent⟩ := exists_of_mem_broadcastTimes hu
        have upto : Run c ((x :: later) ++ y :: earlier) i := run
        have mem : t ∈ broadcastTimes id (x :: later) := by
          rw [broadcastTimes_cons]
          exact List.mem_append_left _ ht
        have behind : ∀ z ∈ earlier, z.KeepsPace id interval :=
          fun z hz => kept' z (List.mem_append_right later (List.mem_cons_of_mem y hz))
        rcases upto.of_append.sent_cases behind with none | ⟨-, -, awaits⟩
        · exact absurd none sent
        · exact upto.le_broadcastTimes kept awaits mem
  · rintro later x earlier poller r rfl starts own t ht
    have awaits := run.of_append.awaits_of_starts
      (fun z hz => kept z (List.mem_append_right later hz)) starts own
    exact run.le_broadcastTimes kept awaits ht

namespace Sample

open Interleaving

/-- The sample with a status check just before each price increase. -/
def hindered : Record :=
  { record with policy := { roomy with checkInterval := .ofMillis 3999 } }

def waiting : Replies
  | .lookup _ => .ok true
  | .receipt _ => .error (.rpc "not yet")
  | .send _ => .ok ()

/-- The answer to the first status check holds the first broadcast up for three milliseconds. The
second one comes when it is due, a little less than an interval later. -/
def hastening : List Stride :=
  [.move (.advance (.ofMillis 13999)), .move (.wake "a"), .move (.advance (.ofMillis 14003)),
   .move (.answer "a" waiting), .move (.wake "a"), .move (.answer "a" waiting),
   .move (.stored "a" (.ok ())), .move (.advance (.ofMillis 17998)), .move (.wake "a"),
   .move (.answer "a" waiting), .move (.advance (.ofMillis 18000)), .move (.wake "a")]

def offering : List Stride :=
  [.move (.place hindered), .move .startPoller, .move (.advance (.ofMillis 10000)), .read 0]

/-- A stride stores no other interval from outside, as far as a move tells. -/
def steady (x : Step) : Bool :=
  match x.stride with
  | .move m => !m.introduces "a" ||
    (x.after.service.store.get? "a").all fun r => r.policy.increaseInterval = .ofMillis 4000
  | _ => true

theorem keepsPace {x : Step} (test : steady x = true) : x.KeepsPace "a" (.ofMillis 4000) := by
  intro m hm introduced r hr
  rw [Option.mem_def] at hr
  simpa [steady, hm, introduced, hr] using test

def hasteningTest (all : List Step) : Bool :=
  match all.drop hastening.length with
  | x :: _ => all.all steady && .started "a" ∈ x.events && x.before.unoffered 0 = [hindered] &&
      x.before.service.now = .ofMillis 10000 &&
      broadcastTimes "a" (all.take hastening.length) = [.ofMillis 18000, .ofMillis 14003]
  | [] => false

theorem hastening_run : ∃ later x earlier i, Run setup (later ++ x :: earlier) i ∧
    (∀ y ∈ later ++ x :: earlier, y.KeepsPace "a" (.ofMillis 4000)) ∧ x.Starts 0 hindered ∧
    x.before.service.now = .ofMillis 10000 ∧
    broadcastTimes "a" later = [.ofMillis 18000, .ofMillis 14003] := by
  have passed : (Interleaving.replay setup (offering ++ .offer 0 :: hastening) []
      (.ofService (.initial ⟨0⟩))).any (fun p => hasteningTest p.1) = true := by decide +kernel
  obtain ⟨⟨all, i⟩, taken, passed⟩ := (Option.any_eq_true ..).mp passed
  obtain ⟨run, strides⟩ := Run.of_replay (.start ⟨0⟩) taken
  unfold hasteningTest at passed
  split at passed
  case h_2 => cases passed
  case h_1 x earlier equal =>
    dsimp only at equal passed
    have whole : all.take hastening.length ++ x :: earlier = all := by
      rw [← equal, List.take_append_drop]
    have offers : x.stride = .offer 0 := by
      have behind := congrArg (List.drop hastening.length) strides
      rw [← List.map_drop, equal] at behind
      exact (List.cons.inj behind).1
    simp only [Bool.and_eq_true, decide_eq_true_eq] at passed
    obtain ⟨⟨⟨⟨tested, started⟩, next⟩, now⟩, times⟩ := passed
    refine ⟨_, x, earlier, i, whole.symm ▸ run, ?_, ⟨offers, ⟨[], next⟩, started⟩, now, times⟩
    intro y hy
    rw [whole] at hy
    exact keepsPace (List.all_eq_true.mp tested y hy)

end Sample

open Interleaving in
theorem hastening_sample_keeps_pace : ∃ later x earlier i,
    Run Sample.setup (later ++ x :: earlier) i ∧
    (∀ y ∈ later ++ x :: earlier, y.KeepsPace "a" (.ofMillis 4000)) ∧
    x.Starts 0 Sample.hindered ∧ x.before.service.now = .ofMillis 10000 ∧
    broadcastTimes "a" later = [.ofMillis 18000, .ofMillis 14003] ∧
    (broadcastTimes "a" (later ++ x :: earlier)).Pairwise (fun newer older =>
      older + Duration.ofMillis 4000 ≤ newer + Ticker.tolerance) ∧
    ∀ t ∈ broadcastTimes "a" later, x.before.service.now + Duration.ofMillis 4000 ≤ t := by
  obtain ⟨later, x, earlier, i, run, kept, starts, now, times⟩ := Sample.hastening_run
  obtain ⟨pace, first⟩ := broadcasts_keep_pace run kept
  exact ⟨later, x, earlier, i, run, kept, starts, now, times, pace,
    first later x earlier 0 Sample.hindered rfl starts rfl⟩

end GasEscalator
