import GasEscalator.Proofs.Clock

/-!
# What final statuses rest on

A watcher works in ticks: a tick begins when it takes what is due and lasts until it waits again or
leaves. Every final status that a watcher asks to be stored is accounted for by the deadline or by
what its tick has met with. The invariant says for each point of waiting what the tick must have
met with so far.
-/
namespace GasEscalator

/-- Whether a move is the watcher of a record taking what is due. -/
def Move.wakes (id : String) : Move → Bool
  | .wake i => i = id
  | _ => false

/-- The moves since the watcher of a record last took what was due, the latest first. -/
def tick (id : String) : List Transition → List Transition
  | [] => []
  | x :: past => if x.move.wakes id then [x] else x :: tick id past

/-- The moves hold a status check that found the record's transaction mined and carried out. -/
def Confirmed (c : Setup) (moves : List Transition) (r : Record) : Prop :=
  ∃ tx receipt, r.latest = .ok tx ∧ (∃ x ∈ moves, x.Begins r.id .check) ∧
    (∃ x ∈ moves, x.Hears c r.id (.lookup tx.hash) (.ok false)) ∧
    ∃ x ∈ moves, x.Hears c r.id (.receipt tx.hash) (.ok receipt) ∧
      receipt.status = Receipt.successful

/-- The moves hold a tick that came upon grounds to give the record up, in the last turn of the
record's watcher and at a moment. -/
def Condemned (c : Setup) (now : Moment) (moves : List Transition) (r : Record) : Prop :=
  ∃ k, (∃ x ∈ moves, x.Begins r.id k) ∧
    ∃ x rest, turnsOf r.id moves = x :: rest ∧ x.before.now = now ∧ Grounds c r x k

/-- The status of a record, if it is final, rests on the deadline or on the moves. -/
structure Justified (c : Setup) (now : Moment) (moves : List Transition) (r : Record) : Prop where
  succeeded : r.status = .succeeded → Confirmed c moves r
  failed : r.status = .failed → (∃ d, r.deadline? = some d ∧ d ≤ now) ∨ Condemned c now moves r

/-- What a watcher waits for is accounted for by the moves of its tick. -/
def Watcher.Accounted (c : Setup) (now : Moment) (moves : List Transition) (w : Watcher) : Prop :=
  match w.phase with
  | .calling _ (.lookup _) => ∃ x ∈ moves, x.Begins w.id .check
  | .calling _ (.receipt hash) =>
    (∃ x ∈ moves, x.Begins w.id .check) ∧ ∃ x ∈ moves, x.Hears c w.id (.lookup hash) (.ok false)
  | .calling _ (.send _) => ∃ x ∈ moves, x.Begins w.id .increase
  | .writing r .finish | .writing r .giveUp => Justified c now moves r
  | .writing _ .resume | .waiting | .done => True

section Ticks

variable {c : Setup} {x : Transition} {past moves : List Transition} {id : String}
  {now : Moment} {r : Record}

theorem mem_tick_self (id : String) (x : Transition) (past : List Transition) :
    x ∈ tick id (x :: past) := by
  unfold tick
  split
  · exact List.mem_singleton_self x
  · exact List.mem_cons_self

/-- Other moves than a new tick extend the tick. -/
theorem tick_cons (h : x.move.wakes id = false) : tick id (x :: past) = x :: tick id past := by
  rw [tick, if_neg (by simp [h])]

theorem tick_subset (h : x.move.wakes id = false) : tick id past ⊆ tick id (x :: past) := by
  rw [tick_cons h]
  exact List.subset_cons_self ..

/-- A tick ends with the last turn of its watcher. -/
theorem turnsOf_tick (own : x.move.actor = some id) :
    ∃ rest, turnsOf id (tick id (x :: past)) = x :: rest := by
  unfold tick
  split
  · exact ⟨_, turnsOf_own own⟩
  · exact ⟨_, turnsOf_own own⟩

theorem tick_subset_past (id : String) (past : List Transition) : tick id past ⊆ past := by
  induction past with
  | nil => exact List.Subset.refl _
  | cons x past ih =>
    unfold tick
    split
    · exact List.cons_subset_cons x (List.nil_subset _)
    · exact List.cons_subset_cons x ih

theorem Confirmed.cons (h : Confirmed c moves r) : Confirmed c (x :: moves) r := by
  obtain ⟨tx, receipt, latest, ⟨b, hb, begins⟩, ⟨l, hl, found⟩, ⟨m, hm, heard⟩⟩ := h
  exact ⟨tx, receipt, latest, ⟨b, List.mem_cons_of_mem x hb, begins⟩,
    ⟨l, List.mem_cons_of_mem x hl, found⟩, ⟨m, List.mem_cons_of_mem x hm, heard⟩⟩

theorem Condemned.cons (h : Condemned c now moves r) (other : x.move.actor ≠ some r.id) :
    Condemned c now (x :: moves) r := by
  obtain ⟨k, ⟨b, hb, begins⟩, y, rest, last, met⟩ := h
  exact ⟨k, ⟨b, List.mem_cons_of_mem x hb, begins⟩, y, rest, (turnsOf_other other).trans last, met⟩

/-- What others do takes nothing away. -/
theorem Justified.cons (h : Justified c now moves r) (other : x.move.actor ≠ some r.id) :
    Justified c now (x :: moves) r :=
  ⟨fun status => (h.succeeded status).cons,
    fun status => (h.failed status).imp_right fun condemned => condemned.cons other⟩

/-- Once the deadline has come, a record may be marked as failed. -/
theorem Justified.of_deadline {d : Moment} (timed : r.deadline? = some d) (late : d ≤ now) :
    Justified c now moves (r.withStatus .failed) :=
  ⟨nofun, fun _ => .inl ⟨d, timed, late⟩⟩

/-- Grounds do not depend on the status. -/
theorem Grounds.withStatus {k : TickKind} (h : Grounds c r x k) (status : Status) :
    Grounds c (r.withStatus status) x k := by
  cases h with
  | unreadable tick latest => exact .unreadable tick latest
  | receipt latest heard unsuccessful => exact .receipt latest heard unsuccessful
  | lookupError latest heard fatal => exact .lookupError latest heard fatal
  | receiptError latest heard fatal => exact .receiptError latest heard fatal
  | ceiling tick latest above => exact .ceiling tick latest above
  | noSigner tick missing => exact .noSigner tick missing
  | unsigned tick latest found refused => exact .unsigned tick latest found refused
  | unsent heard => exact .unsent heard

end Ticks

/-! ## The invariant -/

section Accounts

variable {c : Setup} {x : Transition} {past : List Transition} {w w' : Watcher}
  {events : List Event}

theorem Transition.Hears.not_wakes {id : String} {call : Call}
    {result : Except ChainError call.Result} (heard : x.Hears c id call result) (i : String) :
    x.move.wakes i = false := by
  cases heard with
  | answer hm | expire hm =>
    rw [hm]
    rfl

namespace Watcher.Accounted

variable (accounted : w.Accounted c x.before.now (tick w.id past))
  (hw : x.before.watcher? w.id = some w)
include accounted hw

/-- A lookup is heard in a status check. -/
theorem of_lookup {hash : Hash} {result : Except ChainError Bool}
    (heard : x.Hears c w.id (.lookup hash) result) :
    ∃ y ∈ tick w.id (x :: past), y.Begins w.id .check := by
  obtain ⟨since, calling⟩ := heard.calling hw
  rw [Accounted, calling] at accounted
  obtain ⟨b, hb, begins⟩ := accounted
  exact ⟨b, tick_subset (heard.not_wakes _) hb, begins⟩

/-- A receipt is heard in a status check that has found the transaction mined. -/
theorem of_receipt {hash : Hash} {result : Except ChainError Receipt}
    (heard : x.Hears c w.id (.receipt hash) result) :
    (∃ y ∈ tick w.id (x :: past), y.Begins w.id .check) ∧
      ∃ y ∈ tick w.id (x :: past), y.Hears c w.id (.lookup hash) (.ok false) := by
  obtain ⟨since, calling⟩ := heard.calling hw
  rw [Accounted, calling] at accounted
  obtain ⟨⟨b, hb, begins⟩, ⟨l, hl, found⟩⟩ := accounted
  have sub : tick w.id past ⊆ tick w.id (x :: past) := tick_subset (heard.not_wakes _)
  exact ⟨⟨b, sub hb, begins⟩, ⟨l, sub hl, found⟩⟩

/-- The outcome of a broadcast is heard in a price increase. -/
theorem of_send {tx : SignedTx} {result : Except ChainError Unit}
    (heard : x.Hears c w.id (.send tx) result) :
    ∃ y ∈ tick w.id (x :: past), y.Begins w.id .increase := by
  obtain ⟨since, calling⟩ := heard.calling hw
  rw [Accounted, calling] at accounted
  obtain ⟨b, hb, begins⟩ := accounted
  exact ⟨b, tick_subset (heard.not_wakes _) hb, begins⟩

/-- Grounds come up in a tick of their kind. -/
theorem of_grounds {k : TickKind} (grounds : Grounds c w.record x k) :
    ∃ y ∈ tick w.id (x :: past), y.Begins w.id k := by
  have self := mem_tick_self w.id x past
  cases grounds with
  | unreadable tick => exact ⟨x, self, tick⟩
  | ceiling tick => exact ⟨x, self, tick⟩
  | noSigner tick => exact ⟨x, self, tick⟩
  | unsigned tick => exact ⟨x, self, tick⟩
  | lookupError _ heard => exact accounted.of_lookup hw heard
  | receipt _ heard => exact (accounted.of_receipt hw heard).1
  | receiptError _ heard => exact (accounted.of_receipt hw heard).1
  | unsent heard => exact accounted.of_send hw heard

/-- Every turn leads to a point that the moves account for. -/
theorem turn (sound : w.Sound c) (own : x.move.actor = some w.id) (turn : Turn c x w w' events) :
    w'.Accounted c x.before.now (tick w.id (x :: past)) := by
  have self := mem_tick_self w.id x past
  cases turn with
  | stop | pending | sent | leave | resume | finish | silent => trivial
  | timeUp _ _ late => exact .of_deadline sound.1 late
  | giveUp _ late => exact .of_deadline sound.1 late
  | ask hm tick => exact ⟨x, self, hm, w, hw, tick⟩
  | send hm tick => exact ⟨x, self, hm, w, hw, tick⟩
  | mined _ heard => exact ⟨accounted.of_lookup hw heard, x, self, heard⟩
  | success latest heard successful =>
    obtain ⟨begun, found⟩ := accounted.of_receipt hw heard
    exact ⟨fun _ => ⟨_, _, latest, begun, found, x, self, heard, successful⟩, nofun⟩
  | condemn grounds =>
    have begun := accounted.of_grounds hw grounds
    obtain ⟨rest, last⟩ : ∃ rest, turnsOf w.id (tick w.id (x :: past)) = x :: rest :=
      turnsOf_tick own
    exact ⟨nofun, fun _ => .inr ⟨_, begun, x, rest, last, rfl, grounds.withStatus .failed⟩⟩

end Watcher.Accounted

theorem Move.not_wakes {m : Move} {id : String} (other : m ≠ .wake id) : m.wakes id = false := by
  cases m with
  | wake i =>
    have h : i ≠ id := fun e => other (congrArg Move.wake e)
    simpa [Move.wakes] using h
  | _ => rfl

theorem Move.wakes_of_actor {m : Move} {id : String} (other : m.actor ≠ some id) :
    m.wakes id = false := by
  refine Move.not_wakes ?_
  rintro rfl
  exact other rfl

/-- Moves of others leave the account of a watcher as it is, as long as time does not pass while it
writes. -/
theorem Watcher.Accounted.idle (accounted : w.Accounted c x.before.now (tick w.id past))
    (sound : w.Sound c) (other : x.move.actor ≠ some w.id)
    (still : ∀ r after, w.phase = .writing r after → x.after.now = x.before.now) :
    w.Accounted c x.after.now (tick w.id (x :: past)) := by
  rw [tick_cons (Move.wakes_of_actor other)]
  unfold Accounted at accounted ⊢
  -- a call only needs the moves so far; a write is also tied to the present moment
  split at accounted
  case h_1 calling =>
    obtain ⟨b, hb, begins⟩ := accounted
    exact ⟨b, List.mem_cons_of_mem x hb, begins⟩
  case h_2 calling =>
    obtain ⟨⟨b, hb, begins⟩, ⟨l, hl, found⟩⟩ := accounted
    exact ⟨⟨b, List.mem_cons_of_mem x hb, begins⟩, ⟨l, List.mem_cons_of_mem x hl, found⟩⟩
  case h_3 calling =>
    obtain ⟨b, hb, begins⟩ := accounted
    exact ⟨b, List.mem_cons_of_mem x hb, begins⟩
  case h_4 writing =>
    rw [still _ _ writing]
    exact accounted.cons (sound.id_of_writing writing ▸ other)
  case h_5 writing =>
    rw [still _ _ writing]
    exact accounted.cons (sound.id_of_writing writing ▸ other)
  all_goals trivial

/-- What a watcher asks to be stored is accounted for; a new price is no final status. -/
theorem Watcher.Accounted.justified {now : Moment} {moves : List Transition} {r : Record}
    {after : AfterWrite} (accounted : w.Accounted c now moves) (sound : w.Sound c)
    (writing : w.phase = .writing r after) : Justified c now moves r := by
  rw [Accounted, writing] at accounted
  cases after with
  | finish => exact accounted
  | giveUp => exact accounted
  | resume =>
    have about := sound.2
    rw [writing] at about
    obtain ⟨tx, -, rfl⟩ := about
    exact ⟨nofun, nofun⟩

/-- A move keeps the watchers of a record accounted for by the moves since any point at which they
were. -/
theorem Chronicle.accounted_step {s : Service} {id : String} {moves : List Transition}
    (run : Chronicle c (x :: past) s)
    (accounted : ∀ w ∈ x.before.watchers, w.id = id → w.Accounted c x.before.now (tick id moves)) :
    ∀ w ∈ x.after.watchers, w.id = id → w.Accounted c x.after.now (tick id (x :: moves)) := by
  rintro v hv rfl
  cases run.effect.origin hv with
  | idle was other =>
    exact (accounted v was rfl).idle (run.before.sound v was) other
      fun r after writing => run.now_eq_of_writing was writing
  | started _ _ _ starts =>
    obtain ⟨-, waiting, -⟩ := Watcher.start?_eq_some starts.set
    rw [Watcher.Accounted, waiting]
    trivial
  | @turned w _ hw hm turn _ =>
    have mem := List.mem_of_find?_eq_some hw
    rw [run.effect.now_eq_of_actor hm, turn.id_eq]
    exact (turn.id_eq ▸ accounted w mem turn.id_eq.symm).turn hw (run.before.sound w mem) hm turn

/-- In every chronicle the watchers are accounted for. -/
theorem Chronicle.accounted {s : Service} (run : Chronicle c past s) :
    ∀ w ∈ s.watchers, w.Accounted c s.now (tick w.id past) := by
  have of_id (id : String) : ∀ w ∈ s.watchers, w.id = id → w.Accounted c s.now (tick id past) := by
    induction run with
    | start now =>
      intro w hw
      cases hw
    | step before effect acts whole seen ih =>
      exact (before.step effect acts whole seen).accounted_step ih
  exact fun w hw => of_id w.id w hw rfl

end Accounts

/-! ## Setbacks -/

section Setbacks

variable {c : Setup} {x : Transition} {w : Watcher}

theorem Watcher.bail_of_early {now : Moment} (e : Failure) (early : now < w.deadline) :
    (w.bail now e).1 = { w with phase := .done } := by
  have ahead : ¬ w.deadline ≤ now := Nat.not_le_of_lt early
  rw [Watcher.bail, if_neg ahead]
  rfl

/-- A setback before the deadline ends the watcher and nothing else. -/
theorem Setback.after {f : Failure} (setback : Setback c x w.id f)
    (hw : x.before.watcher? w.id = some w) (made : x.Made c) (early : x.before.now < w.deadline) :
    x.after = x.before.replace { w with phase := .done } := by
  cases setback with
  | lookup heard passing =>
    rw [heard.after hw made, Watcher.resume, Watcher.fail_of_passing _ _ passing,
      Watcher.bail_of_early _ early]
  | receipt heard passing =>
    rw [heard.after hw made, Watcher.resume, Watcher.fail_of_passing _ _ passing,
      Watcher.bail_of_early _ early]
  | @store r then_ e learned again =>
    rw [learned.after hw made]
    cases then_ with
    | finish => rw [Watcher.stored, Watcher.bail_of_early _ early, Service.written]
    | resume => rw [Watcher.stored, Watcher.bail_of_early _ early, Service.written]
    | giveUp => exact absurd rfl again

/-- What the store does not take or answer leaves it as it is. -/
theorem Effect.store_eq_of_fault {e : StorageError} (effect : Effect c x)
    (fault : (∃ id, x.move = .stored id (.error e)) ∨ ∃ poller, x.move = .poll poller (.error e)) :
    x.after.store = x.before.store := by
  cases effect with
  | refused _ _ after | pollerStarted _ after | stopped _ after | advanced _ _ after =>
    rw [after]
  | inserted hm | placed hm | polled hm =>
    rw [hm] at fault
    rcases fault with ⟨_, h⟩ | ⟨_, h⟩ <;> cases h
  | pollFailed _ tick =>
    obtain ⟨-, pollers, h⟩ := Service.takeTick_frame tick
    rw [h]
  | acted _ _ _ after | crashed _ _ after =>
    obtain ⟨marks, watchers, h⟩ := Service.replace_frame x.before _
    rw [after, h]
  | stored hw _ learned _ after =>
    rw [learned.1] at fault
    rcases fault with ⟨_, h⟩ | ⟨_, h⟩
    · obtain ⟨-, rfl⟩ := Move.stored.inj h
      obtain ⟨marks, watchers, h⟩ := Service.replace_frame (x.before.written _ (.error e)) _
      rw [after, h]
      rfl
    · cases h

end Setbacks

/-! ## The result -/

/-- What a watcher has written is accounted for by its tick. -/
theorem Chronicle.justified {c : Setup} {past : List Transition} {x : Transition} {s : Service}
    {id : String} {outcome : Except StorageError Unit} {r : Record} {ok : Bool}
    (run : Chronicle c (x :: past) s) (hm : x.move = .stored id outcome)
    (wrote : .wrote r ok ∈ x.events) : r.id = id ∧ Justified c x.before.now (tick id past) r := by
  obtain ⟨w, hw, rfl, after, writing⟩ := run.effect.writing_of_wrote hm wrote
  have sound := run.before.sound w hw
  exact ⟨sound.id_of_writing writing, (run.before.accounted w hw).justified sound writing⟩

/-- **Every verdict is justified.** A watcher marks a record as succeeded only at the end of a
status check that found its transaction mined and carried out, and as failed only from the deadline
on or at the end of a tick that came upon grounds. Any other setback leaves the store as it is and
the record to a later poll. The polls of these histories are answered at once. -/
theorem final_status_is_justified {c : Setup} {past : List Transition} {x : Transition}
    {s : Service} (run : History c (x :: past) s) :
    (∀ id outcome r ok, x.move = .stored id outcome → .wrote r ok ∈ x.events →
      r.id = id ∧ Justified c x.before.now (tick id past) r) ∧
    (∀ w d f, x.before.watcher? w.id = some w → w.record.deadline? = some d → x.before.now < d →
      Setback c x w.id f →
        x.after.store = x.before.store ∧ ∀ v ∈ x.after.watchers, v.id ≠ w.id) ∧
    ∀ e, ((∃ id, x.move = .stored id (.error e)) ∨ ∃ poller, x.move = .poll poller (.error e)) →
      x.after.store = x.before.store := by
  obtain ⟨before, made, -⟩ := History.cons_iff.mp run
  refine ⟨fun id outcome r ok => run.chronicle.justified, ?_, fun e => run.effect.store_eq_of_fault⟩
  intro w d f hw timed early setback
  have timed' := (before.sound w (List.mem_of_find?_eq_some hw)).1
  obtain rfl := Option.some.inj (timed.symm.trans timed')
  have after := setback.after hw made early
  constructor
  · obtain ⟨marks, watchers, h⟩ := Service.replace_frame x.before { w with phase := .done }
    rw [after, h]
  · intro v hv
    rw [after] at hv
    rcases Service.mem_replace hv with ⟨-, other⟩ | ⟨-, live⟩
    · exact other
    · exact absurd rfl live

theorem failed_sample_is_justified : ∃ x past s, History Sample.setup (x :: past) s ∧
    x.move = .stored "a" (.ok ()) ∧ .wrote Sample.failed true ∈ x.events ∧
    Sample.failed.id = "a" ∧
      Justified Sample.setup x.before.now (tick "a" past) Sample.failed := by
  obtain ⟨all, s, run, moves, passed⟩ := History.exists_of_replay (c := Sample.setup)
    Sample.failing ⟨0⟩ (fun all => all.head?.any fun x => .wrote Sample.failed true ∈ x.events)
    (by decide +kernel)
  obtain ⟨x, hx, wrote⟩ := (Option.any_eq_true ..).mp passed
  obtain ⟨past, rfl⟩ := List.head?_eq_some_iff.mp hx
  have wrote : .wrote Sample.failed true ∈ x.events := of_decide_eq_true wrote
  have hm : x.move = .stored "a" (.ok ()) := (List.cons.inj moves).1
  exact ⟨x, past, s, run, hm, wrote,
    (final_status_is_justified run).1 "a" (.ok ()) Sample.failed true hm wrote⟩

end GasEscalator
