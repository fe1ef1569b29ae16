import GasEscalator.Proofs.Strides
import GasEscalator.Proofs.Verdicts

/-!
# Failed records as the chain sees them

A chain may have carried out the transaction of a record that is marked as failed before its
deadline. A price increase does not ask what became of the transaction sent last, and the answer of
a slow call may be out of date when it comes. As long as every watcher starts from what is stored, it
happens in no other way.
-/
namespace GasEscalator

/-- An answer that a watcher gets is the chain's at some moment since it was asked. -/
def Transition.Follows (chain : Moment → Replies) (x : Transition) : Prop :=
  ∀ id replies w since call, x.move = .answer id replies → x.before.watcher? id = some w →
    w.phase = .calling since call →
      ∃ t, since ≤ t ∧ t ≤ x.before.now ∧ replies call = chain t call

/-- A chain with these answers says that a transaction is mined and carried out. -/
def Confirms (replies : Replies) (hash : Hash) : Prop :=
  replies (.lookup hash) = .ok false ∧
    ∃ receipt, replies (.receipt hash) = .ok receipt ∧ receipt.status = Receipt.successful

/-- A watcher asks for its record to be stored as failed before the record's deadline. -/
structure FailsEarly (x : Transition) (r : Record) : Prop where
  move : ∃ outcome, x.move = .stored r.id outcome
  wrote : ∃ ok, .wrote r ok ∈ x.events
  failed : r.status = .failed
  early : ∃ d, r.deadline? = some d ∧ x.before.now < d

/-- A watcher hears what a chain has said, at a moment since the question, to a lookup or a request for
the receipt of a transaction, and at that moment the chain did not say that it was carried out. -/
def Transition.HearsDoubt (c : Setup) (chain : Moment → Replies) (x : Transition) (id : String)
    (hash : Hash) : Prop :=
  ∃ w since call t, x.before.watcher? id = some w ∧ w.phase = .calling since call ∧
    (call = .lookup hash ∨ call = .receipt hash) ∧ since ≤ t ∧ t ≤ x.before.now ∧
      x.Hears c id call (chain t call) ∧ ¬ Confirms (chain t) hash

theorem ChainError.Fatal.ne_timeout {α : Type} {e : ChainError} (fatal : e.Fatal)
    (limit : Duration) : (Except.error e : Except ChainError α) ≠ .error (.timeout limit) := by
  rintro ⟨⟩
  cases fatal

section Hearing

variable {c : Setup} {chain : Moment → Replies} {x : Transition} {id : String}

/-- An answer other than a timeout is one of the chain's. -/
theorem Transition.Hears.of_chain {call : Call} {result : Except ChainError call.Result}
    (heard : x.Hears c id call result) (follows : x.Follows chain)
    (answered : ∀ limit, result ≠ .error (.timeout limit)) :
    ∃ w since t, x.before.watcher? id = some w ∧ w.phase = .calling since call ∧ since ≤ t ∧
      t ≤ x.before.now ∧ chain t call = result := by
  cases heard with
  | answer hm hw calling =>
    obtain ⟨t, asked, told, same⟩ := follows _ _ _ _ _ hm hw calling
    exact ⟨_, _, t, hw, calling, asked, told, same.symm⟩
  | expire => exact absurd rfl (answered _)

/-- What a status check fails a record for, the chain has said in place of a confirmation. -/
theorem Grounds.doubt {r : Record} {tx : SignedTx} (grounds : Grounds c r x .check)
    (latest : r.latest = .ok tx) (follows : x.Follows chain) :
    x.HearsDoubt c chain r.id tx.hash := by
  cases grounds with
  | unreadable _ latest' =>
    rw [latest] at latest'
    cases latest'
  | lookupError latest' heard fatal =>
    obtain rfl := Except.ok.inj (latest.symm.trans latest')
    obtain ⟨w, since, t, hw, calling, asked, told, said⟩ := heard.of_chain follows fatal.ne_timeout
    refine ⟨w, since, _, t, hw, calling, .inl rfl, asked, told, said.symm ▸ heard, ?_⟩
    rintro ⟨found, -⟩
    rw [said] at found
    cases found
  | receiptError latest' heard fatal =>
    obtain rfl := Except.ok.inj (latest.symm.trans latest')
    obtain ⟨w, since, t, hw, calling, asked, told, said⟩ := heard.of_chain follows fatal.ne_timeout
    refine ⟨w, since, _, t, hw, calling, .inr rfl, asked, told, said.symm ▸ heard, ?_⟩
    rintro ⟨-, receipt, received, -⟩
    rw [said] at received
    cases received
  | receipt latest' heard unsuccessful =>
    obtain rfl := Except.ok.inj (latest.symm.trans latest')
    obtain ⟨w, since, t, hw, calling, asked, told, said⟩ := heard.of_chain follows nofun
    refine ⟨w, since, _, t, hw, calling, .inr rfl, asked, told, said.symm ▸ heard, ?_⟩
    rintro ⟨-, receipt, received, successful⟩
    rw [said] at received
    obtain rfl := Except.ok.inj received
    exact unsuccessful successful

end Hearing

/-- What a watcher has stored as failed is its copy with this status. -/
theorem Watcher.Sound.eq_of_writing_failed {c : Setup} {w : Watcher} {r : Record}
    {after : AfterWrite} (sound : w.Sound c) (writing : w.phase = .writing r after)
    (failed : r.status = .failed) : r = w.record.withStatus .failed := by
  have about := sound.2
  rw [writing] at about
  cases after with
  | giveUp => exact about
  | finish =>
    rcases about with h | rfl
    · exact h
    · cases failed
  | resume =>
    obtain ⟨tx, -, rfl⟩ := about
    cases failed

/-- The last turn of a tick that came upon grounds to give a record up just then: either the tick is a
price increase, or it is a status check and the turn hears a doubt about the stored transaction. -/
structure EndsTick (c : Setup) (chain : Moment → Replies) (moves : List Transition) (y : Transition)
    (now : Moment) (r : Record) (tx : SignedTx) : Prop where
  last : ∃ rest, turnsOf r.id (tick r.id moves) = y :: rest
  now_eq : y.before.now = now
  ways : (∃ b ∈ tick r.id moves, b.Begins r.id .increase) ∧ Grounds c r y .increase ∨
    (∃ b ∈ tick r.id moves, b.Begins r.id .check) ∧ y.HearsDoubt c chain r.id tx.hash

theorem Chronicle.exists_endsTick {c : Setup} {chain : Moment → Replies} {past : List Transition}
    {x : Transition} {s : Service} {r : Record} (run : Chronicle c (x :: past) s)
    (follows : ∀ y ∈ past, y.Follows chain) (calm : ∀ y ∈ past, ¬ y.Disturbs r.id)
    (fails : FailsEarly x r) :
    ∃ old, x.before.store.get? r.id = some old ∧ ∀ tx, old.latest = .ok tx →
      ∃ y ∈ past, EndsTick c chain past y x.before.now r tx := by
  obtain ⟨⟨outcome, hm⟩, ⟨ok, wrote⟩, failed, d, timed, early⟩ := fails
  have before := run.before
  obtain ⟨w, hw, hid, after, writing⟩ := run.effect.writing_of_wrote hm wrote
  refine ⟨w.record, before.copy_stored calm w hw hid, ?_⟩
  intro tx latest
  have latest : r.latest = .ok tx := by
    rw [(before.sound w hw).eq_of_writing_failed writing failed]
    exact latest
  rcases (run.justified hm wrote).2.failed failed with
    ⟨d', timed', late⟩ | ⟨k, begun, y, rest, last, now, grounds⟩
  · obtain rfl := Option.some.inj (timed.symm.trans timed')
    exact absurd late (Nat.not_le_of_lt early)
  have there : y ∈ past := by
    have mem : y ∈ turnsOf r.id (tick r.id past) := by
      rw [last]
      exact List.mem_cons_self
    exact tick_subset_past r.id past (List.mem_filter.mp mem).1
  refine ⟨y, there, ⟨rest, last⟩, now, ?_⟩
  cases k with
  | increase => exact .inl ⟨begun, grounds⟩
  | check => exact .inr ⟨begun, grounds.doubt latest (follows y there)⟩

open Interleaving in
/-- **A mined transaction is given up in two ways only.** When a record that only its watchers
rewrite, each from what was stored when it started, is marked as failed before its deadline, then
this ends a tick whose last turn was made just then. The tick is a price increase, and the turn came
upon grounds; or it is a status check, and the turn heard the answer to its last question, which the
chain had given, at a moment since it was asked, without confirming the transaction that is stored. A
chain that answers at once did not confirm it at that very moment. -/
theorem early_failure_cases {c : Setup} {chain : Moment → Replies} {past : List Step} {x : Step}
    {i : Interleaving} {r : Record} (run : Run c (x :: past) i)
    (follows : ∀ y ∈ past, y.asMove.Follows chain) (kept : ∀ y ∈ past, ¬ y.Rewrites r.id)
    (current : ∀ y ∈ past, ¬ y.StartsStale r.id) (fails : FailsEarly x.asMove r) :
    ∃ old, x.before.service.store.get? r.id = some old ∧ ∀ tx, old.latest = .ok tx →
      ∃ y ∈ past, EndsTick c chain (moves past) y.asMove x.before.service.now r tx := by
  obtain ⟨before, -, -⟩ := Run.cons_iff.mp run
  have follows : ∀ y ∈ moves past, y.Follows chain := by
    intro y hy
    obtain ⟨z, hz, rfl⟩ := List.mem_map.mp hy
    exact follows z hz
  obtain ⟨old, stored, ways⟩ :=
    run.chronicle.exists_endsTick follows (before.calm kept current) fails
  refine ⟨old, stored, ?_⟩
  intro tx latest
  obtain ⟨_, mem, ends⟩ := ways tx latest
  obtain ⟨y, hy, rfl⟩ := List.mem_map.mp mem
  exact ⟨y, hy, ends⟩

/-! ## Both ways are taken -/

namespace Sample

open Interleaving

/-- The sample with its first price increase after the first status check. -/
def patient : Record :=
  { record with policy := { policy with increaseInterval := .ofMillis 15000 } }

def unheard : Replies
  | .lookup _ => .error (.notFound "")
  | .receipt _ => .error (.notFound "")
  | .send _ => .ok ()

/-- A chain that mines the transaction after twenty-two seconds. -/
def mining (t : Moment) : Replies := if t < .ofMillis 22000 then unheard else mined

/-- The record is placed, polled ten seconds later and offered at once. -/
def watched (r : Record) : List Stride :=
  [.move (.place r), .move .startPoller, .move (.advance (.ofMillis 10000)), .read 0, .offer 0]

/-- Before the first status check the price goes from 40 to 80 and the next one would be above the
ceiling. -/
def overreaching : List Stride := watched record ++
  [.move (.advance (.ofMillis 14000)), .move (.wake "a"), .move (.answer "a" mined),
   .move (.stored "a" (.ok ())), .move (.advance (.ofMillis 18000)), .move (.wake "a"),
   .move (.stored "a" (.ok ()))]

/-- The question of the first status check, at twenty seconds, is answered three seconds later. -/
def lagging : List Stride := watched patient ++
  [.move (.advance (.ofMillis 20000)), .read 0, .offer 0, .move (.wake "a"),
   .move (.advance (.ofMillis 23000)), .move (.answer "a" unheard), .move (.stored "a" (.ok ()))]

end Sample

/-- A record is marked as failed before its deadline while the chain says that the transaction
stored for it is mined and carried out. -/
structure Misreports (c : Setup) (chain : Moment → Replies) (past : List Interleaving.Step)
    (x : Interleaving.Step) (r : Record) : Prop where
  run : Interleaving.Run c (x :: past) x.after
  follows : ∀ y ∈ past, y.asMove.Follows chain
  kept : ∀ y ∈ past, ¬ y.Rewrites r.id
  current : ∀ y ∈ past, ¬ y.StartsStale r.id
  fails : FailsEarly x.asMove r
  confirmed : ∃ old tx, x.before.service.store.get? r.id = some old ∧ old.latest = .ok tx ∧
    Confirms (chain x.before.service.now) tx.hash

namespace Sample

open Interleaving

/-- Whether a call for the sample that is in flight before a move was in flight at a moment. -/
def inFlightAt (t : Moment) (x : Transition) : Bool :=
  match (x.before.watcher? "a").map Watcher.phase with
  | some (.calling since _) => since ≤ t && t ≤ x.before.now
  | _ => true

theorem follows_of_inFlight {chain : Moment → Replies} {x : Transition} {t : Moment}
    (calls : inFlightAt t x = true)
    (answers : ∀ id replies, x.move = .answer id replies → id = "a" ∧ replies = chain t) :
    x.Follows chain := by
  intro id replies w since call hm hw calling
  obtain ⟨rfl, rfl⟩ := answers id replies hm
  rw [inFlightAt, hw, Option.map_some, calling] at calls
  obtain ⟨asked, told⟩ := (Bool.and_eq_true ..).mp calls
  exact ⟨t, of_decide_eq_true asked, of_decide_eq_true told, rfl⟩

def misreports (r old : Record) (now asked : Moment) : List Step → Bool
  | [] => false
  | x :: past =>
    .wrote r true ∈ x.events && x.before.service.now = now &&
      x.before.service.store.get? "a" = some old &&
      past.all (fun y => !(y.Rewrites "a") && !(y.StartsStale "a") && inFlightAt asked y.asMove)

theorem misreports_of_replay (chain : Moment → Replies) (strides : List Stride) (r old : Record)
    (now asked : Moment) {tx : SignedTx}
    (passed : (Interleaving.replay setup strides [] (.ofService (.initial ⟨0⟩))).any
      (fun p => misreports r old now asked p.1) = true)
    (last : strides.reverse.head? = some (.move (.stored "a" (.ok ()))))
    (answers : ∀ d ∈ strides, ∀ id replies, d.asMove = .answer id replies →
      id = "a" ∧ replies = chain asked)
    (hid : r.id = "a") (failed : r.status = .failed) (early : ∃ d, r.deadline? = some d ∧ now < d)
    (latest : old.latest = .ok tx) (confirms : Confirms (chain now) tx.hash) :
    ∃ past x, Misreports setup chain past x r := by
  obtain ⟨past, i, run, taken, passed⟩ := Run.exists_of_replay _ _ _ passed
  unfold misreports at passed
  split at passed
  case h_1 => cases passed
  case h_2 x past =>
    simp only [Bool.and_eq_true, decide_eq_true_eq, List.all_eq_true, Bool.not_eq_true',
      decide_eq_false_iff_not] at passed
    obtain ⟨⟨⟨wrote, rfl⟩, stored⟩, tested⟩ := passed
    rw [← taken] at last
    have hs : x.stride = .move (.stored "a" (.ok ())) := Option.some.inj last
    have hm : x.asMove.move = .stored r.id (.ok ()) := hid ▸ congrArg Stride.asMove hs
    have told : ∀ y ∈ past, ∀ id replies, y.asMove.move = .answer id replies →
        id = "a" ∧ replies = chain asked := by
      intro y hy
      apply answers y.stride
      rw [← List.mem_reverse, ← taken]
      exact List.mem_cons_of_mem _ (List.mem_map_of_mem hy)
    exact ⟨past, x,
      { run := (Run.cons_iff.mp run).2.2 ▸ run
        follows := fun y hy => follows_of_inFlight (tested y hy).2 (told y hy)
        kept := fun y hy => hid ▸ (tested y hy).1.1
        current := fun y hy => hid ▸ (tested y hy).1.2
        fails := ⟨⟨.ok (), hm⟩, ⟨true, wrote⟩, failed, early⟩
        confirmed := ⟨old, tx, hid ▸ stored, latest, confirms⟩ }⟩

/-- The price reaches its ceiling before the first status check. -/
theorem overreaching_misreports : ∃ past x, Misreports setup (fun _ => mined) past x failed := by
  refine misreports_of_replay _ overreaching _ (record.withLatest (bumped 80)) (.ofMillis 18000)
    (.ofMillis 14000) (by decide +kernel) rfl ?_ rfl rfl ⟨_, rfl, by decide⟩ rfl ⟨rfl, _, rfl, rfl⟩
  intro d hd id replies answered
  simp only [overreaching, watched, List.mem_append, List.mem_cons, List.not_mem_nil,
    or_false] at hd
  rcases hd with (rfl | rfl | rfl | rfl | rfl) | (rfl | rfl | rfl | rfl | rfl | rfl | rfl) <;>
    cases answered
  exact ⟨rfl, rfl⟩

/-- The transaction is mined while the chain's first answer is under way. -/
theorem lagging_misreports :
    ∃ past x, Misreports setup mining past x (patient.withStatus .failed) := by
  refine misreports_of_replay _ lagging _ patient (.ofMillis 23000) (.ofMillis 20000)
    (by decide +kernel) rfl ?_ rfl rfl ⟨_, rfl, by decide⟩ rfl ⟨rfl, _, rfl, rfl⟩
  intro d hd id replies answered
  have unmined : mining (.ofMillis 20000) = unheard := if_pos (by decide)
  simp only [lagging, watched, List.mem_append, List.mem_cons, List.not_mem_nil, or_false] at hd
  rcases hd with (rfl | rfl | rfl | rfl | rfl) | (rfl | rfl | rfl | rfl | rfl | rfl | rfl) <;>
    cases answered
  exact ⟨rfl, unmined.symm⟩

end Sample

/-- Of a chain that has carried a transaction out, neither way depends on a fault of the store or on
a watcher that starts late. -/
theorem mined_transactions_are_misreported :
    (∃ past x, Misreports Sample.setup (fun _ => Sample.mined) past x Sample.failed) ∧
      ∃ past x, Misreports Sample.setup Sample.mining past x (Sample.patient.withStatus .failed) :=
  ⟨Sample.overreaching_misreports, Sample.lagging_misreports⟩

theorem lagging_sample_fails_early :
    ∃ (past : List Interleaving.Step) (x : Interleaving.Step) (old : Record), x.before.service.store.get? "a" = some old ∧
      FailsEarly x.asMove (Sample.patient.withStatus .failed) ∧
      ∀ tx, old.latest = .ok tx → ∃ y ∈ past, EndsTick Sample.setup Sample.mining
        (Interleaving.moves past) y.asMove x.before.service.now
        (Sample.patient.withStatus .failed) tx := by
  obtain ⟨past, x, run, follows, kept, current, fails, -⟩ := Sample.lagging_misreports
  obtain ⟨old, stored, ways⟩ := early_failure_cases run follows kept current fails
  exact ⟨past, x, old, stored, fails, ways⟩

end GasEscalator
