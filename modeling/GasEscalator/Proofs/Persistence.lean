import GasEscalator.Proofs.Rebroadcasts

/-!
# Broadcast before storage

A new transaction is stored only after the chain has taken it, and right after: a watcher that waits
for the store to take a new price has just heard of its broadcast. Nothing else of the record ever
changes, and a write that fails leaves behind what an earlier broadcast or the insertion has put
there. As long as nobody disturbs the record, what a watcher overwrites is its copy; one that starts
from an older version puts the transaction of that version back.
-/
namespace GasEscalator

/-- The last two turns for a record broadcast a transaction on a chain and heard that the chain has
taken it. -/
def Accepted (c : Setup) (id : String) (chainId : UInt64) (tx : SignedTx)
    (turns : List Transition) : Prop :=
  ∃ heard sent rest, turns = heard :: sent :: rest ∧ heard.Hears c id (.send tx) (.ok ()) ∧
    .called id chainId (.send tx) ∈ sent.events

/-- What a watcher has stored in place of a record: only the status and the transaction change, and
the transaction only for one that the chain has just taken. -/
structure Record.Overwrites (c : Setup) (old r : Record) (turns : List Transition) : Prop where
  frame : r = { old with status := r.status, latestTx := r.latestTx }
  decided : r.status ≠ .pending
  final : r.status.isTerminal = true → r.latestTx = old.latestTx
  raised : r.status = .priceIncreased →
    ∃ tx, r.latestTx = tx.encode ∧ Accepted c old.id old.chainId tx turns

/-- What is stored under an id is the transaction handed over or one that the chain of the record
has taken for it. -/
def Service.Backed (c : Setup) (s : Service) (id : String) (first : SignedTx)
    (past : List Transition) : Prop :=
  ∃ r, s.store.get? id = some r ∧ (r.latestTx = first.encode ∨ ∃ tx turns,
    turns <:+ turnsOf id past ∧ Accepted c id r.chainId tx turns ∧ r.latestTx = tx.encode)

/-! ## What a watcher has just done -/

/-- A broadcast under way was begun in the watcher's last turn, and a new price is written for one
that was taken in its last turn. -/
def Watcher.Sending (c : Setup) (w : Watcher) (turns : List Transition) : Prop :=
  match w.phase with
  | .calling _ (.send tx) =>
    ∃ sent rest, turns = sent :: rest ∧ .called w.id w.record.chainId (.send tx) ∈ sent.events
  | .writing r .resume =>
    ∃ tx, r = w.record.withLatest tx ∧ Accepted c w.id w.record.chainId tx turns
  | _ => True

section Turns

variable {c : Setup} {x : Transition} {past turns : List Transition} {w w' : Watcher} {id : String}

theorem Watcher.Sending.turn {events : List Event} (sending : w.Sending c turns)
    (hw : x.before.watcher? w.id = some w) (turn : Turn c x w w' events)
    (told : events ⊆ x.events) : w'.Sending c (x :: turns) := by
  cases turn with
  | stop | timeUp | ask | pending | mined | success | condemn | leave | giveUp | resume | finish
  | silent => trivial
  | send =>
    refine ⟨x, turns, rfl, told ?_⟩
    rw [Watcher.id, Watcher.ticked_record]
    exact List.mem_cons_of_mem _ (List.mem_singleton_self _)
  | @sent tx _ heard =>
    obtain ⟨since, calling⟩ := heard.calling hw
    rw [Sending, calling] at sending
    obtain ⟨sent, rest, rfl, called⟩ := sending
    exact ⟨tx, rfl, x, sent, rest, rfl, heard, called⟩

theorem Watcher.Sending.overwrites {r : Record} {after : AfterWrite} (sending : w.Sending c turns)
    (sound : w.Sound c) (writing : w.phase = .writing r after) :
    w.record.Overwrites c r turns := by
  have about := sound.2
  rw [writing] at about
  cases after with
  | finish => rcases about with rfl | rfl <;> exact ⟨rfl, nofun, fun _ => rfl, nofun⟩
  | giveUp =>
    rw [about]
    exact ⟨rfl, nofun, fun _ => rfl, nofun⟩
  | resume =>
    rw [Sending, writing] at sending
    obtain ⟨tx, rfl, accepted⟩ := sending
    exact ⟨rfl, nofun, nofun, fun _ => ⟨tx, rfl, accepted⟩⟩

end Turns

/-! ## Chronicles -/

section Chronicles

variable {c : Setup} {past later : List Transition} {x : Transition} {s : Service} {id : String}
  {first : SignedTx} {policy : Policy} {sender : Address} {old : Record}

theorem Chronicle.sending (run : Chronicle c past s) :
    ∀ w ∈ s.watchers, w.Sending c (turnsOf w.id past) := by
  induction run with
  | start now =>
    intro w hw
    cases hw
  | step _ effect _ _ _ ih =>
    intro v hv
    -- the turns of a record grow with the turns of its watcher only
    cases effect.origin hv with
    | idle was other =>
      rw [turnsOf_other other]
      exact ih v was
    | started _ _ _ starts =>
      obtain ⟨-, waiting, -⟩ := Watcher.start?_eq_some starts.set
      rw [Watcher.Sending, waiting]
      trivial
    | turned hw hm turn _ told =>
      rw [turn.id_eq, turnsOf_own hm]
      exact (ih _ (List.mem_of_find?_eq_some hw)).turn hw turn told

/-- What a watcher writes takes the place of its copy. -/
theorem Chronicle.overwrites {w : Watcher} {r : Record} {after : AfterWrite}
    (run : Chronicle c past s) (hw : w ∈ s.watchers) (writing : w.phase = .writing r after) :
    w.record.Overwrites c r (turnsOf w.id past) :=
  (run.sending w hw).overwrites (run.sound w hw) writing

/-- A version of a record that was handed over: only its status and its transaction have changed, and
the transaction only for one that the chain has taken. -/
structure Record.Descends (c : Setup) (r origin : Record) (turns : List Transition) : Prop where
  frame : r = { origin with status := r.status, latestTx := r.latestTx }
  backed : r.latestTx = origin.latestTx ∨ ∃ tx accepted, accepted <:+ turns ∧
    Accepted c origin.id origin.chainId tx accepted ∧ r.latestTx = tx.encode

theorem Record.Overwrites.descends {r origin : Record} {turns turns' : List Transition}
    (update : old.Overwrites c r turns) (descends : old.Descends c origin turns')
    (earlier : turns <:+ turns') : r.Descends c origin turns' := by
  have same : old.id = origin.id ∧ old.chainId = origin.chainId := by
    rw [descends.frame]
    exact ⟨rfl, rfl⟩
  constructor
  · have frame := update.frame
    rwa [descends.frame] at frame
  · cases status : r.status with
    | pending => exact absurd status update.decided
    | failed | succeeded =>
      rw [update.final (by rw [status]; rfl)]
      exact descends.backed
    | priceIncreased =>
      obtain ⟨tx, encoded, accepted⟩ := update.raised status
      exact .inr ⟨tx, turns, earlier, same.1 ▸ same.2 ▸ accepted, encoded⟩

/-- Since its insertion every version and every copy of a record has come from the one inserted. -/
theorem Chronicle.descends (run : Chronicle c (later ++ x :: past) s)
    (inserted : x.move = .insert id first policy sender (.ok ()))
    (valid : policy.validate = .ok ()) (kept : ∀ y ∈ later ++ x :: past, ¬ y.Rewrites id) :
    (∃ r, s.store.get? id = some r ∧ r.Descends c (.initial id first sender policy x.before.now)
      (turnsOf id (later ++ x :: past))) ∧
    ∀ w ∈ s.watchers, w.id = id → w.record.Descends c
      (.initial id first sender policy x.before.now) (turnsOf id (later ++ x :: past)) := by
  refine (run.versions (Transition.fresh_of_insert inserted (kept x (by simp)))
    ⟨_, run.of_append.effect.get?_of_insert inserted valid, rfl, .inl rfl⟩
    (fun y hy => kept y (List.mem_append_left _ hy)) ?_).2
  rintro y earlier suffix before w hw rfl descends r after writing
  exact (before.overwrites hw writing).descends descends
    (((List.suffix_cons y earlier).trans suffix).filter _)

/-- As long as nobody disturbs a stored record, it changes by the writes of its watcher only. -/
theorem Chronicle.rewritten (run : Chronicle c (x :: past) s)
    (calm : ∀ y ∈ x :: past, ¬ y.Disturbs id) (stored : x.before.store.get? id = some old) :
    x.after.store.get? id = some old ∨
      ∃ r after, x.after.store.get? id = some r ∧ x.Learns id r after (.ok ()) ∧
        old.Overwrites c r (turnsOf id past) := by
  have before := run.before
  rcases run.effect.get?_cases before.sound id with
    same | ⟨r, stored', introduced | ⟨after, learned⟩⟩
  · exact .inl (same.trans stored)
  · exact absurd (.inl ⟨introduced, by rw [stored]; rfl⟩) (calm x List.mem_cons_self)
  · have ⟨_, w, hw, writing⟩ := learned
    obtain rfl := Watcher.id_of_watcher? hw
    have mem := List.mem_of_find?_eq_some hw
    have copy := before.copy_stored (fun y hy => calm y (List.mem_cons_of_mem x hy)) w mem rfl
    obtain rfl := Option.some.inj (stored.symm.trans copy)
    exact .inr ⟨r, after, stored', learned, before.overwrites mem writing⟩

theorem Chronicle.frame (run : Chronicle c (x :: past) s)
    (calm : ∀ y ∈ x :: past, ¬ y.Disturbs id) (stored : x.before.store.get? id = some old) :
    ∃ status latestTx, x.after.store.get? id = some { old with status, latestTx } := by
  rcases run.rewritten calm stored with same | ⟨r, after, stored', -, update⟩
  · exact ⟨_, _, same⟩
  · exact ⟨_, _, stored'.trans (congrArg some update.frame)⟩

/-- From the move on that has left a record behind only its status and its transaction change. -/
theorem Chronicle.frame_after (run : Chronicle c (later ++ x :: past) s)
    (calm : ∀ y ∈ later ++ x :: past, ¬ y.Disturbs id)
    (stored : x.after.store.get? id = some old) :
    ∃ status latestTx, s.store.get? id = some { old with status, latestTx } := by
  refine run.since (P := fun later t => (∀ y ∈ later ++ x :: past, ¬ y.Disturbs id) →
    ∃ status latestTx, t.store.get? id = some { old with status, latestTx }) ?_ ?_ calm
  · exact fun _ => ⟨_, _, stored⟩
  · intro y later upto so_far calm
    obtain ⟨status, latestTx, found⟩ := so_far fun z hz => calm z (List.mem_cons_of_mem y hz)
    obtain ⟨_, _, found⟩ := upto.frame calm found
    exact ⟨_, _, found⟩

theorem Chronicle.frame_since (run : Chronicle c (later ++ x :: past) s)
    (calm : ∀ y ∈ later ++ x :: past, ¬ y.Disturbs id)
    (stored : x.before.store.get? id = some old) :
    ∃ status latestTx, s.store.get? id = some { old with status, latestTx } := by
  obtain ⟨_, _, after⟩ :=
    run.of_append.frame (fun y hy => calm y (List.mem_append_right later hy)) stored
  obtain ⟨status, latestTx, found⟩ := run.frame_after calm after
  exact ⟨status, latestTx, found⟩

end Chronicles

/-! ## Runs -/

section Runs

open Interleaving

variable {c : Setup} {past later : List Step} {x : Step} {i : Interleaving} {id : String}
  {first : SignedTx} {policy : Policy} {sender : Address}

theorem Interleaving.Run.descends (run : Run c (later ++ x :: past) i)
    (inserted : x.stride = .move (.insert id first policy sender (.ok ())))
    (valid : policy.validate = .ok ()) (kept : ∀ y ∈ later ++ x :: past, ¬ y.Rewrites id) :
    let origin := Record.initial id first sender policy x.before.service.now
    let turns := turnsOf id (moves (later ++ x :: past))
    (∃ r, i.service.store.get? id = some r ∧ r.Descends c origin turns) ∧
      ∀ w ∈ i.service.watchers, w.id = id → w.record.Descends c origin turns :=
  moves_append later x past ▸ run.chronicle_append.descends (congrArg Stride.asMove inserted) valid
    (moves_append later x past ▸ moves_kept kept)

/-- **Broadcast before storage.** As long as nobody outside rewrites a record that was handed over,
the transaction stored for it is the one handed over or one that the chain has taken for it. Every
write of a watcher, whether it works or not, keeps all of the stored record but the status and the
transaction, and overwrites a version that was stored before: a final status keeps the transaction of
that version, and a new price comes with the transaction that the chain has taken in the turn before.
As long as every watcher starts from what is stored, that version is the stored one. -/
theorem broadcast_precedes_storage (run : Run c (later ++ x :: past) i)
    (inserted : x.stride = .move (.insert id first policy sender (.ok ())))
    (valid : policy.validate = .ok ()) (kept : ∀ y ∈ later ++ x :: past, ¬ y.Rewrites id) :
    i.service.Backed c id first (moves (later ++ x :: past)) ∧
    ∀ after y before outcome r ok, later = after ++ y :: before →
      y.stride = .move (.stored id outcome) → .wrote r ok ∈ y.events →
        ∃ old copy, y.before.service.store.get? id = some old ∧
          r = { old with status := r.status, latestTx := r.latestTx } ∧
          copy.Overwrites c r (turnsOf id (moves (before ++ x :: past))) ∧
          (∃ z ∈ before ++ x :: past, z.after.service.store.get? id = some copy) ∧
          ((∀ z ∈ before ++ x :: past, ¬ z.StartsStale id) → copy = old) := by
  constructor
  · obtain ⟨⟨r, stored, frame, backed⟩, -⟩ := run.descends inserted valid kept
    refine ⟨r, stored, backed.imp_right ?_⟩
    rintro ⟨tx, turns, earlier, accepted, encoded⟩
    rw [frame]
    exact ⟨tx, turns, earlier, accepted, encoded⟩
  · rintro after y before outcome r ok rfl hs wrote
    rw [List.append_assoc, List.cons_append] at run kept
    obtain ⟨upto, -, -⟩ := Run.cons_iff.mp run.of_append
    have kept' : ∀ z ∈ before ++ x :: past, ¬ z.Rewrites id := fun z hz => kept z (by simp [hz])
    obtain ⟨⟨old, stored, framed, -⟩, copies⟩ := upto.descends inserted valid kept'
    obtain ⟨w, hw, rfl, _, writing⟩ := run.of_append.chronicle.effect.writing_of_wrote
      (congrArg Stride.asMove hs) wrote
    have update := upto.chronicle.overwrites hw writing
    obtain ⟨_, seen, copied⟩ := upto.chronicle.copy_seen w hw
    obtain ⟨z, hz, rfl⟩ := List.mem_map.mp seen
    refine ⟨old, w.record, stored, ?_, update, ⟨z, hz, copied⟩, ?_⟩
    · have frame := update.frame
      rw [(copies w hw rfl).frame] at frame
      rw [framed]
      exact frame
    · intro current
      have copy := upto.chronicle.copy_stored (upto.calm kept' current) w hw rfl
      exact Option.some.inj (copy.symm.trans stored)

end Runs

namespace Sample

open Interleaving

def raised : Record := priced roomy 80

/-- One price increase comes before the first status check, and the deadline soon after it. -/
def rushed : Policy :=
  { roomy with timeout := .ofMillis 35000, checkInterval := .ofMillis 17000,
               increaseInterval := .ofMillis 9000 }

/-- The sample as it was handed over, marked as failed. -/
def reverted : Record := (Record.initial "a" tx .zero rushed ⟨0⟩).withStatus .failed

/-- A poll reads the record while its new price is on its way. Its watcher has this price stored and
leaves, the record that was read before is offered, and the new watcher runs out of time. -/
def undoing : List Stride :=
  [handed rushed, .move .startPoller, .move (.advance (.ofMillis 10000)), .read 0, .offer 0,
   .move (.advance (.ofMillis 19000)), .move (.wake "a"), .move (.advance (.ofMillis 20000)),
   .read 0, .move (.answer "a" mined), .move (.stored "a" (.ok ())),
   .move (.advance (.ofMillis 27000)), .move (.wake "a"), .move (.answer "a" broken), .offer 0,
   .move (.advance (.ofMillis 30000)), .read 0, .offer 0, .move (.advance (.ofMillis 35000)),
   .move (.wake "a"), .move (.stored "a" (.ok ()))]

end Sample

open Interleaving in
/-- A watcher that starts from an older version marks the record as failed and puts the transaction of
that version in the place of the one that was broadcast last. -/
theorem undoing_sample_loses_its_broadcast : ∃ y rest x i,
    Run Sample.setup (y :: rest ++ [x]) i ∧ x.stride = Sample.handed Sample.rushed ∧
    Sample.rushed.validate = .ok () ∧ (∀ z ∈ y :: rest ++ [x], ¬ z.Rewrites "a") ∧
    y.stride = .move (.stored "a" (.ok ())) ∧ ∃ old r : Record,
      y.before.service.store.get? "a" = some old ∧ .wrote r true ∈ y.events ∧
      r.status = .failed ∧ old.latest = .ok (Sample.bumped 80) ∧ r.latest = .ok Sample.tx := by
  obtain ⟨later, x, i, run, handed, strides, kept, passed⟩ := Sample.handed_of_replay Sample.rushed
    (Sample.undoing.drop 1) (fun later => later.head?.any fun y =>
      .wrote Sample.reverted true ∈ y.events &&
        y.before.service.store.get? "a" = some (Sample.priced Sample.rushed 80))
    (by decide +kernel)
  obtain ⟨y, hy, tested⟩ := (Option.any_eq_true ..).mp passed
  obtain ⟨rest, rfl⟩ := List.head?_eq_some_iff.mp hy
  simp only [Bool.and_eq_true, decide_eq_true_eq] at tested
  obtain ⟨wrote, stored⟩ := tested
  have hs : y.stride = .move (.stored "a" (.ok ())) := (List.cons.inj strides).1
  exact ⟨y, rest, x, i, run, handed, by decide +kernel, kept, hs, _, _, stored, wrote, rfl,
    SignedTx.decode_encode ⟨by decide, by decide⟩, SignedTx.decode_encode ⟨by decide, by decide⟩⟩

open Interleaving in
/-- The new price is sent twice, as the first time it cannot be stored. -/
theorem retried_sample_is_backed : ∃ later y earlier x i,
    Run Sample.setup (later ++ y :: (earlier ++ [x])) i ∧
    x.stride = Sample.handed Sample.roomy ∧ (∀ z ∈ later ++ y :: (earlier ++ [x]), ¬ z.Rewrites "a") ∧
    y.stride = .move (.stored "a" (.ok ())) ∧ y.events = [.wrote Sample.raised true] ∧
    i.service.Backed Sample.setup "a" Sample.tx (moves (later ++ y :: (earlier ++ [x]))) ∧
    ∃ old, y.before.service.store.get? "a" = some old ∧
      old.Overwrites Sample.setup Sample.raised (turnsOf "a" (moves (earlier ++ [x]))) := by
  obtain ⟨all, x, i, run, handed, strides, kept, passed⟩ := Sample.handed_of_replay Sample.roomy
    (Sample.retrying.drop 1) (fun all => decide (∀ z ∈ all, ¬ z.StartsStale "a") &&
      (all.drop 2).head?.any fun y => y.events = [.wrote Sample.raised true]) (by decide +kernel)
  obtain ⟨current, wrote⟩ := (Bool.and_eq_true ..).mp passed
  obtain ⟨y, hy, wrote⟩ := (Option.any_eq_true ..).mp wrote
  obtain ⟨earlier, split⟩ := List.head?_eq_some_iff.mp hy
  have wrote := of_decide_eq_true wrote
  have whole : all = all.take 2 ++ y :: earlier := by rw [← split, List.take_append_drop]
  have hs : y.stride = .move (.stored "a" (.ok ())) := by
    have second := congrArg (fun l => (l.drop 2).head?) strides
    rw [← List.map_drop, split] at second
    exact Option.some.inj second
  obtain ⟨backed, writes⟩ := broadcast_precedes_storage run handed (by decide +kernel) kept
  obtain ⟨old, copy, stored, -, update, -, same⟩ := writes _ y earlier (.ok ()) Sample.raised true
    whole hs (by simp [wrote])
  have copied := same (Sample.current_of_handed handed fun z hz =>
    of_decide_eq_true current z (whole ▸ List.mem_append_right _ (List.mem_cons_of_mem y hz)))
  have glued : all ++ [x] = all.take 2 ++ y :: (earlier ++ [x]) := by
    rw [← List.cons_append, ← List.append_assoc, ← whole]
  rw [glued] at run kept backed
  exact ⟨all.take 2, y, earlier, x, i, run, handed, kept, hs, wrote, backed, old, stored,
    copied ▸ update⟩

end GasEscalator
