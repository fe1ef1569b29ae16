import GasEscalator.Proofs.ChainView
import GasEscalator.Proofs.Finality

/-!
# Success that is found and lost

Only the store remembers what a status check has found. Once a check has found a transaction mined
and carried out, its watcher does nothing but have the success stored. If that works, the record is
settled. If the store refuses it or the watcher is brought down, nobody knows of the success any
more, and the record stands under the same rules as before: from its deadline on it is marked as
failed, and on grounds that a later tick comes upon. All this as long as no watcher starts from a
record that was read before the success was stored.
-/
namespace GasEscalator

/-- A status check ends with the news that the transaction was mined and carried out. -/
def Transition.FindsSuccess (c : Setup) (x : Transition) (id : String) : Prop :=
  ∃ hash receipt, x.Hears c id (.receipt hash) (.ok receipt) ∧
    receipt.status = Receipt.successful

/-- The success of a record gets lost on its way to the store. -/
inductive Transition.LosesSuccess (z : Transition) (id : String) : Prop
  | refused {r : Record} {e : StorageError} (learned : z.Learns id r .finish (.error e))
      (succeeded : r.status = .succeeded)
  | crashed (hm : z.move = .crash id)

/-- What has become of a record since its success was found, over later moves. -/
inductive Standing (c : Setup) (id : String) (later : List Transition) (s : Service) : Prop
  | pending {w : Watcher} {r : Record} (idle : ∀ v ∈ later, v.move.actor ≠ some id)
      (hw : s.watcher? id = some w) (writing : w.phase = .writing r .finish)
      (succeeded : r.status = .succeeded)
  | settled (settled : s.Settled id)
  | lost {after before : List Transition} {z : Transition} (split : later = after ++ z :: before)
      (idle : ∀ v ∈ before, v.move.actor ≠ some id) (loses : z.LosesSuccess id)
      (accounted : ∀ w ∈ s.watchers, w.id = id → w.Accounted c s.now (tick id after))

section Standings

variable {c : Setup} {x : Transition} {past later : List Transition} {s : Service} {id : String}

/-- Who has found success asks the store to take it. -/
theorem Chronicle.pending_of_success (run : Chronicle c (x :: past) s)
    (found : x.FindsSuccess c id) : Standing c id [] x.after := by
  obtain ⟨hash, receipt, heard, successful⟩ := found
  obtain ⟨w, hw⟩ := heard.exists_watcher
  have made := run.made heard.actor
  obtain rfl := Watcher.id_of_watcher? hw
  have asks : x.after.watcher? w.id =
      some { w with phase := .writing (w.record.withStatus .succeeded) .finish } := by
    rw [heard.after hw made, Watcher.resume, Watcher.judge, if_pos successful]
    refine (Service.watcher?_replace ..).trans ?_
    rw [hw]
    exact if_pos rfl
  exact .pending (List.forall_mem_nil _) asks rfl rfl

/-- A write that the store refuses leaves its watcher gone, or with the deadline behind it. -/
theorem Transition.Learns.accounted_of_refused {w : Watcher} {r : Record} {e : StorageError}
    (learned : x.Learns w.id r .finish (.error e)) (hw : x.before.watcher? w.id = some w)
    (sound : w.Sound c) (made : x.Made c) :
    ∀ v ∈ x.after.watchers, v.id = w.id → v.Accounted c x.after.now [] := by
  intro v hv hid
  have after := learned.after hw made
  rw [Watcher.stored, Watcher.bail] at after
  obtain ⟨marks, watchers, frame⟩ := Service.replace_frame (x.before.written r (.error e)) _
  have now : x.after.now = x.before.now := by rw [after, frame, Service.written]
  rw [after] at hv
  split at hv
  case isTrue late =>
    rcases Service.mem_replace hv with ⟨-, other⟩ | ⟨rfl, -⟩
    · exact absurd hid other
    · rw [now]
      exact .of_deadline sound.1 late
  case isFalse early =>
    rcases Service.mem_replace hv with ⟨-, other⟩ | ⟨rfl, live⟩
    · exact absurd hid other
    · exact absurd rfl live

/-- While the store is asked to take a success, its watcher can only learn what became of that or
be brought down. -/
theorem Standing.of_pending {w : Watcher} {r : Record} (run : Chronicle c (x :: past) s)
    (idle : ∀ v ∈ later, v.move.actor ≠ some id) (hw : x.before.watcher? id = some w)
    (writing : w.phase = .writing r .finish) (succeeded : r.status = .succeeded) :
    Standing c id (x :: later) x.after := by
  obtain rfl := Watcher.id_of_watcher? hw
  have sound := run.before.sound w (List.mem_of_find?_eq_some hw)
  cases run.effect.fate w.id with
  | same other kept =>
    refine .pending ?_ (kept.trans hw) writing succeeded
    intro v hv
    rcases List.mem_cons.mp hv with rfl | hv
    · exact other
    · exact idle v hv
  | started _ _ _ _ fresh => cases fresh.symm.trans hw
  | crashed hm after =>
    have split : x :: later = [] ++ x :: later := rfl
    refine .lost split idle (.crashed hm) ?_
    intro v hv hid
    have absent := List.find?_eq_none.mp after v hv
    simp [hid] at absent
  | turned hv hm turn _ =>
    obtain rfl := Option.some.inj (hw.symm.trans hv)
    obtain ⟨outcome, learned⟩ := turn.learns_of_writing hw writing
    have made := run.made hm
    cases outcome with
    | error e =>
      have split : x :: later = [] ++ x :: later := rfl
      exact .lost split idle (.refused learned succeeded)
        (learned.accounted_of_refused hw sound made)
    | ok done =>
      have wrote : .wrote r true ∈ x.events := learned.wrote made
      have settled := run.settled_of_wrote wrote (by rw [succeeded]; rfl)
      exact .settled (sound.id_of_writing writing ▸ settled)

theorem Standing.after (standing : Standing c id later x.before) (run : Chronicle c (x :: past) s)
    (calm : ¬ x.Disturbs id) : Standing c id (x :: later) x.after := by
  cases standing with
  | pending idle hw writing succeeded => exact .of_pending run idle hw writing succeeded
  | settled settled => exact .settled (settled.after run.effect run.before.sound calm)
  | @lost after before z split idle loses accounted =>
    have split' : x :: later = (x :: after) ++ z :: before := congrArg (x :: ·) split
    exact .lost split' idle loses (run.accounted_step accounted)

theorem Chronicle.standing (run : Chronicle c (later ++ x :: past) s)
    (found : x.FindsSuccess c id) (calm : ∀ y ∈ later, ¬ y.Disturbs id) :
    Standing c id later s := by
  induction later generalizing s with
  | nil =>
    obtain ⟨-, -, rfl⟩ := run.of_cons
    exact run.pending_of_success found
  | cons y later ih =>
    obtain ⟨before, -, rfl⟩ := run.of_cons
    have standing := ih before fun z hz => calm z (List.mem_cons_of_mem y hz)
    exact standing.after run (calm y List.mem_cons_self)

/-- What is stored as failed after its success was found rests on what came after the loss. -/
theorem Chronicle.success_lost {y : Transition} {r : Record} {ok : Bool}
    (run : Chronicle c (y :: (later ++ x :: past)) s) (found : x.FindsSuccess c r.id)
    (calm : ∀ z ∈ later, ¬ z.Disturbs r.id) (wrote : .wrote r ok ∈ y.events)
    (failed : r.status = .failed) :
    ∃ after z before, later = after ++ z :: before ∧ (∀ v ∈ before, v.move.actor ≠ some r.id) ∧
      z.LosesSuccess r.id ∧ Justified c y.before.now (tick r.id after) r := by
  have before := run.before
  obtain ⟨then_, outcome, -, w, hw, writing⟩ :=
    run.learns_of_wrote_final wrote (by rw [failed]; rfl)
  have mem := List.mem_of_find?_eq_some hw
  have hid := Watcher.id_of_watcher? hw
  cases before.standing found calm with
  | pending _ hv writing' succeeded =>
    obtain rfl := Option.some.inj (hw.symm.trans hv)
    obtain ⟨rfl, -⟩ := Phase.writing.inj (writing.symm.trans writing')
    cases failed.symm.trans succeeded
  | settled settled => exact absurd hid (settled.unwatched w mem)
  | @lost after earlier z split idle loses accounted =>
    have justified := (accounted w mem hid).justified (before.sound w mem) writing
    exact ⟨after, z, earlier, split, idle, loses, justified⟩

end Standings

section Runs

open Interleaving

variable {c : Setup} {past later : List Step} {x y : Step} {i : Interleaving} {r : Record} {ok : Bool}

/-- **A success that was found gives way to a failure only if it got lost.** When the record of a
successful check is marked as failed later on, and nobody outside has rewritten it and no watcher has
started from an older version since, then the first thing that its watcher met with after the check
was a store that refused the success, or it was brought down before it knew. What the failure rests
on is the deadline or grounds that a tick came upon after that. -/
theorem success_is_lost_before_failure (run : Run c (y :: (later ++ x :: past)) i)
    (found : x.asMove.FindsSuccess c r.id) (kept : ∀ z ∈ later, ¬ z.Rewrites r.id)
    (current : ∀ z ∈ later, ¬ z.StartsStale r.id) (wrote : .wrote r ok ∈ y.events)
    (failed : r.status = .failed) :
    ∃ after z before, later = after ++ z :: before ∧
      (∀ v ∈ before, v.asMove.move.actor ≠ some r.id) ∧ z.asMove.LosesSuccess r.id ∧
      Justified c y.before.service.now (tick r.id (moves after)) r := by
  obtain ⟨before, -, -⟩ := Run.cons_iff.mp run
  have chronicle := run.chronicle
  rw [moves, List.map_cons, List.map_append, List.map_cons] at chronicle
  obtain ⟨after', z', before', split, idle, loses, justified⟩ :=
    chronicle.success_lost found (before.calm_since kept current) wrote failed
  obtain ⟨after, rest, rfl, rfl, tail⟩ := List.map_eq_append_iff.mp split
  obtain ⟨z, earlier, rfl, rfl, rfl⟩ := List.map_eq_cons_iff.mp tail
  exact ⟨after, z, earlier, rfl, fun v hv => idle _ (List.mem_map_of_mem hv), loses, justified⟩

end Runs

/-! ## Ways to lose a success -/

/-- A record is stored as failed after a status check that ended with success, though nobody outside
has rewritten it since and every watcher has started from what was stored. -/
structure Reverses (c : Setup) (past later : List Interleaving.Step) (x y : Interleaving.Step)
    (r : Record) : Prop where
  run : Interleaving.Run c (y :: (later ++ x :: past)) y.after
  found : x.asMove.FindsSuccess c r.id
  kept : ∀ z ∈ later, ¬ z.Rewrites r.id
  current : ∀ z ∈ later, ¬ z.StartsStale r.id
  wrote : .wrote r true ∈ y.events
  failed : r.status = .failed

namespace Sample

open Interleaving

def full : Except StorageError Unit := .error ⟨"disk is full"⟩

/-- The store refuses the success, and the next watcher meets the deadline before its first check. -/
def forgotten : Record := timed 25000 9000 30000

def forgetting : List Stride × List Stride :=
  (watched forgotten ++
    [.move (.advance (.ofMillis 19000)), .move (.wake "a"), .move (.answer "a" mined)],
   [.move (.stored "a" full), .move (.advance (.ofMillis 20000)), .read 0, .offer 0,
    .move (.advance (.ofMillis 25000)), .move (.wake "a"), .move (.stored "a" (.ok ()))])

/-- The store refuses the success, and the next watcher meets the ceiling of the price before its
first check and long before the deadline. -/
def capped : Record := timed 60000 9000 8000

def capping : List Stride × List Stride :=
  (watched capped ++
    [.move (.advance (.ofMillis 18000)), .move (.wake "a"), .move (.answer "a" mined),
     .move (.stored "a" (.ok ())), .move (.advance (.ofMillis 19000)), .move (.wake "a"),
     .move (.answer "a" mined)],
   [.move (.stored "a" full), .move (.advance (.ofMillis 20000)), .read 0, .offer 0,
    .move (.advance (.ofMillis 28000)), .move (.wake "a"), .move (.stored "a" (.ok ()))])

/-- The store refuses the success after the deadline, and the same watcher marks its record as
failed. -/
def slow : Record := timed 25000 10000 30000

def slowing : List Stride × List Stride :=
  (watched slow ++
    [.move (.advance (.ofMillis 20000)), .read 0, .offer 0, .move (.wake "a"),
     .move (.advance (.ofMillis 26000)), .move (.answer "a" mined)],
   [.move (.stored "a" full), .move (.stored "a" (.ok ()))])

def reverses (r : Record) (later : List Step) (x : Step) : Bool :=
  match later with
  | [] => false
  | y :: later =>
    .wrote r true ∈ y.events &&
      later.all (fun z => !(z.Rewrites "a") && !(z.StartsStale "a")) &&
      (x.before.service.watcher? "a").any fun w => match w.phase with
        | .calling _ (.receipt _) => true
        | _ => false

theorem reverses_of_replay (strides : List Stride × List Stride) (r : Record) (hid : r.id = "a")
    (failed : r.status = .failed)
    (passed : (Interleaving.replay setup (strides.1 ++ .move (.answer "a" mined) :: strides.2) []
      (.ofService (.initial ⟨0⟩))).any
        (fun p => splitTest strides.2.length (fun later x _ => reverses r later x) p.1) = true) :
    ∃ past later x y, Reverses setup past later x y r := by
  obtain ⟨later, x, past, i, run, -, hs, -, passed⟩ := Run.exists_split_of_replay _ _ _ _
    (fun later x _ => reverses r later x) passed
  unfold reverses at passed
  split at passed
  case h_1 => cases passed
  case h_2 y later =>
    simp only [Bool.and_eq_true, decide_eq_true_eq, List.all_eq_true, Bool.not_eq_true',
      decide_eq_false_iff_not] at passed
    obtain ⟨⟨wrote, tested⟩, asked⟩ := passed
    obtain ⟨w, hw, asked⟩ := (Option.any_eq_true ..).mp asked
    split at asked
    case h_2 => cases asked
    case h_1 since hash calling =>
      have hm : x.asMove.move = .answer "a" mined := congrArg Stride.asMove hs
      have heard : x.asMove.Hears setup "a" (.receipt hash) (.ok ⟨hash, Receipt.successful⟩) :=
        .answer hm hw calling
      exact ⟨past, later, x, y,
        { run := (Run.cons_iff.mp run).2.2 ▸ run
          found := ⟨hash, _, hid ▸ heard, rfl⟩
          kept := fun z hz => hid ▸ (tested z hz).1
          current := fun z hz => hid ▸ (tested z hz).2
          wrote, failed }⟩

end Sample

/-- The success of a record is lost and its failure stored, by a later watcher at the deadline, by
a later watcher before it, and by the watcher that found the success. -/
theorem found_success_is_reversed :
    (∃ past later x y, Reverses Sample.setup past later x y
      (Sample.forgotten.withStatus .failed)) ∧
    (∃ past later x y, Reverses Sample.setup past later x y
      ((Sample.capped.withLatest (Sample.bumped 80)).withStatus .failed)) ∧
    ∃ past later x y, Reverses Sample.setup past later x y (Sample.slow.withStatus .failed) :=
  ⟨Sample.reverses_of_replay Sample.forgetting _ rfl rfl (by decide +kernel),
    Sample.reverses_of_replay Sample.capping _ rfl rfl (by decide +kernel),
    Sample.reverses_of_replay Sample.slowing _ rfl rfl (by decide +kernel)⟩

theorem forgotten_sample_lost_its_success : ∃ past later x y,
    Reverses Sample.setup past later x y (Sample.forgotten.withStatus .failed) ∧
      ∃ after z before, later = after ++ z :: before ∧
        (∀ v ∈ before, v.asMove.move.actor ≠ some "a") ∧ z.asMove.LosesSuccess "a" ∧
        Justified Sample.setup y.before.service.now (tick "a" (Interleaving.moves after))
          (Sample.forgotten.withStatus .failed) := by
  obtain ⟨past, later, x, y, sample⟩ :=
    Sample.reverses_of_replay Sample.forgetting (Sample.forgotten.withStatus .failed) rfl rfl
      (by decide +kernel)
  exact ⟨past, later, x, y, sample, success_is_lost_before_failure sample.run sample.found
    sample.kept sample.current sample.wrote sample.failed⟩

end GasEscalator
