import GasEscalator.Proofs.Strides

/-!
# Records that are offered late

Between the reading of a record and its offer a watcher may store the record and leave. The mark
that kept others away is then gone, and the offer starts a watcher from a record that is out of
date. It happens in no other way: a watcher that is still there keeps its mark, and as long as every
watcher starts from what is stored, all of them work on what is stored.
-/
namespace GasEscalator

namespace Interleaving

section Steps

variable {c : Setup} {x : Step} {past : List Step} {i : Interleaving} {id : String}

/-- What is stored under an id changes only by a write of the record's watcher, as long as nobody
outside rewrites it. -/
theorem Run.get?_cases (run : Run c (x :: past) i) (kept : ¬ x.Rewrites id)
    (known : (x.before.service.store.get? id).isSome = true) :
    (x.after.service.store.get? id).isSome = true ∧
      (x.after.service.store.get? id = x.before.service.store.get? id ∨ x.Overtakes id) := by
  rcases run.chronicle.effect.get?_cases run.chronicle.before.sound id with
    same | ⟨r, stored, introduced | ⟨_, learned⟩⟩
  · have same : x.after.service.store.get? id = x.before.service.store.get? id := same
    exact ⟨by rw [same, known], .inl same⟩
  · exact absurd (Step.rewrites_iff.mp ⟨introduced, known⟩) kept
  · have stored : x.after.service.store.get? id = some r := stored
    exact ⟨by rw [stored]; rfl, .inr (Step.stride_eq_move learned.1 nofun)⟩

/-- Where a record comes from that is still to be offered: it was read open, and it is still stored
unless a watcher has overtaken it. -/
structure Pending (past : List Step) (i : Interleaving) (poller : Nat) (r : Record)
    (between : List Step) (y : Step) (earlier : List Step) : Prop where
  split : past = between ++ y :: earlier
  read : y.stride = .read poller
  last : ∀ z ∈ between, z.stride ≠ .read poller
  stored : y.before.service.store.get? r.id = some r
  known : (i.service.store.get? r.id).isSome = true
  current : i.service.store.get? r.id = some r ∨ ∃ z ∈ between, z.Overtakes r.id

theorem Pending.after {r : Record} {poller : Nat} {between earlier : List Step} {y : Step}
    (pending : Pending past x.before poller r between y earlier) (run : Run c (x :: past) i)
    (kept : ¬ x.Rewrites r.id) (other : x.stride ≠ .read poller) :
    Pending (x :: past) x.after poller r (x :: between) y earlier := by
  obtain ⟨known, changed⟩ := run.get?_cases kept pending.known
  refine ⟨congrArg (x :: ·) pending.split, pending.read, ?_, pending.stored, known, ?_⟩
  · intro z hz
    rcases List.mem_cons.mp hz with rfl | hz
    · exact other
    · exact pending.last z hz
  · rcases changed with same | overtakes
    · rcases pending.current with current | ⟨z, hz, overtakes⟩
      · exact .inl (same.trans current)
      · exact .inr ⟨z, List.mem_cons_of_mem x hz, overtakes⟩
    · exact .inr ⟨x, List.mem_cons_self, overtakes⟩

theorem Run.pending (run : Run c past i) {poller : Nat} {r : Record}
    (kept : ∀ x ∈ past, ¬ x.Rewrites r.id) (mem : r ∈ i.unoffered poller) :
    ∃ between y earlier, Pending past i poller r between y earlier := by
  induction past generalizing i with
  | nil =>
    cases run with
    | start => cases mem
  | cons x past ih =>
    obtain ⟨before, taken, rfl⟩ := cons_iff.mp run
    have ih := ih before fun z hz => kept z (List.mem_cons_of_mem x hz)
    rcases taken.outcome.of_mem_unoffered mem with ⟨was, other⟩ | ⟨read, stored, -, store⟩
    · obtain ⟨between, y, earlier, pending⟩ := ih was
      exact ⟨x :: between, y, earlier, pending.after run (kept x List.mem_cons_self) other⟩
    · have stored' : x.after.service.store.get? r.id = some r := by rw [store, stored]
      exact ⟨[], x, past, rfl, read, nofun, stored, by rw [stored']; rfl, .inl stored'⟩

end Steps

/-! ## Polls without interruption -/

section Uninterrupted

variable {c : Setup} {past : List Step} {s : Service}

/-- Offers that follow one another lead where a whole poll leads. -/
theorem Run.offerAll {unoffered : Nat → List Record} {poller : Nat} {records : List Record}
    (run : Run c past ⟨s, Function.update unoffered poller records⟩) :
    ∃ steps, Run c (steps ++ past) ⟨(s.offerAll c records).1, Function.update unoffered poller []⟩ ∧
      steps.reverse.flatMap (·.events) = (s.offerAll c records).2 := by
  induction records generalizing s past with
  | nil => exact ⟨[], run, rfl⟩
  | cons r rest ih =>
    have next : Function.update unoffered poller (r :: rest) poller = r :: rest :=
      Function.update_self ..
    have taken : apply ⟨s, Function.update unoffered poller (r :: rest)⟩ c (.offer poller) =
        some (⟨(s.offer c r).1, Function.update unoffered poller rest⟩, (s.offer c r).2) := by
      simp only [apply, next, Function.update_idem]
    obtain ⟨steps, run', events⟩ := ih (run.step taken)
    rw [List.append_cons] at run'
    refine ⟨_, run', ?_⟩
    rw [Service.offerAll_cons, List.reverse_append, List.flatMap_append, events,
      List.reverse_singleton, List.flatMap_singleton]

theorem freePollers_ofService (s : Service) : (ofService s).freePollers = s.pollers := by
  have all : (s.pollers.zipIdx.filter fun p => (ofService s).isFree p.2) = s.pollers.zipIdx :=
    List.filter_eq_self.mpr fun _ _ => rfl
  show (s.pollers.zipIdx.filter fun p => (ofService s).isFree p.2).map (·.1) = s.pollers
  rw [all, List.zipIdx_map_fst]

/-- While no poll is under way, a move of the service is a stride, unless it is an answered poll. -/
theorem apply_ofService {m : Move} (unpolled : ∀ poller, m ≠ .poll poller (.ok ())) :
    (ofService s).apply c (.move m) =
      (s.apply c m).map fun next => (ofService next.1, next.2) := by
  cases m with
  | poll poller outcome =>
    cases outcome with
    | ok done => exact absurd rfl (unpolled poller)
    | error e => rfl
  | advance target =>
    have same : ({ (ofService s).service with pollers := (ofService s).freePollers } : Service) =
        s := by
      rw [freePollers_ofService]
      rfl
    simp only [apply, same, Service.apply]
    split <;> rfl
  | _ => rfl

/-- A move of the service is a stride, or the strides of a poll that nothing comes between. -/
theorem Run.of_made {x : Transition} (run : Run c past (ofService x.before)) (made : x.Made c) :
    ∃ steps, Run c (steps ++ past) (ofService x.after) ∧
      steps.reverse.flatMap (·.events) = x.events := by
  unfold Transition.Made at made
  by_cases answered : ∃ poller, x.move = .poll poller (.ok ())
  · obtain ⟨poller, hm⟩ := answered
    rw [hm] at made
    obtain ⟨t, tick, ends⟩ := Option.bind_eq_some_iff.mp made
    obtain ⟨after, events⟩ := Prod.mk.inj (Option.some.inj ends)
    have taken : (ofService x.before).apply c (.read poller) =
        some (⟨t, Function.update (fun _ => []) poller
          ((c.readable t.store).filter fun r => !r.status.isTerminal)⟩,
          [.polled (some ((c.readable t.store).map (·.id)))]) := by
      have tick' : (ofService x.before).service.takeTick poller = some t := tick
      have free : (ofService x.before).isFree poller = true := rfl
      rw [apply, if_pos free, tick']
      rfl
    obtain ⟨steps, run', told⟩ := (run.step taken).offerAll
    have free : Function.update (fun _ => []) poller [] = fun _ => ([] : List Record) :=
      Function.update_eq_self poller (fun _ => [])
    rw [free, List.append_cons] at run'
    refine ⟨_, after ▸ run', ?_⟩
    rw [List.reverse_append, List.flatMap_append, told, ← events]
    rfl
  · have taken := apply_ofService (c := c) (s := x.before) fun poller h => answered ⟨poller, h⟩
    rw [made] at taken
    exact ⟨[_], run.step taken, List.flatMap_singleton ..⟩

end Uninterrupted

/-- Every history of the service is a run in which nothing comes between the reading and the offers
of a poll. -/
theorem exists_run {c : Setup} {past : List Transition} {s : Service} (run : History c past s) :
    ∃ steps, Run c steps (ofService s) ∧
      steps.reverse.flatMap (·.events) = past.reverse.flatMap (·.events) := by
  induction run with
  | start now => exact ⟨[], .start now, rfl⟩
  | @step past s s' m events _ made ih =>
    obtain ⟨steps, run, told⟩ := ih
    obtain ⟨more, run', told'⟩ := run.of_made (x := ⟨s, m, s', events⟩) made
    refine ⟨more ++ steps, run', ?_⟩
    rw [List.reverse_append, List.flatMap_append, told, told', List.reverse_cons,
      List.flatMap_append, List.flatMap_singleton]

end Interleaving

open Interleaving in
/-- **A watcher starts from what is stored unless another watcher has come in between.** As long as
nobody outside rewrites it, a record that gets a watcher was stored and open when its poller read it
last, is not watched when it is offered, and still is what is stored, unless between the two a
watcher had it stored, which has left since. Where no watcher of a record starts late, each works on
the stored record, and this is open. -/
theorem starts_are_current_unless_overtaken {c : Setup} {past : List Step} {i : Interleaving}
    {id : String} (run : Run c past i) (kept : ∀ x ∈ past, ¬ x.Rewrites id) :
    (∀ later x earlier poller r, past = later ++ x :: earlier → x.Starts poller r → r.id = id →
      r.status.isTerminal = false ∧ (∀ w ∈ x.before.service.watchers, w.id ≠ id) ∧
      ∃ between y first, earlier = between ++ y :: first ∧ y.stride = .read poller ∧
        (∀ z ∈ between, z.stride ≠ .read poller) ∧
        y.before.service.store.get? id = some r ∧
        (x.before.service.store.get? id = some r ∨ ∃ z ∈ between, z.Overtakes id)) ∧
    ((∀ x ∈ past, ¬ x.StartsStale id) → ∀ w ∈ i.service.watchers, w.id = id →
      i.service.store.get? id = some w.record ∧ w.record.status.isTerminal = false) := by
  constructor
  · rintro later x earlier poller r rfl starts rfl
    obtain ⟨before, -, -⟩ := Run.cons_iff.mp run.of_append
    obtain ⟨rest, next⟩ := starts.next
    have mem : r ∈ x.before.unoffered poller := by
      rw [next]
      exact List.mem_cons_self
    obtain ⟨between, y, first, pending⟩ := before.pending (fun z hz => kept z (by simp [hz])) mem
    exact ⟨(before.offered_seen mem).1, run.of_append.unwatched_of_starts starts, between, y, first,
      pending.split, pending.read, pending.last, pending.stored, pending.current⟩
  · intro current w hw hid
    exact ⟨run.chronicle.copy_stored (run.calm kept current) w hw hid,
      run.chronicle.unsettled w hw⟩

/-! ## A late offer -/

namespace Sample

open Interleaving

/-- A status check in the twentieth second and the deadline five seconds later. -/
def hasty : Record := timed 25000 9000 30000

/-- The status check is under way when the record is read again. Its watcher has the success stored
and leaves, and the record that was read before is offered. -/
def overtaking : List Stride :=
  [.move (.place hasty), .move .startPoller, .move (.advance (.ofMillis 10000)), .read 0, .offer 0,
   .move (.advance (.ofMillis 19000)), .move (.wake "a"), .move (.advance (.ofMillis 20000)),
   .read 0, .move (.answer "a" mined), .move (.answer "a" mined), .move (.stored "a" (.ok ())),
   .offer 0, .move (.advance (.ofMillis 25000)), .move (.wake "a"), .move (.stored "a" (.ok ()))]

def overtakingTest : List Step → Bool
  | y :: v :: u :: x :: past =>
    .wrote (hasty.withStatus .failed) true ∈ y.events &&
      y.before.service.store.get? "a" = some (hasty.withStatus .succeeded) &&
      .started "a" ∈ x.events && x.before.unoffered 0 = [hasty] &&
      x.before.service.store.get? "a" = some (hasty.withStatus .succeeded) &&
      decide (∀ z ∈ y :: v :: u :: x :: past, ¬ z.Rewrites "a")
  | _ => false

theorem overtaking_run : ∃ y between x past i, Run setup (y :: (between ++ x :: past)) i ∧
    (∀ z ∈ y :: (between ++ x :: past), ¬ z.Rewrites "a") ∧ x.Starts 0 hasty ∧
    x.before.service.store.get? "a" = some (hasty.withStatus .succeeded) ∧
    y.before.service.store.get? "a" = some (hasty.withStatus .succeeded) ∧
    .wrote (hasty.withStatus .failed) true ∈ y.events := by
  have passed : (Interleaving.replay setup overtaking [] (.ofService (.initial ⟨0⟩))).any
      (fun p => overtakingTest p.1) = true := by decide +kernel
  obtain ⟨⟨all, i⟩, taken, passed⟩ := (Option.any_eq_true ..).mp passed
  obtain ⟨run, strides⟩ := Run.of_replay (.start ⟨0⟩) taken
  unfold overtakingTest at passed
  split at passed
  case h_2 => cases passed
  case h_1 y v u x past equal =>
    dsimp only at equal
    subst equal
    simp only [Bool.and_eq_true, decide_eq_true_eq] at passed
    obtain ⟨⟨⟨⟨⟨wrote, reopened⟩, started⟩, next⟩, stale⟩, kept⟩ := passed
    obtain ⟨-, -, -, offers, -⟩ : y.stride = .move (.stored "a" (.ok ())) ∧
        v.stride = .move (.wake "a") ∧ u.stride = .move (.advance (.ofMillis 25000)) ∧
        x.stride = .offer 0 ∧ _ := by simpa [overtaking] using strides
    exact ⟨y, [v, u], x, past, i, run, kept, ⟨offers, ⟨[], next⟩, started⟩, stale, reopened, wrote⟩

end Sample

/-- The offer of a record starts a watcher after another has stored the record's success, and the
new one puts a failure in its place. -/
theorem overtaken_sample_is_reopened : ∃ y between x past i,
    Interleaving.Run Sample.setup (y :: (between ++ x :: past)) i ∧
    (∀ z ∈ y :: (between ++ x :: past), ¬ z.Rewrites "a") ∧ x.StartsStale "a" ∧
    y.before.service.store.get? "a" = some (Sample.hasty.withStatus .succeeded) ∧
    .wrote (Sample.hasty.withStatus .failed) true ∈ y.events := by
  obtain ⟨y, between, x, past, i, run, kept, starts, stale, reopened, wrote⟩ :=
    Sample.overtaking_run
  refine ⟨y, between, x, past, i, run, kept, ⟨0, Sample.hasty, starts, rfl, ?_⟩, reopened, wrote⟩
  rw [stale]
  decide

theorem overtaken_sample_starts_late : ∃ past i, Interleaving.Run Sample.setup past i ∧
    (∀ x ∈ past, ¬ x.Rewrites "a") ∧
    ∃ later x earlier, past = later ++ x :: earlier ∧ x.Starts 0 Sample.hasty ∧
      Sample.hasty.status.isTerminal = false ∧
      (∀ w ∈ x.before.service.watchers, w.id ≠ "a") ∧
      ∃ between y first, earlier = between ++ y :: first ∧ y.stride = .read 0 ∧
        (∀ z ∈ between, z.stride ≠ .read 0) ∧
        y.before.service.store.get? "a" = some Sample.hasty ∧
        (x.before.service.store.get? "a" = some Sample.hasty ∨ ∃ z ∈ between, z.Overtakes "a") := by
  obtain ⟨y, between, x, past, i, run, kept, starts, -⟩ := Sample.overtaking_run
  have late := (starts_are_current_unless_overtaken run kept).1 (y :: between) x past 0
    Sample.hasty rfl starts rfl
  exact ⟨_, i, run, kept, y :: between, x, past, rfl, starts, late⟩

end GasEscalator
