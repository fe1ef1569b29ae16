import GasEscalator.Proofs.Clock
import GasEscalator.Proofs.Outlook

/-!
# Records do not interfere

Two histories of the same service in which one record has the same surroundings do the same for the
record at the same times, whatever other records there are and whatever becomes of them. Other moves
leave the record's outlook alone, so that its outlook follows from the moves that concern it. Which
of these is next follows from the outlook and the surroundings, and no history lets the instant of
it pass; so neither history can be ahead of the other.
-/
namespace GasEscalator

/-- The moves of a history that concern a record, with their times, the latest first. -/
def seen (id : String) (past : List Transition) : List (Moment × Move) :=
  past.filterMap fun x => if x.move.concerns id then some (x.before.now, x.move) else none

/-- What happens in a history that is about a record, with its times, the earliest first. -/
def trace (id : String) : List Transition → List (Moment × Event)
  | [] => []
  | x :: past => trace id past ++ (x.events.filter (·.isAbout id)).map fun e => (x.before.now, e)

/-- When a history began. -/
def began (past : List Transition) (s : Service) : Moment :=
  past.getLast?.elim s.now fun x => x.before.now

namespace Surroundings

/-- A move that concerns the record is the one that is to be made, and the clock passes no instant
at which one is. Instants are the present and the whole milliseconds. -/
structure CallsFor (e : Surroundings) (c : Setup) (id : String) (past : List Transition)
    (x : Transition) : Prop where
  next : x.move.concerns id = true → e.next c id (seen id past) x.before = some x.move
  quiet : ∀ target t, x.move = .advance target → x.before.now ≤ t → t < target →
    t = x.before.now ∨ t = t.ceilMilli →
      e.next c id (seen id past) { x.before with now := t } = none

/-- A history is made in the surroundings: every move of it is called for, as far as the record
goes. Moves that do not concern the record are free. -/
def Leads (e : Surroundings) (c : Setup) (id : String) : List Transition → Prop
  | [] => True
  | x :: past => e.CallsFor c id past x ∧ e.Leads c id past

theorem Leads.of_append {e : Surroundings} {c : Setup} {id : String} {past : List Transition} :
    ∀ {later : List Transition}, e.Leads c id (later ++ past) → e.Leads c id past
  | [], led => led
  | _ :: _, led => Leads.of_append led.2

end Surroundings

section Times

variable {c : Setup} {past later : List Transition} {x : Transition} {s : Service}

theorem began_cons (x : Transition) (past : List Transition) (s : Service) :
    began (x :: past) s = began past x.before := by
  cases past with
  | nil => rfl
  | cons y past =>
    unfold began
    rw [List.getLast?_cons_cons]
    rfl

theorem began_append (later : List Transition) (x : Transition) (past : List Transition)
    (s : Service) : began (later ++ x :: past) s = began past x.before := by
  induction later generalizing s with
  | nil => exact began_cons x past s
  | cons y later ih => rw [List.cons_append, began_cons, ih]

namespace History

theorem began_le (run : History c past s) : began past s ≤ s.now := by
  induction run with
  | start now => exact Nat.le_refl _
  | step before made ih =>
    rw [began_cons]
    exact Nat.le_trans ih (before.step made).effect.now_le

/-- The clock shows the beginning or a whole millisecond. -/
theorem instant (run : History c past s) : s.now = began past s ∨ s.now = s.now.ceilMilli := by
  induction run with
  | start now => exact .inl rfl
  | step before made ih =>
    rw [began_cons]
    rcases (before.step made).effect.now_cases with same | ⟨target, -, may, after⟩
    · rw [same]
      exact ih
    · obtain rfl := congrArg Service.now after
      exact .inr may.whole

end History

end Times

/-! ## What was seen tells the outlook -/

section Seen

variable {c : Setup} {past past' later rest : List Transition} {x : Transition} {s s' : Service}
  {id : String}

theorem seen_cons_of_concerns (concerns : x.move.concerns id = true) :
    seen id (x :: past) = (x.before.now, x.move) :: seen id past := by
  rw [seen, List.filterMap_cons, if_pos concerns]
  rfl

theorem seen_cons_of_unconcerned (other : x.move.concerns id = false) :
    seen id (x :: past) = seen id past := by
  rw [seen, List.filterMap_cons, if_neg (by simp [other])]
  rfl

/-- A history is split at a move that was seen. -/
theorem exists_of_seen {before after : List (Moment × Move)} {t : Moment} {m : Move}
    (h : seen id past = after ++ (t, m) :: before) :
    ∃ later x earlier, past = later ++ x :: earlier ∧ seen id later = after ∧ x.before.now = t ∧
      x.move = m ∧ m.concerns id = true ∧ seen id earlier = before := by
  obtain ⟨later, rest, rfl, hlater, hrest⟩ := List.filterMap_eq_append_iff.mp h
  obtain ⟨skipped, x, earlier, rfl, unseen, hx, hearlier⟩ := List.filterMap_eq_cons_iff.mp hrest
  have nothing : seen id skipped = [] := List.filterMap_eq_nil_iff.mpr unseen
  split at hx
  case isFalse => cases hx
  case isTrue concerns =>
    obtain ⟨rfl, rfl⟩ := Prod.mk.inj (Option.some.inj hx)
    refine ⟨later ++ skipped, x, earlier, (List.append_assoc ..).symm, ?_, rfl, rfl, concerns,
      hearlier⟩
    rw [seen, List.filterMap_append, hlater, ← seen, nothing, List.append_nil]

/-- Moves that do not concern a record change nothing about it. -/
theorem History.outlook_of_unseen (run : History c (later ++ rest) s)
    (unseen : seen id later = []) :
    ∃ t, History c rest t ∧ s.outlook id = t.outlook id ∧
      trace id (later ++ rest) = trace id rest := by
  induction later generalizing s with
  | nil => exact ⟨s, run, rfl, rfl⟩
  | cons y later ih =>
    obtain ⟨before, made, rfl⟩ := cons_iff.mp run
    have other : y.move.concerns id = false := by
      by_contra concerns
      rw [seen_cons_of_concerns (by simpa using concerns)] at unseen
      cases unseen
    rw [seen_cons_of_unconcerned other] at unseen
    obtain ⟨t, run', outlook, told⟩ := ih before unseen
    obtain ⟨kept, silent⟩ := run.effect.outlook_of_unconcerned before.sound other
    refine ⟨t, run', kept.trans outlook, ?_⟩
    rw [List.cons_append, trace, silent, told]
    exact List.append_nil _

/-- **The moves that concern a record, with their times, tell its outlook and what happened to
it.** -/
theorem History.outlook_of_seen (run : History c past s) (run' : History c past' s')
    (same : seen id past' = seen id past) :
    s'.outlook id = s.outlook id ∧ trace id past' = trace id past := by
  induction run generalizing past' s' with
  | start now =>
    rw [← List.append_nil past'] at run'
    obtain ⟨t, initial, outlook, told⟩ := run'.outlook_of_unseen same
    rw [List.append_nil] at told
    cases initial
    exact ⟨outlook, told⟩
  | @step past s t m events before made ih =>
    cases concerns : m.concerns id with
    | false =>
      obtain ⟨kept, silent⟩ :=
        (before.step made).effect.outlook_of_unconcerned before.sound concerns
      obtain ⟨outlook, told⟩ := ih run' (same.trans (seen_cons_of_unconcerned concerns))
      refine ⟨outlook.trans kept.symm, ?_⟩
      rw [trace, silent, told]
      exact (List.append_nil _).symm
    | true =>
      -- the other history made this move too, with nothing that concerns the record since
      have same : seen id past' = [] ++ (s.now, m) :: seen id past :=
        same.trans (seen_cons_of_concerns concerns)
      obtain ⟨later, y, earlier, rfl, unseen, time, move, -, rest⟩ := exists_of_seen same
      obtain ⟨t', upto, outlook, told⟩ := run'.outlook_of_unseen unseen
      obtain ⟨before', made', rfl⟩ := History.cons_iff.mp upto
      obtain ⟨alike, behind⟩ := ih before' rest
      unfold Transition.Made at made'
      rw [move] at made'
      obtain ⟨after, now⟩ := Service.apply_congr before.chronicle.guarded before'.chronicle.guarded alike time concerns
        made made'
      refine ⟨outlook.trans after, ?_⟩
      rw [told, trace, trace, behind, now, time]

end Seen

/-! ## No history is ahead -/

section Ahead

variable {e : Surroundings} {c : Setup} {id : String} {past past' : List Transition}
  {s s' : Service}

/-- When the latest move that concerns a record was made, or when the service began. -/
def lastSeen (id : String) (past : List Transition) (s : Service) : Moment :=
  (seen id past).head?.elim (began past s) Prod.fst

theorem History.lastSeen_le (run : History c past s) : lastSeen id past s ≤ s.now := by
  unfold lastSeen
  cases h : seen id past with
  | nil => exact run.began_le
  | cons entry rest =>
    have split : seen id past = [] ++ entry :: rest := h
    obtain ⟨later, x, earlier, rfl, -, time, -⟩ := exists_of_seen split
    show entry.1 ≤ s.now
    rw [← time]
    exact run.chronicle.now_mono

namespace Surroundings.Leads

/-- Nothing was to be done for the record at an instant that has passed since its latest move. -/
theorem idle (led : e.Leads c id past) (run : History c past s) {t : Moment}
    (recent : lastSeen id past s ≤ t) (passed : t < s.now)
    (instant : t = began past s ∨ t = t.ceilMilli) :
    e.next c id (seen id past) { s with now := t } = none := by
  induction run with
  | start now => exact absurd passed (Nat.not_lt_of_le recent)
  | @step past s s' m events before made ih =>
    have effect := (before.step made).effect
    rw [began_cons] at instant
    cases concerns : m.concerns id with
    | true =>
      -- the clock has not moved since
      have still : s'.now = s.now := by
        rcases effect.now_cases with same | ⟨target, advance, -⟩
        · exact same
        · obtain rfl : m = .advance target := advance
          cases concerns
      have latest : lastSeen id (⟨s, m, s', events⟩ :: past) s' = s.now := by
        rw [lastSeen, seen_cons_of_concerns concerns]
        rfl
      rw [latest] at recent
      rw [still] at passed
      exact absurd passed (Nat.not_lt_of_le recent)
    | false =>
      obtain ⟨kept, -⟩ := effect.outlook_of_unconcerned before.sound concerns
      have unseen : seen id (⟨s, m, s', events⟩ :: past) = seen id past :=
        seen_cons_of_unconcerned concerns
      have latest : lastSeen id (⟨s, m, s', events⟩ :: past) s' = lastSeen id past s := by
        rw [lastSeen, lastSeen, unseen, began_cons]
      have alike : e.next c id (seen id past) { s' with now := t } =
          e.next c id (seen id past) { s with now := t } := next_congr kept rfl
      rw [latest] at recent
      rw [unseen, alike]
      by_cases earlier : t < s.now
      · exact ih led.2 recent earlier instant
      · -- the instant has passed in this very move, which let time pass
        have since : s.now ≤ t := Nat.le_of_not_lt earlier
        rcases effect.now_cases with same | ⟨target, advance, -, after⟩
        · rw [same] at passed
          exact absurd passed earlier
        · obtain rfl := congrArg Service.now after
          refine led.1.quiet _ t advance since passed (instant.imp_left fun first => ?_)
          have first : t ≤ s.now := by
            rw [first]
            exact before.began_le
          exact Moment.eq_of_nanos (Nat.le_antisymm first since)

/-- A history in which a move is called for is not behind one that has seen the same. -/
theorem now_le_of_next {m : Move} (led' : e.Leads c id past') (run : History c past s)
    (run' : History c past' s') (same : seen id past' = seen id past)
    (together : began past' s' = began past s)
    (called : e.next c id (seen id past) s = some m) : s'.now ≤ s.now := by
  by_contra ahead
  have recent : lastSeen id past' s' ≤ s.now := by
    rw [lastSeen, same, together]
    exact run.lastSeen_le
  have idle := led'.idle run' recent (Nat.lt_of_not_le ahead) (together ▸ run.instant)
  have alike : e.next c id (seen id past) { s' with now := s.now } = e.next c id (seen id past) s :=
    next_congr (run.outlook_of_seen run' same).1 rfl
  rw [same, alike, called] at idle
  cases idle

/-- What a history has seen before another one's present, the other has seen too. -/
theorem seen_suffix (led : e.Leads c id past) (led' : e.Leads c id past') (run : History c past s)
    (run' : History c past' s') (together : began past' s' = began past s)
    (before : ∀ x ∈ past, x.before.now < s'.now) : seen id past <:+ seen id past' := by
  induction run with
  | start now => exact List.nil_suffix
  | @step past s t m events upto made ih =>
    rw [began_cons] at together
    obtain ⟨more, split⟩ := ih led.2 together fun x hx => before x (List.mem_cons_of_mem _ hx)
    cases concerns : m.concerns id with
    | false =>
      rw [seen_cons_of_unconcerned concerns]
      exact ⟨more, split⟩
    | true =>
      have called : e.next c id (seen id past) s = some m := led.1.next concerns
      rw [seen_cons_of_concerns concerns]
      rcases List.eq_nil_or_concat' more with rfl | ⟨later, ⟨time, m'⟩, rfl⟩
      · -- nothing else was seen, although the instant of the move has passed
        have behind := led'.now_le_of_next upto run' split.symm together called
        exact absurd (before _ List.mem_cons_self) (Nat.not_lt_of_le behind)
      · -- the next move seen was called for at the same instant in the same outlook
        rw [List.append_assoc, List.singleton_append] at split
        obtain ⟨after, y, earlier, rfl, -, rfl, rfl, concerns', same⟩ := exists_of_seen split.symm
        obtain ⟨called', led''⟩ := led'.of_append
        have upto' := (History.cons_iff.mp run'.of_append).1
        rw [began_append] at together
        have called' : e.next c id (seen id earlier) y.before = some y.move :=
          called'.next concerns'
        have now : y.before.now = s.now := by
          apply Moment.eq_of_nanos
          exact Nat.le_antisymm (led''.now_le_of_next upto upto' same together called)
            (led.2.now_le_of_next upto' upto same.symm together.symm called')
        have alike := (upto.outlook_of_seen upto' same).1
        rw [same, next_congr alike now, called] at called'
        obtain rfl := Option.some.inj called'
        exact ⟨later, now ▸ split⟩

end Surroundings.Leads

theorem exists_of_mem_trace {entry : Moment × Event} (h : entry ∈ trace id past) :
    ∃ x ∈ past, entry.1 = x.before.now := by
  induction past with
  | nil => cases h
  | cons y past ih =>
    rcases List.mem_append.mp h with h | h
    · obtain ⟨x, hx, time⟩ := ih h
      exact ⟨x, List.mem_cons_of_mem y hx, time⟩
    · obtain ⟨event, -, rfl⟩ := List.mem_map.mp h
      exact ⟨y, List.mem_cons_self, rfl⟩

/-- A history up to a moment that it has passed. -/
theorem History.exists_until {T : Moment} (run : History c past s) (led : e.Leads c id past)
    (passed : T < s.now) : ∃ early a, History c early a ∧ e.Leads c id early ∧
      began early a = began past s ∧ T < a.now ∧ (∀ x ∈ early, x.before.now ≤ T) ∧
      (trace id past).filter (·.1 ≤ T) = trace id early := by
  induction run with
  | start now =>
    exact ⟨[], _, .start now, trivial, rfl, passed, fun _ h => absurd h List.not_mem_nil, rfl⟩
  | @step past s t m events before made ih =>
    by_cases later : T < s.now
    · -- the last move is cut off, and what it did was after `T`
      obtain ⟨early, a, run, led, together, reached, within, told⟩ := ih led.2 later
      refine ⟨early, a, run, led, ?_, reached, within, ?_⟩
      · rw [began_cons, together]
      · have beyond :
            ((events.filter (·.isAbout id)).map fun e => (s.now, e)).filter (·.1 ≤ T) = [] := by
          rw [List.filter_eq_nil_iff]
          intro entry hentry
          obtain ⟨event, -, rfl⟩ := List.mem_map.mp hentry
          have late : ¬ s.now ≤ T := Nat.not_le_of_lt later
          simpa using late
        rw [trace, List.filter_append, beyond, List.append_nil, told]
    · have within : ∀ x ∈ (⟨s, m, t, events⟩ :: past : List Transition), x.before.now ≤ T := by
        intro x hx
        rcases List.mem_cons.mp hx with rfl | hx
        · exact Nat.le_of_not_lt later
        · obtain ⟨after, earlier, rfl⟩ := List.append_of_mem hx
          exact Nat.le_trans before.chronicle.now_mono (Nat.le_of_not_lt later)
      refine ⟨_, t, before.step made, led, rfl, passed, within, List.filter_eq_self.mpr ?_⟩
      intro entry hentry
      obtain ⟨x, hx, time⟩ := exists_of_mem_trace hentry
      simpa [time] using within x hx

end Ahead

/-! ## Histories in given surroundings -/

def Move.isAdvance : Move → Bool
  | .advance _ => true
  | _ => false

theorem Move.concerns_of_actor {m : Move} {id : String} (own : m.actor = some id) :
    m.concerns id = true := by
  cases m with
  | insert | place | startPoller | poll | stop | advance => cases own
  | wake | answer | expire | stored | crash => exact decide_eq_true (Option.some.inj own)

namespace Surroundings

section Drive

variable {e : Surroundings} {c : Setup} {id : String} {past past' : List Transition}
  {s s' : Service} {m : Move}

theorem turn_possible {w : Watcher} (hw : s.watcher? id = some w)
    (h : e.turn c id s w = some m) : m.actor = some id ∧ (s.apply c m).isSome = true := by
  unfold turn at h
  split at h
  case h_1 waiting =>
    split at h
    case isFalse => cases h
    case isTrue due =>
      obtain rfl := Option.some.inj h
      obtain ⟨next, woke⟩ := Option.isSome_iff_exists.mp due
      exact ⟨rfl, by simp [Service.apply, hw, woke]⟩
  case h_2 since call calling =>
    split at h
    case isTrue =>
      obtain rfl := Option.some.inj h
      exact ⟨rfl, by simp [Service.apply, hw, Watcher.answer, calling]⟩
    case isFalse =>
      split at h
      case isFalse => cases h
      case isTrue late =>
        obtain rfl := Option.some.inj h
        obtain ⟨limit, limited, late⟩ := (Option.any_eq_true ..).mp late
        have late := of_decide_eq_true late
        exact ⟨rfl, by simp [Service.apply, hw, limited, Watcher.answer, calling, late]⟩
  case h_3 writing =>
    obtain rfl := Option.some.inj h
    exact ⟨rfl, by simp [Service.apply, hw, writing]⟩
  case h_4 => cases h

/-- **What is called for concerns the record, and the service can do it.** -/
theorem next_possible {moves : List (Moment × Move)} (h : e.next c id moves s = some m) :
    m.concerns id = true ∧ (s.apply c m).isSome = true := by
  have ready : m ∈ e.ready c id moves s := List.mem_of_getElem? h
  rcases List.mem_append.mp ready with ready | request
  · rcases List.mem_append.mp ready with own | poll
    · obtain ⟨w, hw, own⟩ := Option.bind_eq_some_iff.mp (Option.mem_toList.mp own)
      obtain ⟨turn, hturn, own⟩ := Option.bind_eq_some_iff.mp own
      obtain ⟨actor, possible⟩ := turn_possible hw hturn
      obtain rfl := Option.some.inj own
      split
      · exact ⟨decide_eq_true rfl, by simp [Service.apply, hw]⟩
      · exact ⟨Move.concerns_of_actor actor, possible⟩
    · obtain ⟨i, tick, rfl⟩ := List.mem_map.mp poll
      obtain ⟨t, tick⟩ := Option.isSome_iff_exists.mp (List.mem_filter.mp tick).2
      refine ⟨rfl, ?_⟩
      cases outcome : e.reads s.now <;> simp [Service.apply, tick]
  · obtain ⟨⟨time, asked⟩, -, h⟩ := Option.bind_eq_some_iff.mp (Option.mem_toList.mp request)
    dsimp only at h
    split at h
    case isFalse => cases h
    case isTrue =>
      obtain rfl := Option.some.inj h
      cases asked with
      | insert tx policy sender =>
        refine ⟨decide_eq_true rfl, ?_⟩
        cases valid : policy.validate <;> simp [Request.move, Service.apply, Service.insert, valid]
      | place r => exact ⟨decide_eq_true rfl, rfl⟩
      | startPoller | stop => exact ⟨rfl, rfl⟩

/-- Makes the moves that are called for, and lets a millisecond pass where none is. In between it
makes the given moves for other records. -/
def drive (e : Surroundings) (c : Setup) (id : String) :
    List (Option Move) → List Transition → Service → Option (List Transition × Service)
  | [], past, s => some (past, s)
  | some m :: rest, past, s =>
    if m.concerns id || m.isAdvance then none
    else do
      let (s', events) ← s.apply c m
      e.drive c id rest (⟨s, m, s', events⟩ :: past) s'
  | none :: rest, past, s => do
    let m := (e.next c id (seen id past) s).getD (.advance (s.now + Duration.ofMillis 1))
    let (s', events) ← s.apply c m
    e.drive c id rest (⟨s, m, s', events⟩ :: past) s'

/-- Between a whole millisecond and the next one there is no instant. -/
theorem eq_of_instant {now t : Moment}
    (whole : now + Duration.ofMillis 1 = (now + Duration.ofMillis 1).ceilMilli)
    (since : now ≤ t) (before : t < now + Duration.ofMillis 1)
    (instant : t = now ∨ t = t.ceilMilli) : t = now := by
  rcases instant with same | whole'
  · exact same
  · have milli : (now + Duration.ofMillis 1).nanos = now.nanos + 1000000 := rfl
    have now_ : now.nanos + 1000000 = (now.nanos + 1000000 + 999999) / 1000000 * 1000000 :=
      congrArg Moment.nanos whole
    have t_ : t.nanos = (t.nanos + 999999) / 1000000 * 1000000 := congrArg Moment.nanos whole'
    have since : now.nanos ≤ t.nanos := since
    have before : t.nanos < now.nanos + 1000000 := before
    apply Moment.eq_of_nanos
    omega

theorem of_drive {script : List (Option Move)} (run : History c past s)
    (led : e.Leads c id past) (made : e.drive c id script past s = some (past', s')) :
    History c past' s' ∧ e.Leads c id past' ∧ began past' s' = began past s := by
  induction script generalizing past s with
  | nil =>
    obtain ⟨rfl, rfl⟩ := Prod.mk.inj (Option.some.inj made)
    exact ⟨run, led, rfl⟩
  | cons foreign rest ih =>
    have go {m : Move} {t : Service} {events : List Event} (first : s.apply c m = some (t, events))
        (called : e.CallsFor c id past ⟨s, m, t, events⟩)
        (made : e.drive c id rest (⟨s, m, t, events⟩ :: past) t = some (past', s')) :
        History c past' s' ∧ e.Leads c id past' ∧ began past' s' = began past s := by
      obtain ⟨run', led', together⟩ := ih (run.step first) ⟨called, led⟩ made
      exact ⟨run', led', together.trans (began_cons ..)⟩
    cases foreign with
    | some m =>
      unfold drive at made
      split at made
      case isTrue => cases made
      case isFalse free =>
        obtain ⟨⟨t, events⟩, first, made⟩ := Option.bind_eq_some_iff.mp made
        refine go first ⟨fun concerns => ?_, fun target t advance => ?_⟩ made
        · exact absurd (Bool.or_eq_true_iff.mpr (.inl concerns)) free
        · obtain rfl : m = .advance target := advance
          exact absurd (Bool.or_eq_true_iff.mpr (.inr rfl)) free
    | none =>
      unfold drive at made
      obtain ⟨⟨t, events⟩, first, made⟩ := Option.bind_eq_some_iff.mp made
      cases called : e.next c id (seen id past) s with
      | some m =>
        rw [called, Option.getD_some] at first made
        refine go first ⟨fun _ => called, fun target t advance => ?_⟩ made
        obtain rfl : m = .advance target := advance
        cases (next_possible called).1
      | none =>
        rw [called, Option.getD_none] at first made
        refine go first ⟨nofun, fun target u advance since before instant => ?_⟩ made
        obtain rfl := Move.advance.inj advance
        have may : s.mayAdvance c (s.now + Duration.ofMillis 1) = true := by
          by_contra stuck
          simp [Service.apply, stuck] at first
        obtain rfl := eq_of_instant (Service.mayAdvance_iff.mp may).2.1 since before instant
        exact called

variable (e c id) in
/-- A script whose run passes a test is one of a history in the surroundings. -/
theorem exists_of_drive (script : List (Option Move)) (now : Moment)
    (test : List Transition → Service → Bool)
    (passed : (e.drive c id script [] (.initial now)).any (fun p => test p.1 p.2) = true) :
    ∃ past s, History c past s ∧ e.Leads c id past ∧ began past s = now ∧ test past s = true := by
  obtain ⟨⟨past, s⟩, made, passed⟩ := (Option.any_eq_true ..).mp passed
  obtain ⟨run, led, together⟩ := of_drive (.start now) trivial made
  exact ⟨past, s, run, led, together, passed⟩

end Drive

end Surroundings

/-! ## The same trace -/

/-- **Records do not interfere.** In two histories of the same service that begin together, a
record with the same surroundings has the same trace up to any moment that both have passed: the
same calls, signatures, reports and writes at the same times. Nothing is asked of the moves for
other records. -/
theorem records_do_not_interfere {e : Surroundings} {c : Setup} {id : String}
    {past past' : List Transition} {s s' : Service} {T : Moment} (run : History c past s)
    (run' : History c past' s') (led : e.Leads c id past) (led' : e.Leads c id past')
    (together : began past' s' = began past s) (passed : T < s.now) (passed' : T < s'.now) :
    (trace id past').filter (·.1 ≤ T) = (trace id past).filter (·.1 ≤ T) := by
  obtain ⟨early, a, run, led, began_, reached, within, told⟩ := run.exists_until led passed
  obtain ⟨early', a', run', led', began', reached', within', told'⟩ := run'.exists_until led' passed'
  have together : began early' a' = began early a := by rw [began', together, began_]
  have there := led.seen_suffix led' run run' together
    fun x hx => Nat.lt_of_le_of_lt (within x hx) reached'
  have back := led'.seen_suffix led run' run together.symm
    fun x hx => Nat.lt_of_le_of_lt (within' x hx) reached
  have same : seen id early' = seen id early :=
    back.eq_of_length (Nat.le_antisymm back.length_le there.length_le)
  rw [told, told', (run.outlook_of_seen run' same).2]

namespace Sample

/-- The sample service, polling every other millisecond. -/
def brisk : Setup := { setup with settings := { setup.settings with pollInterval := .ofMillis 2 } }

/-- Every call takes a millisecond, and the transaction stays pending. -/
def calm : Surroundings where
  delay _ _ _ := some (.ofMillis 1)
  replies _ _
    | .lookup _ => .ok true
    | .receipt hash => .ok ⟨hash, Receipt.successful⟩
    | .send _ => .ok ()
  reads _ := .ok ()
  writes _ := .ok ()
  collapses _ _ := false
  requests := [(⟨0⟩, .place (timed 20 3 4)), (⟨0⟩, .startPoller)]
  choice _ := 0

def alone : List (Option Move) := List.replicate 18 none

/-- Before the sample two other records are stored. The policy of one is not usable. The watcher of
the other hangs in a call and is brought down; the next one gives its call up and leaves. -/
def crowded : List (Option Move) :=
  [some (.place { timed 20 1 9 with id := "b" }), some (.place { timed 0 1 1 with id := "c" })] ++
  List.replicate 6 none ++ [some (.wake "b")] ++ List.replicate 5 none ++ [some (.crash "b")] ++
  List.replicate 4 none ++ [some (.wake "b"), some (.answer "b" (Replies.timedOut .zero))] ++
  List.replicate 3 none

end Sample

theorem crowded_sample_keeps_its_trace : ∃ past s past' s', History Sample.brisk past s ∧
    History Sample.brisk past' s' ∧ (trace "a" past).length = 5 ∧
    (∃ x ∈ past', .crashed "b" ∈ x.events) ∧ (∃ x ∈ past', .ended "b" ∈ x.events) ∧
    (trace "a" past').filter (·.1 ≤ Moment.ofMillis 7) =
      (trace "a" past).filter (·.1 ≤ Moment.ofMillis 7) := by
  obtain ⟨past, s, run, led, start, passed⟩ :=
    Sample.calm.exists_of_drive Sample.brisk "a" Sample.alone ⟨0⟩
      (fun past s => Moment.ofMillis 7 < s.now && (trace "a" past).length = 5) (by decide +kernel)
  obtain ⟨past', s', run', led', start', passed'⟩ :=
    Sample.calm.exists_of_drive Sample.brisk "a" Sample.crowded ⟨0⟩
      (fun past s => Moment.ofMillis 7 < s.now && (past.any fun x => .crashed "b" ∈ x.events) &&
        past.any fun x => .ended "b" ∈ x.events) (by decide +kernel)
  simp only [Bool.and_eq_true, decide_eq_true_eq, List.any_eq_true] at passed passed'
  obtain ⟨reached, length⟩ := passed
  obtain ⟨⟨reached', crashed⟩, ended⟩ := passed'
  exact ⟨past, s, past', s', run, run', length, crashed, ended,
    records_do_not_interfere run run' led led' (start'.trans start.symm) reached reached'⟩

end GasEscalator
