import GasEscalator.Proofs.Marks
import GasEscalator.Surroundings

/-!
# What one record sees of the service

The outlook of a record is what is stored under its id, its watcher, and what all records share: the
pollers and the stop signal. A move that does not concern the record leaves its outlook alone and
says nothing about it. A move that does concern it changes the outlook, and says about the record,
what follows from the outlook and the time alone. An unwatched record is an unmarked one, so that
the marks need no mention.
-/
namespace GasEscalator

/-- What the service knows of a record, and what is the same for all records. -/
structure Outlook where
  stored : Option Record
  watcher : Option Watcher
  pollers : List Poller
  stopped : Bool

def Service.outlook (s : Service) (id : String) : Outlook :=
  ⟨s.store.get? id, s.watcher? id, s.pollers, s.stopped⟩

def Event.isAbout (id : String) : Event → Bool
  | .polled _ => false
  | .started i | .crashed i | .ended i | .called i .. | .signing i .. => i = id
  | .wrote r _ | .logged r _ => r.id = id

namespace Service

variable {c : Setup} {s t : Service} {id : String} {r : Record}

theorem watcher?_eq (same : t.outlook id = s.outlook id) : t.watcher? id = s.watcher? id :=
  congrArg Outlook.watcher same

theorem get?_eq (same : t.outlook id = s.outlook id) : t.store.get? id = s.store.get? id :=
  congrArg Outlook.stored same

theorem pollers_eq (same : t.outlook id = s.outlook id) : t.pollers = s.pollers :=
  congrArg Outlook.pollers same

theorem stopped_eq (same : t.outlook id = s.outlook id) : t.stopped = s.stopped :=
  congrArg Outlook.stopped same

theorem Guarded.contains_eq (guarded : s.Guarded) (id : String) :
    s.marks.contains id = (s.watcher? id).isSome := by
  rw [Bool.eq_iff_iff, watcher?, List.find?_isSome, WatchSet.contains, List.contains_iff_mem,
    guarded.mem_iff]
  simp

/-! ## Parts of a move -/

theorem outlook_replace (s : Service) (w : Watcher) (id : String) : (s.replace w).outlook id =
    { s.outlook id with
      watcher := if w.id = id then if w.phase = .done then none else (s.watcher? id).map fun _ => w
        else s.watcher? id } := by
  obtain ⟨marks, watchers, h⟩ := replace_frame s w
  rw [outlook, watcher?_replace, h]
  rfl

theorem outlook_written (s : Service) (r : Record) (outcome : Except StorageError Unit)
    (id : String) : (s.written r outcome).outlook id =
    { s.outlook id with
      stored := if outcome.isOk = true ∧ r.id = id then some r else s.store.get? id } := by
  cases outcome with
  | error e => rfl
  | ok done =>
    rw [outlook, written, Store.get?_upsert]
    by_cases own : r.id = id <;> simp [own, outlook, watcher?, Except.isOk, Except.toBool]

/-- A watcher that begins is the record's if it bears its id and no other does. -/
theorem outlook_append (s : Service) (marks : WatchSet) (w : Watcher) (id : String) :
    Service.outlook { s with marks, watchers := s.watchers ++ [w] } id =
      { s.outlook id with
        watcher := (s.watcher? id).or (if w.id = id then some w else none) } := by
  by_cases own : w.id = id <;> simp [outlook, watcher?, List.find?_append, own]

/-! ## Offers -/

theorem event_isAbout_of_offer {e : Event} (he : e ∈ (s.offer c r).2) : e.isAbout r.id = true := by
  cases event_offer he <;> exact decide_eq_true rfl

/-- The offer of another record. -/
theorem offer_other (other : r.id ≠ id) : (s.offer c r).1.outlook id = s.outlook id ∧
    (s.offer c r).2.filter (·.isAbout id) = [] := by
  constructor
  · unfold offer
    split
    · rfl
    split
    · rfl
    split
    · rfl
    split
    case h_1 w set =>
      have apart : w.id ≠ id := by
        rw [Watcher.id, (Watcher.start?_eq_some set).1]
        exact other
      rw [outlook_append, if_neg apart, Option.or_none]
      rfl
    case h_2 => rfl
  · rw [List.filter_eq_nil_iff]
    intro e he
    cases event_offer he <;> simpa [Event.isAbout] using other

/-- The offer of the record itself depends on its outlook and the time. -/
theorem offer_congr (guarded : s.Guarded) (guarded' : t.Guarded)
    (same : t.outlook r.id = s.outlook r.id) (now : t.now = s.now) :
    (t.offer c r).1.outlook r.id = (s.offer c r).1.outlook r.id ∧
      (t.offer c r).2 = (s.offer c r).2 := by
  have marked : t.marks.contains r.id = s.marks.contains r.id := by
    rw [guarded.contains_eq, guarded'.contains_eq, watcher?_eq same]
  have set : Watcher.start? t.now (c.uptime t.now) r =
      Watcher.start? s.now (c.uptime s.now) r := by rw [now]
  have open_ : (t.stopped || t.marks.contains r.id) = (s.stopped || s.marks.contains r.id) := by
    rw [stopped_eq same, marked]
  unfold offer WatchSet.guard?
  by_cases busy : (s.stopped || s.marks.contains r.id) = true
  · rw [if_pos busy, if_pos (open_.trans busy)]
    exact ⟨same, rfl⟩
  · have free : ¬ s.marks.contains r.id = true := by
      intro marked
      simp [marked] at busy
    rw [if_neg busy, if_neg (open_ ▸ busy), if_neg free, if_neg (marked ▸ free)]
    cases r.policy.validate with
    | error e => exact ⟨same, rfl⟩
    | ok done =>
      dsimp only
      rw [set]
      cases Watcher.start? s.now (c.uptime s.now) r with
      | none => exact ⟨same, rfl⟩
      | some w =>
        dsimp only
        rw [outlook_append, outlook_append, same, watcher?_eq same]
        exact ⟨rfl, rfl⟩

/-- Of the offered records only the record itself counts. -/
theorem offerAll_outlook (guarded : s.Guarded) {records : List Record}
    (distinct : (records.map (·.id)).Nodup) (id : String) :
    (s.offerAll c records).1.outlook id =
        ((records.find? fun r => r.id = id).elim s fun r => (s.offer c r).1).outlook id ∧
      (s.offerAll c records).2.filter (·.isAbout id) =
        (records.find? fun r => r.id = id).elim [] fun r => (s.offer c r).2 := by
  induction records generalizing s with
  | nil => exact ⟨rfl, rfl⟩
  | cons r rest ih =>
    obtain ⟨new, distinct⟩ := List.nodup_cons.mp distinct
    obtain ⟨outlook, told⟩ := ih (guarded.offer c r) distinct
    rw [offerAll_cons]
    dsimp only
    rw [List.filter_append, outlook, told]
    by_cases own : r.id = id
    · -- no later one bears the id, and what is said of this one is about the record
      subst own
      have once : (rest.find? fun q => q.id = r.id) = none := by
        rw [List.find?_eq_none]
        intro q hq same
        exact new (List.mem_map.mpr ⟨q, hq, of_decide_eq_true same⟩)
      have all : (s.offer c r).2.filter (·.isAbout r.id) = (s.offer c r).2 :=
        List.filter_eq_self.mpr fun e he => event_isAbout_of_offer he
      have first : ((r :: rest).find? fun q => q.id = r.id) = some r :=
        List.find?_cons_of_pos (decide_eq_true rfl)
      rw [once, first, all]
      exact ⟨rfl, List.append_nil _⟩
    · -- the offer of another record leaves the outlook for the later ones as it was
      obtain ⟨kept, silent⟩ := offer_other (s := s) own
      rw [List.find?_cons_of_neg (by simpa using own), silent, List.nil_append]
      cases found : rest.find? fun q => q.id = id with
      | none => exact ⟨kept, rfl⟩
      | some q =>
        have hid : q.id = id := by simpa using List.find?_some found
        subst hid
        obtain ⟨marks, watchers, frame⟩ := offer_frame s c r
        exact offer_congr guarded (guarded.offer c r) kept (by rw [frame])

end Service

/-- A choice among stored records keeps the one of an id or leaves nothing under the id. -/
theorem Store.find?_filter (store : Store) (p : Record → Bool) (id : String) :
    (store.records.filter p).find? (fun r => r.id = id) = (store.get? id).filter p := by
  cases found : (store.records.filter p).find? fun r => r.id = id with
  | some r =>
    obtain ⟨mem, passes⟩ := List.mem_filter.mp (List.mem_of_find?_eq_some found)
    have hid : r.id = id := by simpa using List.find?_some found
    rw [← hid, get?_of_mem mem]
    exact (if_pos passes).symm
  | none =>
    cases there : store.get? id with
    | none => rfl
    | some r =>
      obtain ⟨mem, hid⟩ := get?_eq_some there
      refine (if_neg fun passes => ?_).symm
      have other := List.find?_eq_none.mp found r (List.mem_filter.mpr ⟨mem, passes⟩)
      exact other (decide_eq_true hid)

/-- What a poll answers about a record depends on what is stored under its id. -/
theorem Setup.find?_readable (c : Setup) {store store' : Store} {id : String}
    (same : store'.get? id = store.get? id) (p : Record → Bool) :
    ((c.readable store').filter p).find? (fun r => r.id = id) =
      ((c.readable store).filter p).find? fun r => r.id = id := by
  unfold readable Store.toCheck
  split
  · rw [List.filter_filter, List.filter_filter, Store.find?_filter, Store.find?_filter, same]
  · rw [Store.find?_filter, Store.find?_filter, same]

/-! ## Moves -/

namespace Service

variable {c : Setup} {s s' t t' : Service} {id : String} {events events' : List Event}

/-- What a poll does for a record depends on its outlook and the time. -/
theorem take_congr (guarded : s.Guarded) (guarded' : s'.Guarded)
    (same : s'.outlook id = s.outlook id) (now : s'.now = s.now) :
    (s'.take c (c.readable s'.store)).1.outlook id = (s.take c (c.readable s.store)).1.outlook id ∧
      (s'.take c (c.readable s'.store)).2.filter (·.isAbout id) =
        (s.take c (c.readable s.store)).2.filter (·.isAbout id) := by
  have distinct (u : Service) : (((c.readable u.store).filter fun r =>
      !r.status.isTerminal).map (·.id)).Nodup :=
    (c.nodup_readable u.store).sublist (List.filter_sublist.map _)
  obtain ⟨outlook, told⟩ := offerAll_outlook guarded (distinct s) id
  obtain ⟨outlook', told'⟩ := offerAll_outlook guarded' (distinct s') id
  rw [c.find?_readable (get?_eq same)] at outlook' told'
  have silent (ids : Option (List String)) (rest : List Event) :
      (Event.polled ids :: rest).filter (·.isAbout id) = rest.filter (·.isAbout id) := rfl
  unfold take
  dsimp only
  rw [outlook, outlook', silent, silent, told, told']
  cases found : ((c.readable s.store).filter fun r => !r.status.isTerminal).find?
      fun r => r.id = id with
  | none => exact ⟨same, rfl⟩
  | some r =>
    have hid : r.id = id := by simpa using List.find?_some found
    subst hid
    exact offer_congr guarded guarded' same now

theorem carry_congr (same : s'.outlook id = s.outlook id) (next : Watcher × List Event) :
    (s'.carry next).1.outlook id = (s.carry next).1.outlook id ∧
      (s'.carry next).2 = (s.carry next).2 := by
  refine ⟨?_, rfl⟩
  show (s'.replace next.1).outlook id = (s.replace next.1).outlook id
  rw [outlook_replace, outlook_replace, same, watcher?_eq same]

theorem pollers_congr (same : s'.outlook id = s.outlook id) (pollers : List Poller) :
    Service.outlook { s' with pollers } id = Service.outlook { s with pollers } id :=
  congrArg (fun v : Outlook => { v with pollers }) same

theorem stopped_congr (same : s'.outlook id = s.outlook id) (stopped : Bool) :
    Service.outlook { s' with stopped } id = Service.outlook { s with stopped } id :=
  congrArg (fun v : Outlook => { v with stopped }) same

theorem written_congr (same : s'.outlook id = s.outlook id) (r : Record)
    (outcome : Except StorageError Unit) :
    (s'.written r outcome).outlook id = (s.written r outcome).outlook id := by
  rw [outlook_written, outlook_written, same, get?_eq same]

/-- The ticks that pollers may take are the same. -/
theorem takeTick_congr (same : s'.outlook id = s.outlook id) (now : s'.now = s.now) {poller : Nat}
    (tick : s.takeTick poller = some t) :
    s'.takeTick poller = some { s' with pollers := t.pollers } := by
  unfold takeTick at tick ⊢
  rw [pollers_eq same]
  split at tick
  case h_2 => cases tick
  case h_1 ticker there =>
    split at tick
    case isFalse => cases tick
    case isTrue due =>
      obtain rfl := Option.some.inj tick
      rw [stopped_eq same, now]
      exact if_pos due

/-- What a watcher's step is carried to. -/
theorem apply_congr_of_carry {next : Watcher × List Event} (same : s'.outlook id = s.outlook id)
    (made : some (s.carry next) = some (t, events))
    (made' : some (s'.carry next) = some (t', events')) :
    t'.outlook id = t.outlook id ∧ events' = events := by
  have congr := carry_congr same next
  rw [Option.some.inj made, Option.some.inj made'] at congr
  exact congr

/-- The same of a watcher's moves. -/
theorem apply_congr_of_actor {m : Move} (same : s'.outlook id = s.outlook id)
    (now : s'.now = s.now) (own : m.actor = some id) (made : s.apply c m = some (t, events))
    (made' : s'.apply c m = some (t', events')) :
    t'.outlook id = t.outlook id ∧ events' = events := by
  have hw := watcher?_eq same
  cases m with
  | insert | place | startPoller | poll | stop | advance => cases own
  | wake i =>
    obtain rfl := Option.some.inj own
    simp only [apply, hw, stopped_eq same, now] at made made'
    obtain ⟨w, there, made⟩ := Option.bind_eq_some_iff.mp made
    obtain ⟨next, woke, made⟩ := Option.bind_eq_some_iff.mp made
    rw [there, Option.bind_eq_bind, Option.bind_some, woke] at made'
    exact apply_congr_of_carry same made made'
  | answer i replies =>
    obtain rfl := Option.some.inj own
    simp only [apply, hw, now] at made made'
    obtain ⟨w, there, made⟩ := Option.bind_eq_some_iff.mp made
    obtain ⟨next, answered, made⟩ := Option.bind_eq_some_iff.mp made
    rw [there, Option.bind_eq_bind, Option.bind_some, answered] at made'
    exact apply_congr_of_carry same made made'
  | expire i =>
    obtain rfl := Option.some.inj own
    simp only [apply, hw, now] at made made'
    obtain ⟨w, there, made⟩ := Option.bind_eq_some_iff.mp made
    obtain ⟨limit, limited, made⟩ := Option.bind_eq_some_iff.mp made
    rw [there, limited, Option.bind_eq_bind, Option.bind_some, Option.bind_eq_bind,
      Option.bind_some] at made'
    split at made
    case h_2 => cases made
    case h_1 since call calling =>
      rw [calling] at made'
      dsimp only at made'
      split at made
      case isFalse => cases made
      case isTrue late =>
        rw [if_pos late] at made'
        obtain ⟨next, answered, made⟩ := Option.bind_eq_some_iff.mp made
        rw [answered] at made'
        exact apply_congr_of_carry same made made'
  | stored i outcome =>
    obtain rfl := Option.some.inj own
    simp only [apply, hw, now] at made made'
    obtain ⟨w, there, made⟩ := Option.bind_eq_some_iff.mp made
    rw [there, Option.bind_eq_bind, Option.bind_some] at made'
    split at made
    case h_2 => cases made
    case h_1 r after writing =>
      rw [writing] at made'
      obtain ⟨rfl, rfl⟩ := Prod.mk.inj (Option.some.inj made)
      obtain ⟨rfl, rfl⟩ := Prod.mk.inj (Option.some.inj made')
      obtain ⟨outlook, told⟩ := carry_congr (written_congr same r outcome)
        (w.stored s.now r after outcome)
      exact ⟨outlook, congrArg _ told⟩
  | crash i =>
    obtain rfl := Option.some.inj own
    simp only [apply, hw] at made made'
    obtain ⟨w, there, made⟩ := Option.bind_eq_some_iff.mp made
    rw [there, Option.bind_eq_bind, Option.bind_some] at made'
    obtain ⟨rfl, rfl⟩ := Prod.mk.inj (Option.some.inj made)
    obtain ⟨rfl, rfl⟩ := Prod.mk.inj (Option.some.inj made')
    exact ⟨(carry_congr same ({ w with phase := .done }, [])).1, rfl⟩

/-- **A move that concerns a record does for it what its outlook and the time tell.** -/
theorem apply_congr {m : Move} (guarded : s.Guarded) (guarded' : s'.Guarded)
    (same : s'.outlook id = s.outlook id) (now : s'.now = s.now)
    (concerns : m.concerns id = true) (made : s.apply c m = some (t, events))
    (made' : s'.apply c m = some (t', events')) :
    t'.outlook id = t.outlook id ∧
      events'.filter (·.isAbout id) = events.filter (·.isAbout id) := by
  have of_actor (own : m.actor = some id) : t'.outlook id = t.outlook id ∧
      events'.filter (·.isAbout id) = events.filter (·.isAbout id) := by
    obtain ⟨outlook, told⟩ := apply_congr_of_actor same now own made made'
    exact ⟨outlook, by rw [told]⟩
  cases m with
  | wake i | answer i _ | expire i | stored i _ | crash i =>
    exact of_actor (congrArg some (of_decide_eq_true concerns))
  | advance target => cases concerns
  | insert new tx policy sender outcome =>
    simp only [apply, insert] at made made'
    cases valid : policy.validate with
    | error e =>
      rw [valid] at made made'
      obtain ⟨rfl, rfl⟩ := Prod.mk.inj (Option.some.inj made)
      obtain ⟨rfl, rfl⟩ := Prod.mk.inj (Option.some.inj made')
      exact ⟨same, rfl⟩
    | ok done =>
      rw [valid] at made made'
      rw [now] at made'
      obtain ⟨rfl, rfl⟩ := Prod.mk.inj (Option.some.inj made)
      obtain ⟨rfl, rfl⟩ := Prod.mk.inj (Option.some.inj made')
      exact ⟨written_congr same _ _, rfl⟩
  | place r =>
    obtain ⟨rfl, rfl⟩ := Prod.mk.inj (Option.some.inj made)
    obtain ⟨rfl, rfl⟩ := Prod.mk.inj (Option.some.inj made')
    exact ⟨written_congr same r (.ok ()), rfl⟩
  | startPoller =>
    obtain ⟨rfl, rfl⟩ := Prod.mk.inj (Option.some.inj made)
    obtain ⟨rfl, rfl⟩ := Prod.mk.inj (Option.some.inj made')
    refine ⟨?_, rfl⟩
    rw [pollers_eq same, now]
    exact pollers_congr same _
  | stop =>
    obtain ⟨rfl, rfl⟩ := Prod.mk.inj (Option.some.inj made)
    obtain ⟨rfl, rfl⟩ := Prod.mk.inj (Option.some.inj made')
    exact ⟨stopped_congr same true, rfl⟩
  | poll poller outcome =>
    obtain ⟨u, tick, made⟩ := Option.bind_eq_some_iff.mp made
    obtain ⟨u', tick', made'⟩ := Option.bind_eq_some_iff.mp made'
    obtain rfl := Option.some.inj (tick'.symm.trans (takeTick_congr same now tick))
    -- the tick changes the pollers in both in the same way, and the offers come after it
    obtain ⟨-, pollers, rfl⟩ := takeTick_frame tick
    have ticked := pollers_congr same pollers
    cases outcome with
    | error e =>
      obtain ⟨rfl, rfl⟩ := Prod.mk.inj (Option.some.inj made)
      obtain ⟨rfl, rfl⟩ := Prod.mk.inj (Option.some.inj made')
      exact ⟨ticked, rfl⟩
    | ok done =>
      have guarded : Guarded { s with pollers } := guarded
      have guarded' : Guarded { s' with pollers } := guarded'
      have congr := take_congr (c := c) guarded guarded' ticked now
      rw [Option.some.inj made, Option.some.inj made'] at congr
      exact congr

end Service

section Unconcerned

variable {c : Setup} {x : Transition} {w w' : Watcher} {id : String} {events : List Event}

/-- Who makes a move that does not concern a record is not its watcher. -/
theorem Move.actor_ne_of_unconcerned {m : Move} {i : String} (other : m.concerns id = false)
    (actor : m.actor = some i) : i ≠ id := by
  cases m with
  | insert | place | startPoller | poll | stop | advance => cases actor
  | wake | answer | expire | stored | crash =>
    obtain rfl := Option.some.inj actor
    exact of_decide_eq_false other

theorem Turn.silent_about (turn : Turn c x w w' events) (apart : w.id ≠ id) :
    (events ++ w'.farewell).filter (·.isAbout id) = [] := by
  rw [List.filter_eq_nil_iff]
  intro e he
  have own : e.isAbout id = decide (w.id = id) := by
    rcases List.mem_append.mp he with he | he
    · rcases turn.event_cases he with ⟨call, rfl⟩ | ⟨address, tx, rfl⟩ | ⟨f, rfl⟩ <;> rfl
    · obtain ⟨-, rfl⟩ := Watcher.of_mem_farewell he
      rw [turn.id_eq]
      rfl
  rw [own]
  simpa using apart

theorem Service.outlook_replace_other (s : Service) (apart : w.id ≠ id) :
    (s.replace w).outlook id = s.outlook id := by
  rw [outlook_replace, if_neg apart]
  rfl

theorem Service.outlook_written_other (s : Service) {r : Record}
    (outcome : Except StorageError Unit) (apart : r.id ≠ id) :
    (s.written r outcome).outlook id = s.outlook id := by
  rw [outlook_written, if_neg fun h => apart h.2]
  rfl

/-- **A move that does not concern a record leaves it alone and says nothing about it.** -/
theorem Effect.outlook_of_unconcerned (effect : Effect c x)
    (sound : ∀ w ∈ x.before.watchers, w.Sound c) (other : x.move.concerns id = false) :
    x.after.outlook id = x.before.outlook id ∧ x.events.filter (·.isAbout id) = [] := by
  cases effect with
  | refused _ _ after events =>
    rw [after, events]
    exact ⟨rfl, rfl⟩
  | advanced _ _ after events =>
    rw [after, events]
    exact ⟨rfl, rfl⟩
  | pollerStarted hm | polled hm | pollFailed hm | stopped hm =>
    rw [hm] at other
    cases other
  | placed hm after events =>
    rw [hm] at other
    rw [after, events]
    exact ⟨x.before.outlook_written_other (.ok ()) (of_decide_eq_false other), rfl⟩
  | @inserted new tx policy sender _ hm _ after events =>
    rw [hm] at other
    have apart : (Record.initial new tx sender policy x.before.now).id ≠ id :=
      of_decide_eq_false other
    rw [after, events]
    exact ⟨x.before.outlook_written_other _ apart, by simpa [Event.isAbout] using apart⟩
  | acted _ hm turn after events =>
    have apart := Move.actor_ne_of_unconcerned other hm
    rw [after, events, turn.silent_about apart]
    exact ⟨x.before.outlook_replace_other (turn.id_eq ▸ apart), rfl⟩
  | stored hw hm learned turn after events =>
    have apart := Move.actor_ne_of_unconcerned other hm
    have own := (sound _ (List.mem_of_find?_eq_some hw)).id_of_writing (learned.writing hw)
    rw [after, events, Service.outlook_replace_other _ (turn.id_eq ▸ apart),
      x.before.outlook_written_other _ (own ▸ apart),
      List.filter_cons_of_neg (by simpa [Event.isAbout, own] using apart), turn.silent_about apart]
    exact ⟨rfl, rfl⟩
  | crashed _ hm after events =>
    rw [hm] at other
    have apart := of_decide_eq_false other
    rw [after, events]
    exact ⟨x.before.outlook_replace_other apart, by simpa [Event.isAbout] using apart⟩

end Unconcerned

/-! ## What is due -/

namespace Surroundings

variable {e : Surroundings} {c : Setup} {id : String} {seen : List (Moment × Move)}
  {s s' : Service}

/-- **What is to be done for a record depends on its outlook and the time.** -/
theorem next_congr (same : s'.outlook id = s.outlook id) (now : s'.now = s.now) :
    e.next c id seen s' = e.next c id seen s := by
  have own : e.ownMove c id s' = e.ownMove c id s := by
    unfold ownMove turn
    rw [Service.watcher?_eq same, Service.stopped_eq same, now]
  have polls : e.pollMoves s' = e.pollMoves s := by
    have ticks (i : Nat) : (s'.takeTick i).isSome = (s.takeTick i).isSome := by
      cases tick : s.takeTick i with
      | some t => rw [Service.takeTick_congr same now tick]; rfl
      | none =>
        cases tick' : s'.takeTick i with
        | none => rfl
        | some t =>
          rw [Service.takeTick_congr same.symm now.symm tick'] at tick
          cases tick
    unfold pollMoves
    rw [Service.pollers_eq same, now]
    simp only [ticks]
  have request : e.requestMove id seen s' = e.requestMove id seen s := by
    unfold requestMove
    rw [now]
  rw [next, next, ready, ready, own, polls, request]

end Surroundings

end GasEscalator
