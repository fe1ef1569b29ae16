import GasEscalator.Proofs.StoreContents
import GasEscalator.Proofs.Turns

/-!
# What a move of the service changes

Each move is possible under one condition and has one effect. The watchers after a move are those
that were idle in it, those that a poll started and the one that made a turn; the store changes by
an insertion, by somebody outside and by the write of a watcher.
-/
namespace GasEscalator

/-- The record whose watcher makes the move, if it is the move of a watcher. -/
def Move.actor : Move → Option String
  | .wake id | .answer id _ | .expire id | .stored id _ | .crash id => some id
  | _ => none

theorem Watcher.start?_eq_some {now uptime : Moment} {r : Record} {w : Watcher}
    (h : Watcher.start? now uptime r = some w) :
    w.record = r ∧ w.phase = .waiting ∧ r.deadline? = some w.deadline ∧
      Ticker.start? now uptime r.policy.checkInterval = some w.check ∧
      Ticker.start? now uptime r.policy.increaseInterval = some w.increase := by
  obtain ⟨deadline, hd, h⟩ := Option.bind_eq_some_iff.mp h
  obtain ⟨check, hc, h⟩ := Option.bind_eq_some_iff.mp h
  obtain ⟨increase, hi, h⟩ := Option.bind_eq_some_iff.mp h
  obtain rfl := Option.some.inj h
  exact ⟨rfl, rfl, hd, hc, hi⟩

namespace Service

/-! ## Offers -/

/-- A watcher that an offer of `r` starts. -/
structure Starts (s : Service) (c : Setup) (r : Record) (w : Watcher) : Prop where
  running : s.stopped = false
  valid : r.policy.validate = .ok ()
  set : Watcher.start? s.now (c.uptime s.now) r = some w

/-- An event of an offer of `r`. -/
inductive OfferEvent (s : Service) (c : Setup) (r : Record) : Event → Prop
  | started (running : s.stopped = false) (valid : r.policy.validate = .ok ()) :
      OfferEvent s c r (.started r.id)
  | crashed (unset : Watcher.start? s.now (c.uptime s.now) r = none) :
      OfferEvent s c r (.crashed r.id)
  | unusable {e : PolicyError} (invalid : r.policy.validate = .error e) :
      OfferEvent s c r (.logged r (.invalidPolicy e))

/-- What an offer lets happen depends on the time and on whether the service is stopped. -/
theorem OfferEvent.congr {s t : Service} {c : Setup} {r : Record} {e : Event} (event : t.OfferEvent c r e)
    (same : t.stopped = s.stopped) (now : t.now = s.now) : s.OfferEvent c r e := by
  cases event with
  | started running valid => exact .started (same ▸ running) valid
  | crashed unset => exact .crashed (now ▸ unset)
  | unusable invalid => exact .unusable invalid

/-- An offer changes the marks and the watchers only. -/
theorem offer_frame (s : Service) (c : Setup) (r : Record) :
    ∃ marks watchers, (s.offer c r).1 = { s with marks, watchers } := by
  unfold offer
  split
  · exact ⟨s.marks, s.watchers, rfl⟩
  split
  · exact ⟨s.marks, s.watchers, rfl⟩
  split
  · exact ⟨s.marks, s.watchers, rfl⟩
  split
  · exact ⟨_, _, rfl⟩
  · exact ⟨_, s.watchers, rfl⟩

theorem mem_watchers_offer {s : Service} {c : Setup} {r : Record} {w : Watcher}
    (hw : w ∈ (s.offer c r).1.watchers) : w ∈ s.watchers ∨ s.Starts c r w := by
  unfold offer at hw
  split at hw
  · exact .inl hw
  case isFalse free =>
    split at hw
    · exact .inl hw
    case h_2 valid =>
      split at hw
      · exact .inl hw
      · split at hw
        · next set =>
          rcases List.mem_append.mp hw with hw | hw
          · exact .inl hw
          · obtain rfl := List.mem_singleton.mp hw
            exact .inr ⟨by simp_all, valid, set⟩
        · exact .inl hw

/-- A new watcher is announced. -/
theorem started_of_new {s : Service} {c : Setup} {r : Record} {w : Watcher}
    (hw : w ∈ (s.offer c r).1.watchers) (new : w ∉ s.watchers) : .started r.id ∈ (s.offer c r).2 := by
  unfold offer at hw ⊢
  split at hw
  · exact absurd hw new
  case isFalse free =>
    rw [if_neg free]
    split at hw
    · exact absurd hw new
    split at hw
    · exact absurd hw new
    split at hw
    · exact List.mem_singleton_self _
    · exact absurd hw new

theorem event_offer {s : Service} {c : Setup} {r : Record} {e : Event} (he : e ∈ (s.offer c r).2) :
    s.OfferEvent c r e := by
  unfold offer at he
  split at he
  · cases he
  case isFalse free =>
    have running : s.stopped = false := by simp_all
    split at he
    case h_1 invalid =>
      obtain rfl := List.mem_singleton.mp he
      exact .unusable invalid
    case h_2 valid =>
      split at he
      · cases he
      · split at he
        · obtain rfl := List.mem_singleton.mp he
          exact .started running valid
        · next unset =>
          rcases List.mem_cons.mp he with rfl | he
          · exact .started running valid
          · obtain rfl := List.mem_singleton.mp he
            exact .crashed unset

theorem offerAll_cons (s : Service) (c : Setup) (r : Record) (rest : List Record) :
    s.offerAll c (r :: rest) = (((s.offer c r).1.offerAll c rest).1,
      (s.offer c r).2 ++ ((s.offer c r).1.offerAll c rest).2) := rfl

theorem offerAll_frame (s : Service) (c : Setup) (records : List Record) :
    ∃ marks watchers, (s.offerAll c records).1 = { s with marks, watchers } := by
  induction records generalizing s with
  | nil => exact ⟨s.marks, s.watchers, rfl⟩
  | cons r rest ih =>
    obtain ⟨marks, watchers, h⟩ := offer_frame s c r
    obtain ⟨marks', watchers', h'⟩ := ih (s.offer c r).1
    refine ⟨marks', watchers', ?_⟩
    rw [offerAll_cons]
    dsimp only
    rw [h', h]

theorem mem_watchers_offerAll {s : Service} {c : Setup} {records : List Record} {w : Watcher}
    (hw : w ∈ (s.offerAll c records).1.watchers) :
    w ∈ s.watchers ∨ ∃ r ∈ records, s.Starts c r w := by
  induction records generalizing s with
  | nil => exact .inl hw
  | cons r rest ih =>
    obtain ⟨marks, watchers, h⟩ := offer_frame s c r
    rw [offerAll_cons] at hw
    rcases ih (s := (s.offer c r).1) hw with hw | ⟨r', hr', started⟩
    · rcases mem_watchers_offer hw with hw | started
      · exact .inl hw
      · exact .inr ⟨r, List.mem_cons_self, started⟩
    · rw [h] at started
      exact .inr ⟨r', List.mem_cons_of_mem r hr', started.running, started.valid, started.set⟩

/-- Offers add watchers and leave those that are there. -/
theorem watchers_offer (s : Service) (c : Setup) (r : Record) :
    ∃ more, (s.offer c r).1.watchers = s.watchers ++ more := by
  unfold offer
  split
  · exact ⟨[], by simp⟩
  split
  · exact ⟨[], by simp⟩
  split
  · exact ⟨[], by simp⟩
  split
  · exact ⟨_, rfl⟩
  · exact ⟨[], by simp⟩

theorem watchers_offerAll (s : Service) (c : Setup) (records : List Record) :
    ∃ more, (s.offerAll c records).1.watchers = s.watchers ++ more := by
  induction records generalizing s with
  | nil => exact ⟨[], by simp [offerAll]⟩
  | cons r rest ih =>
    obtain ⟨more, first⟩ := watchers_offer s c r
    obtain ⟨others, rest⟩ := ih (s.offer c r).1
    exact ⟨more ++ others, by rw [offerAll_cons, rest, first, List.append_assoc]⟩

theorem watcher?_offerAll {s : Service} {c : Setup} {records : List Record} {id : String} {w : Watcher}
    (hw : s.watcher? id = some w) : (s.offerAll c records).1.watcher? id = some w := by
  obtain ⟨more, h⟩ := watchers_offerAll s c records
  unfold watcher? at hw ⊢
  rw [h, List.find?_append, hw]
  rfl

theorem event_offerAll {s : Service} {c : Setup} {records : List Record} {e : Event}
    (he : e ∈ (s.offerAll c records).2) : ∃ r ∈ records, s.OfferEvent c r e := by
  induction records generalizing s with
  | nil => cases he
  | cons r rest ih =>
    obtain ⟨marks, watchers, h⟩ := offer_frame s c r
    rw [offerAll_cons] at he
    rcases List.mem_append.mp he with he | he
    · exact ⟨r, List.mem_cons_self, event_offer he⟩
    · obtain ⟨r', hr', event⟩ := ih (s := (s.offer c r).1) he
      exact ⟨r', List.mem_cons_of_mem r hr', event.congr (by rw [h]) (by rw [h])⟩

end Service

/-! ## Moves -/

theorem Service.takeTick_frame {s t : Service} {poller : Nat} (h : s.takeTick poller = some t) :
    s.stopped = false ∧ ∃ pollers, t = { s with pollers } := by
  unfold takeTick at h
  split at h
  case h_2 => cases h
  case h_1 ticker _ =>
    split at h
    case isFalse => cases h
    case isTrue due =>
      obtain rfl := Option.some.inj h
      exact ⟨by simp_all, _, rfl⟩

/-- The event that a watcher's turn ends with when it leaves. -/
def Watcher.farewell (w : Watcher) : List Event := if w.phase = .done then [.ended w.id] else []

theorem Watcher.of_mem_farewell {w : Watcher} {e : Event} (he : e ∈ w.farewell) :
    w.phase = .done ∧ e = .ended w.id := by
  unfold farewell at he
  split at he
  · next gone => exact ⟨gone, List.mem_singleton.mp he⟩
  · cases he

theorem Turn.not_wrote {c : Setup} {x : Transition} {w w' : Watcher} {events : List Event}
    {r : Record} {ok : Bool} (turn : Turn c x w w' events) : .wrote r ok ∉ events := by
  intro h
  rcases turn.event_cases h with ⟨_, h⟩ | ⟨_, _, h⟩ | ⟨_, h⟩ <;> cases h

/-- Time may pass up to a whole millisecond, as far as the watchers are concerned. -/
structure Service.MayPass (s : Service) (c : Setup) (target : Moment) : Prop where
  ahead : s.now ≤ target
  whole : target = target.ceilMilli
  due : ∀ w ∈ s.watchers, ∀ d, w.dueAt c.settings.callTimeout s.stopped s.now = some d →
    target ≤ d.ceilMilli

/-- The parts of the condition under which time may pass. -/
theorem Service.mayAdvance_iff {s : Service} {c : Setup} {target : Moment} :
    s.mayAdvance c target = true ↔ s.now ≤ target ∧ target = target.ceilMilli ∧
      ∀ d ∈ s.dueMoments c, target ≤ d.ceilMilli := by
  simp [mayAdvance, and_assoc]

theorem Service.mem_dueMoments {s : Service} {c : Setup} {w : Watcher} {d : Moment}
    (hw : w ∈ s.watchers) (due : w.dueAt c.settings.callTimeout s.stopped s.now = some d) :
    d ∈ s.dueMoments c :=
  List.mem_append_right _ (List.mem_filterMap.mpr ⟨w, hw, due⟩)

theorem Service.mayPass_of_mayAdvance {s : Service} {c : Setup} {target : Moment}
    (may : s.mayAdvance c target = true) : s.MayPass c target := by
  obtain ⟨ahead, whole, first⟩ := mayAdvance_iff.mp may
  exact ⟨ahead, whole, fun w hw d due => first d (mem_dueMoments hw due)⟩

/-- What a move does, and when it is possible. A poll may be only a part of one, with records that
were read before it. -/
inductive Effect (c : Setup) (x : Transition) : Prop
  | refused {id : String} {tx : SignedTx} {policy : Policy} {sender : Address}
      {outcome : Except StorageError Unit} {e : PolicyError}
      (hm : x.move = .insert id tx policy sender outcome) (invalid : policy.validate = .error e)
      (after : x.after = x.before) (events : x.events = [])
  | inserted {id : String} {tx : SignedTx} {policy : Policy} {sender : Address}
      {outcome : Except StorageError Unit}
      (hm : x.move = .insert id tx policy sender outcome) (valid : policy.validate = .ok ())
      (after : x.after =
        x.before.written (.initial id tx sender policy x.before.now) outcome)
      (events : x.events = [.wrote (.initial id tx sender policy x.before.now) outcome.isOk])
  | placed {r : Record} (hm : x.move = .place r)
      (after : x.after = { x.before with store := x.before.store.upsert r })
      (events : x.events = [])
  | pollerStarted (hm : x.move = .startPoller)
      (after : x.after = { x.before with
        pollers := x.before.pollers ++ [.start c x.before.now] })
      (events : x.events = [])
  | polled {poller : Nat} {pollers : List Poller} {records : List Record} {news : List Event}
      (hm : x.move = .poll poller (.ok ()))
      (read : x.Made c → ∀ r ∈ records, r ∈ c.readable x.before.store)
      (opened : ∀ r ∈ records, r.status.isTerminal = false)
      (told : ∀ e ∈ news, ∃ ids, e = .polled ids)
      (after : x.after = (Service.offerAll { x.before with pollers } c records).1)
      (events : x.events = news ++ (Service.offerAll { x.before with pollers } c records).2)
  | pollFailed {poller : Nat} {e : StorageError} (hm : x.move = .poll poller (.error e))
      (tick : x.before.takeTick poller = some x.after) (events : x.events = [.polled none])
  | acted {w w' : Watcher} {events : List Event} (hw : x.before.watcher? w.id = some w)
      (hm : x.move.actor = some w.id) (turn : Turn c x w w' events)
      (after : x.after = x.before.replace w') (events : x.events = events ++ w'.farewell)
  | stored {w w' : Watcher} {events : List Event} {r : Record} {then_ : AfterWrite}
      {outcome : Except StorageError Unit} (hw : x.before.watcher? w.id = some w)
      (hm : x.move.actor = some w.id) (learned : x.Learns w.id r then_ outcome)
      (turn : Turn c x w w' events) (after : x.after = (x.before.written r outcome).replace w')
      (events : x.events = .wrote r outcome.isOk :: (events ++ w'.farewell))
  | crashed {w : Watcher} (hw : x.before.watcher? w.id = some w) (hm : x.move = .crash w.id)
      (after : x.after = x.before.replace { w with phase := .done })
      (events : x.events = [.crashed w.id])
  | stopped (hm : x.move = .stop) (after : x.after = { x.before with stopped := true })
      (events : x.events = [])
  | advanced {target : Moment} (hm : x.move = .advance target)
      (may : x.before.MayPass c target)
      (after : x.after = { x.before with now := target }) (events : x.events = [])

theorem Transition.Hears.actor {c : Setup} {x : Transition} {id : String} {call : Call}
    {result : Except ChainError call.Result} (heard : x.Hears c id call result) :
    x.move.actor = some id := by
  cases heard with
  | answer hm | expire hm =>
    rw [hm]
    rfl

/-- A watcher that hears an answer goes on with it. -/
theorem Transition.Hears.after {c : Setup} {x : Transition} {w : Watcher} {call : Call}
    {result : Except ChainError call.Result} (heard : x.Hears c w.id call result)
    (hw : x.before.watcher? w.id = some w) (made : x.Made c) :
    x.after = x.before.replace (w.resume x.before.now call result).1 := by
  unfold Transition.Made at made
  cases heard with
  | answer hm hv calling =>
    obtain rfl := Option.some.inj (hw.symm.trans hv)
    rw [hm, Service.apply, hw] at made
    simp only [Watcher.answer, calling, Option.bind_eq_bind, Option.bind_some] at made
    exact (congrArg Prod.fst (Option.some.inj made)).symm
  | expire hm hv calling limited late =>
    obtain rfl := Option.some.inj (hw.symm.trans hv)
    rw [hm, Service.apply, hw, limited] at made
    simp only [Watcher.answer, calling, Option.bind_eq_bind, Option.bind_some, if_pos late] at made
    exact (congrArg Prod.fst (Option.some.inj made)).symm

/-- A watcher that learns what became of its write goes on with that. -/
theorem Transition.Learns.after {c : Setup} {x : Transition} {w : Watcher} {r : Record}
    {then_ : AfterWrite} {outcome : Except StorageError Unit}
    (learned : x.Learns w.id r then_ outcome) (hw : x.before.watcher? w.id = some w)
    (made : x.Made c) :
    x.after = (x.before.written r outcome).replace (w.stored x.before.now r then_ outcome).1 := by
  obtain ⟨hm, v, hv, writing⟩ := learned
  obtain rfl := Option.some.inj (hw.symm.trans hv)
  unfold Transition.Made at made
  rw [hm, Service.apply, hw] at made
  simp only [writing, Option.bind_eq_bind, Option.bind_some] at made
  exact (congrArg Prod.fst (Option.some.inj made)).symm

theorem Transition.Learns.wrote {x : Transition} {c : Setup} {id : String} {r : Record}
    {then_ : AfterWrite} {outcome : Except StorageError Unit}
    (learned : x.Learns id r then_ outcome) (made : x.Made c) :
    .wrote r outcome.isOk ∈ x.events := by
  obtain ⟨hm, w, hw, writing⟩ := learned
  unfold Transition.Made at made
  rw [hm, Service.apply, hw] at made
  simp only [writing, Option.bind_eq_bind, Option.bind_some] at made
  rw [← (Prod.mk.inj (Option.some.inj made)).2]
  exact List.mem_cons_self

/-- A result that the move has is where it led. -/
private theorem led {x : Transition} {result : Service × List Event}
    (h : some result = some (x.after, x.events)) : x.after = result.1 ∧ x.events = result.2 := by
  rw [Option.some.inj h]
  exact ⟨rfl, rfl⟩

section Moves

variable {c : Setup} {x : Transition} {id : String}

theorem Effect.of_insert {tx : SignedTx} {policy : Policy} {sender : Address}
    {outcome : Except StorageError Unit} (hm : x.move = .insert id tx policy sender outcome)
    (made : x.Made c) : Effect c x := by
  unfold Transition.Made at made
  simp only [hm, Service.apply, Service.insert] at made
  cases valid : policy.validate with
  | error e =>
    rw [valid] at made
    obtain ⟨after, events⟩ := led made
    exact .refused hm valid after events
  | ok done =>
    rw [valid] at made
    obtain ⟨after, events⟩ := led made
    exact .inserted hm valid after events

theorem Effect.of_poll {poller : Nat} {outcome : Except StorageError Unit}
    (hm : x.move = .poll poller outcome) (made : x.Made c) : Effect c x := by
  unfold Transition.Made at made
  rw [hm] at made
  obtain ⟨s, tick, made⟩ := Option.bind_eq_some_iff.mp made
  cases outcome with
  | ok done =>
    obtain ⟨-, pollers, rfl⟩ := Service.takeTick_frame tick
    obtain ⟨after, events⟩ := led made
    have events : x.events = [.polled (some ((c.readable x.before.store).map (·.id)))] ++
        (Service.offerAll { x.before with pollers } c
          ((c.readable x.before.store).filter fun r => !r.status.isTerminal)).2 := events
    refine .polled hm (fun _ r hr => List.mem_of_mem_filter hr) ?_ ?_ after events
    · intro r hr
      simpa using (List.mem_filter.mp hr).2
    · intro e he
      exact ⟨_, List.mem_singleton.mp he⟩
  | error e =>
    obtain ⟨after, events⟩ := led made
    exact .pollFailed hm (after ▸ tick) events

theorem Effect.of_answer {replies : Replies} (sound : ∀ w ∈ x.before.watchers, w.Sound c)
    (hm : x.move = .answer id replies) (made : x.Made c) : Effect c x := by
  unfold Transition.Made at made
  rw [hm] at made
  obtain ⟨w, hw, goes⟩ := Option.bind_eq_some_iff.mp made
  obtain ⟨next, answered, ends⟩ := Option.bind_eq_some_iff.mp goes
  obtain rfl := Watcher.id_of_watcher? hw
  obtain ⟨after, events⟩ := led ends
  unfold Watcher.answer at answered
  split at answered
  case h_2 => cases answered
  case h_1 since call calling =>
    obtain rfl := Option.some.inj answered
    have turn := Watcher.resume_turn (sound w (List.mem_of_find?_eq_some hw)) calling
      (.answer hm hw calling)
    exact .acted hw (by rw [hm]; rfl) turn after events

theorem Effect.of_expire (sound : ∀ w ∈ x.before.watchers, w.Sound c) (hm : x.move = .expire id)
    (made : x.Made c) : Effect c x := by
  unfold Transition.Made at made
  rw [hm] at made
  obtain ⟨w, hw, goes⟩ := Option.bind_eq_some_iff.mp made
  obtain ⟨limit, limited, waits⟩ := Option.bind_eq_some_iff.mp goes
  obtain rfl := Watcher.id_of_watcher? hw
  split at waits
  case h_2 => cases waits
  case h_1 since call calling =>
    split at waits
    case isFalse => cases waits
    case isTrue late =>
      obtain ⟨next, answered, ends⟩ := Option.bind_eq_some_iff.mp waits
      obtain ⟨after, events⟩ := led ends
      unfold Watcher.answer at answered
      rw [calling] at answered
      obtain rfl := Option.some.inj answered
      have turn := Watcher.resume_turn (sound w (List.mem_of_find?_eq_some hw)) calling
        (.expire hm hw calling limited late)
      exact .acted hw (by rw [hm]; rfl) turn after events

theorem Effect.of_stored {outcome : Except StorageError Unit}
    (sound : ∀ w ∈ x.before.watchers, w.Sound c) (hm : x.move = .stored id outcome)
    (made : x.Made c) : Effect c x := by
  unfold Transition.Made at made
  rw [hm] at made
  obtain ⟨w, hw, goes⟩ := Option.bind_eq_some_iff.mp made
  obtain rfl := Watcher.id_of_watcher? hw
  split at goes
  case h_2 => cases goes
  case h_1 r after writing =>
    have learned : x.Learns w.id r after outcome := ⟨hm, w, hw, writing⟩
    have turn := Watcher.stored_turn (sound w (List.mem_of_find?_eq_some hw)) writing learned
    obtain ⟨after, events⟩ := led goes
    exact .stored hw (by rw [hm]; rfl) learned turn after events

/-- Every move has one of the effects, as long as its watchers are sound. -/
theorem Effect.of_made (sound : ∀ w ∈ x.before.watchers, w.Sound c) (made : x.Made c) :
    Effect c x := by
  have taken := made
  unfold Transition.Made at taken
  cases hm : x.move with
  | insert => exact .of_insert hm made
  | poll => exact .of_poll hm made
  | answer => exact .of_answer sound hm made
  | expire => exact .of_expire sound hm made
  | stored => exact .of_stored sound hm made
  | place r =>
    rw [hm] at taken
    obtain ⟨after, events⟩ := led taken
    exact .placed hm after events
  | startPoller =>
    rw [hm] at taken
    obtain ⟨after, events⟩ := led taken
    exact .pollerStarted hm after events
  | wake id =>
    rw [hm] at taken
    obtain ⟨w, hw, goes⟩ := Option.bind_eq_some_iff.mp taken
    obtain ⟨next, woke, ends⟩ := Option.bind_eq_some_iff.mp goes
    obtain rfl := Watcher.id_of_watcher? hw
    obtain ⟨after, events⟩ := led ends
    exact .acted hw (by rw [hm]; rfl) (Watcher.wake_turn hm hw woke) after events
  | crash id =>
    rw [hm] at taken
    obtain ⟨w, hw, goes⟩ := Option.bind_eq_some_iff.mp taken
    obtain rfl := Watcher.id_of_watcher? hw
    obtain ⟨after, events⟩ := led goes
    exact .crashed hw hm after events
  | stop =>
    rw [hm] at taken
    obtain ⟨after, events⟩ := led taken
    exact .stopped hm after events
  | advance target =>
    simp only [hm, Service.apply] at taken
    split at taken
    case isFalse => cases taken
    case isTrue may =>
      obtain ⟨after, events⟩ := led taken
      exact .advanced hm (Service.mayPass_of_mayAdvance may) after events

end Moves

/-! ## Watchers after a move -/

namespace Service

theorem mem_replace {s : Service} {v w : Watcher} (hv : v ∈ (s.replace w).watchers) :
    v ∈ s.watchers ∧ v.id ≠ w.id ∨ v = w ∧ w.phase ≠ .done := by
  unfold replace at hv
  split at hv
  case isTrue gone =>
    obtain ⟨hv, other⟩ := List.mem_filter.mp hv
    exact .inl ⟨hv, by simpa using other⟩
  case isFalse live =>
    obtain ⟨u, hu, rfl⟩ := List.mem_map.mp hv
    split
    · exact .inr ⟨rfl, live⟩
    · next other => exact .inl ⟨hu, other⟩

/-- A turn touches its watcher and the marks only. -/
theorem replace_frame (s : Service) (w : Watcher) :
    ∃ marks watchers, s.replace w = { s with marks, watchers } := by
  unfold replace
  split
  · exact ⟨_, _, rfl⟩
  · exact ⟨s.marks, _, rfl⟩

theorem watcher?_replace (s : Service) (w : Watcher) (id : String) :
    (s.replace w).watcher? id =
      if w.id = id then if w.phase = .done then none else (s.watcher? id).map fun _ => w
      else s.watcher? id := by
  unfold replace watcher?
  split
  case isTrue gone =>
    dsimp only
    rw [List.find?_filter]
    by_cases h : w.id = id
    · simp [h]
    · rw [if_neg h]
      congr 1
      funext v
      by_cases hv : v.id = id
      · simp [hv, Ne.symm h]
      · simp [hv]
  case isFalse live =>
    have same : ((fun v : Watcher => decide (v.id = id)) ∘ fun v => if v.id = w.id then w else v) =
        fun v => decide (v.id = id) := by
      funext v
      by_cases hv : v.id = w.id <;> simp [hv]
    dsimp only
    rw [List.find?_map, same]
    cases found : s.watchers.find? fun v => decide (v.id = id) with
    | none => by_cases h : w.id = id <;> simp [h]
    | some v =>
      have hid : v.id = id := Watcher.id_of_watcher? found
      by_cases h : w.id = id
      · simp [hid, h]
      · simp [hid, h, Ne.symm h]

theorem written_frame (s : Service) (r : Record) (outcome : Except StorageError Unit) :
    ∃ store, s.written r outcome = { s with store } := by
  cases outcome with
  | ok done => exact ⟨_, rfl⟩
  | error e => exact ⟨s.store, rfl⟩

end Service

/-- A poll that the store answers offers the records that were read. -/
theorem Transition.Made.of_poll {c : Setup} {x : Transition} {poller : Nat} (made : x.Made c)
    (polled : x.move = .poll poller (.ok ())) :
    x.before.stopped = false ∧ ∃ pollers,
      x.after = (Service.take { x.before with pollers } c (c.readable x.before.store)).1 ∧
      x.events = (Service.take { x.before with pollers } c (c.readable x.before.store)).2 := by
  unfold Transition.Made at made
  rw [polled] at made
  obtain ⟨s, tick, made⟩ := Option.bind_eq_some_iff.mp made
  obtain ⟨running, pollers, rfl⟩ := Service.takeTick_frame tick
  obtain ⟨after, events⟩ := led made
  exact ⟨running, pollers, after, events⟩

/-- What a move does to the watchers and their marks. -/
inductive Shift (c : Setup) (x : Transition) : Prop
  | none (hm : x.move.actor = none) (watchers : x.after.watchers = x.before.watchers)
      (marks : x.after.marks = x.before.marks)
  | offers {pollers : List Poller} {records : List Record}
      (hm : ∃ poller, x.move = .poll poller (.ok ()))
      (read : x.Made c → ∀ r ∈ records, r ∈ c.readable x.before.store)
      (opened : ∀ r ∈ records, r.status.isTerminal = false)
      (after : x.after = (Service.offerAll { x.before with pollers } c records).1)
  | turn {w w' : Watcher} {events : List Event} {store : Store}
      (hw : x.before.watcher? w.id = some w) (hm : x.move.actor = some w.id)
      (turn : Turn c x w w' events) (after : x.after = { x.before with store }.replace w')
      (told : events ⊆ x.events)
  | crash {w : Watcher} (hm : x.move = .crash w.id)
      (after : x.after = x.before.replace { w with phase := .done })

theorem Effect.shift {c : Setup} {x : Transition} (effect : Effect c x) : Shift c x := by
  cases effect with
  | refused hm _ after | placed hm after | pollerStarted hm after | stopped hm after
  | advanced hm _ after => exact .none (by rw [hm]; rfl) (by rw [after]) (by rw [after])
  | inserted hm _ after =>
    obtain ⟨store, h⟩ := Service.written_frame x.before _ _
    exact .none (by rw [hm]; rfl) (by rw [after, h]) (by rw [after, h])
  | pollFailed hm tick =>
    obtain ⟨-, pollers, h⟩ := Service.takeTick_frame tick
    exact .none (by rw [hm]; rfl) (by rw [h]) (by rw [h])
  | polled hm read opened _ after => exact .offers ⟨_, hm⟩ read opened after
  | @acted w w' _ hw hm turn after events =>
    have after : x.after = Service.replace { x.before with store := x.before.store } w' := after
    refine .turn hw hm turn after ?_
    rw [events]
    exact List.subset_append_left _ _
  | stored hw hm _ turn after events =>
    obtain ⟨store, h⟩ := Service.written_frame x.before _ _
    refine .turn hw hm turn (h ▸ after) ?_
    rw [events]
    exact List.subset_cons_of_subset _ (List.subset_append_left _ _)
  | crashed _ hm after => exact .crash hm after

inductive Origin (c : Setup) (x : Transition) (v : Watcher) : Prop
  /-- The move is not its own. -/
  | idle (was : v ∈ x.before.watchers) (other : x.move.actor ≠ some v.id)
  /-- A poll has started it for a record without a final status. -/
  | started {r : Record} (hm : ∃ poller, x.move = .poll poller (.ok ()))
      (read : x.Made c → r ∈ c.readable x.before.store) (unsettled : r.status.isTerminal = false)
      (starts : x.before.Starts c r v) (new : v ∉ x.before.watchers)
  /-- It has made a turn. -/
  | turned {w : Watcher} {events : List Event} (hw : x.before.watcher? w.id = some w)
      (hm : x.move.actor = some w.id) (turn : Turn c x w v events) (live : v.phase ≠ .done)
      (told : events ⊆ x.events)

theorem Effect.origin {c : Setup} {x : Transition} (effect : Effect c x) {v : Watcher}
    (hv : v ∈ x.after.watchers) : Origin c x v := by
  cases effect.shift with
  | none hm watchers => exact .idle (watchers ▸ hv) (by simp [hm])
  | offers hm read opened after =>
    by_cases was : v ∈ x.before.watchers
    · obtain ⟨poller, hm⟩ := hm
      exact .idle was (by simp [hm, Move.actor])
    · rw [after] at hv
      obtain ⟨r, hr, starts⟩ := (Service.mem_watchers_offerAll hv).resolve_left was
      exact .started hm (fun made => read made r hr) (opened r hr)
        ⟨starts.running, starts.valid, starts.set⟩ was
  | turn hw hm turn after told =>
    rw [after] at hv
    rcases Service.mem_replace hv with ⟨was, other⟩ | ⟨rfl, live⟩
    · refine .idle was ?_
      rw [hm, ← turn.id_eq]
      simpa using other.symm
    · exact .turned hw hm turn live told
  | crash hm after =>
    rw [after] at hv
    rcases Service.mem_replace hv with ⟨was, other⟩ | ⟨rfl, live⟩
    · refine .idle was ?_
      rw [hm]
      exact fun h => other (Option.some.inj h).symm
    · exact absurd rfl live

/-- Only polls that are answered have watchers begin. -/
theorem Effect.unwatched_of_unpolled {c : Setup} {x : Transition} {id : String}
    (effect : Effect c x) (unpolled : ∀ poller, x.move ≠ .poll poller (.ok ()))
    (before : ∀ w ∈ x.before.watchers, w.id ≠ id) : ∀ w ∈ x.after.watchers, w.id ≠ id := by
  intro v hv
  cases effect.origin hv with
  | idle was _ => exact before v was
  | turned hw _ turn _ =>
    rw [turn.id_eq]
    exact before _ (List.mem_of_find?_eq_some hw)
  | started hm =>
    obtain ⟨poller, hm⟩ := hm
    exact absurd hm (unpolled poller)

/-- What becomes of the watcher of a record in a move. -/
inductive Fate (c : Setup) (x : Transition) (id : String) : Prop
  /-- The move is not its own. -/
  | same (other : x.move.actor ≠ some id) (kept : x.after.watcher? id = x.before.watcher? id)
  | started {r : Record} {w : Watcher} (hm : ∃ poller, x.move = .poll poller (.ok ()))
      (read : x.Made c → r ∈ c.readable x.before.store) (unsettled : r.status.isTerminal = false)
      (starts : x.before.Starts c r w) (fresh : x.before.watcher? id = none)
      (after : x.after.watcher? id = some w) : Fate c x id
  | turned {w w' : Watcher} {events : List Event} (hw : x.before.watcher? id = some w)
      (hm : x.move.actor = some id) (turn : Turn c x w w' events)
      (after : x.after.watcher? id = if w'.phase = .done then none else some w') : Fate c x id
  | crashed (hm : x.move = .crash id) (after : x.after.watcher? id = none) : Fate c x id

theorem Effect.fate {c : Setup} {x : Transition} (effect : Effect c x) (id : String) :
    Fate c x id := by
  cases effect.shift with
  | none hm watchers =>
    refine .same (by simp [hm]) ?_
    rw [Service.watcher?, watchers]
    rfl
  | @offers pollers records hm read opened after =>
    have other : x.move.actor ≠ some id := by
      obtain ⟨poller, hm⟩ := hm
      simp [hm, Move.actor]
    cases there : x.before.watcher? id with
    | some w =>
      refine .same other ?_
      rw [after, there]
      exact Service.watcher?_offerAll (s := { x.before with pollers }) there
    | none =>
      cases found : x.after.watcher? id with
      | none => exact .same other (found.trans there.symm)
      | some w =>
        have mem := List.mem_of_find?_eq_some found
        rw [after] at mem
        rcases Service.mem_watchers_offerAll mem with was | ⟨r, hr, starts⟩
        · have absent := List.find?_eq_none.mp there w was
          simp [Watcher.id_of_watcher? found] at absent
        · exact .started hm (fun made => read made r hr) (opened r hr)
            ⟨starts.running, starts.valid, starts.set⟩ there found
  | @turn w w' _ store hw hm turn after _ =>
    have there : Service.watcher? { x.before with store } w.id = some w := hw
    by_cases own : w.id = id
    · subst own
      refine .turned hw hm turn ?_
      rw [after, Service.watcher?_replace, if_pos turn.id_eq, there]
      rfl
    · refine .same (fun h => own (Option.some.inj (hm.symm.trans h))) ?_
      rw [after, Service.watcher?_replace, turn.id_eq, if_neg own]
      rfl
  | @crash w hm after =>
    by_cases own : w.id = id
    · subst own
      refine .crashed hm ?_
      rw [after]
      exact (Service.watcher?_replace ..).trans (if_pos rfl)
    · refine .same ?_ ?_
      · rw [hm]
        exact fun h => own (Option.some.inj h)
      · rw [after]
        exact (Service.watcher?_replace ..).trans (if_neg own)

/-- Where an event of a move comes from. -/
inductive Source (c : Setup) (x : Transition) : Event → Prop
  | inserted {id : String} {tx : SignedTx} {policy : Policy} {sender : Address}
      {outcome : Except StorageError Unit} {ok : Bool}
      (hm : x.move = .insert id tx policy sender outcome) (hok : ok = outcome.isOk) :
      Source c x (.wrote (.initial id tx sender policy x.before.now) ok)
  | polled (ids : Option (List String)) : Source c x (.polled ids)
  /-- A poll offers a record without a final status to be watched. -/
  | offered {r : Record} {e : Event} (hm : ∃ poller, x.move = .poll poller (.ok ()))
      (read : x.Made c → r ∈ c.readable x.before.store) (unsettled : r.status.isTerminal = false)
      (event : x.before.OfferEvent c r e) : Source c x e
  | turned {w w' : Watcher} {events : List Event} {e : Event}
      (hw : x.before.watcher? w.id = some w) (turn : Turn c x w w' events) (he : e ∈ events) :
      Source c x e
  | wrote {w w' : Watcher} {events : List Event} {r : Record} {then_ : AfterWrite}
      {outcome : Except StorageError Unit} {ok : Bool} (hw : x.before.watcher? w.id = some w)
      (learned : x.Learns w.id r then_ outcome) (turn : Turn c x w w' events)
      (after : x.after = (x.before.written r outcome).replace w')
      (events : x.events = .wrote r outcome.isOk :: (events ++ w'.farewell))
      (hok : ok = outcome.isOk) : Source c x (.wrote r ok)
  | ended {w w' : Watcher} {events : List Event} (hw : x.before.watcher? w.id = some w)
      (turn : Turn c x w w' events) (gone : w'.phase = .done) : Source c x (.ended w'.id)
  | crashed {w : Watcher} (hw : x.before.watcher? w.id = some w) (hm : x.move = .crash w.id) :
      Source c x (.crashed w.id)

theorem Effect.source {c : Setup} {x : Transition} {e : Event} (effect : Effect c x)
    (he : e ∈ x.events) : Source c x e := by
  have of_turn {w w' : Watcher} {events : List Event} (hw : x.before.watcher? w.id = some w)
      (turn : Turn c x w w' events) (h : e ∈ events ++ w'.farewell) : Source c x e := by
    rcases List.mem_append.mp h with h | h
    · exact .turned hw turn h
    · obtain ⟨gone, rfl⟩ := Watcher.of_mem_farewell h
      exact .ended hw turn gone
  cases effect with
  | refused _ _ _ events | placed _ _ events | pollerStarted _ _ events | stopped _ _ events
  | advanced _ _ _ events =>
    rw [events] at he
    cases he
  | inserted hm _ _ events =>
    rw [events] at he
    obtain rfl := List.mem_singleton.mp he
    exact .inserted hm rfl
  | pollFailed _ _ events =>
    rw [events] at he
    obtain rfl := List.mem_singleton.mp he
    exact .polled none
  | polled hm read opened told _ events =>
    rw [events] at he
    rcases List.mem_append.mp he with he | he
    · obtain ⟨ids, rfl⟩ := told e he
      exact .polled ids
    · obtain ⟨r, hr, event⟩ := Service.event_offerAll he
      exact .offered ⟨_, hm⟩ (fun made => read made r hr) (opened r hr) (event.congr rfl rfl)
  | acted hw _ turn _ events => exact of_turn hw turn (events ▸ he)
  | stored hw _ learned turn after events =>
    rw [events] at he
    rcases List.mem_cons.mp he with rfl | he
    · exact .wrote hw learned turn after events rfl
    · exact of_turn hw turn he
  | crashed hw hm _ events =>
    rw [events] at he
    obtain rfl := List.mem_singleton.mp he
    exact .crashed hw hm

/-- A record that a watcher has written is the one that it waited for the store to take. -/
theorem Effect.writing_of_wrote {c : Setup} {x : Transition} {id : String}
    {outcome : Except StorageError Unit} {r : Record} {ok : Bool} (effect : Effect c x)
    (hm : x.move = .stored id outcome) (wrote : .wrote r ok ∈ x.events) :
    ∃ w ∈ x.before.watchers, w.id = id ∧ ∃ after, w.phase = .writing r after := by
  cases effect.source wrote with
  | inserted h => cases hm.symm.trans h
  | offered _ _ _ event => cases event
  | turned _ turn h => exact absurd h turn.not_wrote
  | wrote _ learned =>
    obtain ⟨h, w, hw, writing⟩ := learned
    obtain ⟨rfl, -⟩ := Move.stored.inj (hm.symm.trans h)
    exact ⟨w, List.mem_of_find?_eq_some hw, Watcher.id_of_watcher? hw, _, writing⟩

theorem Service.Starts.sound {c : Setup} {s : Service} {r : Record} {w : Watcher}
    (starts : s.Starts c r w) : w.Sound c := by
  obtain ⟨record, phase, deadline, -, -⟩ := Watcher.start?_eq_some starts.set
  refine ⟨record ▸ deadline, ?_⟩
  rw [phase]
  trivial

theorem Effect.sound {c : Setup} {x : Transition} (effect : Effect c x)
    (before : ∀ w ∈ x.before.watchers, w.Sound c) : ∀ w ∈ x.after.watchers, w.Sound c := by
  intro v hv
  cases effect.origin hv with
  | idle was _ => exact before v was
  | started _ _ _ starts => exact starts.sound
  | turned hw _ turn _ => exact turn.sound (before _ (List.mem_of_find?_eq_some hw))

/-- In every history the watchers are sound. -/
theorem History.sound {c : Setup} {past : List Transition} {s : Service} (run : History c past s) :
    ∀ w ∈ s.watchers, w.Sound c := by
  induction run with
  | start now =>
    intro w hw
    cases hw
  | step _ made ih => exact (Effect.of_made (x := ⟨_, _, _, _⟩) ih made).sound ih

/-- Every move of a history has one of the effects. -/
theorem History.effect {c : Setup} {past : List Transition} {x : Transition} {s : Service}
    (run : History c (x :: past) s) : Effect c x := by
  obtain ⟨before, made, -⟩ := cons_iff.mp run
  exact .of_made before.sound made

/-! ## Time and the stop signal -/

/-- Time passes only when the clock moves, and the service is stopped only by a stop. -/
theorem Effect.frame {c : Setup} {x : Transition} (effect : Effect c x) :
    (x.move ≠ .stop ∧ x.after.now = x.before.now ∧ x.after.stopped = x.before.stopped) ∨
      (x.move = .stop ∧ x.after = { x.before with stopped := true }) ∨
        ∃ target, x.move = .advance target ∧ x.before.MayPass c target ∧
          x.after = { x.before with now := target } := by
  have of_actor {id : String} (hm : x.move.actor = some id) : x.move ≠ .stop := by
    intro h
    rw [h] at hm
    cases hm
  cases effect with
  | refused hm _ after | placed hm after | pollerStarted hm after =>
    rw [hm, after]
    exact .inl ⟨nofun, rfl, rfl⟩
  | inserted hm _ after =>
    obtain ⟨store, h⟩ := Service.written_frame x.before _ _
    rw [hm, after, h]
    exact .inl ⟨nofun, rfl, rfl⟩
  | @polled _ pollers records _ hm _ _ _ after =>
    obtain ⟨marks, watchers, h⟩ := Service.offerAll_frame { x.before with pollers } c records
    rw [hm, after, h]
    exact .inl ⟨nofun, rfl, rfl⟩
  | pollFailed hm tick =>
    obtain ⟨-, pollers, h⟩ := Service.takeTick_frame tick
    rw [hm, h]
    exact .inl ⟨nofun, rfl, rfl⟩
  | acted _ hm _ after =>
    obtain ⟨marks, watchers, h⟩ := Service.replace_frame x.before _
    rw [after, h]
    exact .inl ⟨of_actor hm, rfl, rfl⟩
  | crashed _ hm after =>
    obtain ⟨marks, watchers, h⟩ := Service.replace_frame x.before _
    rw [hm, after, h]
    exact .inl ⟨nofun, rfl, rfl⟩
  | stored _ hm _ _ after =>
    obtain ⟨store, h⟩ := Service.written_frame x.before _ _
    obtain ⟨marks, watchers, h'⟩ := Service.replace_frame (x.before.written _ _) _
    rw [after, h', h]
    exact .inl ⟨of_actor hm, rfl, rfl⟩
  | stopped hm after => exact .inr (.inl ⟨hm, after⟩)
  | advanced hm may after => exact .inr (.inr ⟨_, hm, may, after⟩)

/-- The stop signal changes nothing else. -/
theorem Effect.of_stop {c : Setup} {x : Transition} (effect : Effect c x) (stop : x.move = .stop) :
    x.after = { x.before with stopped := true } := by
  rcases effect.frame with ⟨other, -⟩ | ⟨-, after⟩ | ⟨target, advance, -⟩
  · exact absurd stop other
  · exact after
  · cases stop.symm.trans advance

/-- A service stays stopped. -/
theorem Effect.stopped_after {c : Setup} {x : Transition} (effect : Effect c x)
    (stopped : x.before.stopped = true) : x.after.stopped = true := by
  rcases effect.frame with ⟨-, -, same⟩ | ⟨-, after⟩ | ⟨target, -, -, after⟩
  · exact same.trans stopped
  · rw [after]
  · rw [after]
    exact stopped

/-- A service that runs has never been stopped. -/
theorem History.not_stop {c : Setup} {past : List Transition} {s : Service} (run : History c past s)
    (running : s.stopped = false) : ∀ x ∈ past, x.move ≠ .stop := by
  induction run with
  | start now => simp
  | @step past s s' m events before made ih =>
    have effect := (before.step made).effect
    have earlier : s.stopped = false := by
      by_contra stopped
      have still : s'.stopped = true := effect.stopped_after (by simpa using stopped)
      simp [still] at running
    intro x hx
    rcases List.mem_cons.mp hx with rfl | hx
    · rcases effect.frame with ⟨other, -⟩ | ⟨-, after⟩ | ⟨target, advance, -⟩
      · exact other
      · have still : s'.stopped = true := congrArg Service.stopped after
        simp [still] at running
      · rw [advance]
        nofun
    · exact ih earlier x hx

/-! ## The store after a move -/

/-- The record that a watcher writes is its own. -/
theorem Watcher.Sound.id_of_writing {c : Setup} {w : Watcher} {r : Record} {after : AfterWrite}
    (sound : w.Sound c) (writing : w.phase = .writing r after) : r.id = w.id := by
  have about := sound.2
  rw [writing] at about
  cases after with
  | finish => rcases about with rfl | rfl <;> rfl
  | giveUp => rw [about]; rfl
  | resume =>
    obtain ⟨tx, -, rfl⟩ := about
    rfl

/-- Where a record comes from that a move stores. -/
inductive Transition.Stores (x : Transition) : Record → Prop
  | inserted {id : String} {tx : SignedTx} {policy : Policy} {sender : Address}
      (hm : x.move = .insert id tx policy sender (.ok ())) (valid : policy.validate = .ok ()) :
      Stores x (.initial id tx sender policy x.before.now)
  | placed {r : Record} (hm : x.move = .place r) : Stores x r
  | learned {r : Record} {after : AfterWrite} (learned : x.Learns r.id r after (.ok ())) :
      Stores x r

/-- A move stores at most one record. -/
theorem Effect.store_cases {c : Setup} {x : Transition} (effect : Effect c x)
    (sound : ∀ w ∈ x.before.watchers, w.Sound c) :
    x.after.store = x.before.store ∨
      ∃ r, x.after.store = x.before.store.upsert r ∧ x.Stores r := by
  cases effect with
  | refused _ _ after | pollerStarted _ after | stopped _ after | advanced _ _ after =>
    exact .inl (by rw [after])
  | pollFailed _ tick =>
    obtain ⟨-, pollers, h⟩ := Service.takeTick_frame tick
    exact .inl (by rw [h])
  | @polled _ pollers records _ _ _ _ _ after =>
    obtain ⟨marks, watchers, h⟩ := Service.offerAll_frame { x.before with pollers } c records
    exact .inl (by rw [after, h])
  | acted _ _ _ after | crashed _ _ after =>
    obtain ⟨marks, watchers, h⟩ := Service.replace_frame x.before _
    exact .inl (by rw [after, h])
  | placed hm after => exact .inr ⟨_, by rw [after], .placed hm⟩
  | @inserted _ _ _ _ outcome hm valid after =>
    cases outcome with
    | error e => exact .inl (by rw [after]; rfl)
    | ok done => exact .inr ⟨_, by rw [after]; rfl, .inserted hm valid⟩
  | @stored w w' _ r then_ outcome hw _ learned _ after =>
    obtain ⟨marks, watchers, h⟩ := Service.replace_frame (x.before.written r outcome) w'
    cases outcome with
    | error e => exact .inl (by rw [after, h]; rfl)
    | ok done =>
      have own := (sound w (List.mem_of_find?_eq_some hw)).id_of_writing (learned.writing hw)
      exact .inr ⟨r, by rw [after, h]; rfl, .learned (own ▸ learned)⟩

/-- The record under an id changes only when one is stored from outside or by its watcher. -/
theorem Effect.get?_cases {c : Setup} {x : Transition} (effect : Effect c x)
    (sound : ∀ w ∈ x.before.watchers, w.Sound c) (id : String) :
    x.after.store.get? id = x.before.store.get? id ∨
      ∃ r, x.after.store.get? id = some r ∧
        (x.move.introduces id = true ∨ ∃ after, x.Learns id r after (.ok ())) := by
  rcases effect.store_cases sound with same | ⟨r, store, stores⟩
  · exact .inl (by rw [same])
  by_cases own : r.id = id
  · subst own
    refine .inr ⟨r, by rw [store, Store.get?_upsert, if_pos rfl], ?_⟩
    cases stores with
    | inserted hm | placed hm => exact .inl (by rw [hm]; exact decide_eq_true rfl)
    | learned learned => exact .inr ⟨_, learned⟩
  · exact .inl (by rw [store, Store.get?_upsert, if_neg own])

end GasEscalator
