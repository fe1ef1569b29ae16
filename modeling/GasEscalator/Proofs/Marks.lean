import GasEscalator.Proofs.Chronicles

/-!
# Marks

A record is marked exactly as long as it has a watcher. Marks and watchers are kept apart: an offer
marks an id before its watcher begins, and a watcher takes its own mark away when it leaves,
whichever way it goes.
-/
namespace GasEscalator

namespace WatchSet

variable {s t : WatchSet} {id : String} {g : Guard}

theorem of_guard? (h : s.guard? id = some (g, t)) :
    g.id = id ∧ id ∉ s.ids ∧ t.ids = id :: s.ids := by
  unfold guard? at h
  split at h
  case isTrue => cases h
  case isFalse free =>
    have free : id ∉ s.ids := by simpa [contains] using free
    obtain ⟨rfl, rfl⟩ := Prod.mk.inj (Option.some.inj h)
    exact ⟨rfl, free, by rw [mark, dif_neg free]⟩

/-- A claim that is given up at once leaves no mark behind. -/
theorem ids_release (h : s.guard? id = some (g, t)) : (t.release g).ids = s.ids := by
  obtain ⟨rfl, free, marked⟩ := of_guard? h
  have others : ∀ i ∈ s.ids, i ≠ g.id := fun i hi e => free (e ▸ hi)
  simpa [release, unmark, marked, List.filter_eq_self] using others

end WatchSet

/-- The marked ids are those of the watchers. -/
def Service.Guarded (s : Service) : Prop := s.marks.ids.Perm (s.watchers.map (·.id))

namespace Service.Guarded

variable {s : Service}

theorem replace (guarded : s.Guarded) (w : Watcher) : (s.replace w).Guarded := by
  unfold Service.replace
  split
  case isTrue gone =>
    have kept := List.Perm.filter (· ≠ w.id) guarded
    rw [List.filter_map] at kept
    exact kept
  case isFalse live =>
    have same : (s.watchers.map fun v => if v.id = w.id then w else v).map (·.id) =
        s.watchers.map (·.id) := by
      rw [List.map_map]
      apply List.map_congr_left
      intro v _
      by_cases h : v.id = w.id <;> simp [h]
    unfold Guarded
    rw [same]
    exact guarded

theorem offer (guarded : s.Guarded) (c : Setup) (r : Record) : (s.offer c r).1.Guarded := by
  unfold Service.offer
  split
  · exact guarded
  split
  · exact guarded
  split
  · exact guarded
  case h_2 guard marks claimed =>
    split
    case h_1 w set =>
      have hid : w.id = r.id := congrArg Record.id (Watcher.start?_eq_some set).1
      show marks.ids.Perm ((s.watchers ++ [w]).map (·.id))
      rw [(WatchSet.of_guard? claimed).2.2, List.map_append, List.map_singleton, hid]
      exact (guarded.cons r.id).trans (List.perm_append_singleton r.id _).symm
    case h_2 =>
      -- the mark was set before the timers, and falls with the guard
      show (marks.release guard).ids.Perm (s.watchers.map (·.id))
      rw [WatchSet.ids_release claimed]
      exact guarded

theorem offerAll (guarded : s.Guarded) (c : Setup) (records : List Record) :
    (s.offerAll c records).1.Guarded := by
  induction records generalizing s with
  | nil => exact guarded
  | cons r rest ih => exact ih (guarded.offer c r)

end Service.Guarded

namespace Service

/-- The id of a record without a watcher can be claimed. -/
theorem Guarded.claimed {s : Service} {id : String} (guarded : s.Guarded)
    (unwatched : ∀ v ∈ s.watchers, v.id ≠ id) :
    s.marks.contains id = false ∧ s.marks.guard? id = some (⟨id⟩, s.marks.mark id) := by
  have unmarked : s.marks.contains id = false := by
    simpa [WatchSet.contains, guarded.mem_iff] using unwatched
  exact ⟨unmarked, if_neg (by simp [unmarked])⟩

/-- Nothing but a watcher or a stop keeps an offered record from being watched. -/
theorem mem_offer {s : Service} {c : Setup} {r : Record} {w : Watcher} (guarded : s.Guarded)
    (unwatched : ∀ v ∈ s.watchers, v.id ≠ r.id) (starts : s.Starts c r w) :
    w ∈ (s.offer c r).1.watchers := by
  obtain ⟨unmarked, claimed⟩ := guarded.claimed unwatched
  simp [offer, starts.running, unmarked, starts.valid, claimed, starts.set]

/-- A watcher that begins says so, even if it has to leave at once. -/
theorem started_offer {s : Service} {c : Setup} {r : Record} (guarded : s.Guarded)
    (unwatched : ∀ v ∈ s.watchers, v.id ≠ r.id) (running : s.stopped = false)
    (valid : r.policy.validate = .ok ()) : .started r.id ∈ (s.offer c r).2 := by
  obtain ⟨unmarked, claimed⟩ := guarded.claimed unwatched
  cases set : Watcher.start? s.now (c.uptime s.now) r with
  | some w => simp [offer, running, unmarked, valid, claimed, set]
  | none => simp [offer, running, unmarked, valid, claimed, set]

/-- A watcher that cannot set its timers is brought down as it begins. -/
theorem crashed_offer {s : Service} {c : Setup} {r : Record} (guarded : s.Guarded)
    (unwatched : ∀ v ∈ s.watchers, v.id ≠ r.id) (running : s.stopped = false)
    (valid : r.policy.validate = .ok ()) (unset : Watcher.start? s.now (c.uptime s.now) r = none) :
    .crashed r.id ∈ (s.offer c r).2 := by
  obtain ⟨unmarked, claimed⟩ := guarded.claimed unwatched
  simp [offer, running, unmarked, valid, claimed, unset]

/-- Only a record without a watcher gets one. -/
theorem unwatched_of_started {s : Service} {c : Setup} {r : Record} (guarded : s.Guarded)
    (started : .started r.id ∈ (s.offer c r).2) : ∀ v ∈ s.watchers, v.id ≠ r.id := by
  rintro v hv watched
  have marked : s.marks.contains r.id = true := by
    simpa [WatchSet.contains, guarded.mem_iff] using ⟨v, hv, watched⟩
  simp [offer, marked] at started

/-- Of records with distinct ids each finds its own id as it was when its turn comes. -/
theorem exists_offer {s : Service} {c : Setup} {records : List Record} {r : Record} (guarded : s.Guarded)
    (unwatched : ∀ v ∈ s.watchers, v.id ≠ r.id) (distinct : (records.map (·.id)).Nodup)
    (mem : r ∈ records) :
    ∃ t : Service, t.Guarded ∧ (∀ v ∈ t.watchers, v.id ≠ r.id) ∧
      (∃ marks watchers, t = { s with marks, watchers }) ∧
      (t.offer c r).1.watchers ⊆ (s.offerAll c records).1.watchers ∧
      (t.offer c r).2 ⊆ (s.offerAll c records).2 := by
  induction records generalizing s with
  | nil => cases mem
  | cons first rest ih =>
    obtain ⟨new, distinct⟩ := List.nodup_cons.mp distinct
    rw [offerAll_cons]
    rcases List.mem_cons.mp mem with rfl | mem
    · obtain ⟨more, h⟩ := watchers_offerAll (s.offer c r).1 c rest
      refine ⟨s, guarded, unwatched, ⟨s.marks, s.watchers, rfl⟩, ?_, List.subset_append_left _ _⟩
      dsimp only
      rw [h]
      exact List.subset_append_left _ _
    · have other : first.id ≠ r.id := by
        intro h
        apply new
        dsimp only
        rw [h]
        exact List.mem_map_of_mem mem
      -- an offer of another record leaves this one as it was
      have unwatched' : ∀ v ∈ (s.offer c first).1.watchers, v.id ≠ r.id := by
        intro v hv
        rcases mem_watchers_offer hv with was | starts
        · exact unwatched v was
        · have hid : v.id = first.id := congrArg Record.id (Watcher.start?_eq_some starts.set).1
          rw [hid]
          exact other
      obtain ⟨t, guarded', alone, ⟨marks, watchers, rfl⟩, kept, told⟩ :=
        ih (guarded.offer c first) unwatched' distinct mem
      obtain ⟨marks', watchers', h⟩ := offer_frame s c first
      exact ⟨_, guarded', alone, ⟨marks, watchers, by rw [h]⟩, kept,
        List.subset_append_of_subset_right _ told⟩

theorem mem_offerAll {s : Service} {c : Setup} {records : List Record} {r : Record} {w : Watcher}
    (guarded : s.Guarded) (unwatched : ∀ v ∈ s.watchers, v.id ≠ r.id) (starts : s.Starts c r w)
    (distinct : (records.map (·.id)).Nodup) (mem : r ∈ records) :
    w ∈ (s.offerAll c records).1.watchers := by
  obtain ⟨t, guarded', alone, ⟨marks, watchers, rfl⟩, kept, -⟩ :=
    exists_offer guarded unwatched distinct mem
  exact kept (mem_offer guarded' alone ⟨starts.running, starts.valid, starts.set⟩)

theorem started_offerAll {s : Service} {c : Setup} {records : List Record} {r : Record}
    (guarded : s.Guarded) (unwatched : ∀ v ∈ s.watchers, v.id ≠ r.id) (running : s.stopped = false)
    (valid : r.policy.validate = .ok ()) (distinct : (records.map (·.id)).Nodup)
    (mem : r ∈ records) : .started r.id ∈ (s.offerAll c records).2 := by
  obtain ⟨t, guarded', alone, ⟨marks, watchers, rfl⟩, -, told⟩ :=
    exists_offer guarded unwatched distinct mem
  exact told (started_offer guarded' alone running valid)

theorem crashed_offerAll {s : Service} {c : Setup} {records : List Record} {r : Record}
    (guarded : s.Guarded) (unwatched : ∀ v ∈ s.watchers, v.id ≠ r.id) (running : s.stopped = false)
    (valid : r.policy.validate = .ok ()) (unset : Watcher.start? s.now (c.uptime s.now) r = none)
    (distinct : (records.map (·.id)).Nodup) (mem : r ∈ records) :
    .crashed r.id ∈ (s.offerAll c records).2 := by
  obtain ⟨t, guarded', alone, ⟨marks, watchers, rfl⟩, -, told⟩ :=
    exists_offer guarded unwatched distinct mem
  exact told (crashed_offer guarded' alone running valid unset)

end Service

theorem Effect.guarded {c : Setup} {x : Transition} (effect : Effect c x)
    (before : x.before.Guarded) : x.after.Guarded := by
  cases effect.shift with
  | none _ watchers marks =>
    unfold Service.Guarded
    rw [watchers, marks]
    exact before
  | @offers pollers _ _ _ _ after =>
    rw [after]
    exact Service.Guarded.offerAll (s := { x.before with pollers }) before c _
  | @turn _ _ _ store _ _ _ after =>
    rw [after]
    exact Service.Guarded.replace (s := { x.before with store }) before _
  | crash _ after =>
    rw [after]
    exact before.replace _

namespace Chronicle

variable {c : Setup} {past : List Transition} {s : Service}

theorem guarded (run : Chronicle c past s) : s.Guarded := by
  induction run with
  | start now => exact .nil
  | step _ effect _ _ _ ih => exact effect.guarded ih

theorem watchers_nodup (run : Chronicle c past s) : (s.watchers.map (·.id)).Nodup :=
  run.guarded.nodup_iff.mp s.marks.nodup

theorem watcher?_of_mem {w : Watcher} (run : Chronicle c past s) (hw : w ∈ s.watchers) :
    s.watcher? w.id = some w := by
  cases found : s.watcher? w.id with
  | none => simpa using List.find?_eq_none.mp found w hw
  | some v =>
    have hv := List.mem_of_find?_eq_some found
    rw [List.inj_on_of_nodup_map run.watchers_nodup hv hw (Watcher.id_of_watcher? found)]

end Chronicle

/-! ## Starts -/

/-- A watcher begins in a move: the move says so, or has a watcher that was not there before. -/
def Transition.Starts (x : Transition) (id : String) : Prop :=
  .started id ∈ x.events ∨
    ∃ w ∈ x.after.watchers, w.id = id ∧ ∀ v ∈ x.before.watchers, v.id ≠ id

/-- Polls start watchers, for records that they have read at once or before. -/
theorem Effect.of_starts {c : Setup} {x : Transition} {id : String} (effect : Effect c x)
    (starts : x.Starts id) :
    x.before.stopped = false ∧ ∃ poller r, x.move = .poll poller (.ok ()) ∧
      (x.Made c → r ∈ c.readable x.before.store) ∧ r.id = id ∧ r.status.isTerminal = false ∧
        r.policy.validate = .ok () := by
  rcases starts with event | ⟨w, hw, rfl, new⟩
  · cases effect.source event with
    | turned _ turn h =>
      rcases turn.event_cases h with ⟨_, h⟩ | ⟨_, _, h⟩ | ⟨_, h⟩ <;> cases h
    | offered hm read unsettled event =>
      obtain ⟨poller, hm⟩ := hm
      cases event with
      | started running valid => exact ⟨running, poller, _, hm, read, rfl, unsettled, valid⟩
  · cases effect.origin hw with
    | idle was _ => exact absurd rfl (new w was)
    | turned hv _ turn _ => exact absurd turn.id_eq.symm (new _ (List.mem_of_find?_eq_some hv))
    | started hm read unsettled starts =>
      obtain ⟨poller, hm⟩ := hm
      obtain ⟨rfl, -⟩ := Watcher.start?_eq_some starts.set
      exact ⟨starts.running, poller, _, hm, read, rfl, unsettled, starts.valid⟩

/-- **A record is marked exactly as long as it has a watcher, and it has one at most.** In every
history the marks are the ids of the watchers, one of each, and a watcher begins only for an open
record with a usable policy that a poll has read, before any stop. The polls of these histories are
answered at once. -/
theorem marks_are_watched_ids {c : Setup} {past : List Transition} {s : Service}
    (run : History c past s) :
    s.marks.ids.Perm (s.watchers.map (·.id)) ∧ (s.watchers.map (·.id)).Nodup ∧
      s.marks.size = s.watchers.length ∧
    ∀ later x earlier id, past = later ++ x :: earlier → x.Starts id →
      (∃ poller r, x.move = .poll poller (.ok ()) ∧ r ∈ c.readable x.before.store ∧ r.id = id ∧
        r.status.isTerminal = false ∧ r.policy.validate = .ok ()) ∧
      ∀ y ∈ x :: earlier, y.move ≠ .stop := by
  have guarded := run.chronicle.guarded
  refine ⟨guarded, run.chronicle.watchers_nodup, ?_, ?_⟩
  · simpa [WatchSet.size] using guarded.length_eq
  · rintro later x earlier id rfl starts
    have upto := run.of_append
    obtain ⟨before, made, -⟩ := History.cons_iff.mp upto
    obtain ⟨running, poller, r, hm, read, opened⟩ := upto.effect.of_starts starts
    refine ⟨⟨poller, r, hm, read made, opened⟩, ?_⟩
    intro y hy
    rcases List.mem_cons.mp hy with rfl | hy
    · rw [hm]
      nofun
    · exact before.not_stop running y hy

/-- The sample's watcher is brought down, and the next poll starts another. -/
def Sample.recovering : List Move :=
  begun record ++ [.crash "a", .advance (.ofMillis 20000), .poll 0 (.ok ())]

theorem recovering_sample_is_marked_once : ∃ x past s, History Sample.setup (x :: past) s ∧
    (x :: past).map (·.move) = Sample.recovering.reverse ∧ x.Starts "a" ∧
    s.marks.ids = ["a"] ∧ s.watchers.length = 1 ∧ ∀ y ∈ x :: past, y.move ≠ .stop := by
  obtain ⟨all, s, run, moves, passed⟩ := History.exists_of_replay (c := Sample.setup)
    Sample.recovering ⟨0⟩
    (fun all => all.head?.any fun x => .started "a" ∈ x.events ∧ x.after.marks.ids = ["a"])
    (by decide +kernel)
  obtain ⟨x, hx, passed⟩ := (Option.any_eq_true ..).mp passed
  obtain ⟨past, rfl⟩ := List.head?_eq_some_iff.mp hx
  obtain ⟨started, marked⟩ := of_decide_eq_true passed
  obtain ⟨-, -, rfl⟩ := History.cons_iff.mp run
  obtain ⟨-, -, size, starts⟩ := marks_are_watched_ids run
  refine ⟨x, past, x.after, run, moves, .inl started, marked, ?_, ?_⟩
  · rw [← size, WatchSet.size, marked]
    rfl
  · exact (starts [] x past "a" rfl (.inl started)).2

end GasEscalator
