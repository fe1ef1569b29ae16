import GasEscalator.Proofs.Chronicles

/-!
# Watchers' copies

A watcher reads its record from the store once and works on its own copy from then on. As long as
nobody disturbs the record, the copy is the stored record at every point: a write that works changes
both, one that fails changes neither, and a later watcher starts from what is stored. Where a poll is
not answered at once a watcher may start from less, but always from what was stored at some time.
-/
namespace GasEscalator

/-- What a watcher has had stored is what the store answers. -/
theorem Transition.Learns.get? {c : Setup} {x : Transition} {w : Watcher} {r : Record}
    {after : AfterWrite} (learned : x.Learns w.id r after (.ok ())) (made : x.Made c)
    (sound : ∀ w ∈ x.before.watchers, w.Sound c) : x.after.store.get? w.id = some r := by
  have ⟨_, v, hv, writing⟩ := learned
  have hid := (sound v (List.mem_of_find?_eq_some hv)).id_of_writing writing
  have same := Watcher.id_of_watcher? hv
  rw [← same] at learned hv ⊢
  obtain ⟨marks, watchers, h⟩ := Service.replace_frame (x.before.written r (.ok ())) _
  rw [learned.after hv made, h, Service.written, Store.get?_upsert, if_pos hid]

/-- A transaction that is handed over is stored. -/
theorem Effect.get?_of_insert {c : Setup} {x : Transition} {id : String} {tx : SignedTx}
    {policy : Policy} {sender : Address} (effect : Effect c x)
    (inserted : x.move = .insert id tx policy sender (.ok ())) (valid : policy.validate = .ok ()) :
    x.after.store.get? id = some (.initial id tx sender policy x.before.now) := by
  cases effect with
  | placed h | pollerStarted h | polled h | pollFailed h | stopped h | advanced h =>
    rw [inserted] at h
    cases h
  | acted _ hm | stored _ hm | crashed _ hm =>
    rw [inserted] at hm
    cases hm
  | refused h invalid =>
    rw [inserted] at h
    obtain ⟨-, -, rfl, -⟩ := Move.insert.inj h
    rw [valid] at invalid
    cases invalid
  | inserted h _ after =>
    rw [inserted] at h
    obtain ⟨rfl, rfl, rfl, rfl, rfl⟩ := Move.insert.inj h
    rw [after, Service.written, Store.get?_upsert]
    exact if_pos rfl

/-- Watchers introduce no record. -/
theorem Move.not_introduces_of_actor {m : Move} {id i : String} (h : m.actor = some i) :
    m.introduces id = false := by
  cases m with
  | insert => cases h
  | place => cases h
  | _ => rfl

/-- A move that does not disturb a record keeps its watchers' copies up to date. -/
theorem Effect.copy_stored {c : Setup} {x : Transition} {id : String} (effect : Effect c x)
    (acts : ∀ id, x.move.actor = some id → x.Made c) (sound : ∀ w ∈ x.before.watchers, w.Sound c)
    (calm : ¬ x.Disturbs id)
    (copies : ∀ w ∈ x.before.watchers, w.id = id → x.before.store.get? id = some w.record) :
    ∀ w ∈ x.after.watchers, w.id = id → x.after.store.get? id = some w.record := by
  intro v hv hid
  have outcome := effect.get?_cases sound id
  cases effect.origin hv with
  | idle was other =>
    rcases outcome with same | ⟨r, -, introduced | ⟨after, hm, -⟩⟩
    · exact same.trans (copies v was hid)
    · exact absurd (.inl ⟨introduced, by rw [copies v was hid]; rfl⟩) calm
    · exact absurd (by rw [hm, hid]; rfl) other
  | started polled _ _ _ new =>
    have stored : x.before.store.get? id = some v.record := by
      by_contra stale
      exact calm (.inr ⟨polled, v, hv, new, hid, stale⟩)
    obtain ⟨poller, polled⟩ := polled
    rw [effect.store_eq_of_poll sound polled]
    exact stored
  | @turned w events hw hm turn live =>
    obtain rfl : w.id = id := turn.id_eq ▸ hid
    rcases turn.record_cases with same | ⟨tx, -, -, learned⟩
    case inr => exact learned.get? (acts _ hm) sound
    rcases outcome with kept | ⟨r, stored, introduced | ⟨after, learned⟩⟩
    · rw [kept, same]
      exact copies w (List.mem_of_find?_eq_some hw) rfl
    · rw [Move.not_introduces_of_actor hm] at introduced
      cases introduced
    · obtain ⟨-, ⟨-, rfl⟩ | ⟨-, rfl⟩⟩ := turn.of_learned_ok learned
      · exact stored
      · exact absurd rfl live

namespace Chronicle

variable {c : Setup} {past later : List Transition} {x : Transition} {s : Service} {id : String}

/-- A watcher's copy is the stored record, as long as nobody disturbs it. -/
theorem copy_stored (run : Chronicle c past s) (calm : ∀ x ∈ past, ¬ x.Disturbs id) :
    ∀ w ∈ s.watchers, w.id = id → s.store.get? id = some w.record := by
  induction run with
  | start now =>
    intro w hw
    cases hw
  | @step past x before effect acts _ _ ih =>
    exact effect.copy_stored acts before.sound (calm x List.mem_cons_self)
      (ih fun y hy => calm y (List.mem_cons_of_mem x hy))

/-- A watcher's copy was stored at some time, whoever disturbs the record. -/
theorem copy_seen (run : Chronicle c past s) :
    ∀ w ∈ s.watchers, ∃ y ∈ past, y.after.store.get? w.id = some w.record := by
  induction run with
  | start now =>
    intro w hw
    cases hw
  | @step past x before effect acts _ seen ih =>
    intro v hv
    have earlier {w : Watcher} (was : w ∈ x.before.watchers) :
        ∃ y ∈ x :: past, y.after.store.get? w.id = some w.record := by
      obtain ⟨y, hy, stored⟩ := ih w was
      exact ⟨y, List.mem_cons_of_mem x hy, stored⟩
    cases effect.origin hv with
    | idle was => exact earlier was
    | started polled _ _ _ new =>
      obtain ⟨poller, polled⟩ := polled
      have unturned : x.move.actor ≠ some v.id := by
        rw [polled]
        nofun
      exact ((seen v hv).resolve_left new).resolve_left unturned
    | turned hw hm turn =>
      rcases turn.record_cases with same | ⟨tx, -, -, learned⟩
      · rw [turn.id_eq, same]
        exact earlier (List.mem_of_find?_eq_some hw)
      · exact ⟨x, List.mem_cons_self, turn.id_eq ▸ learned.get? (acts _ hm) before.sound⟩

theorem stored_since (run : Chronicle c (later ++ x :: past) s)
    (stored : (x.after.store.get? id).isSome = true) : (s.store.get? id).isSome = true := by
  refine run.since (P := fun _ t => (t.store.get? id).isSome = true) stored ?_
  intro y later upto so_far
  rcases upto.effect.get?_cases upto.before.sound id with same | ⟨r, stored', -⟩
  · rw [same, so_far]
  · rw [stored']
    rfl

/-- What was stored at some time is not taken away. -/
theorem stored_of_mem {r : Record} (run : Chronicle c past s) (hx : x ∈ past)
    (stored : x.after.store.get? id = some r) : (s.store.get? id).isSome = true := by
  obtain ⟨later, earlier, rfl⟩ := List.append_of_mem hx
  exact run.stored_since (by rw [stored]; rfl)

/-- What holds of all versions of a record holds of the copies. -/
theorem of_versions {Q : Record → Prop} (run : Chronicle c (later ++ x :: past) s)
    (fresh : x.before.store.get? id = none)
    (versions : ∀ y ∈ later ++ [x], ∃ r, y.after.store.get? id = some r ∧ Q r) :
    ∀ w ∈ s.watchers, w.id = id → Q w.record := by
  rintro w hw rfl
  obtain ⟨y, hy, copied⟩ := run.copy_seen w hw
  rw [List.append_cons] at hy
  rcases List.mem_append.mp hy with hy | hy
  · obtain ⟨r, stored, hr⟩ := versions y hy
    obtain rfl := Option.some.inj (stored.symm.trans copied)
    exact hr
  · have known := run.of_append.before.stored_of_mem hy copied
    rw [fresh] at known
    cases known

/-- What holds of a record when it is first stored and is kept by the writes of its watchers holds of
it ever after, and of all their copies. -/
theorem versions {Q : Record → Prop} (run : Chronicle c (later ++ x :: past) s)
    (fresh : x.before.store.get? id = none) (first : ∃ r, x.after.store.get? id = some r ∧ Q r)
    (kept : ∀ y ∈ later, ¬ y.Rewrites id)
    (next : ∀ y earlier, y :: earlier <:+ later ++ x :: past → Chronicle c earlier y.before →
      ∀ w ∈ y.before.watchers, w.id = id → Q w.record → ∀ r after, w.phase = .writing r after → Q r) :
    (∀ y ∈ later ++ [x], ∃ r, y.after.store.get? id = some r ∧ Q r) ∧
    (∃ r, s.store.get? id = some r ∧ Q r) ∧ ∀ w ∈ s.watchers, w.id = id → Q w.record := by
  suffices versions : (∀ y ∈ later ++ [x], ∃ r, y.after.store.get? id = some r ∧ Q r) ∧
      ∃ r, s.store.get? id = some r ∧ Q r from
    ⟨versions.1, versions.2, run.of_versions fresh versions.1⟩
  induction later generalizing s with
  | nil =>
    obtain ⟨-, -, rfl⟩ := run.of_cons
    exact ⟨fun y hy => List.mem_singleton.mp hy ▸ first, first⟩
  | cons y later ih =>
    obtain ⟨before, effect, rfl⟩ := run.of_cons
    obtain ⟨seen, r, stored, hr⟩ := ih before (fun z hz => kept z (List.mem_cons_of_mem y hz))
      fun z earlier suffix => next z earlier (suffix.trans (List.suffix_cons y _))
    have last : ∃ r, y.after.store.get? id = some r ∧ Q r := by
      rcases effect.get?_cases before.sound id with
        same | ⟨r', stored', introduced | ⟨after, -, w, hw, writing⟩⟩
      · exact ⟨r, same.trans stored, hr⟩
      · exact absurd ⟨introduced, by rw [stored]; rfl⟩ (kept y List.mem_cons_self)
      · have mem := List.mem_of_find?_eq_some hw
        have hid := Watcher.id_of_watcher? hw
        exact ⟨r', stored', next y _ (List.suffix_refl _) before w mem hid
          (before.of_versions fresh seen w mem hid) r' after writing⟩
    refine ⟨?_, last⟩
    intro z hz
    rcases List.mem_cons.mp hz with rfl | hz
    · exact last
    · exact seen z hz

/-- Watchers look after open records. -/
theorem unsettled (run : Chronicle c past s) :
    ∀ w ∈ s.watchers, w.record.status.isTerminal = false := by
  induction run with
  | start now =>
    intro w hw
    cases hw
  | step _ effect _ _ _ ih =>
    intro v hv
    cases effect.origin hv with
    | idle was _ => exact ih v was
    | started _ _ unsettled starts =>
      rw [(Watcher.start?_eq_some starts.set).1]
      exact unsettled
    | turned hw _ turn _ =>
      rcases turn.record_cases with same | ⟨tx, -, raised, -⟩
      · rw [same]
        exact ih _ (List.mem_of_find?_eq_some hw)
      · rw [raised]
        rfl

end Chronicle

end GasEscalator
