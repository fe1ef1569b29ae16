import GasEscalator.Proofs.Effects

/-!
# Senders and signers

The store answers the open records that belong to the registered signers, and the registry finds the
signer of a record by the text of its sender. The two agree on every text that is blank or an
address, except that a record under the zero address is not answered when several signers are
registered; a text that is neither belongs to a signer that is alone, who does not sign for it.
-/
namespace GasEscalator

/-- A sender's text that is neither blank nor the text of an address. -/
def IsGarbled (sender : String) : Prop :=
  (trim sender).isEmpty = false ∧ Address.ofText? (trim sender) = none

instance (sender : String) : Decidable (IsGarbled sender) := inferInstanceAs (Decidable (_ ∧ _))

/-! ## Two rules -/

namespace Registry

variable {σ : Type} (r : Registry σ)

theorem isSome_find? (a : Address) : (r.find? a).isSome = true ↔ a ∈ r.addresses := by
  simp [find?, addresses]

/-- A registry finds a signer for the blank and for the zero address when it has just one, and for
every address that is registered. -/
theorem isSome_resolve (sender : String) : (r.resolve sender).isSome = true ↔
    r.size = 1 ∧ ((trim sender).isEmpty = true ∨ Address.ofText? (trim sender) = some .zero) ∨
      ∃ a, Address.ofText? (trim sender) = some a ∧ a ∈ r.addresses := by
  have found : ((Address.ofText? (trim sender)).bind r.find?).isSome = true ↔
      ∃ a, Address.ofText? (trim sender) = some a ∧ a ∈ r.addresses := by
    cases Address.ofText? (trim sender) with
    | none => simp
    | some a => simp [isSome_find?]
  unfold resolve
  dsimp only
  split
  case h_1 only alone =>
    have one : r.size = 1 := by rw [size, alone]; rfl
    split
    · next nameless => simpa [one] using .inl (by simpa using nameless)
    · next named =>
      rw [found]
      simp_all
  case h_2 several =>
    have many : r.size ≠ 1 := by
      intro one
      obtain ⟨only, alone⟩ := List.length_eq_one_iff.mp one
      exact several only alone
    simp [found, many]

end Registry

/-- A record belongs to the signer whose address its sender is, unless this is the zero address; one
that has no such sender belongs to a signer that is alone. -/
theorem Store.belongsTo_iff (signers : List Address) (r : Record) :
    belongsTo signers r = true ↔
      (∃ a, Address.ofText? (trim r.sender) = some a ∧ a ≠ .zero ∧ a ∈ signers) ∨
        signers.length = 1 ∧ (Address.ofText? (trim r.sender) = none ∨
          Address.ofText? (trim r.sender) = some .zero) := by
  unfold belongsTo
  cases Address.ofText? (trim r.sender) with
  | none => simp
  | some a => by_cases zero : a = .zero <;> simp [zero]

/-- A record that belongs to the registered signers has no signer only if its sender is garbled and
belongs to one signer alone. -/
theorem Registry.resolve_eq_none_iff {σ : Type} {registry : Registry σ} {r : Record}
    (belongs : Store.belongsTo registry.addresses r = true) :
    registry.resolve r.sender = none ↔ registry.size = 1 ∧ IsGarbled r.sender := by
  have count : registry.addresses.length = registry.size := List.length_map _
  have resolves := registry.isSome_resolve r.sender
  rw [← Option.not_isSome_iff_eq_none, resolves]
  rw [Store.belongsTo_iff, count] at belongs
  constructor
  · intro unsigned
    rcases belongs with ⟨a, parsed, -, registered⟩ | ⟨one, garbled | zero⟩
    · exact absurd (.inr ⟨a, parsed, registered⟩) unsigned
    · refine ⟨one, ?_, garbled⟩
      by_contra blank
      exact unsigned (.inl ⟨one, .inl (by simpa using blank)⟩)
    · exact absurd (.inl ⟨one, .inr zero⟩) unsigned
  · rintro ⟨-, solid, garbled⟩
    simp [solid, garbled]

/-! ## Missing signers -/

namespace Watcher

variable {w : Watcher} {now : Moment} {r : Record} {text : String}

/-- A tick that fails reports just that, with the record as the watcher knows it. -/
theorem fail_events (w : Watcher) (now : Moment) (e : Failure) :
    (w.fail now e).2 = [.logged w.record e] := by
  unfold fail bail
  split
  · rfl
  · split <;> rfl

/-- A price increase misses a signer only if the registry has none for the record's sender. -/
theorem missing_of_beginIncrease {signers : Registry Signer}
    (h : .logged r (.missingSigner text) ∈ (w.beginIncrease signers now).2) :
    r = w.record ∧ text = w.record.sender ∧ signers.resolve w.record.sender = none := by
  unfold beginIncrease at h
  cases latest : w.record.latest with
  | error e =>
    rw [latest, fail_events] at h
    cases List.mem_singleton.mp h
  | ok tx =>
    rw [latest] at h
    dsimp only at h
    split at h
    case isTrue =>
      rw [fail_events] at h
      cases List.mem_singleton.mp h
    case isFalse =>
      cases found : signers.resolve w.record.sender with
      | none =>
        rw [found, fail_events] at h
        obtain ⟨own, missing⟩ := Event.logged.inj (List.mem_singleton.mp h)
        exact ⟨own, Failure.missingSigner.inj missing, rfl⟩
      | some entry =>
        rw [found] at h
        rcases List.mem_cons.mp h with h | h
        · cases h
        · split at h
          · rw [fail_events] at h
            cases List.mem_singleton.mp h
          · cases List.mem_singleton.mp h

theorem not_missing_beginCheck : .logged r (.missingSigner text) ∉ (w.beginCheck now).2 := by
  unfold beginCheck
  split <;> simp [fail_events, call]

theorem not_missing_judge (receipt : Receipt) :
    .logged r (.missingSigner text) ∉ (w.judge receipt).2 := by
  unfold judge
  split
  · simp [settle, write]
  split <;> simp [settle, write, noting]

theorem not_missing_resume (c : Call) (result : Except ChainError c.Result) :
    .logged r (.missingSigner text) ∉ (w.resume now c result).2 := by
  cases c with
  | lookup hash =>
    cases result with
    | error e => simp [resume, fail_events]
    | ok stillPending => cases stillPending <;> simp [resume, wait, call]
  | receipt hash =>
    cases result with
    | error e => simp [resume, fail_events]
    | ok receipt => exact not_missing_judge receipt
  | send tx =>
    cases result with
    | error e => simp [resume, fail_events]
    | ok done => simp [resume, write]

theorem not_missing_stored (new : Record) (after : AfterWrite)
    (outcome : Except StorageError Unit) :
    .logged r (.missingSigner text) ∉ (w.stored now new after outcome).2 := by
  unfold stored bail
  split <;> split <;> (try split) <;> simp [leave, wait, noting, write]

theorem missing_of_wake {signers : Registry Signer} {stopped : Bool}
    {next : Watcher × List Event} (woke : w.wake signers stopped now = some next)
    (h : .logged r (.missingSigner text) ∈ next.2) :
    r = w.record ∧ text = w.record.sender ∧ signers.resolve w.record.sender = none := by
  unfold wake at woke
  split at woke
  case h_2 => cases woke
  split at woke
  · obtain rfl := Option.some.inj woke
    cases h
  split at woke
  · obtain rfl := Option.some.inj woke
    cases h
  split at woke
  · obtain rfl := Option.some.inj woke
    exact absurd h not_missing_beginCheck
  split at woke
  · obtain rfl := Option.some.inj woke
    exact missing_of_beginIncrease (w := { w with increase := w.increase.next now }) h
  · cases woke

end Watcher

/-- What is reported in a move is reported before a watcher leaves. -/
theorem Watcher.logged_of_farewell {w : Watcher} {events : List Event} {r : Record} {f : Failure}
    (h : .logged r f ∈ events ++ w.farewell) : .logged r f ∈ events := by
  rcases List.mem_append.mp h with h | h
  · exact h
  · cases (of_mem_farewell h).2

section Reports

variable {c : Setup} {x : Transition} {r : Record} {text : String}

/-- A move of a watcher reports a missing signer only in a price increase. -/
theorem Transition.wakes_of_missing {id : String} (made : x.Made c) (own : x.move.actor = some id)
    (h : .logged r (.missingSigner text) ∈ x.events) :
    ∃ w next, x.before.watcher? id = some w ∧
      w.wake c.signers x.before.stopped x.before.now = some next ∧
        .logged r (.missingSigner text) ∈ next.2 := by
  unfold Transition.Made at made
  cases hm : x.move with
  | insert | place | startPoller | poll | stop | advance =>
    rw [hm] at own
    cases own
  | wake i =>
    rw [hm] at own made
    obtain rfl := Option.some.inj own
    obtain ⟨w, hw, goes⟩ := Option.bind_eq_some_iff.mp made
    obtain ⟨next, woke, ends⟩ := Option.bind_eq_some_iff.mp goes
    rw [← (Prod.mk.inj (Option.some.inj ends)).2] at h
    exact ⟨w, next, hw, woke, Watcher.logged_of_farewell h⟩
  | answer i replies =>
    rw [hm] at made
    obtain ⟨w, hw, goes⟩ := Option.bind_eq_some_iff.mp made
    obtain ⟨next, answered, ends⟩ := Option.bind_eq_some_iff.mp goes
    rw [← (Prod.mk.inj (Option.some.inj ends)).2] at h
    unfold Watcher.answer at answered
    split at answered
    case h_2 => cases answered
    case h_1 =>
      obtain rfl := Option.some.inj answered
      exact absurd (Watcher.logged_of_farewell h) (Watcher.not_missing_resume _ _)
  | expire i =>
    rw [hm] at made
    obtain ⟨w, hw, goes⟩ := Option.bind_eq_some_iff.mp made
    obtain ⟨limit, limited, waits⟩ := Option.bind_eq_some_iff.mp goes
    split at waits
    case h_2 => cases waits
    case h_1 calling =>
      split at waits
      case isFalse => cases waits
      case isTrue =>
        obtain ⟨next, answered, ends⟩ := Option.bind_eq_some_iff.mp waits
        rw [← (Prod.mk.inj (Option.some.inj ends)).2] at h
        unfold Watcher.answer at answered
        rw [calling] at answered
        obtain rfl := Option.some.inj answered
        exact absurd (Watcher.logged_of_farewell h) (Watcher.not_missing_resume _ _)
  | stored i outcome =>
    rw [hm] at made
    obtain ⟨w, hw, goes⟩ := Option.bind_eq_some_iff.mp made
    split at goes
    case h_2 => cases goes
    case h_1 =>
      rw [← (Prod.mk.inj (Option.some.inj goes)).2] at h
      rcases List.mem_cons.mp h with h | h
      · cases h
      · exact absurd (Watcher.logged_of_farewell h) (Watcher.not_missing_stored _ _ _)
  | crash i =>
    rw [hm] at made
    obtain ⟨w, hw, goes⟩ := Option.bind_eq_some_iff.mp made
    rw [← (Prod.mk.inj (Option.some.inj goes)).2] at h
    cases List.mem_singleton.mp h

/-- A missing signer is reported for a watched record whose sender has none. -/
theorem Effect.of_missing (effect : Effect c x) (made : x.Made c)
    (h : .logged r (.missingSigner text) ∈ x.events) :
    ∃ w ∈ x.before.watchers, r = w.record ∧ text = w.record.sender ∧
      c.signers.resolve w.record.sender = none := by
  have of_actor {id : String} (own : x.move.actor = some id) :
      ∃ w ∈ x.before.watchers, r = w.record ∧ text = w.record.sender ∧
        c.signers.resolve w.record.sender = none := by
    obtain ⟨w, next, hw, woke, h⟩ := Transition.wakes_of_missing made own h
    exact ⟨w, List.mem_of_find?_eq_some hw, Watcher.missing_of_wake woke h⟩
  cases effect with
  | acted _ own | stored _ own => exact of_actor own
  | refused _ _ _ events | placed _ _ events | pollerStarted _ _ events | stopped _ _ events
  | advanced _ _ _ events =>
    rw [events] at h
    cases h
  | inserted _ _ _ events | pollFailed _ _ events | crashed _ _ _ events =>
    rw [events] at h
    cases List.mem_singleton.mp h
  | polled _ _ _ told _ events =>
    rw [events] at h
    rcases List.mem_append.mp h with h | h
    · obtain ⟨_, h⟩ := told _ h
      cases h
    · obtain ⟨r', -, event⟩ := Service.event_offerAll h
      cases event

/-- A store that answers the registered signers' records only has only such records watched. -/
theorem History.belongs {past : List Transition} {s : Service} (run : History c past s)
    (filtering : c.filtering = true) :
    ∀ w ∈ s.watchers, Store.belongsTo c.signers.addresses w.record = true := by
  induction run with
  | start now =>
    intro w hw
    cases hw
  | @step past s s' m events before made ih =>
    intro v hv
    cases (before.step made).effect.origin hv with
    | idle was _ => exact ih v was
    | started _ read _ starts =>
      obtain ⟨rfl, -⟩ := Watcher.start?_eq_some starts.set
      have answered := read made
      rw [Setup.readable, if_pos filtering] at answered
      have answered := (List.mem_filter.mp answered).2
      exact (Bool.and_eq_true_iff.mp answered).2
    | turned hw _ turn _ =>
      have before := ih _ (List.mem_of_find?_eq_some hw)
      rcases turn.record_cases with same | ⟨tx, -, raised, -⟩
      · rw [same]
        exact before
      · -- a new price keeps the sender
        rw [raised]
        exact before

end Reports

/-- **Only a garbled sender is answered without a signer.** Of the records that the store answers for
the registered signers, just those have no signer whose sender is garbled, and they are answered for
one signer alone. No watcher misses the signer of any other record. -/
theorem only_garbled_senders_lack_signers {c : Setup} (filtering : c.filtering = true) :
    (∀ (store : Store), ∀ r ∈ store.toCheck c.signers.addresses,
      c.signers.resolve r.sender = none ↔ c.signers.size = 1 ∧ IsGarbled r.sender) ∧
    ∀ past s, History c past s → ∀ x ∈ past, ∀ r text,
      .logged r (.missingSigner text) ∈ x.events →
        text = r.sender ∧ c.signers.size = 1 ∧ IsGarbled text := by
  constructor
  · intro store r answered
    have belongs := (List.mem_filter.mp answered).2
    exact Registry.resolve_eq_none_iff (Bool.and_eq_true_iff.mp belongs).2
  · intro past s run x hx r text missing
    obtain ⟨later, earlier, rfl⟩ := List.append_of_mem hx
    have upto := run.of_append
    obtain ⟨before, made, -⟩ := History.cons_iff.mp upto
    obtain ⟨w, hw, rfl, rfl, unsigned⟩ := upto.effect.of_missing made missing
    exact ⟨rfl, (Registry.resolve_eq_none_iff (before.belongs filtering w hw)).mp unsigned⟩

namespace Sample

def filtered : Setup := { setup with filtering := true }

/-- The sample with a sender that is no address. -/
def garbled : Record := { record with sender := "nobody" }

/-- The garbled sample up to its first price increase. -/
def unsigned : List Move := begun garbled ++
  [.advance (.ofMillis 14000), .wake "a", .stored "a" (.ok ())]

def unsignedTest : List Transition → Bool
  | y :: x :: _ =>
    garbled ∈ x.before.store.toCheck filtered.signers.addresses &&
      .logged garbled (.missingSigner "nobody") ∈ x.events &&
      .wrote (garbled.withStatus .failed) true ∈ y.events
  | _ => false

theorem unsigned_run : ∃ y x past s, History filtered (y :: x :: past) s ∧
    (y :: x :: past).map (·.move) = unsigned.reverse ∧
    garbled ∈ x.before.store.toCheck filtered.signers.addresses ∧
    .logged garbled (.missingSigner "nobody") ∈ x.events ∧
    .wrote (garbled.withStatus .failed) true ∈ y.events := by
  obtain ⟨all, s, run, moves, passed⟩ := History.exists_of_replay (c := filtered) unsigned ⟨0⟩
    unsignedTest (by decide +kernel)
  unfold unsignedTest at passed
  split at passed
  case h_2 => cases passed
  case h_1 y x past =>
    simp only [Bool.and_eq_true, decide_eq_true_eq] at passed
    obtain ⟨⟨answered, missing⟩, failed⟩ := passed
    exact ⟨y, x, past, s, run, moves, answered, missing, failed⟩

end Sample

theorem garbled_sample_lacks_its_signer : Sample.filtered.filtering = true ∧
    ∃ past s, History Sample.filtered past s ∧
      (∃ x ∈ past, .logged Sample.garbled (.missingSigner "nobody") ∈ x.events) ∧
      Sample.filtered.signers.size = 1 ∧ IsGarbled "nobody" := by
  obtain ⟨y, x, past, s, run, -, -, missing, -⟩ := Sample.unsigned_run
  have there : x ∈ y :: x :: past := by simp
  have lacks := (only_garbled_senders_lack_signers (c := Sample.filtered) rfl).2 _ _ run x there
    Sample.garbled "nobody" missing
  exact ⟨rfl, y :: x :: past, s, run, ⟨x, there, missing⟩, lacks.2⟩

/-- The record of a sender that is no address is answered for the one signer there is, who does not
sign for it, and is marked as failed for that. -/
theorem garbled_sample_is_answered_and_failed :
    ∃ y x past s, History Sample.filtered (y :: x :: past) s ∧
      (y :: x :: past).map (·.move) = Sample.unsigned.reverse ∧
      Sample.garbled ∈ x.before.store.toCheck Sample.filtered.signers.addresses ∧
      Sample.filtered.signers.resolve Sample.garbled.sender = none ∧
      .logged Sample.garbled (.missingSigner "nobody") ∈ x.events ∧
      .wrote (Sample.garbled.withStatus .failed) true ∈ y.events := by
  obtain ⟨y, x, past, s, run, moves, answered, missing, failed⟩ := Sample.unsigned_run
  exact ⟨y, x, past, s, run, moves, answered, by decide +kernel, missing, failed⟩

end GasEscalator
