import GasEscalator.Proofs.Acceptance
import GasEscalator.Proofs.StoredForm

/-!
# Policies after a restart

A policy is checked as it is handed over, and again whenever its record is offered to be watched. In
between the record may have been stored as text and read back. The factor and the ceiling come back
as they were, but the times come back as whole milliseconds of 64 bits: one that is shorter than a
millisecond, or a multiple of `2 ^ 64` of them, comes back as zero, and the policy is refused from
then on. What has come back once is not changed by further restarts.
-/
namespace GasEscalator

/-! ## Times -/

namespace Duration

/-- Something of the duration is stored. -/
def Lasts (d : Duration) : Prop := d.millis % 2 ^ 64 ≠ 0

instance (d : Duration) : Decidable d.Lasts := inferInstanceAs (Decidable (_ ≠ _))

theorem nanos_kept (d : Duration) : d.kept.nanos = d.millis % 2 ^ 64 * nanosPerMilli := rfl

theorem isZero_kept (d : Duration) : d.kept.isZero = false ↔ d.Lasts := by
  rw [isZero, decide_eq_false_iff_not, nanos_kept, Lasts]
  exact not_congr (Nat.mul_eq_zero.trans (or_iff_left (by decide)))

theorem isWholeMillis_kept (d : Duration) : d.kept.IsWholeMillis := by
  have nanos := d.nanos_kept
  constructor
  · rw [nanos]
    exact Nat.mul_mod_left _ _
  · rw [millis, nanos, Nat.mul_div_cancel _ (by decide)]
    exact Nat.mod_lt _ (by decide)

end Duration

/-! ## Policies -/

namespace Policy

/-- Something of each time is stored. -/
structure Lasts (p : Policy) : Prop where
  timeout : p.timeout.Lasts
  checkInterval : p.checkInterval.Lasts
  increaseInterval : p.increaseInterval.Lasts

variable {p : Policy}

theorem validate_kept (valid : p.validate = .ok ()) : p.kept.validate = .ok () ↔ p.Lasts := by
  obtain ⟨-, factor, ceiling⟩ := validate_eq_ok.mp valid
  constructor
  · intro usable
    obtain ⟨⟨timeout, check, increase⟩, -⟩ := validate_eq_ok.mp usable
    exact ⟨p.timeout.isZero_kept.mp timeout, p.checkInterval.isZero_kept.mp check,
      p.increaseInterval.isZero_kept.mp increase⟩
  · intro lasts
    refine validate_eq_ok.mpr ⟨⟨?_, ?_, ?_⟩, factor, ceiling⟩
    · exact p.timeout.isZero_kept.mpr lasts.timeout
    · exact p.checkInterval.isZero_kept.mpr lasts.checkInterval
    · exact p.increaseInterval.isZero_kept.mpr lasts.increaseInterval

theorem isExact_kept (finite : p.priceMultiplier.isFinite = true) : p.kept.IsExact :=
  ⟨p.timeout.isWholeMillis_kept, p.checkInterval.isWholeMillis_kept,
    p.increaseInterval.isWholeMillis_kept, finite⟩

theorem ofStored?_stored (finite : p.priceMultiplier.isFinite = true) :
    ofStored? p.stored = some p.kept := by
  rw [ofStored?, stored, Json.parse?_render (printable_toJson finite), Option.bind_eq_bind,
    Option.bind_some]
  exact ofJson?_toJson finite

end Policy

theorem Record.ofStored?_stored {r : Record} (finite : r.policy.priceMultiplier.isFinite = true)
    (shown : r.createdAt.isRepresentable = true) : ofStored? r.stored = some r.kept := by
  rw [ofStored?, stored, Json.parse?_render (printable_of_isFinite finite), Option.bind_eq_bind,
    Option.bind_some]
  exact ofJson?_toJson_kept finite shown

/-! ## The next poll -/

/-- A poll reads an open record that is not watched. Its policy may be any. -/
structure Transition.Meets (c : Setup) (x : Transition) (r : Record) : Prop where
  polled : ∃ poller, x.move = .poll poller (.ok ())
  read : r ∈ c.readable x.before.store
  unsettled : r.status.isTerminal = false
  unwatched : ∀ w ∈ x.before.watchers, w.id ≠ r.id

/-- Of the records that a poll meets, those with a usable policy get a watcher. -/
theorem History.started_of_meets {c : Setup} {x : Transition} {past : List Transition} {s : Service}
    {r : Record} (run : History c (x :: past) s) (meets : x.Meets c r) :
    .started r.id ∈ x.events ↔ r.policy.validate = .ok () := by
  obtain ⟨before, made, -⟩ := cons_iff.mp run
  constructor
  · intro started
    obtain ⟨-, _, r', -, read, hid, -, valid⟩ := run.effect.of_starts (.inl started)
    have stored := Setup.get?_of_mem_readable (read made)
    rw [hid, Setup.get?_of_mem_readable meets.read] at stored
    obtain rfl := Option.some.inj stored
    exact valid
  · intro valid
    obtain ⟨poller, polled⟩ := meets.polled
    exact made.started_of_poll before.chronicle.guarded polled meets.read meets.unsettled valid
      meets.unwatched

/-- **A usable policy is still usable after a restart unless one of its times vanishes in storage.**
Its stored text is always read back, to the same policy with what is kept of its times, and from
then on exactly. What is read back is usable just if something of every time is stored. The same
goes for a record with this policy: it is read back, and when a poll meets it after a restart, it is
watched just if something of every time is stored. -/
theorem usable_policy_survives_unless_a_time_vanishes {p : Policy} (valid : p.validate = .ok ()) :
    Policy.ofStored? p.stored = some p.kept ∧
    Policy.ofStored? p.kept.stored = some p.kept ∧
    (p.kept.validate = .ok () ↔ p.Lasts) ∧
    ∀ r : Record, r.policy = p → r.createdAt.isRepresentable = true →
      Record.ofStored? r.stored = some r.kept ∧
      ∀ c x past s, History c (x :: past) s → x.Meets c r.kept →
        (.started r.id ∈ x.events ↔ p.Lasts) := by
  obtain ⟨-, ⟨finite, -⟩, -⟩ := Policy.validate_eq_ok.mp valid
  refine ⟨Policy.ofStored?_stored finite, ?_, Policy.validate_kept valid, ?_⟩
  · have again := Policy.ofStored?_stored (p := p.kept) finite
    rwa [Policy.kept_eq_self (Policy.isExact_kept finite)] at again
  · rintro r rfl shown
    refine ⟨Record.ofStored?_stored finite shown, ?_⟩
    intro c x past s run meets
    exact (run.started_of_meets meets).trans (Policy.validate_kept valid)

namespace Sample

/-- The sample's policy with half a millisecond more in all. -/
def uneven : Policy :=
  { policy with timeout := .saturating (60000 * nanosPerMilli + 500000) }

/-- The sample's policy with a status check every half millisecond. -/
def hectic : Policy := { policy with checkInterval := .saturating 500000 }

/-- The sample's policy with more time in all than is stored. -/
def immense : Policy := { policy with timeout := .saturating (2 ^ 64 * nanosPerMilli) }

def under (p : Policy) : Record := { record with policy := p }

def meetsTest (r : Record) (begins : Bool) : List Transition → Bool
  | y :: _ => y.before.store.records = [r] && y.before.watchers = [] &&
      decide (.started "a" ∈ y.events) == begins
  | [] => false

theorem meets_of_replay (r : Record) (begins : Bool) (unsettled : r.status.isTerminal = false)
    (passed : (replay setup (begun r) [] (.initial ⟨0⟩)).any
      (fun p => meetsTest r begins p.1) = true) :
    ∃ x past, History setup (x :: past) x.after ∧
      (x :: past).map (·.move) = (begun r).reverse ∧ x.Meets setup r ∧
      (.started "a" ∈ x.events ↔ begins = true) := by
  obtain ⟨all, s, run, moves, passed⟩ := History.exists_of_replay _ _ _ passed
  unfold meetsTest at passed
  split at passed
  case h_2 => cases passed
  case h_1 x past =>
    simp only [Bool.and_eq_true, decide_eq_true_eq, beq_iff_eq] at passed
    obtain ⟨⟨only, unwatched⟩, begins⟩ := passed
    obtain ⟨polled, -⟩ : x.move = .poll 0 (.ok ()) ∧ _ := by
      simpa [begun] using moves
    have read : r ∈ setup.readable x.before.store := by
      show r ∈ x.before.store.records
      rw [only]
      exact List.mem_singleton_self r
    refine ⟨x, past, (History.cons_iff.mp run).2.2 ▸ run, moves,
      ⟨⟨0, polled⟩, read, unsettled, by simp [unwatched]⟩, ?_⟩
    rw [← begins, decide_eq_true_iff]

end Sample

/-- A restart takes half a millisecond from the sample's time and leaves it a watcher. -/
theorem uneven_sample_survives : Sample.uneven.validate = .ok () ∧
    Policy.ofStored? Sample.uneven.stored = some Sample.policy ∧
    Record.ofStored? (Sample.under Sample.uneven).stored = some Sample.record ∧
    ∃ x past, History Sample.setup (x :: past) x.after ∧
      x.Meets Sample.setup Sample.record ∧ .started "a" ∈ x.events := by
  have valid : Sample.uneven.validate = .ok () := by decide +kernel
  obtain ⟨read, -, -, records⟩ := usable_policy_survives_unless_a_time_vanishes valid
  obtain ⟨record, watched⟩ := records (Sample.under Sample.uneven) rfl (by decide +kernel)
  have policyKept : Sample.uneven.kept = Sample.policy := by decide +kernel
  have recordKept : (Sample.under Sample.uneven).kept = Sample.record := by decide +kernel
  rw [policyKept] at read
  rw [recordKept] at record watched
  obtain ⟨x, past, run, -, meets, -⟩ :=
    Sample.meets_of_replay Sample.record true rfl (by decide +kernel)
  have lasts : Sample.uneven.Lasts :=
    ⟨by decide +kernel, by decide +kernel, by decide +kernel⟩
  exact ⟨valid, read, record, x, past, run, meets, (watched _ x past _ run meets).mpr lasts⟩

/-- Two policies that are usable when they are handed over and refused after a restart: one has a
time too short for the stored form, one a time too long for it. A record is watched before the
restart and not after it. -/
theorem vanishing_samples_are_refused :
    (∀ p ∈ [Sample.hectic, Sample.immense], p.validate = .ok () ∧
      ∃ q, Policy.ofStored? p.stored = some q ∧ q.validate ≠ .ok ()) ∧
    (∃ x past, History Sample.setup (x :: past) x.after ∧
      (x :: past).map (·.move) = (Sample.begun (Sample.under Sample.hectic)).reverse ∧
      .started "a" ∈ x.events) ∧
    ∃ r x past, Record.ofStored? (Sample.under Sample.hectic).stored = some r ∧
      History Sample.setup (x :: past) x.after ∧
      (x :: past).map (·.move) = (Sample.begun r).reverse ∧ .started "a" ∉ x.events := by
  refine ⟨?_, ?_, ?_⟩
  · intro p hp
    have finite : p.priceMultiplier.isFinite = true := by
      revert p
      decide +kernel
    refine ⟨?_, p.kept, Policy.ofStored?_stored finite, ?_⟩ <;> revert p <;> decide +kernel
  · obtain ⟨x, past, run, moves, -, started⟩ :=
      Sample.meets_of_replay (Sample.under Sample.hectic) true rfl (by decide +kernel)
    exact ⟨x, past, run, moves, started.mpr rfl⟩
  · obtain ⟨x, past, run, moves, -, started⟩ :=
      Sample.meets_of_replay (Sample.under Sample.hectic).kept false rfl (by decide +kernel)
    refine ⟨_, x, past, Record.ofStored?_stored (by decide) (by decide +kernel), run, moves, ?_⟩
    intro event
    cases started.mp event

end GasEscalator
