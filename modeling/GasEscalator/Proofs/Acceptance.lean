import GasEscalator.Proofs.AddressText
import GasEscalator.Proofs.Finality
import GasEscalator.Proofs.Marks
import GasEscalator.Proofs.Senders
import GasEscalator.Proofs.WireFormat

/-!
# From acceptance to watching

A transaction that is handed over for a sender with a signer is stored under the text of the
sender's address, and its watcher begins with the next poll that the store answers. One sender is
left out: the zero address stands for an unknown sender, so that the store does not answer its
records when several signers are registered, even if one of them is registered under it.
-/
namespace GasEscalator

/-! ## The sender of a new record -/

/-- The text of an address finds a signer if the address is registered, or is zero and the signer
alone. -/
theorem Registry.isSome_resolveAddress {σ : Type} (r : Registry σ) (a : Address) :
    (r.resolveAddress a).isSome = true ↔ r.size = 1 ∧ a = .zero ∨ a ∈ r.addresses := by
  have written : a.checksumText.isEmpty = false := by simp [Address.checksumText]
  rw [resolveAddress, isSome_resolve, a.trim_checksumText, a.ofText?_checksumText, written]
  simp

theorem Store.belongsTo_initial {signers : List Address} {id : String} {tx : SignedTx}
    {sender : Address} {policy : Policy} {now : Moment} :
    belongsTo signers (.initial id tx sender policy now) = true ↔
      sender ≠ .zero ∧ sender ∈ signers ∨ signers.length = 1 ∧ sender = .zero := by
  have parsed : Address.ofText? (trim (Record.initial id tx sender policy now).sender) =
      some sender := by
    rw [Record.initial, sender.trim_checksumText, sender.ofText?_checksumText]
  rw [belongsTo_iff, parsed]
  simp

/-- What is stored for a sender with a signer belongs to the registered signers, unless the sender
is the zero address and there are several. -/
theorem Setup.belongsTo_initial {c : Setup} {id : String} {tx : SignedTx} {sender : Address}
    {policy : Policy} {now : Moment} (signable : c.canSign sender = true) :
    Store.belongsTo c.signers.addresses (.initial id tx sender policy now) = true ↔
      sender ≠ .zero ∨ c.signers.size = 1 := by
  have count : c.signers.addresses.length = c.signers.size := List.length_map _
  rw [canSign, Registry.isSome_resolveAddress] at signable
  rw [Store.belongsTo_initial, count]
  constructor
  · rintro (⟨known, -⟩ | ⟨alone, -⟩)
    · exact .inl known
    · exact .inr alone
  · intro answered
    by_cases known : sender = .zero
    · rcases answered with unknown | alone
      · exact absurd known unknown
      · exact .inr ⟨alone, known⟩
    · rcases signable with ⟨-, zero⟩ | registered
      · exact absurd zero known
      · exact .inl ⟨known, registered⟩

/-! ## The next poll -/

section Polls

variable {c : Setup} {x : Transition} {past later : List Transition} {s : Service} {id : String}

/-- A poll starts a watcher for every open record with a usable policy that it reads and that has
none. -/
theorem Transition.Made.started_of_poll {poller : Nat} {r : Record} (made : x.Made c)
    (guarded : x.before.Guarded) (polled : x.move = .poll poller (.ok ()))
    (read : r ∈ c.readable x.before.store) (unsettled : r.status.isTerminal = false)
    (valid : r.policy.validate = .ok ()) (unwatched : ∀ v ∈ x.before.watchers, v.id ≠ r.id) :
    .started r.id ∈ x.events := by
  obtain ⟨running, pollers, -, events⟩ := made.of_poll polled
  have offered : r ∈ (c.readable x.before.store).filter fun r => !r.status.isTerminal :=
    List.mem_filter.mpr ⟨read, by simp [unsettled]⟩
  rw [events, Service.take]
  refine List.mem_cons_of_mem _ ?_
  refine Service.started_offerAll (s := { x.before with pollers }) guarded unwatched running valid
    ?_ offered
  exact (c.nodup_readable x.before.store).sublist (List.filter_sublist.map _)

/-- Between polls that are answered no watcher begins. -/
theorem History.unwatched_between_polls (run : History c (later ++ x :: past) s)
    (unwatched : ∀ w ∈ x.after.watchers, w.id ≠ id)
    (unanswered : ∀ z ∈ later, ∀ poller, z.move ≠ .poll poller (.ok ())) :
    ∀ w ∈ s.watchers, w.id ≠ id := by
  induction later generalizing s with
  | nil =>
    obtain ⟨-, -, rfl⟩ := cons_iff.mp run
    exact unwatched
  | cons y later ih =>
    obtain ⟨before, -, rfl⟩ := cons_iff.mp run
    have ih := ih before fun z hz => unanswered z (List.mem_cons_of_mem y hz)
    exact run.effect.unwatched_of_unpolled (unanswered y List.mem_cons_self) ih

end Polls

/-- A transaction is accepted: its policy is usable, its sender has a signer, its id is a new one
and the store takes its record. -/
structure Transition.Accepts (c : Setup) (x : Transition) (id : String) (tx : SignedTx)
    (policy : Policy) (sender : Address) : Prop where
  move : x.move = .insert id tx policy sender (.ok ())
  valid : policy.validate = .ok ()
  signable : c.canSign sender = true
  fresh : x.before.store.get? id = none

/-- **An accepted transaction is watched from the next poll on, unless nobody is known to have sent
it and there are several signers.** The record of an accepted transaction holds just this
transaction. If it is still stored when the store next answers a poll, a watcher begins for it just
then, except for the zero address among several signers. -/
theorem accepted_transaction_is_watched {c : Setup} {past later : List Transition}
    {x y : Transition} {s : Service} {id : String} {tx : SignedTx} {policy : Policy}
    {sender : Address} {poller : Nat} (filtering : c.filtering = true)
    (run : History c (y :: (later ++ x :: past)) s) (accepts : x.Accepts c id tx policy sender)
    (fits : tx.Fits) (unanswered : ∀ z ∈ later, ∀ poller, z.move ≠ .poll poller (.ok ()))
    (polled : y.move = .poll poller (.ok ()))
    (kept : y.before.store.get? id = some (.initial id tx sender policy x.before.now)) :
    (Record.initial id tx sender policy x.before.now).latest = .ok tx ∧
    (.started id ∈ y.events ↔ sender ≠ .zero ∨ c.signers.size = 1) ∧
    ∀ w ∈ y.after.watchers, w.id = id →
      w.record = .initial id tx sender policy x.before.now := by
  obtain ⟨before, made, -⟩ := History.cons_iff.mp run
  have inserting := before.of_append
  have unpolled : ∀ poller, x.move ≠ .poll poller (.ok ()) := by
    rw [accepts.move]
    nofun
  have fresh := inserting.chronicle.before.unwatched_of_fresh accepts.fresh
  have unwatched := before.unwatched_between_polls
    (inserting.effect.unwatched_of_unpolled unpolled fresh) unanswered
  refine ⟨SignedTx.decode_encode fits, ⟨?_, ?_⟩, ?_⟩
  · intro started
    obtain ⟨-, _, r, -, read, hid, -⟩ := run.effect.of_starts (.inl started)
    have read := read made
    have stored := Setup.get?_of_mem_readable read
    rw [hid, kept] at stored
    obtain rfl := Option.some.inj stored
    rw [Setup.readable, if_pos filtering] at read
    have answered := (Bool.and_eq_true_iff.mp (List.mem_filter.mp read).2).2
    exact (Setup.belongsTo_initial accepts.signable).mp answered
  · intro known
    have belongs : Store.belongsTo c.signers.addresses
        (.initial id tx sender policy x.before.now) = true :=
      (Setup.belongsTo_initial accepts.signable).mpr known
    have read : Record.initial id tx sender policy x.before.now ∈ c.readable y.before.store := by
      rw [Setup.readable, if_pos filtering]
      refine List.mem_filter.mpr ⟨(Store.get?_eq_some kept).1, ?_⟩
      rw [belongs]
      rfl
    exact made.started_of_poll before.chronicle.guarded polled read rfl accepts.valid unwatched
  · intro w hw hid
    cases run.effect.origin hw with
    | idle was _ => exact absurd hid (unwatched w was)
    | turned _ hm =>
      rw [polled] at hm
      cases hm
    | started _ read _ starts =>
      have stored := Setup.get?_of_mem_readable (read made)
      obtain ⟨rfl, -⟩ := Watcher.start?_eq_some starts.set
      exact Option.some.inj (stored.symm.trans (hid ▸ kept))

namespace Sample

def account : Address := ⟨List.replicate 20 0x11, rfl⟩

/-- Two signers, one of them under the zero address. -/
def paired : Setup := { filtered with signers := filtered.signers.insert account signer }

/-- The sample transaction is accepted for a sender, and polled ten seconds later. -/
def accepted (sender : Address) : List Move :=
  [.startPoller, .insert "a" tx policy sender (.ok ()), .advance (.ofMillis 10000),
   .poll 0 (.ok ())]

def acceptedRecord (sender : Address) : Record := .initial "a" tx sender policy ⟨0⟩

def acceptedTest (sender : Address) (begins : Bool) : List Transition → Bool
  | [y, _, x, _] =>
    x.before.store.get? "a" = none && x.before.now = ⟨0⟩ &&
      y.before.store.get? "a" = some (acceptedRecord sender) &&
      decide (.started "a" ∈ y.events) == begins
  | _ => false

/-- The poll of the accepted sample starts a watcher or not. -/
structure Accepted (sender : Address) (begins : Bool) (x y : Transition)
    (later past : List Transition) : Prop where
  run : History paired (y :: (later ++ x :: past)) y.after
  accepts : x.Accepts paired "a" tx policy sender
  unanswered : ∀ z ∈ later, ∀ poller, z.move ≠ .poll poller (.ok ())
  polled : y.move = .poll 0 (.ok ())
  now : x.before.now = ⟨0⟩
  kept : y.before.store.get? "a" = some (acceptedRecord sender)
  begins : .started "a" ∈ y.events ↔ begins = true

theorem accepted_of_replay (sender : Address) (begins : Bool)
    (signable : paired.canSign sender = true)
    (passed : (replay paired (accepted sender) [] (.initial ⟨0⟩)).any
      (fun p => acceptedTest sender begins p.1) = true) :
    ∃ x y later past, Accepted sender begins x y later past := by
  obtain ⟨all, s, run, moves, passed⟩ := History.exists_of_replay _ _ _ passed
  unfold acceptedTest at passed
  split at passed
  case h_2 => cases passed
  case h_1 y z x first =>
    simp only [Bool.and_eq_true, decide_eq_true_eq, beq_iff_eq] at passed
    obtain ⟨⟨⟨fresh, now⟩, kept⟩, begins⟩ := passed
    obtain ⟨polled, waited, inserted, -⟩ : y.move = .poll 0 (.ok ()) ∧
        z.move = .advance (.ofMillis 10000) ∧ x.move = .insert "a" tx policy sender (.ok ()) ∧
          first.move = .startPoller := by simpa [accepted] using moves
    refine ⟨x, y, [z], [first], (History.cons_iff.mp run).2.2 ▸ run,
      ⟨inserted, by decide +kernel, signable, fresh⟩, ?_, polled, now, kept, ?_⟩
    · intro v hv poller
      rw [List.mem_singleton.mp hv, waited]
      nofun
    · rw [← begins, decide_eq_true_iff]

theorem fits : tx.Fits := ⟨by decide, by decide⟩

theorem signable_of_mem {a : Address} (registered : a ∈ paired.signers.addresses) :
    paired.canSign a = true :=
  (Registry.isSome_resolveAddress paired.signers a).mpr (.inr registered)

end Sample

theorem accepted_sample_is_watched : Sample.paired.filtering = true ∧
    ∃ x y later past, Sample.Accepted Sample.account true x y later past ∧ Sample.tx.Fits ∧
      (Sample.acceptedRecord Sample.account).latest = .ok Sample.tx ∧
      (.started "a" ∈ y.events ↔ Sample.account ≠ .zero ∨ Sample.paired.signers.size = 1) ∧
      ∀ w ∈ y.after.watchers, w.id = "a" → w.record = Sample.acceptedRecord Sample.account := by
  obtain ⟨x, y, later, past, sample⟩ := Sample.accepted_of_replay Sample.account true
    (Sample.signable_of_mem (by decide)) (by decide +kernel)
  have stored : Sample.acceptedRecord Sample.account =
      .initial "a" Sample.tx Sample.account Sample.policy x.before.now := by
    rw [sample.now]
    rfl
  have watched := accepted_transaction_is_watched rfl sample.run sample.accepts Sample.fits
    sample.unanswered sample.polled (stored ▸ sample.kept)
  rw [← stored] at watched
  exact ⟨rfl, x, y, later, past, sample, Sample.fits, watched⟩

/-- The zero address has a signer of its own, and its accepted transaction is passed over by the
next poll. -/
theorem nameless_sample_is_passed_over :
    Sample.paired.filtering = true ∧ Sample.paired.canSign .zero = true ∧ Sample.tx.Fits ∧
      ∃ x y later past, Sample.Accepted .zero false x y later past ∧ .started "a" ∉ y.events := by
  have signable : Sample.paired.canSign .zero = true := Sample.signable_of_mem (by decide)
  obtain ⟨x, y, later, past, sample⟩ := Sample.accepted_of_replay .zero false signable
    (by decide +kernel)
  refine ⟨rfl, signable, Sample.fits, x, y, later, past, sample, ?_⟩
  intro started
  cases sample.begins.mp started

end GasEscalator
