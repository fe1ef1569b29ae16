import GasEscalator.Proofs.AddressText
import GasEscalator.Proofs.Clock
import GasEscalator.Proofs.Copies
import GasEscalator.Proofs.WireFormat
import GasEscalator.Simulation

/-!
# Outcomes on the simulated chain

On the simulated chain a record whose transaction has been sent ends as it should. The invariant
ties the store to the chain: the transaction stored for the record is among those the chain has
taken in, under the digest that its watcher looks it up by, and so is one that a watcher is about to
store. The digest is taken of what was sent and again of what was read back, and the two agree
because wire forms are read back as they were written. That nothing else stands under that digest is
not a property of the service, and is assumed.
-/
namespace GasEscalator

namespace SimulatedChain

/-- No two transactions that the chain has taken in have one digest but different wire forms. -/
def NoCollision (c : SimulatedChain) : Prop :=
  ∀ p ∈ c.broadcasts, ∀ q ∈ c.broadcasts, p.2.hash = q.2.hash → p.2.encode = q.2.encode

instance (c : SimulatedChain) : Decidable c.NoCollision :=
  inferInstanceAs (Decidable (∀ p ∈ _, ∀ q ∈ _, _ → _))

/-- Every transaction stands under its digest. -/
def Keyed (c : SimulatedChain) : Prop := ∀ p ∈ c.broadcasts, p.1 = p.2.hash

variable {c c' : SimulatedChain} {tx : SignedTx}

theorem NoCollision.restrict (distinct : c'.NoCollision) (sub : c.broadcasts ⊆ c'.broadcasts) :
    c.NoCollision :=
  fun p hp q hq => distinct p (sub hp) q (sub hq)

theorem Keyed.receive (keyed : c.Keyed) (call : Call) : (c.receive call).Keyed := by
  cases call with
  | lookup | receipt => exact keyed
  | send tx =>
    intro p hp
    rcases List.mem_cons.mp hp with rfl | hp
    · rfl
    · exact keyed p hp

theorem marketPrice_receive (c : SimulatedChain) (call : Call) :
    (c.receive call).marketPrice = c.marketPrice := by
  cases call <;> rfl

theorem broadcasts_receive (c : SimulatedChain) (call : Call) :
    c.broadcasts ⊆ (c.receive call).broadcasts := by
  cases call with
  | lookup | receipt => exact List.Subset.refl _
  | send tx => exact List.subset_cons_self _ _

/-- What the chain finds under the digest of a transaction that it has taken in pays the same. -/
theorem find?_of_mem (keyed : c.Keyed) (distinct : c.NoCollision)
    (known : (tx.hash, tx) ∈ c.broadcasts) :
    ∃ found, c.find? tx.hash = some found ∧ found.gasPrice = tx.gasPrice := by
  cases found : c.find? tx.hash with
  | none =>
    have absent := List.lookup_eq_none_iff.mp found _ known
    simp at absent
  | some other =>
    obtain ⟨before, after, split, -⟩ := List.lookup_eq_some_iff.mp found
    have mem : (tx.hash, other) ∈ c.broadcasts := by
      rw [split]
      simp
    have same : other.hash = tx.hash := (keyed _ mem).symm
    exact ⟨other, rfl, SignedTx.gasPrice_eq_of_encode_eq (distinct _ mem _ known same)⟩

/-- A transaction that the chain has taken in is pending while it pays less than the market. -/
theorem replies_lookup (keyed : c.Keyed) (distinct : c.NoCollision)
    (known : (tx.hash, tx) ∈ c.broadcasts) :
    c.replies (.lookup tx.hash) = .ok (decide (tx.gasPrice < c.marketPrice)) := by
  obtain ⟨found, h, price⟩ := find?_of_mem keyed distinct known
  rw [replies, h, ← price]

/-- Its receipt says that it was carried out. -/
theorem replies_receipt (keyed : c.Keyed) (distinct : c.NoCollision)
    (known : (tx.hash, tx) ∈ c.broadcasts) :
    c.replies (.receipt tx.hash) = .ok ⟨tx.hash, Receipt.successful⟩ := by
  obtain ⟨found, h, -⟩ := find?_of_mem keyed distinct known
  rw [replies, h]

end SimulatedChain

/-- The local signer signs what it is given, with a signature as long as a digest. -/
theorem Signer.of_digest {account : Address} {now : Moment} {tx : UnsignedTx} {chainId : UInt64}
    {signed : SignedTx} (h : Signer.digest account now tx chainId = .ok signed) :
    signed.payload = tx ∧ signed.signature.length = 32 := by
  unfold Signer.digest at h
  obtain rfl := Except.ok.inj h
  exact ⟨rfl, Bytes.length_toList _⟩

theorem Service.not_mem_restarted {s : Service} {w : Watcher} : w ∉ s.restarted.watchers :=
  List.not_mem_nil

/-- Whether an act stores a record under an id on behalf of somebody outside the service. -/
def Act.introduces (id : String) : Act → Bool
  | .move m => m.introduces id
  | .send _ | .answer _ | .restart => false

namespace Simulation

/-! ## Steps -/

structure Step where
  before : Simulation
  act : Act
  after : Simulation
  events : List Event

namespace Step

def Taken (c : Setup) (x : Step) : Prop := x.before.apply c x.act = some (x.after, x.events)

/-- A record is stored from outside under an id that has one. -/
def Rewrites (x : Step) (id : String) : Prop :=
  x.act.introduces id = true ∧ (x.before.service.store.get? id).isSome = true

instance (x : Step) (id : String) : Decidable (x.Rewrites id) :=
  inferInstanceAs (Decidable (_ ∧ _))

end Step

/-- Acts done since the service and the chain began, the latest first, and where they have led. -/
inductive Run (c : Setup) (market : Price) : List Step → Simulation → Prop
  | start (now : Moment) : Run c market [] (.initial now market)
  | step {past : List Step} {s s' : Simulation} {a : Act} {events : List Event}
      (run : Run c market past s) (taken : s.apply c a = some (s', events)) :
      Run c market (⟨s, a, s', events⟩ :: past) s'

inductive Outcome (c : Setup) (x : Step) : Prop
  | sent {tx : SignedTx} (ha : x.act = .send tx)
      (after : x.after = { x.before with chain := x.before.chain.broadcast tx })
  | answered {id : String} {call : Call} {service : Service} {events : List Event}
      (ha : x.act = .answer id) (asked : x.before.service.call? id = some call)
      (made : Transition.Made c
        ⟨x.before.service, .answer id (x.before.chain.receive call).replies, service, events⟩)
      (after : x.after = { service, chain := x.before.chain.receive call })
  | moved {m : Move} {service : Service} {events : List Event} (ha : x.act = .move m)
      (smooth : m.isSmooth = true)
      (made : Transition.Made c ⟨x.before.service, m, service, events⟩)
      (after : x.after = { x.before with service })
  | restarted (ha : x.act = .restart)
      (after : x.after = { x.before with service := x.before.service.restarted })

section Steps

variable {c : Setup} {market : Price} {x : Step} {past later : List Step} {s : Simulation}
  {id : String}

theorem Run.cons_iff :
    Run c market (x :: past) s ↔ Run c market past x.before ∧ x.Taken c ∧ s = x.after := by
  constructor
  · intro run
    cases run with
    | step run taken => exact ⟨run, taken, rfl⟩
  · rintro ⟨run, taken, rfl⟩
    exact .step run taken

theorem Run.of_append (run : Run c market (later ++ x :: past) s) :
    Run c market (x :: past) x.after := by
  induction later generalizing s with
  | nil =>
    obtain ⟨run, taken, -⟩ := cons_iff.mp run
    exact .step run taken
  | cons y later ih => exact ih (cons_iff.mp run).1

theorem Step.Taken.outcome (taken : x.Taken c) : Outcome c x := by
  unfold Taken at taken
  cases ha : x.act with
  | send tx =>
    rw [ha] at taken
    exact .sent ha (Prod.mk.inj (Option.some.inj taken)).1.symm
  | answer id =>
    rw [ha] at taken
    obtain ⟨call, asked, taken⟩ := Option.bind_eq_some_iff.mp taken
    obtain ⟨⟨service, events⟩, made, ends⟩ := Option.bind_eq_some_iff.mp taken
    have after := (Prod.mk.inj (Option.some.inj ends)).1
    exact .answered ha asked made after.symm
  | move m =>
    rw [ha, apply] at taken
    split at taken
    case isFalse => cases taken
    case isTrue smooth =>
      obtain ⟨⟨service, events⟩, made, ends⟩ := Option.bind_eq_some_iff.mp taken
      have after := (Prod.mk.inj (Option.some.inj ends)).1
      exact .moved ha smooth made after.symm
  | restart =>
    rw [ha] at taken
    exact .restarted ha (Prod.mk.inj (Option.some.inj taken)).1.symm

/-- The chain forgets no transaction. -/
theorem Outcome.broadcasts_subset (outcome : Outcome c x) :
    x.before.chain.broadcasts ⊆ x.after.chain.broadcasts := by
  cases outcome with
  | sent _ after =>
    rw [after]
    exact List.subset_cons_self _ _
  | answered _ _ _ after =>
    rw [after]
    exact x.before.chain.broadcasts_receive _
  | moved _ _ _ after | restarted _ after =>
    rw [after]
    exact List.Subset.refl _

theorem Run.broadcasts_subset (run : Run c market (later ++ x :: past) s) :
    x.after.chain.broadcasts ⊆ s.chain.broadcasts := by
  induction later generalizing s with
  | nil =>
    obtain ⟨-, -, rfl⟩ := cons_iff.mp run
    exact List.Subset.refl _
  | cons y later ih =>
    obtain ⟨before, taken, rfl⟩ := cons_iff.mp run
    exact List.Subset.trans (ih before) taken.outcome.broadcasts_subset

/-! ## Facts that every act keeps -/

/-- The chain is in order and the watchers are sound. -/
structure Sane (c : Setup) (market : Price) (s : Simulation) : Prop where
  price : s.chain.marketPrice = market
  keyed : s.chain.Keyed
  sound : ∀ w ∈ s.service.watchers, w.Sound c

theorem Outcome.sane (outcome : Outcome c x) (before : x.before.Sane c market) :
    x.after.Sane c market := by
  obtain ⟨price, keyed, sound⟩ := before
  cases outcome with
  | @sent tx _ after =>
    rw [after]
    exact ⟨price, keyed.receive (.send tx), sound⟩
  | @answered id call _ _ _ _ made after =>
    rw [after]
    exact ⟨(SimulatedChain.marketPrice_receive _ call).trans price, keyed.receive call,
      (Effect.of_made sound made).sound sound⟩
  | moved _ _ made after =>
    rw [after]
    exact ⟨price, keyed, (Effect.of_made sound made).sound sound⟩
  | restarted _ after =>
    rw [after]
    exact ⟨price, keyed, fun _ hw => absurd hw Service.not_mem_restarted⟩

theorem Run.sane (run : Run c market past s) : s.Sane c market := by
  induction run with
  | start now =>
    exact ⟨rfl, fun _ h => absurd h List.not_mem_nil, fun _ h => absurd h List.not_mem_nil⟩
  | step _ taken ih => exact Outcome.sane (Step.Taken.outcome (x := ⟨_, _, _, _⟩) taken) ih

/-- Watchers' copies of a record are what is stored. -/
def Current (s : Simulation) (id : String) : Prop :=
  ∀ w ∈ s.service.watchers, w.id = id → s.service.store.get? id = some w.record

theorem Outcome.current (outcome : Outcome c x) (before : x.before.Current id)
    (sound : ∀ w ∈ x.before.service.watchers, w.Sound c) (kept : ¬ x.Rewrites id) :
    x.after.Current id := by
  cases outcome with
  | sent _ after =>
    rw [after]
    exact before
  | answered _ _ made after =>
    rw [after]
    exact (Effect.of_made sound made).copy_stored (fun _ _ => made) sound (made.calm sound nofun)
      before
  | moved ha _ made after =>
    rw [after]
    refine (Effect.of_made sound made).copy_stored (fun _ _ => made) sound (made.calm sound ?_) before
    rintro ⟨introduces, there⟩
    exact kept ⟨by rw [ha]; exact introduces, there⟩
  | restarted _ after =>
    rw [after]
    exact fun _ hw => absurd hw Service.not_mem_restarted

theorem Run.current (run : Run c market past s) (kept : ∀ y ∈ past, ¬ y.Rewrites id) :
    s.Current id := by
  induction run with
  | start now => exact fun _ h => absurd h List.not_mem_nil
  | step before taken ih =>
    exact Outcome.current (Step.Taken.outcome (x := ⟨_, _, _, _⟩) taken)
      (ih fun y hy => kept y (List.mem_cons_of_mem _ hy)) before.sane.sound
      (kept _ List.mem_cons_self)

end Steps

/-! ## Records and watchers on their course -/

/-- The transaction stored for a record is on the chain, a local signer signs for its sender, and
its final status, if it has one, is the right one. -/
structure Rightful (c : Setup) (chain : SimulatedChain) (now : Moment) (r : Record)
    (latest : SignedTx) : Prop where
  readable : r.latest = .ok latest
  fits : latest.Fits
  known : (latest.hash, latest) ∈ chain.broadcasts
  signed : ∃ address account, c.signers.resolve r.sender = some (address, .digest account)
  succeeded : r.status = .succeeded → chain.marketPrice ≤ latest.gasPrice
  failed : r.status = .failed → (∃ d, r.deadline? = some d ∧ d ≤ now) ∨
    r.policy.maxPrice < latest.gasPrice.scale r.policy.priceMultiplier

/-- A watcher asks for the receipt of what pays the market price, and has only stored what is right
to store. -/
def Minds (c : Setup) (chain : SimulatedChain) (now : Moment) (w : Watcher) : Prop :=
  match w.phase with
  | .calling _ (.receipt _) =>
    ∃ latest, w.record.latest = .ok latest ∧ chain.marketPrice ≤ latest.gasPrice
  | .writing r _ => ∃ latest, Rightful c chain now r latest
  | _ => True

/-- What is stored under an id is rightful, and its watcher minds it. -/
structure OnCourse (c : Setup) (s : Simulation) (id : String) : Prop where
  stored : ∃ r latest, s.service.store.get? id = some r ∧
    Rightful c s.chain s.service.now r latest
  watched : ∀ w ∈ s.service.watchers, w.id = id → Minds c s.chain s.service.now w

/-- What watchers hear in a move is what a chain says, and the store does what it is asked for. -/
structure Backs (c : Setup) (chain : SimulatedChain) (y : Transition) : Prop where
  answers : ∀ {id call result}, y.Hears c id call result → result = chain.replies call
  taken : ∀ {id tx result}, y.Hears c id (.send tx) result → (tx.hash, tx) ∈ chain.broadcasts
  stores : ∀ {id r after outcome}, y.Learns id r after outcome → outcome = .ok ()

section Courses

variable {c : Setup} {chain chain' : SimulatedChain} {now now' : Moment} {r : Record}
  {latest tx : SignedTx} {y : Transition} {w w' : Watcher} {id : String}

theorem Rightful.mono (h : Rightful c chain now r latest)
    (sub : chain.broadcasts ⊆ chain'.broadcasts) (price : chain'.marketPrice = chain.marketPrice)
    (passed : now ≤ now') : Rightful c chain' now' r latest where
  readable := h.readable
  fits := h.fits
  known := sub h.known
  signed := h.signed
  succeeded status := price ▸ h.succeeded status
  failed status := by
    rcases h.failed status with ⟨d, timed, late⟩ | above
    · exact .inl ⟨d, timed, Nat.le_trans late passed⟩
    · exact .inr above

theorem Minds.mono (h : Minds c chain now w) (sub : chain.broadcasts ⊆ chain'.broadcasts)
    (price : chain'.marketPrice = chain.marketPrice) (passed : now ≤ now') :
    Minds c chain' now' w := by
  unfold Minds at h ⊢
  split at h
  · exact price ▸ h
  · exact h.imp fun _ right => right.mono sub price passed
  · trivial

/-- The chain may take more transactions in. -/
theorem OnCourse.receive {s : Service} (h : OnCourse c ⟨s, chain⟩ id) (call : Call) :
    OnCourse c ⟨s, chain.receive call⟩ id := by
  have sub := chain.broadcasts_receive call
  have price := chain.marketPrice_receive call
  obtain ⟨r, latest, stored, right⟩ := h.stored
  exact ⟨⟨r, latest, stored, right.mono sub price (Nat.le_refl _)⟩,
    fun w hw hid => (h.watched w hw hid).mono sub price (Nat.le_refl _)⟩

/-- What a local signer signs for a rightful record can be written. -/
theorem Rightful.fits_of_bumps (h : Rightful c chain now r latest) (bump : r.Bumps c tx) :
    tx.Fits := by
  obtain ⟨latest', address, signer, t, readable, -, found, made⟩ := bump
  obtain ⟨address', account, signs⟩ := h.signed
  obtain rfl := Except.ok.inj (h.readable.symm.trans readable)
  obtain ⟨-, rfl⟩ := Prod.mk.inj (Option.some.inj (found.symm.trans signs))
  obtain ⟨payload, length⟩ := Signer.of_digest made
  refine ⟨?_, ?_⟩
  · rw [payload, UnsignedTx.withGasPrice]
    exact h.fits.data
  · rw [length]
    decide

/-- A new price is rightful once its transaction is on the chain. -/
theorem Rightful.withLatest (h : Rightful c chain now r latest) (bump : r.Bumps c tx)
    (known : (tx.hash, tx) ∈ chain.broadcasts) :
    Rightful c chain now (r.withLatest tx) tx where
  readable := SignedTx.decode_encode (h.fits_of_bumps bump)
  fits := h.fits_of_bumps bump
  known := known
  signed := h.signed
  succeeded := nofun
  failed := nofun

theorem Rightful.withStatus (h : Rightful c chain now r latest) (status : Status)
    (succeeded : status = .succeeded → chain.marketPrice ≤ latest.gasPrice)
    (failed : status = .failed → (∃ d, r.deadline? = some d ∧ d ≤ now) ∨
      r.policy.maxPrice < r.policy.raise latest.gasPrice) :
    Rightful c chain now (r.withStatus status) latest :=
  ⟨h.readable, h.fits, h.known, h.signed, succeeded, failed⟩

/-! ## What a watcher hears -/

section Hearing

variable (right : Rightful c chain now w.record latest) (keyed : chain.Keyed)
  (distinct : chain.NoCollision) (sound : w.Sound c)
include right keyed distinct

theorem Rightful.lookup (backs : Backs c chain y) {result : Except ChainError Bool}
    (readable : w.record.latest = .ok tx) (heard : y.Hears c id (.lookup tx.hash) result) :
    result = .ok (decide (latest.gasPrice < chain.marketPrice)) := by
  obtain rfl := Except.ok.inj (right.readable.symm.trans readable)
  rw [backs.answers heard]
  exact SimulatedChain.replies_lookup keyed distinct right.known

theorem Rightful.receipt (backs : Backs c chain y) {result : Except ChainError Receipt}
    (readable : w.record.latest = .ok tx) (heard : y.Hears c id (.receipt tx.hash) result) :
    result = .ok ⟨latest.hash, Receipt.successful⟩ := by
  obtain rfl := Except.ok.inj (right.readable.symm.trans readable)
  rw [backs.answers heard]
  exact SimulatedChain.replies_receipt keyed distinct right.known

include sound

/-- No call of a watcher fails. -/
theorem Rightful.replies {since : Moment} {call : Call} (calling : w.phase = .calling since call) :
    ∃ result, chain.replies call = .ok result := by
  have about := sound.2
  rw [calling] at about
  cases call with
  | send tx => exact ⟨(), rfl⟩
  | lookup hash =>
    obtain ⟨tx, readable, rfl⟩ := about
    obtain rfl := Except.ok.inj (right.readable.symm.trans readable)
    exact ⟨_, SimulatedChain.replies_lookup keyed distinct right.known⟩
  | receipt hash =>
    obtain ⟨tx, readable, rfl⟩ := about
    obtain rfl := Except.ok.inj (right.readable.symm.trans readable)
    exact ⟨_, SimulatedChain.replies_receipt keyed distinct right.known⟩

/-- A watcher that hears from the chain hears no failure. -/
theorem Rightful.not_error (backs : Backs c chain y) (hw : y.before.watcher? w.id = some w)
    {call : Call} {e : ChainError} : ¬ y.Hears c w.id call (.error e) := by
  intro heard
  obtain ⟨since, calling⟩ := heard.calling hw
  obtain ⟨result, said⟩ := right.replies keyed distinct sound calling
  rw [← backs.answers heard] at said
  cases said

end Hearing

/-- The only grounds are a price above the ceiling. -/
theorem Rightful.of_grounds (right : Rightful c chain now w.record latest) (keyed : chain.Keyed)
    (distinct : chain.NoCollision) (sound : w.Sound c) (backs : Backs c chain y)
    (hw : y.before.watcher? w.id = some w) {k : TickKind} (grounds : Grounds c w.record y k) :
    w.record.policy.maxPrice < w.record.policy.raise latest.gasPrice := by
  have unfailing {call : Call} {e : ChainError} : ¬ y.Hears c w.record.id call (.error e) :=
    right.not_error keyed distinct sound backs hw
  obtain ⟨address, account, signs⟩ := right.signed
  cases grounds with
  | ceiling _ readable above =>
    obtain rfl := Except.ok.inj (right.readable.symm.trans readable)
    exact above
  | unreadable _ unreadable => cases right.readable.symm.trans unreadable
  | lookupError _ heard | receiptError _ heard | unsent heard => exact absurd heard unfailing
  | receipt readable heard unsuccessful =>
    obtain rfl := Except.ok.inj (right.receipt keyed distinct backs readable heard)
    exact absurd rfl unsuccessful
  | noSigner _ missing => cases signs.symm.trans missing
  | unsigned _ _ found refused =>
    obtain ⟨-, rfl⟩ := Prod.mk.inj (Option.some.inj (signs.symm.trans found))
    cases refused

/-- Nothing sets a watcher back. -/
theorem Rightful.not_setback (right : Rightful c chain now w.record latest) (keyed : chain.Keyed)
    (distinct : chain.NoCollision) (sound : w.Sound c) (backs : Backs c chain y)
    (hw : y.before.watcher? w.id = some w) {e : Failure} : ¬ Setback c y w.id e := by
  intro setback
  cases setback with
  | lookup heard | receipt heard =>
    exact right.not_error keyed distinct sound backs hw heard
  | store learned => cases backs.stores learned

/-- A watcher of a rightful record minds it in every turn. -/
theorem Minds.turn {events : List Event} (minds : Minds c chain y.before.now w)
    (right : Rightful c chain y.before.now w.record latest) (keyed : chain.Keyed)
    (distinct : chain.NoCollision) (sound : w.Sound c) (backs : Backs c chain y)
    (hw : y.before.watcher? w.id = some w) (turn : Turn c y w w' events) :
    Minds c chain y.before.now w' := by
  cases turn with
  | stop | ask | pending | send | resume | finish | silent => trivial
  | leave setback => exact absurd setback (right.not_setback keyed distinct sound backs hw)
  | giveUp setback => exact absurd setback (right.not_setback keyed distinct sound backs hw)
  | timeUp _ _ late =>
    exact ⟨latest, right.withStatus .failed nofun fun _ => .inl ⟨w.deadline, sound.1, late⟩⟩
  | mined readable heard =>
    have mined := Except.ok.inj (right.lookup keyed distinct backs readable heard)
    exact ⟨latest, right.readable, Fin.not_lt.mp (of_decide_eq_false mined.symm)⟩
  | success _ heard =>
    obtain ⟨since, calling⟩ := heard.calling hw
    rw [Minds, calling] at minds
    obtain ⟨latest', readable, paid⟩ := minds
    obtain rfl := Except.ok.inj (right.readable.symm.trans readable)
    exact ⟨latest, right.withStatus .succeeded (fun _ => paid) nofun⟩
  | sent bump heard => exact ⟨_, right.withLatest bump (backs.taken heard)⟩
  | condemn grounds =>
    have above := right.of_grounds keyed distinct sound backs hw grounds
    exact ⟨latest, right.withStatus .failed nofun fun _ => .inr above⟩

/-! ## The invariant -/

variable {market : Price}

/-- Every move that the chain and the store back keeps a record on its course. -/
theorem OnCourse.made (course : OnCourse c ⟨y.before, chain⟩ id) (made : y.Made c)
    (sane : Sane c market ⟨y.before, chain⟩) (distinct : chain.NoCollision)
    (current : Current ⟨y.before, chain⟩ id) (kept : ¬ y.Rewrites id) (backs : Backs c chain y) :
    OnCourse c ⟨y.after, chain⟩ id := by
  have effect := Effect.of_made sane.sound made
  have passed := effect.now_le
  obtain ⟨r, latest, stored, right⟩ := course.stored
  have later {r : Record} {latest : SignedTx} (right : Rightful c chain y.before.now r latest) :
      Rightful c chain y.after.now r latest :=
    right.mono (List.Subset.refl _) rfl passed
  constructor
  · rcases effect.get?_cases sane.sound id with
      same | ⟨r', stored', introduced | ⟨after, -, w, hw, writing⟩⟩
    · exact ⟨r, latest, same.trans stored, later right⟩
    · exact absurd ⟨introduced, Option.isSome_iff_exists.mpr ⟨r, stored⟩⟩ kept
    · have minds := course.watched w (List.mem_of_find?_eq_some hw) (Watcher.id_of_watcher? hw)
      rw [Minds, writing] at minds
      obtain ⟨latest', right'⟩ := minds
      exact ⟨r', latest', stored', later right'⟩
  · intro v hv hid
    cases effect.origin hv with
    | idle was => exact (course.watched v was hid).mono (List.Subset.refl _) rfl passed
    | started _ _ _ starts =>
      obtain ⟨-, waiting, -⟩ := Watcher.start?_eq_some starts.set
      rw [Minds, waiting]
      trivial
    | turned hw _ turn =>
      have mem := List.mem_of_find?_eq_some hw
      rw [turn.id_eq] at hid
      obtain rfl := Option.some.inj (stored.symm.trans (current _ mem hid))
      have minds := (course.watched _ mem hid).turn right sane.keyed distinct
        (sane.sound _ mem) backs hw turn
      exact minds.mono (List.Subset.refl _) rfl passed

/-- An answer of the chain, as it is once it has been asked, backs the move that brings it. -/
theorem Backs.of_answer {call : Call} (asked : y.before.call? id = some call)
    (hm : y.move = .answer id (chain.receive call).replies) :
    Backs c (chain.receive call) y := by
  have heard {i : String} {call' : Call} {result : Except ChainError call'.Result}
      (heard : y.Hears c i call' result) :
      call' = call ∧ result = (chain.receive call).replies call' := by
    cases heard with
    | expire hm' => cases hm.symm.trans hm'
    | answer hm' hw calling =>
      obtain ⟨rfl, rfl⟩ := Move.answer.inj (hm.symm.trans hm')
      rw [Service.call?, hw, Option.map_some, calling] at asked
      exact ⟨Option.some.inj asked, rfl⟩
  refine ⟨fun h => (heard h).2, ?_, ?_⟩
  · intro i tx result h
    obtain ⟨rfl, -⟩ := heard h
    exact List.mem_cons_self
  · intro i r after outcome learned
    cases hm.symm.trans learned.1

/-- A move that works brings no word of the chain. -/
theorem Backs.of_smooth (smooth : y.move.isSmooth = true) : Backs c chain y := by
  have unheard {i : String} {call : Call} {result : Except ChainError call.Result} :
      ¬ y.Hears c i call result := by
    intro heard
    cases heard with
    | answer hm | expire hm =>
      rw [hm] at smooth
      cases smooth
  refine ⟨fun h => absurd h unheard, fun h => absurd h unheard, ?_⟩
  intro i r after outcome learned
  rw [learned.1] at smooth
  cases outcome with
  | ok done => rfl
  | error e => cases smooth

end Courses

/-! ## Whole runs -/

section Runs

variable {c : Setup} {market : Price} {past later : List Step} {x : Step} {s : Simulation}
  {id : String} {tx : SignedTx} {policy : Policy} {sender address account : Address}

theorem Outcome.onCourse (outcome : Outcome c x) (course : x.before.OnCourse c id)
    (sane : x.before.Sane c market) (current : x.before.Current id) (kept : ¬ x.Rewrites id)
    (distinct : x.after.chain.NoCollision) : x.after.OnCourse c id := by
  cases outcome with
  | @sent tx _ after =>
    rw [after]
    exact course.receive (.send tx)
  | @answered _ call _ _ _ asked made after =>
    rw [after] at distinct ⊢
    have sane' : Sane c market ⟨x.before.service, x.before.chain.receive call⟩ :=
      ⟨(SimulatedChain.marketPrice_receive _ call).trans sane.price, sane.keyed.receive call,
        sane.sound⟩
    exact (course.receive call).made made sane' distinct current nofun (.of_answer asked rfl)
  | moved ha smooth made after =>
    rw [after] at distinct ⊢
    refine course.made made sane distinct current ?_ (.of_smooth smooth)
    rintro ⟨introduces, there⟩
    exact kept ⟨by rw [ha]; exact introduces, there⟩
  | restarted _ after =>
    rw [after]
    exact ⟨course.stored, fun _ hw => absurd hw Service.not_mem_restarted⟩

/-- A record that is handed over after its transaction was sent begins on its course. -/
theorem Run.onCourse_of_insert (run : Run c market (x :: past) s)
    (sent : (tx.hash, tx) ∈ x.before.chain.broadcasts)
    (inserted : x.act = .move (.insert id tx policy sender (.ok ())))
    (valid : policy.validate = .ok ()) (kept : ∀ y ∈ x :: past, ¬ y.Rewrites id) (fits : tx.Fits)
    (signs : c.signers.resolveAddress sender = some (address, .digest account)) :
    x.after.OnCourse c id := by
  obtain ⟨before, taken, -⟩ := cons_iff.mp run
  have current := before.current fun y hy => kept y (List.mem_cons_of_mem x hy)
  cases taken.outcome with
  | sent ha | answered ha | restarted ha => cases ha.symm.trans inserted
  | moved ha _ made after =>
    obtain rfl := Act.move.inj (ha.symm.trans inserted)
    have effect := Effect.of_made before.sane.sound made
    rw [after]
    refine ⟨⟨_, tx, effect.get?_of_insert rfl valid, ?_⟩, ?_⟩
    · exact ⟨SignedTx.decode_encode fits, fits, sent, ⟨_, _, signs⟩, nofun, nofun⟩
    · -- nobody watches a record before it is stored
      have unwatched : ∀ w ∈ x.before.service.watchers, w.id ≠ id := by
        intro w hw hid
        refine kept x List.mem_cons_self ⟨by rw [inserted]; exact decide_eq_true rfl, ?_⟩
        rw [current w hw hid]
        rfl
      exact fun w hw hid => absurd hid (effect.unwatched_of_unpolled nofun unwatched w hw)

/-- The invariant holds from the insertion on. -/
theorem Run.onCourse (run : Run c market (later ++ x :: past) s)
    (sent : (tx.hash, tx) ∈ x.before.chain.broadcasts)
    (inserted : x.act = .move (.insert id tx policy sender (.ok ())))
    (valid : policy.validate = .ok ()) (kept : ∀ y ∈ later ++ x :: past, ¬ y.Rewrites id)
    (fits : tx.Fits) (signs : c.signers.resolveAddress sender = some (address, .digest account))
    (distinct : s.chain.NoCollision) : s.OnCourse c id := by
  induction later generalizing s with
  | nil =>
    obtain ⟨-, -, rfl⟩ := cons_iff.mp run
    exact run.onCourse_of_insert sent inserted valid kept fits signs
  | cons y later ih =>
    obtain ⟨before, taken, rfl⟩ := cons_iff.mp run
    have kept' : ∀ z ∈ later ++ x :: past, ¬ z.Rewrites id :=
      fun z hz => kept z (List.mem_cons_of_mem y hz)
    have course := ih before kept' (distinct.restrict taken.outcome.broadcasts_subset)
    exact taken.outcome.onCourse course before.sane (before.current kept')
      (kept y List.mem_cons_self) distinct

/-- On its course, no call of a record's watcher fails. -/
theorem OnCourse.answered (course : s.OnCourse c id) (sane : s.Sane c market)
    (current : s.Current id) {call : Call} (asked : s.service.call? id = some call)
    (distinct : (s.chain.receive call).NoCollision) :
    ∃ result, (s.chain.receive call).replies call = .ok result := by
  unfold Service.call? at asked
  split at asked
  case h_2 => cases asked
  case h_1 since call' phase =>
    obtain rfl := Option.some.inj asked
    obtain ⟨w, hw, calling⟩ := Option.map_eq_some_iff.mp phase
    have mem := List.mem_of_find?_eq_some hw
    have stored := current w mem (Watcher.id_of_watcher? hw)
    obtain ⟨r, latest, stored', right⟩ := (course.receive call').stored
    obtain rfl := Option.some.inj (stored.symm.trans stored')
    exact right.replies (sane.keyed.receive call') distinct (sane.sound w mem) calling

/-- **Outcomes follow the market.** Take a record that is handed over once its transaction has been
sent to the simulated chain, for a sender with a local signer, and that only its watchers rewrite;
and let no two of the transactions sent collide. At every point from then on, the record is stored
with a transaction that can be read; if it has succeeded then that transaction pays the market
price, and if it has failed then its deadline has come or the next price is above its ceiling. No
call for the record fails, so that no status check ever finds its transaction missing. The polls of
these runs are answered at once. -/
theorem outcomes_follow_market (run : Run c market (later ++ x :: past) s)
    (sent : (tx.hash, tx) ∈ x.before.chain.broadcasts)
    (inserted : x.act = .move (.insert id tx policy sender (.ok ())))
    (valid : policy.validate = .ok ()) (kept : ∀ y ∈ later ++ x :: past, ¬ y.Rewrites id)
    (fits : tx.Fits) (signs : c.signers.resolveAddress sender = some (address, .digest account))
    (distinct : s.chain.NoCollision) :
    (∃ r latest, s.service.store.get? id = some r ∧ r.latest = .ok latest ∧
      (r.status = .succeeded → market ≤ latest.gasPrice) ∧
      (r.status = .failed → (∃ d, r.deadline? = some d ∧ d ≤ s.service.now) ∨
        r.policy.maxPrice < latest.gasPrice.scale r.policy.priceMultiplier)) ∧
    ∀ y ∈ later, y.act = .answer id → ∃ call result,
      y.before.service.call? id = some call ∧ y.after.chain.replies call = .ok result := by
  constructor
  · obtain ⟨r, latest, stored, right⟩ :=
      (run.onCourse sent inserted valid kept fits signs distinct).stored
    exact ⟨r, latest, stored, right.readable, run.sane.price ▸ right.succeeded, right.failed⟩
  · intro y hy ha
    obtain ⟨after, rest, rfl⟩ := List.append_of_mem hy
    rw [List.append_assoc] at run kept
    have sub := run.broadcasts_subset
    obtain ⟨before, taken, -⟩ := Run.cons_iff.mp run.of_append
    have kept' : ∀ z ∈ rest ++ x :: past, ¬ z.Rewrites id :=
      fun z hz => kept z (List.mem_append_right after (List.mem_cons_of_mem y hz))
    have distinct' := distinct.restrict sub
    have course := before.onCourse sent inserted valid kept' fits signs
      (distinct'.restrict taken.outcome.broadcasts_subset)
    cases taken.outcome with
    | sent ha' | moved ha' | restarted ha' => cases ha'.symm.trans ha
    | @answered _ call _ _ ha' asked _ led =>
      obtain rfl := Act.answer.inj (ha'.symm.trans ha)
      rw [led] at distinct' ⊢
      obtain ⟨result, said⟩ :=
        course.answered before.sane (before.current kept') asked distinct'
      exact ⟨call, result, asked, said⟩

end Runs

/-! ## A sample -/

/-- Acts one after the other, as long as each is possible. -/
def replay (c : Setup) : List Act → List Step → Simulation → Option (List Step × Simulation)
  | [], past, s => some (past, s)
  | a :: rest, past, s => do
    let (s', events) ← s.apply c a
    replay c rest (⟨s, a, s', events⟩ :: past) s'

theorem Run.of_replay {c : Setup} {market : Price} {acts : List Act} {past past' : List Step}
    {s s' : Simulation} (run : Run c market past s)
    (done : replay c acts past s = some (past', s')) :
    Run c market past' s' ∧ past'.map (·.act) = acts.reverse ++ past.map (·.act) := by
  induction acts generalizing past s with
  | nil =>
    obtain ⟨rfl, rfl⟩ := Prod.mk.inj (Option.some.inj done)
    exact ⟨run, rfl⟩
  | cons a rest ih =>
    obtain ⟨⟨s₁, events⟩, first, done⟩ := Option.bind_eq_some_iff.mp done
    obtain ⟨run', acts'⟩ := ih (run.step first) done
    exact ⟨run', by rw [acts']; simp⟩

end Simulation

namespace Sample

def sender : Address := ⟨List.replicate 20 0x22, rfl⟩

/-- The sample's setup with a local signer for the sender. -/
def signing : Setup := { setup with signers := Registry.empty.insert sender (.digest sender) }

theorem signs : signing.signers.resolveAddress sender = some (sender, .digest sender) := by
  have entries : signing.signers.entries = [(sender, Signer.digest sender)] := rfl
  have found : signing.signers.find? sender = some (sender, .digest sender) := by
    rw [Registry.find?, entries]
    exact List.find?_cons_of_pos (decide_eq_true rfl)
  unfold Registry.resolveAddress Registry.resolve
  dsimp only
  rw [Address.trim_checksumText, Address.ofText?_checksumText, Option.bind_some, found]
  split
  case h_1 only alone =>
    obtain rfl := List.singleton_inj.mp (entries.symm.trans alone)
    exact ite_self _
  case h_2 => rfl

/-- The sample's policy with the first status check before the first price increase. -/
def checking : Policy :=
  { policy with checkInterval := .ofMillis 4000, increaseInterval := .ofMillis 10000 }

/-- The sample's transaction is handed over, for the sender. -/
def handOver : Act := .move (.insert "a" tx checking sender (.ok ()))

/-- Its record is watched, its watcher is lost with the service, and the next one finds the
transaction mined at its first check. -/
def settling : List Act :=
  [.move .startPoller, .move (.advance (.ofMillis 10000)), .move (.poll 0 (.ok ())), .restart,
   .move .startPoller, .move (.advance (.ofMillis 20000)), .move (.poll 0 (.ok ())),
   .move (.advance (.ofMillis 24000)), .move (.wake "a"), .answer "a", .answer "a",
   .move (.stored "a" (.ok ()))]

def settlingTest (p : List Simulation.Step × Simulation) : Bool :=
  (p.2.service.store.get? "a").any (fun r => r.status = .succeeded) &&
    p.2.chain.broadcasts.length = 1 && p.1.all fun y => !(y.Rewrites "a")

end Sample

namespace Simulation

/-- The sample's transaction pays just the market price. -/
theorem settling_sample_follows_market : ∃ later x past s,
    Run Sample.signing Sample.tx.gasPrice (later ++ x :: past) s ∧ x.act = Sample.handOver ∧
      later.map (·.act) = Sample.settling.reverse ∧
      (∃ r latest, s.service.store.get? "a" = some r ∧ r.status = .succeeded ∧
        r.latest = .ok latest ∧ Sample.tx.gasPrice ≤ latest.gasPrice) ∧
      ∀ y ∈ later, y.act = .answer "a" → ∃ call result,
        y.before.service.call? "a" = some call ∧ y.after.chain.replies call = .ok result := by
  have passed : (replay Sample.signing (.send Sample.tx :: Sample.handOver :: Sample.settling) []
      (.initial ⟨0⟩ Sample.tx.gasPrice)).any Sample.settlingTest = true := by decide +kernel
  obtain ⟨⟨all, s⟩, done, passed⟩ := (Option.any_eq_true ..).mp passed
  simp only [Sample.settlingTest, Bool.and_eq_true, decide_eq_true_eq, List.all_eq_true,
    Bool.not_eq_true', decide_eq_false_iff_not, Option.any_eq_true] at passed
  obtain ⟨⟨⟨r, stored, succeeded⟩, one⟩, kept⟩ := passed
  obtain ⟨run, acts⟩ := Run.of_replay (.start ⟨0⟩) done
  have acts : all.map (·.act) =
      Sample.settling.reverse ++ [Sample.handOver, .send Sample.tx] := by
    rw [acts]
    simp
  obtain ⟨later, rest, rfl, settled, acts⟩ := List.map_eq_append_iff.mp acts
  obtain ⟨x, past, rfl, inserted, acts⟩ := List.map_eq_cons_iff.mp acts
  obtain ⟨first, none, rfl, sent, -⟩ := List.map_eq_cons_iff.mp acts
  -- the transaction is on the chain since the first act
  have known : (Sample.tx.hash, Sample.tx) ∈ x.before.chain.broadcasts := by
    obtain ⟨-, taken, same⟩ := Run.cons_iff.mp (Run.cons_iff.mp run.of_append).1
    rw [same]
    cases taken.outcome with
    | answered ha | moved ha | restarted ha => cases ha.symm.trans sent
    | sent ha after =>
      obtain rfl := Act.send.inj (ha.symm.trans sent)
      rw [after]
      exact List.mem_cons_self
  have distinct : s.chain.NoCollision := by
    obtain ⟨only, alone⟩ := List.length_eq_one_iff.mp one
    intro p hp q hq _
    rw [alone, List.mem_singleton] at hp hq
    rw [hp, hq]
  obtain ⟨⟨r', latest, stored', readable, paid, -⟩, calls⟩ := outcomes_follow_market run known
    inserted (by decide +kernel) kept ⟨by decide, by decide⟩ Sample.signs distinct
  obtain rfl := Option.some.inj (stored.symm.trans stored')
  exact ⟨later, x, _, s, run, inserted, settled, ⟨r, latest, stored, succeeded, readable,
    paid succeeded⟩, calls⟩

end Simulation

end GasEscalator
