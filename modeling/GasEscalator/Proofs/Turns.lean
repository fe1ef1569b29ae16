import GasEscalator.Proofs.History

/-!
# What a watcher may do in one move

A watcher moves in turns: it takes what is due, hears the chain's answer to its call, or learns
whether the store took its record. The relations below list the turns with everything that has to
hold for them, so that an invariant of watchers is one case analysis and opens no definition.
-/
namespace GasEscalator

/-- The timers whose ticks a watcher works on. -/
inductive TickKind
  | check
  | increase

namespace Watcher

def ticked (w : Watcher) (now : Moment) : TickKind → Watcher
  | .check => { w with check := w.check.next now }
  | .increase => { w with increase := w.increase.next now }

@[simp] theorem ticked_record (w : Watcher) (now : Moment) (k : TickKind) :
    (w.ticked now k).record = w.record := by
  cases k <;> simp only [ticked]

@[simp] theorem ticked_deadline (w : Watcher) (now : Moment) (k : TickKind) :
    (w.ticked now k).deadline = w.deadline := by
  cases k <;> simp only [ticked]

theorem record_of_same {v w : Watcher} {now : Moment} (same : v = w ∨ ∃ k, v = w.ticked now k) :
    v.record = w.record := by
  rcases same with rfl | ⟨k, rfl⟩
  · rfl
  · exact ticked_record w now k

theorem deadline_of_same {v w : Watcher} {now : Moment} (same : v = w ∨ ∃ k, v = w.ticked now k) :
    v.deadline = w.deadline := by
  rcases same with rfl | ⟨k, rfl⟩
  · rfl
  · exact ticked_deadline w now k

/-- A watcher that waits takes a tick: neither a stop nor the deadline goes before it, and a status
check goes before a price increase. -/
structure Ticks (w : Watcher) (s : Service) (k : TickKind) : Prop where
  waiting : w.phase = .waiting
  running : s.stopped = false
  early : s.now < w.deadline
  due : match k with
    | .check => w.check.isDue s.now = true
    | .increase => w.check.isDue s.now = false ∧ w.increase.isDue s.now = true

end Watcher

/-- A transaction is the one sent last for a record at the next price, signed by the signer that the
record's sender has. -/
def Record.Bumps (c : Setup) (r : Record) (tx : SignedTx) : Prop :=
  ∃ latest address signer now, r.latest = .ok latest ∧
    r.policy.raise latest.gasPrice ≤ r.policy.maxPrice ∧
    c.signers.resolve r.sender = some (address, signer) ∧
    signer now (latest.payload.withGasPrice (r.policy.raise latest.gasPrice)) r.chainId = .ok tx

/-- What a watcher is at fits its own copy of the record. -/
def Watcher.Sound (c : Setup) (w : Watcher) : Prop :=
  w.record.deadline? = some w.deadline ∧
  match w.phase with
  | .calling _ (.lookup hash) | .calling _ (.receipt hash) =>
    ∃ tx, w.record.latest = .ok tx ∧ hash = tx.hash
  | .calling _ (.send tx) => w.record.Bumps c tx
  | .writing r .resume => ∃ tx, w.record.Bumps c tx ∧ r = w.record.withLatest tx
  | .writing r .finish => r = w.record.withStatus .failed ∨ r = w.record.withStatus .succeeded
  | .writing r .giveUp => r = w.record.withStatus .failed
  | .waiting | .done => True

namespace Transition

/-- The watcher of a record takes a tick. -/
def Begins (x : Transition) (id : String) (k : TickKind) : Prop :=
  x.move = .wake id ∧ ∃ w, x.before.watcher? id = some w ∧ w.Ticks x.before k

/-- The watcher of a record hears the answer to its call: from the chain, or that the call took
longer than it may. -/
inductive Hears (c : Setup) (x : Transition) (id : String) :
    (call : Call) → Except ChainError call.Result → Prop
  | answer {w : Watcher} {since : Moment} {call : Call} {replies : Replies}
      (hm : x.move = .answer id replies) (hw : x.before.watcher? id = some w)
      (calling : w.phase = .calling since call) : Hears c x id call (replies call)
  | expire {w : Watcher} {since : Moment} {call : Call} {limit : Duration}
      (hm : x.move = .expire id) (hw : x.before.watcher? id = some w)
      (calling : w.phase = .calling since call) (limited : c.settings.callTimeout = some limit)
      (late : since + limit ≤ x.before.now) : Hears c x id call (.error (.timeout limit))

/-- The watcher of a record learns what the store says to the write of `r`. -/
def Learns (x : Transition) (id : String) (r : Record) (after : AfterWrite)
    (outcome : Except StorageError Unit) : Prop :=
  x.move = .stored id outcome ∧ ∃ w, x.before.watcher? id = some w ∧ w.phase = .writing r after

end Transition

/-- An answer of the chain that no later call can better. -/
inductive ChainError.Fatal : ChainError → Prop
  | nonceTooLow (text : String) : Fatal (.nonceTooLow text)
  | nonceTooHigh (text : String) : Fatal (.nonceTooHigh text)
  | notFound (text : String) : Fatal (.notFound text)

theorem ChainError.isUnrecoverable_iff {e : ChainError} : e.isUnrecoverable = true ↔ e.Fatal := by
  constructor
  · intro h
    cases e with
    | nonceTooLow text => exact .nonceTooLow text
    | nonceTooHigh text => exact .nonceTooHigh text
    | notFound text => exact .notFound text
    | timeout limit => cases h
    | rpc text => cases h
  · intro h
    cases h <;> rfl

/-- What happens in a move, within a tick of one kind, that makes a watcher mark its record `r` as
failed before its time. -/
inductive Grounds (c : Setup) (r : Record) (x : Transition) : TickKind → Prop
  /-- The tick finds that the stored transaction cannot be read. -/
  | unreadable {k : TickKind} {e : DecodeError} (tick : x.Begins r.id k)
      (latest : r.latest = .error e) : Grounds c r x k
  /-- The transaction was mined and not carried out. -/
  | receipt {tx : SignedTx} {receipt : Receipt} (latest : r.latest = .ok tx)
      (heard : x.Hears c r.id (.receipt tx.hash) (.ok receipt))
      (unsuccessful : receipt.status ≠ Receipt.successful) : Grounds c r x .check
  /-- The lookup of the transaction failed for good. -/
  | lookupError {tx : SignedTx} {e : ChainError} (latest : r.latest = .ok tx)
      (heard : x.Hears c r.id (.lookup tx.hash) (.error e)) (fatal : e.Fatal) :
      Grounds c r x .check
  /-- The call for the transaction's receipt failed for good. -/
  | receiptError {tx : SignedTx} {e : ChainError} (latest : r.latest = .ok tx)
      (heard : x.Hears c r.id (.receipt tx.hash) (.error e)) (fatal : e.Fatal) :
      Grounds c r x .check
  /-- The next price is above the ceiling. -/
  | ceiling {tx : SignedTx} (tick : x.Begins r.id .increase) (latest : r.latest = .ok tx)
      (above : r.policy.maxPrice < r.policy.raise tx.gasPrice) : Grounds c r x .increase
  /-- Nobody signs for the sender. -/
  | noSigner (tick : x.Begins r.id .increase) (missing : c.signers.resolve r.sender = none) :
      Grounds c r x .increase
  /-- The signer refuses. -/
  | unsigned {tx : SignedTx} {address : Address} {signer : Signer} {e : SignerError}
      (tick : x.Begins r.id .increase) (latest : r.latest = .ok tx)
      (found : c.signers.resolve r.sender = some (address, signer))
      (refused : signer x.before.now (tx.payload.withGasPrice (r.policy.raise tx.gasPrice))
        r.chainId = .error e) : Grounds c r x .increase
  /-- The broadcast failed or took too long. -/
  | unsent {tx : SignedTx} {e : ChainError} (heard : x.Hears c r.id (.send tx) (.error e)) :
      Grounds c r x .increase

/-- A setback that leaves the record to a later poll while there is time. -/
inductive Setback (c : Setup) (x : Transition) (id : String) : Failure → Prop
  | lookup {hash : Hash} {e : ChainError} (heard : x.Hears c id (.lookup hash) (.error e))
      (passing : ¬ e.Fatal) : Setback c x id (.chain .lookup e)
  | receipt {hash : Hash} {e : ChainError} (heard : x.Hears c id (.receipt hash) (.error e))
      (passing : ¬ e.Fatal) : Setback c x id (.chain .receipt e)
  | store {r : Record} {after : AfterWrite} {e : StorageError}
      (learned : x.Learns id r after (.error e)) (again : after ≠ .giveUp) :
      Setback c x id (.storage e)

/-- The turns of a watcher: what it becomes and what it lets happen. -/
inductive Turn (c : Setup) (x : Transition) (w : Watcher) : Watcher → List Event → Prop
  /-- It is stopped. -/
  | stop (hm : x.move = .wake w.id) (waiting : w.phase = .waiting)
      (stopped : x.before.stopped = true) : Turn c x w { w with phase := .done } []
  /-- Its time is up. -/
  | timeUp (hm : x.move = .wake w.id) (waiting : w.phase = .waiting)
      (late : w.deadline ≤ x.before.now) (running : x.before.stopped = false) :
      Turn c x w { w with phase := .writing (w.record.withStatus .failed) .finish } []
  /-- It asks whether its transaction is pending. -/
  | ask {tx : SignedTx} (hm : x.move = .wake w.id) (tick : w.Ticks x.before .check)
      (latest : w.record.latest = .ok tx) :
      Turn c x w
        { w.ticked x.before.now .check with phase := .calling x.before.now (.lookup tx.hash) }
        [.called w.id w.record.chainId (.lookup tx.hash)]
  /-- Its transaction is pending. -/
  | pending {tx : SignedTx} (latest : w.record.latest = .ok tx)
      (heard : x.Hears c w.id (.lookup tx.hash) (.ok true)) :
      Turn c x w { w with phase := .waiting } []
  /-- Its transaction is mined, and it asks for the receipt. -/
  | mined {tx : SignedTx} (latest : w.record.latest = .ok tx)
      (heard : x.Hears c w.id (.lookup tx.hash) (.ok false)) :
      Turn c x w { w with phase := .calling x.before.now (.receipt tx.hash) }
        [.called w.id w.record.chainId (.receipt tx.hash)]
  /-- Its transaction was carried out. -/
  | success {tx : SignedTx} {receipt : Receipt} (latest : w.record.latest = .ok tx)
      (heard : x.Hears c w.id (.receipt tx.hash) (.ok receipt))
      (successful : receipt.status = Receipt.successful) :
      Turn c x w { w with phase := .writing (w.record.withStatus .succeeded) .finish } []
  /-- It sends its transaction at the next price. -/
  | send {latest tx : SignedTx} {address : Address} {signer : Signer}
      (hm : x.move = .wake w.id) (tick : w.Ticks x.before .increase)
      (readable : w.record.latest = .ok latest)
      (within : w.record.policy.raise latest.gasPrice ≤ w.record.policy.maxPrice)
      (found : c.signers.resolve w.record.sender = some (address, signer))
      (signed : signer x.before.now
        (latest.payload.withGasPrice (w.record.policy.raise latest.gasPrice))
        w.record.chainId = .ok tx) :
      Turn c x w { w.ticked x.before.now .increase with phase := .calling x.before.now (.send tx) }
        [.signing w.id address w.record.chainId
          (latest.payload.withGasPrice (w.record.policy.raise latest.gasPrice)),
         .called w.id w.record.chainId (.send tx)]
  /-- Its transaction is out and has to be stored. -/
  | sent {tx : SignedTx} (bump : w.record.Bumps c tx)
      (heard : x.Hears c w.id (.send tx) (.ok ())) :
      Turn c x w { w with phase := .writing (w.record.withLatest tx) .resume } []
  /-- It has grounds to mark its record as failed. -/
  | condemn {v : Watcher} {k : TickKind} {events : List Event} (grounds : Grounds c w.record x k)
      (same : v = w ∨ ∃ k, v = w.ticked x.before.now k)
      (reports : ∀ e ∈ events, (∃ f, e = .logged w.record f) ∨
        x.Begins w.id .increase ∧ ∃ address tx, e = .signing w.id address w.record.chainId tx) :
      Turn c x w { v with phase := .writing (w.record.withStatus .failed) .finish } events
  /-- It leaves its record to a later poll. -/
  | leave {e : Failure} (setback : Setback c x w.id e) (early : x.before.now < w.deadline) :
      Turn c x w { w with phase := .done } [.logged w.record e]
  /-- A setback after its time: it marks its record as failed and leaves in any case. -/
  | giveUp {e : Failure} (setback : Setback c x w.id e) (late : w.deadline ≤ x.before.now) :
      Turn c x w { w with phase := .writing (w.record.withStatus .failed) .giveUp }
        [.logged w.record e]
  /-- The new price is stored, and it goes on from there. -/
  | resume {tx : SignedTx} (bump : w.record.Bumps c tx)
      (learned : x.Learns w.id (w.record.withLatest tx) .resume (.ok ())) :
      Turn c x w { w with record := w.record.withLatest tx, phase := .waiting } []
  /-- Its last write is stored. -/
  | finish {r : Record} {after : AfterWrite} (learned : x.Learns w.id r after (.ok ()))
      (last : after ≠ .resume) : Turn c x w { w with phase := .done } []
  /-- Its last write failed. -/
  | silent {r : Record} {e : StorageError} (learned : x.Learns w.id r .giveUp (.error e)) :
      Turn c x w { w with phase := .done } [.logged w.record (.storage e)]

namespace Turn

variable {c : Setup} {x : Transition} {w w' : Watcher} {events : List Event}

/-- A watcher stays with its record. -/
theorem id_eq (turn : Turn c x w w' events) : w'.id = w.id := by
  cases turn with
  | condemn _ same _ =>
    have kept := Watcher.record_of_same same
    exact congrArg Record.id kept
  | _ => rfl

theorem deadline_eq (turn : Turn c x w w' events) : w'.deadline = w.deadline := by
  cases turn with
  | condemn _ same _ =>
    have kept := Watcher.deadline_of_same same
    exact kept
  | _ => rfl

/-- The copy of the record changes only when the new price is stored. -/
theorem record_cases (turn : Turn c x w w' events) :
    w'.record = w.record ∨ ∃ tx, w.record.Bumps c tx ∧ w'.record = w.record.withLatest tx ∧
      x.Learns w.id w'.record .resume (.ok ()) := by
  cases turn with
  | condemn _ same _ =>
    have kept := Watcher.record_of_same same
    exact .inl kept
  | resume bump learned => exact .inr ⟨_, bump, rfl, learned⟩
  | _ => exact .inl rfl

/-- In a turn a watcher calls the chain, has a transaction signed and reports failures. -/
theorem event_cases (turn : Turn c x w w' events) {e : Event} (he : e ∈ events) :
    (∃ call, e = .called w.id w.record.chainId call) ∨
      (∃ address tx, e = .signing w.id address w.record.chainId tx) ∨
        ∃ f, e = .logged w.record f := by
  cases turn with
  | stop | timeUp | pending | success | sent | resume | finish => cases he
  | leave | giveUp | silent => exact .inr (.inr ⟨_, List.mem_singleton.mp he⟩)
  | ask | mined => exact .inl ⟨_, List.mem_singleton.mp he⟩
  | send =>
    rcases List.mem_cons.mp he with h | h
    · exact .inr (.inl ⟨_, _, h⟩)
    · exact .inl ⟨_, List.mem_singleton.mp h⟩
  | condemn _ _ reports =>
    rcases reports e he with h | ⟨-, h⟩
    · exact .inr (.inr h)
    · exact .inr (.inl h)

/-- Every turn leads to a point that fits the copy of the record. -/
theorem sound (turn : Turn c x w w' events) (before : w.Sound c) : w'.Sound c := by
  have timed : w'.record.deadline? = some w'.deadline := by
    rw [turn.deadline_eq]
    rcases turn.record_cases with h | ⟨tx, -, h, -⟩ <;> rw [h] <;> exact before.1
  refine ⟨timed, ?_⟩
  cases turn with
  | ask _ _ latest =>
    dsimp only
    rw [Watcher.ticked_record]
    exact ⟨_, latest, rfl⟩
  | mined latest _ => exact ⟨_, latest, rfl⟩
  | success => exact .inr rfl
  | send _ _ readable within found signed =>
    dsimp only
    rw [Watcher.ticked_record]
    exact ⟨_, _, _, _, readable, within, found, signed⟩
  | sent bump _ => exact ⟨_, bump, rfl⟩
  | timeUp => exact .inl rfl
  | condemn _ same _ =>
    dsimp only
    rw [Watcher.record_of_same same]
    exact .inl rfl
  | giveUp => exact rfl
  | stop | pending | leave | resume | finish | silent => trivial

end Turn

/-! ## Which moves bring what -/

/-- Whether a move brings the store's word on a write. -/
def Move.isStored : Move → Bool
  | .stored .. => true
  | _ => false

section Kinds

variable {c : Setup} {x : Transition} {id : String} {r : Record} {w w' : Watcher}
  {events : List Event}

theorem Transition.Begins.not_stored {k : TickKind} (h : x.Begins id k) :
    x.move.isStored = false := by
  rw [h.1]
  rfl

theorem Transition.Hears.not_stored {call : Call} {result : Except ChainError call.Result}
    (h : x.Hears c id call result) : x.move.isStored = false := by
  cases h with
  | answer hm => rw [hm]; rfl
  | expire hm => rw [hm]; rfl

theorem Transition.Learns.stored {after : AfterWrite} {outcome : Except StorageError Unit}
    (h : x.Learns id r after outcome) : x.move.isStored = true := by
  rw [h.1]
  rfl

theorem Transition.Hears.exists_watcher {call : Call} {result : Except ChainError call.Result}
    (heard : x.Hears c id call result) : ∃ w, x.before.watcher? id = some w := by
  cases heard with
  | answer _ hw | expire _ hw => exact ⟨_, hw⟩

/-- Who hears an answer is in the call. -/
theorem Transition.Hears.calling {call : Call} {result : Except ChainError call.Result}
    (heard : x.Hears c id call result) (hw : x.before.watcher? id = some w) :
    ∃ since, w.phase = .calling since call := by
  cases heard with
  | answer _ hv calling | expire _ hv calling =>
    obtain rfl := Option.some.inj (hw.symm.trans hv)
    exact ⟨_, calling⟩

/-- Nothing is heard by a watcher that is in no call. -/
theorem Transition.Hears.not_free {call : Call} {result : Except ChainError call.Result}
    (heard : x.Hears c id call result) (hw : x.before.watcher? id = some w) :
    ¬ ∀ since call, w.phase ≠ .calling since call := by
  obtain ⟨since, calling⟩ := heard.calling hw
  exact fun free => free since call calling

theorem Transition.Learns.writing {after : AfterWrite} {outcome : Except StorageError Unit}
    (learned : x.Learns id r after outcome) (hw : x.before.watcher? id = some w) :
    w.phase = .writing r after := by
  obtain ⟨-, v, hv, writing⟩ := learned
  obtain rfl := Option.some.inj (hw.symm.trans hv)
  exact writing

/-- A move brings one answer about one write. -/
theorem Transition.Learns.unique {r' : Record} {after after' : AfterWrite}
    {outcome outcome' : Except StorageError Unit} (h : x.Learns id r after outcome)
    (h' : x.Learns id r' after' outcome') : r' = r ∧ after' = after ∧ outcome' = outcome := by
  obtain ⟨hm, w, hw, writing⟩ := h
  obtain ⟨hm', w', hw', writing'⟩ := h'
  obtain rfl := Option.some.inj (hw.symm.trans hw')
  obtain ⟨rfl, rfl⟩ := Phase.writing.inj (writing.symm.trans writing')
  exact ⟨rfl, rfl, (Move.stored.inj (hm.symm.trans hm')).2.symm⟩

/-- Grounds come up as a tick begins or in what is heard. -/
theorem Grounds.origin {k : TickKind} (h : Grounds c r x k) :
    x.Begins r.id k ∨ ∃ call result, x.Hears c r.id call result := by
  cases h with
  | unreadable tick | ceiling tick | noSigner tick | unsigned tick => exact .inl tick
  | receipt _ heard | lookupError _ heard | receiptError _ heard | unsent heard =>
    exact .inr ⟨_, _, heard⟩

theorem Grounds.not_stored {k : TickKind} (h : Grounds c r x k) : x.move.isStored = false := by
  rcases h.origin with tick | ⟨call, result, heard⟩
  · exact tick.not_stored
  · exact heard.not_stored

/-- A setback is heard of or learned about a write. -/
theorem Setback.origin {e : Failure} (h : Setback c x id e) :
    (∃ call result, x.Hears c id call result) ∨
      ∃ r after f, x.Learns id r after (.error f) ∧ after ≠ .giveUp := by
  cases h with
  | lookup heard | receipt heard => exact .inl ⟨_, _, heard⟩
  | store learned again => exact .inr ⟨_, _, _, learned, again⟩

/-- After a write that worked the watcher goes on with the new price or is through. -/
theorem Turn.of_learned_ok {after : AfterWrite} (turn : Turn c x w w' events)
    (learned : x.Learns w.id r after (.ok ())) :
    events = [] ∧ ((after = .resume ∧ w' = { w with record := r, phase := .waiting }) ∨
      (after ≠ .resume ∧ w' = { w with phase := .done })) := by
  have stored := learned.stored
  cases turn with
  | stop hm | timeUp hm | ask hm | send hm =>
    rw [hm] at stored
    cases stored
  | pending _ heard | mined _ heard | success _ heard | sent _ heard =>
    rw [heard.not_stored] at stored
    cases stored
  | condemn grounds =>
    rw [grounds.not_stored] at stored
    cases stored
  | leave setback | giveUp setback =>
    cases setback with
    | lookup heard | receipt heard =>
      rw [heard.not_stored] at stored
      cases stored
    | store learned' => cases (learned.unique learned').2.2
  | resume _ learned' =>
    obtain ⟨rfl, rfl, -⟩ := learned.unique learned'
    exact ⟨rfl, .inl ⟨rfl, rfl⟩⟩
  | finish learned' last =>
    obtain ⟨-, rfl, -⟩ := learned.unique learned'
    exact ⟨rfl, .inr ⟨last, rfl⟩⟩
  | silent learned' => cases (learned.unique learned').2.2

/-- A watcher that waits for the store goes on when it learns what became of its write. -/
theorem Turn.learns_of_writing {r : Record} {after : AfterWrite} (turn : Turn c x w w' events)
    (hw : x.before.watcher? w.id = some w) (writing : w.phase = .writing r after) :
    ∃ outcome, x.Learns w.id r after outcome := by
  have free : ∀ since call, w.phase ≠ .calling since call := by simp [writing]
  have of_learned {r' : Record} {after' : AfterWrite} {outcome : Except StorageError Unit}
      (learned : x.Learns w.id r' after' outcome) : ∃ outcome, x.Learns w.id r after outcome :=
    ⟨outcome, learned.1, w, hw, writing⟩
  cases turn with
  | stop _ waiting | timeUp _ waiting => cases writing.symm.trans waiting
  | ask _ tick | send _ tick => cases writing.symm.trans tick.waiting
  | pending _ heard | mined _ heard | success _ heard | sent _ heard => exact absurd free (heard.not_free hw)
  | condemn grounds =>
    rcases grounds.origin with ⟨-, v, hv, tick⟩ | ⟨call, result, heard⟩
    · obtain rfl := Option.some.inj (hw.symm.trans hv)
      cases writing.symm.trans tick.waiting
    · exact absurd free (heard.not_free hw)
  | leave setback | giveUp setback =>
    rcases setback.origin with ⟨call, result, heard⟩ | ⟨r, after, e, learned, -⟩
    · exact absurd free (heard.not_free hw)
    · exact of_learned learned
  | resume _ learned | finish learned | silent learned => exact of_learned learned

/-- A watcher takes what is due if and only if it waits for the next thing. -/
theorem Turn.wake_iff (turn : Turn c x w w' events) (hw : x.before.watcher? w.id = some w) :
    x.move = .wake w.id ↔ w.phase = .waiting := by
  have of_heard {call : Call} {result : Except ChainError call.Result}
      (heard : x.Hears c w.id call result) : x.move = .wake w.id ↔ w.phase = .waiting := by
    obtain ⟨since, calling⟩ := heard.calling hw
    rw [calling]
    cases heard with
    | answer hm | expire hm => simp [hm]
  have of_learned {r : Record} {after : AfterWrite} {outcome : Except StorageError Unit}
      (learned : x.Learns w.id r after outcome) : x.move = .wake w.id ↔ w.phase = .waiting := by
    simp [learned.1, learned.writing hw]
  cases turn with
  | stop hm waiting | timeUp hm waiting => exact ⟨fun _ => waiting, fun _ => hm⟩
  | ask hm tick | send hm tick => exact ⟨fun _ => tick.waiting, fun _ => hm⟩
  | pending _ heard | mined _ heard | success _ heard | sent _ heard => exact of_heard heard
  | condemn grounds =>
    rcases grounds.origin with ⟨hm, v, hv, tick⟩ | ⟨call, result, heard⟩
    · obtain rfl := Option.some.inj (hw.symm.trans hv)
      exact ⟨fun _ => tick.waiting, fun _ => hm⟩
    · exact of_heard heard
  | leave setback | giveUp setback =>
    rcases setback.origin with ⟨call, result, heard⟩ | ⟨r, after, e, learned, -⟩
    · exact of_heard heard
    · exact of_learned learned
  | resume _ learned | finish learned | silent learned => exact of_learned learned

end Kinds

/-! ## Every move of a watcher is a turn -/

namespace Watcher

variable {c : Setup} {x : Transition} {w : Watcher}

/-- The watcher of the record `id` is the one that bears the id. -/
theorem id_of_watcher? {s : Service} {id : String} (h : s.watcher? id = some w) : w.id = id := by
  simpa using List.find?_some h

theorem bail_turn {e : Failure} (setback : Setback c x w.id e) :
    Turn c x w (w.bail x.before.now e).1 (w.bail x.before.now e).2 := by
  unfold bail
  split
  case isTrue late => exact .giveUp setback late
  case isFalse early => exact .leave setback (Nat.lt_of_not_le early)

theorem fail_of_forced {v : Watcher} {r : Record} {e : Failure} (now : Moment)
    (forced : e.forcesFailure = true) (hr : v.record = r) :
    v.fail now e =
      ({ v with phase := .writing (r.withStatus .failed) .finish }, [.logged r e]) := by
  subst hr
  rw [fail, if_pos forced]
  rfl

/-- Another call may better a failed one that is not fatal. -/
theorem fail_of_passing (now : Moment) (call : StatusCall) {e : ChainError} (passing : ¬ e.Fatal) :
    w.fail now (.chain call e) = w.bail now (.chain call e) :=
  if_neg fun h => passing (ChainError.isUnrecoverable_iff.mp h)

/-- A failure that forces its record to fail ends a turn if there are grounds for it. -/
theorem fail_turn {v : Watcher} {k : TickKind} {e : Failure} (forced : e.forcesFailure = true)
    (grounds : Grounds c w.record x k) (same : v = w ∨ ∃ k, v = w.ticked x.before.now k) :
    Turn c x w (v.fail x.before.now e).1 (v.fail x.before.now e).2 := by
  rw [fail_of_forced _ forced (record_of_same same)]
  refine .condemn grounds same ?_
  intro event h
  exact .inl ⟨e, List.mem_singleton.mp h⟩

theorem beginCheck_turn (hm : x.move = .wake w.id) (hw : x.before.watcher? w.id = some w)
    (tick : w.Ticks x.before .check) :
    Turn c x w ((w.ticked x.before.now .check).beginCheck x.before.now).1
      ((w.ticked x.before.now .check).beginCheck x.before.now).2 := by
  unfold beginCheck
  rw [ticked_record]
  cases latest : w.record.latest with
  | error e =>
    exact fail_turn rfl (.unreadable ⟨hm, w, hw, tick⟩ latest) (.inr ⟨.check, rfl⟩)
  | ok tx => exact .ask hm tick latest

theorem beginIncrease_turn (hm : x.move = .wake w.id) (hw : x.before.watcher? w.id = some w)
    (tick : w.Ticks x.before .increase) :
    Turn c x w ((w.ticked x.before.now .increase).beginIncrease c.signers x.before.now).1
      ((w.ticked x.before.now .increase).beginIncrease c.signers x.before.now).2 := by
  have begins : x.Begins w.record.id .increase := ⟨hm, w, hw, tick⟩
  have same : w.ticked x.before.now .increase = w ∨
      ∃ k, w.ticked x.before.now .increase = w.ticked x.before.now k := .inr ⟨_, rfl⟩
  unfold beginIncrease
  rw [ticked_record]
  cases latest : w.record.latest with
  | error e => exact fail_turn rfl (.unreadable begins latest) same
  | ok tx =>
    dsimp only
    split
    case isTrue above => exact fail_turn rfl (.ceiling begins latest above) same
    case isFalse within =>
      cases found : c.signers.resolve w.record.sender with
      | none => exact fail_turn rfl (.noSigner begins found) same
      | some entry =>
        obtain ⟨address, signer⟩ := entry
        dsimp only
        cases signed : signer x.before.now
            (tx.payload.withGasPrice (w.record.policy.raise tx.gasPrice)) w.record.chainId with
        | error e =>
          have forced : (Failure.sign e).forcesFailure = true := rfl
          dsimp only [noting]
          rw [fail_of_forced _ forced (record_of_same same)]
          refine .condemn (.unsigned begins latest found signed) same ?_
          intro event h
          rcases List.mem_cons.mp h with rfl | h
          · exact .inr ⟨begins, _, _, rfl⟩
          · exact .inl ⟨_, List.mem_singleton.mp h⟩
        | ok sent => exact .send hm tick latest (Nat.le_of_not_lt within) found signed

theorem wake_turn {next : Watcher × List Event} (hm : x.move = .wake w.id)
    (hw : x.before.watcher? w.id = some w)
    (h : w.wake c.signers x.before.stopped x.before.now = some next) :
    Turn c x w next.1 next.2 := by
  unfold wake at h
  split at h
  case h_2 => cases h
  case h_1 waiting =>
    split at h
    case isTrue stopped =>
      obtain rfl := Option.some.inj h
      exact .stop hm waiting stopped
    case isFalse running =>
      have running : x.before.stopped = false := by simpa using running
      split at h
      case isTrue late =>
        obtain rfl := Option.some.inj h
        exact .timeUp hm waiting late running
      case isFalse early =>
        have early : x.before.now < w.deadline := Nat.lt_of_not_le early
        split at h
        case isTrue due =>
          obtain rfl := Option.some.inj h
          exact beginCheck_turn hm hw ⟨waiting, running, early, due⟩
        case isFalse checked =>
          split at h
          case isTrue due =>
            obtain rfl := Option.some.inj h
            have checked : w.check.isDue x.before.now = false := by simpa using checked
            exact beginIncrease_turn hm hw ⟨waiting, running, early, checked, due⟩
          case isFalse => cases h

theorem resume_turn {since : Moment} {call : Call} {result : Except ChainError call.Result}
    (sound : w.Sound c) (calling : w.phase = .calling since call)
    (heard : x.Hears c w.id call result) :
    Turn c x w (w.resume x.before.now call result).1 (w.resume x.before.now call result).2 := by
  have about := sound.2
  rw [calling] at about
  cases call with
  | lookup hash =>
    obtain ⟨tx, latest, rfl⟩ := about
    cases result with
    | error e =>
      by_cases fatal : e.isUnrecoverable = true
      · exact fail_turn fatal
          (.lookupError latest heard (ChainError.isUnrecoverable_iff.mp fatal)) (.inl rfl)
      · have passing : ¬ e.Fatal := fun h => fatal (ChainError.isUnrecoverable_iff.mpr h)
        rw [resume, fail_of_passing _ _ passing]
        exact bail_turn (.lookup heard passing)
    | ok stillPending =>
      cases stillPending with
      | true => exact .pending latest heard
      | false => exact .mined latest heard
  | receipt hash =>
    obtain ⟨tx, latest, rfl⟩ := about
    cases result with
    | error e =>
      by_cases fatal : e.isUnrecoverable = true
      · exact fail_turn fatal
          (.receiptError latest heard (ChainError.isUnrecoverable_iff.mp fatal)) (.inl rfl)
      · have passing : ¬ e.Fatal := fun h => fatal (ChainError.isUnrecoverable_iff.mpr h)
        rw [resume, fail_of_passing _ _ passing]
        exact bail_turn (.receipt heard passing)
    | ok receipt =>
      rw [resume, judge]
      split
      case isTrue successful => exact .success latest heard successful
      case isFalse unsuccessful =>
        have grounds : Grounds c w.record x .check := .receipt latest heard unsuccessful
        split
        · refine .condemn grounds (.inl rfl) ?_
          intro event h
          cases h
        · refine .condemn grounds (.inl rfl) ?_
          intro event h
          exact .inl ⟨_, List.mem_singleton.mp h⟩
  | send tx =>
    cases result with
    | error e => exact fail_turn rfl (.unsent heard) (.inl rfl)
    | ok done => exact .sent about heard

theorem stored_turn {r : Record} {after : AfterWrite} {outcome : Except StorageError Unit}
    (sound : w.Sound c) (writing : w.phase = .writing r after)
    (learned : x.Learns w.id r after outcome) :
    Turn c x w (w.stored x.before.now r after outcome).1
      (w.stored x.before.now r after outcome).2 := by
  have about := sound.2
  rw [writing] at about
  cases outcome with
  | error e =>
    cases after with
    | finish => exact bail_turn (.store learned nofun)
    | resume => exact bail_turn (.store learned nofun)
    | giveUp => exact .silent learned
  | ok done =>
    cases after with
    | finish => exact .finish learned nofun
    | giveUp => exact .finish learned nofun
    | resume =>
      obtain ⟨tx, bump, rfl⟩ := about
      exact .resume bump learned

end Watcher

end GasEscalator
