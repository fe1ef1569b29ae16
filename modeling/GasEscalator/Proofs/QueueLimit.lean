import GasEscalator.Proofs.AddressText
import GasEscalator.Proofs.Persistence

/-!
# The queue limit

Nothing but an insertion makes a sender's queue longer, as long as every watcher starts from what is
stored. A watcher then writes in place of an open record and keeps its sender, so that a record which
has left the queue does not come back; and a failed write changes nothing. A caller that has found
room and then inserts one record is therefore safe, whatever else happens in between, as long as
nobody else inserts for the same sender. A watcher that starts from a record read before it was marked
as failed puts a new price in the place of the failure, and the queue is longer by one.
-/
namespace GasEscalator

open Interleaving

/-- Whether a move hands a transaction over for a sender. -/
def Move.insertsFor (sender : Address) : Move → Bool
  | .insert _ _ _ a _ => a = sender
  | _ => false

/-- At some point of the past there was room for a sender, and nothing has been handed over for it
since. -/
def RoomFound (c : Setup) (sender : Address) (past : List Step) : Prop :=
  ∃ since earlier i, past = since ++ earlier ∧ Run c earlier i ∧
    c.canQueue i.service.store sender = true ∧
    ∀ x ∈ since, x.asMove.move.insertsFor sender = false

/-- Records enter by insertions under fresh ids only, each of them after room was found. -/
structure Orderly (c : Setup) (past : List Step) : Prop where
  unplaced : ∀ x ∈ past, ∀ r, x.asMove.move ≠ .place r
  fresh : ∀ x ∈ past, ∀ id, ¬ x.Rewrites id
  room : ∀ later x earlier sender, past = later ++ x :: earlier →
    x.asMove.move.insertsFor sender = true → RoomFound c sender earlier

/-- A record is not placed by somebody outside, and inserted only under a fresh id and where there is
room for its sender. -/
def Transition.checked (c : Setup) (x : Transition) : Bool :=
  match x.move with
  | .insert id _ _ sender _ => (x.before.store.get? id).isNone && c.canQueue x.before.store sender
  | .place _ => false
  | _ => true

namespace Orderly

variable {c : Setup} {past earlier : List Step} {x : Step}

theorem of_append (orderly : Orderly c (past ++ earlier)) : Orderly c earlier where
  unplaced y hy := orderly.unplaced y (List.mem_append_right past hy)
  fresh y hy := orderly.fresh y (List.mem_append_right past hy)
  room later y first sender split :=
    orderly.room (past ++ later) y first sender (by rw [split, List.append_assoc])

theorem of_cons (orderly : Orderly c (x :: past)) : Orderly c past :=
  (show Orderly c ([x] ++ past) from orderly).of_append

/-- It is enough to look for room right before each insertion. -/
theorem of_checked {i : Interleaving} (run : Run c past i)
    (checked : ∀ x ∈ past, x.asMove.checked c = true) : Orderly c past where
  unplaced x hx r hm := by
    have test := checked x hx
    rw [Transition.checked, hm] at test
    cases test
  fresh x hx id rewrites := by
    obtain ⟨introduces, known⟩ := Step.rewrites_iff.mpr rewrites
    have test := checked x hx
    unfold Transition.checked at test
    cases hm : x.asMove.move with
    | insert new =>
      rw [hm] at test introduces
      obtain rfl : new = id := of_decide_eq_true introduces
      simp only [Bool.and_eq_true, Option.isNone_iff_eq_none] at test
      rw [test.1] at known
      cases known
    | place r =>
      rw [hm] at test
      cases test
    | _ =>
      rw [hm] at introduces
      cases introduces
  room later x earlier sender split inserts := by
    subst split
    have test := checked x (by simp)
    unfold Transition.checked at test
    cases hm : x.asMove.move with
    | insert id tx policy a outcome =>
      rw [hm] at test inserts
      obtain rfl : a = sender := of_decide_eq_true inserts
      have before := (Run.cons_iff.mp run.of_append).1
      exact ⟨[], earlier, x.before, rfl, before, (Bool.and_eq_true_iff.mp test).2, nofun⟩
    | _ =>
      rw [hm] at inserts
      cases inserts

end Orderly

/-! ## What a move does to a queue -/

theorem Record.queuedBy_initial (id : String) (tx : SignedTx) (policy : Policy) (now : Moment)
    (a sender : Address) :
    (Record.initial id tx a policy now).queuedBy sender = decide (a = sender) := by
  simp [queuedBy, initial, Status.isTerminal, a.ofText?_checksumText]

/-- A record with the sender for which a transaction was handed over under its id. -/
def Record.HandedOver (r : Record) (past : List Transition) : Prop :=
  ∃ x ∈ past, ∃ tx policy a, x.move = .insert r.id tx policy a (.ok ()) ∧
    r.sender = a.checksumText

section Chronicles

variable {c : Setup} {past : List Transition} {x : Transition} {s : Service}

/-- The record that a watcher has stored takes the place of its copy, which is open and has the same
sender. -/
theorem Chronicle.replaced_of_learns (run : Chronicle c (x :: past) s)
    (calm : ∀ y ∈ past, ∀ id, ¬ y.Disturbs id) {r : Record} {after : AfterWrite}
    (learned : x.Learns r.id r after (.ok ())) :
    ∃ old, x.before.store.get? r.id = some old ∧ old.status.isTerminal = false ∧
      r.sender = old.sender := by
  obtain ⟨-, w, hw, writing⟩ := learned
  have mem := List.mem_of_find?_eq_some hw
  have stored := run.before.copy_stored (fun y hy => calm y hy r.id) w mem
    (Watcher.id_of_watcher? hw)
  have update := run.before.overwrites mem writing
  exact ⟨w.record, stored, run.before.unsettled w mem, by rw [update.frame]⟩

/-- A move makes no queue longer, except that an insertion adds one record to its sender's. -/
theorem Chronicle.queueLength_after (run : Chronicle c (x :: past) s)
    (unplaced : ∀ r, x.move ≠ .place r) (calm : ∀ y ∈ past, ∀ id, ¬ y.Disturbs id)
    (sender : Address) :
    x.after.store.queueLength sender ≤
      x.before.store.queueLength sender + (x.move.insertsFor sender).toNat := by
  rcases run.effect.store_cases run.before.sound with same | ⟨r, store, stores⟩
  · rw [same]
    exact Nat.le_add_right _ _
  have count := x.before.store.queueLength_upsert r sender
  rw [store]
  cases stores with
  | @inserted id tx policy a hm =>
    rw [Record.queuedBy_initial] at count
    rw [hm, Move.insertsFor]
    omega
  | placed hm => exact absurd hm (unplaced r)
  | learned learned =>
    obtain ⟨old, stored, unsettled, same⟩ := run.replaced_of_learns calm learned
    have queued : (r.queuedBy sender).toNat ≤ (old.queuedBy sender).toNat := by
      rw [Record.queuedBy, Record.queuedBy, unsettled, same]
      cases r.status.isTerminal <;> simp
    rw [stored, Option.any_some] at count
    omega

/-- Whatever version its watcher has started from, a record keeps the sender of its insertion. -/
theorem Chronicle.handedOver (run : Chronicle c past s)
    (unplaced : ∀ x ∈ past, ∀ r, x.move ≠ .place r) :
    (∀ r ∈ s.store.records, r.HandedOver past) ∧
      ∀ y ∈ past, ∀ r ∈ y.after.store.records, r.HandedOver past := by
  induction run with
  | start now => exact ⟨nofun, nofun⟩
  | @step past x before effect _ _ _ ih =>
    obtain ⟨present, seen⟩ := ih fun y hy => unplaced y (List.mem_cons_of_mem x hy)
    have earlier {r : Record} : r.HandedOver past → r.HandedOver (x :: past) := by
      rintro ⟨y, hy, handed⟩
      exact ⟨y, List.mem_cons_of_mem x hy, handed⟩
    have last : ∀ r ∈ x.after.store.records, r.HandedOver (x :: past) := by
      intro r hr
      rcases effect.store_cases before.sound with same | ⟨new, store, stores⟩
      · exact earlier (present r (same ▸ hr))
      rcases Store.mem_records_upsert (store ▸ hr) with rfl | was
      case inr => exact earlier (present r was)
      cases stores with
      | @inserted id tx policy a hm => exact ⟨x, List.mem_cons_self, tx, policy, a, hm, rfl⟩
      | placed hm => exact absurd hm (unplaced x List.mem_cons_self r)
      | learned learned =>
        -- what is overwritten may be a later version, but the copy was stored at some time
        obtain ⟨-, w, hw, writing⟩ := learned
        have mem := List.mem_of_find?_eq_some hw
        obtain ⟨y, hy, stored⟩ := before.copy_seen w mem
        have handed := earlier (seen y hy w.record (Store.get?_eq_some stored).1)
        rw [(before.overwrites mem writing).frame]
        exact handed
    refine ⟨last, ?_⟩
    intro y hy r hr
    rcases List.mem_cons.mp hy with rfl | hy
    · exact last r hr
    · exact earlier (seen y hy r hr)

end Chronicles

/-! ## The length of a queue -/

section Runs

variable {c : Setup} {past later : List Step} {x : Step} {i j : Interleaving} {sender : Address}

theorem Interleaving.Run.store_eq (run : Run c past i) (other : Run c past j) :
    i.service.store = j.service.store := by
  cases run with
  | start =>
    cases other
    rfl
  | step => rw [(cons_iff.mp other).2.2]

theorem Interleaving.Run.queueLength_after (run : Run c (x :: past) i)
    (orderly : Orderly c (x :: past)) (current : ∀ y ∈ past, ∀ id, ¬ y.StartsStale id)
    (sender : Address) :
    x.after.service.store.queueLength sender ≤
      x.before.service.store.queueLength sender + (x.asMove.move.insertsFor sender).toNat := by
  have before := (cons_iff.mp run).1
  refine run.chronicle.queueLength_after (orderly.unplaced x List.mem_cons_self) ?_ sender
  intro y hy id
  exact before.calm (fun z hz => orderly.of_cons.fresh z hz id) (fun z hz => current z hz id) y hy

/-- Until the next insertion for its sender a queue only gets shorter. -/
theorem Interleaving.Run.queueLength_since (run : Run c (later ++ past) i) (earlier : Run c past j)
    (orderly : Orderly c (later ++ past))
    (current : ∀ y ∈ later ++ past, ∀ id, ¬ y.StartsStale id)
    (others : ∀ x ∈ later, x.asMove.move.insertsFor sender = false) :
    i.service.store.queueLength sender ≤ j.service.store.queueLength sender := by
  induction later generalizing i with
  | nil => rw [run.store_eq earlier]
  | cons y later ih =>
    obtain ⟨before, -, rfl⟩ := cons_iff.mp run
    have current' := fun z hz => current z (List.mem_cons_of_mem y hz)
    have shorter := ih before orderly.of_cons current' fun z hz =>
      others z (List.mem_cons_of_mem y hz)
    have grown := run.queueLength_after orderly current' sender
    rw [others y List.mem_cons_self] at grown
    exact grown.trans shorter

theorem Interleaving.Run.queueLength_le (run : Run c past i) (orderly : Orderly c past)
    (current : ∀ y ∈ past, ∀ id, ¬ y.StartsStale id) (sender : Address) :
    i.service.store.queueLength sender ≤ c.settings.maxQueuePerSigner.toNat := by
  induction past generalizing i with
  | nil =>
    cases run with
    | start => exact Nat.zero_le _
  | cons x past ih =>
    obtain ⟨before, -, rfl⟩ := cons_iff.mp run
    have current' := fun y hy => current y (List.mem_cons_of_mem x hy)
    have grown := run.queueLength_after orderly current' sender
    cases inserts : x.asMove.move.insertsFor sender with
    | false =>
      rw [inserts] at grown
      exact grown.trans (ih before orderly.of_cons current')
    | true =>
      -- the queue is no longer than it was when room was found
      obtain ⟨since, earlier, j, rfl, found, room, others⟩ :=
        orderly.room [] x past sender rfl inserts
      have shorter := before.queueLength_since found orderly.of_cons current' others
      have limit := of_decide_eq_true room
      rw [inserts] at grown
      exact grown.trans (Nat.succ_le_of_lt (shorter.trans_lt limit))

/-- **The queue limit holds where no watcher starts late.** Where records enter by insertions under
fresh ids only, each after room was found for its sender and with no other insertion for it in
between, a sender's queue is the number of the open records that were handed over for it. As long as
every watcher starts from what is stored, it is never longer than the limit, whatever the watchers,
the chain and the store do. -/
theorem queue_stays_within_limit (run : Run c past i) (orderly : Orderly c past)
    (sender : Address) :
    i.service.store.queueLength sender = i.service.store.records.countP (·.queuedBy sender) ∧
    (∀ r ∈ i.service.store.records, ∃ x ∈ past, ∃ tx policy a,
      x.stride = .move (.insert r.id tx policy a (.ok ())) ∧
        (r.queuedBy sender = true ↔ r.status.isTerminal = false ∧ a = sender)) ∧
    ((∀ x ∈ past, ∀ id, ¬ x.StartsStale id) →
      i.service.store.queueLength sender ≤ c.settings.maxQueuePerSigner.toNat) := by
  refine ⟨rfl, ?_, fun current => run.queueLength_le orderly current sender⟩
  intro r hr
  have unplaced : ∀ y ∈ moves past, ∀ r, y.move ≠ .place r := by
    intro y hy
    obtain ⟨z, hz, rfl⟩ := List.mem_map.mp hy
    exact orderly.unplaced z hz
  obtain ⟨_, seen, tx, policy, a, hm, text⟩ := (run.chronicle.handedOver unplaced).1 r hr
  obtain ⟨x, hx, rfl⟩ := List.mem_map.mp seen
  refine ⟨x, hx, tx, policy, a, Step.stride_eq_insert hm, ?_⟩
  rw [Record.queuedBy, text, a.ofText?_checksumText]
  simp

end Runs

/-! ## A queue above its limit -/

namespace Sample

/-- A service that takes one record of a sender at a time, over a store that looks for its signers'
records only. -/
def narrow : Setup :=
  { setup with settings := { setup.settings with maxQueuePerSigner := 1 }, filtering := true }

/-- The chain refuses the new price, and the record makes room for another one. It was read before
that and is offered after it, so that its next watcher has a new price stored. -/
def crammed : List Stride :=
  [handed eager, .move .startPoller, .move (.advance (.ofMillis 10000)), .read 0, .offer 0,
   .move (.advance (.ofMillis 19000)), .move (.wake "a"), .move (.advance (.ofMillis 20000)),
   .read 0, .move (.answer "a" broken), .move (.stored "a" (.ok ())),
   .move (.insert "b" tx eager .zero (.ok ())), .offer 0, .move (.advance (.ofMillis 29000)),
   .move (.wake "a"), .move (.answer "a" mined), .move (.stored "a" (.ok ()))]

/-- A record runs out of time, and another one takes its place. -/
def queueing : List Stride :=
  [handed { policy with timeout := .ofMillis 12000 }, .move .startPoller,
   .move (.advance (.ofMillis 10000)), .read 0, .offer 0, .move (.advance (.ofMillis 12000)),
   .move (.wake "a"), .move (.stored "a" (.ok ())), .move (.insert "b" tx policy .zero (.ok ()))]

def offersStored (x : Step) : Bool :=
  x.offered?.all fun r => x.before.service.store.get? r.id = some r

theorem not_startsStale {x : Step} (test : offersStored x = true) (id : String) :
    ¬ x.StartsStale id := by
  intro starts
  obtain ⟨r, offered, -, rfl, stale⟩ := Step.startsStale_iff.mp starts
  rw [offersStored, Option.all_eq_true] at test
  exact stale (of_decide_eq_true (test r offered))

/-- A replay of strides that are checked, with a test of the last step. -/
theorem orderly_of_replay (strides : List Stride) (test : List Step → Step → Bool)
    (passed : (Interleaving.replay narrow strides [] (.ofService (.initial ⟨0⟩))).any
      (fun p => p.1.all (·.asMove.checked narrow) && p.1.head?.any (test p.1)) = true) :
    ∃ past x i, Run narrow past i ∧ past.map (·.stride) = strides.reverse ∧ Orderly narrow past ∧
      i = x.after ∧ test past x = true := by
  obtain ⟨past, i, run, taken, passed⟩ := Run.exists_of_replay _ _
    (fun past => past.all (·.asMove.checked narrow) && past.head?.any (test past)) passed
  obtain ⟨checked, tested⟩ := Bool.and_eq_true_iff.mp passed
  obtain ⟨x, first, tested⟩ := (Option.any_eq_true ..).mp tested
  obtain ⟨rest, rfl⟩ := List.head?_eq_some_iff.mp first
  exact ⟨_, x, i, run, taken, .of_checked run (List.all_eq_true.mp checked),
    (Run.cons_iff.mp run).2.2, tested⟩

end Sample

/-- A watcher that starts late brings a record back into a queue that is full by then. -/
theorem crammed_sample_exceeds_limit : ∃ past i, Run Sample.narrow past i ∧
    past.map (·.stride) = Sample.crammed.reverse ∧ Orderly Sample.narrow past ∧
    Sample.narrow.settings.maxQueuePerSigner.toNat = 1 ∧
    i.service.store.queueLength .zero = 2 := by
  obtain ⟨past, x, i, run, taken, orderly, rfl, both⟩ := Sample.orderly_of_replay Sample.crammed
    (fun _ x => x.after.service.store.queueLength .zero = 2) (by decide +kernel)
  exact ⟨past, _, run, taken, orderly, rfl, of_decide_eq_true both⟩

theorem queueing_sample_stays_within_limit : ∃ past i, Run Sample.narrow past i ∧
    past.map (·.stride) = Sample.queueing.reverse ∧ Orderly Sample.narrow past ∧
    i.service.store.size = 2 ∧ i.service.store.queueLength .zero ≤ 1 := by
  obtain ⟨past, x, i, run, taken, orderly, rfl, tested⟩ := Sample.orderly_of_replay Sample.queueing
    (fun past x => decide (x.after.service.store.size = 2) && past.all Sample.offersStored)
    (by decide +kernel)
  obtain ⟨both, stored⟩ := Bool.and_eq_true_iff.mp tested
  have current := fun y hy => Sample.not_startsStale (List.all_eq_true.mp stored y hy)
  exact ⟨past, _, run, taken, orderly, of_decide_eq_true both,
    (queue_stays_within_limit run orderly .zero).2.2 current⟩

end GasEscalator
