import GasEscalator.Proofs.PriceScale
import GasEscalator.Proofs.Strides
import GasEscalator.Proofs.WireFormat

/-!
# Rebroadcasts

A record that was handed over carries one payload for good, and only its gas price is changed: every
version of it is that payload at some price, and so is every copy. As long as nobody disturbs the
record, no price sent so far is above the next one: the next price does not change by a broadcast,
even if it cannot be stored, and it does not fall when a new price is stored. A watcher that starts
from an older version sends an older price again.
-/
namespace GasEscalator

/-- The signers sign the transactions that they are given, with signatures that can be written. -/
def Setup.Honest (c : Setup) : Prop :=
  ∀ entry ∈ c.signers.entries, ∀ now tx chainId signed, entry.2 now tx chainId = .ok signed →
    signed.payload = tx ∧ signed.signature.length < Wire.lengthBound

theorem Registry.mem_of_resolve {σ : Type} {r : Registry σ} {sender : String} {e : Address × σ}
    (h : r.resolve sender = some e) : e ∈ r.entries := by
  have found {a : Option Address} (h : a.bind r.find? = some e) : e ∈ r.entries := by
    obtain ⟨_, -, h⟩ := Option.bind_eq_some_iff.mp h
    exact List.mem_of_find?_eq_some h
  unfold resolve at h
  dsimp only at h
  split at h
  case h_1 only entries =>
    split at h
    · obtain rfl := Option.some.inj h
      rw [entries]
      exact List.mem_singleton_self _
    · exact found h
  case h_2 => exact found h

/-- An honest signer changes the gas price and the signature only. -/
theorem Record.Bumps.payload {c : Setup} {r : Record} {tx : SignedTx} (bump : r.Bumps c tx)
    (honest : c.Honest) :
    ∃ latest, r.latest = .ok latest ∧
      tx.payload = latest.payload.withGasPrice (r.policy.raise latest.gasPrice) ∧
      r.policy.raise latest.gasPrice ≤ r.policy.maxPrice ∧
        tx.signature.length < Wire.lengthBound := by
  obtain ⟨latest, address, signer, now, readable, within, found, signed⟩ := bump
  obtain ⟨payload, short⟩ := honest _ (Registry.mem_of_resolve found) _ _ _ _ signed
  exact ⟨latest, readable, payload, within, short⟩

/-! ## Broadcasts -/

/-- The transaction that an event broadcasts for a record. -/
def Event.sent? (id : String) : Event → Option SignedTx
  | .called i _ (.send tx) => if i = id then some tx else none
  | _ => none

/-- The transactions that were broadcast for a record, the latest first. -/
def broadcasts (id : String) (past : List Transition) : List SignedTx :=
  past.flatMap fun x => (x.events.filterMap (Event.sent? id)).reverse

theorem Event.sent?_eq_some {id : String} {e : Event} {tx : SignedTx} (h : e.sent? id = some tx) :
    ∃ chainId, e = .called id chainId (.send tx) := by
  unfold sent? at h
  split at h
  case h_1 =>
    split at h
    case isTrue same =>
      obtain rfl := Option.some.inj h
      subst same
      exact ⟨_, rfl⟩
    case isFalse => cases h
  case h_2 => cases h

theorem Turn.of_sent {c : Setup} {x : Transition} {w w' : Watcher} {events : List Event}
    {id : String} {chainId : UInt64} {tx : SignedTx} (turn : Turn c x w w' events)
    (sent : .called id chainId (.send tx) ∈ events) :
    id = w.id ∧ x.move = .wake w.id ∧ w.record.Bumps c tx := by
  cases turn with
  | stop | timeUp | pending | success | sent | resume | finish => cases sent
  | leave | giveUp | silent | ask | mined => cases List.mem_singleton.mp sent
  | send hm _ readable within found signed =>
    rcases List.mem_cons.mp sent with h | h
    · cases h
    · obtain ⟨rfl, -, h⟩ := Event.called.inj (List.mem_singleton.mp h)
      obtain rfl := Call.send.inj h
      exact ⟨rfl, hm, _, _, _, _, readable, within, found, signed⟩
  | condemn _ _ reports => rcases reports _ sent with ⟨_, h⟩ | ⟨-, _, _, h⟩ <;> cases h

/-- A broadcast is begun by the watcher of the record that is woken, for its own copy. -/
theorem Effect.of_sent {c : Setup} {x : Transition} {id : String} {chainId : UInt64} {tx : SignedTx}
    (effect : Effect c x) (sent : .called id chainId (.send tx) ∈ x.events) :
    x.move = .wake id ∧ ∃ w ∈ x.before.watchers, w.id = id ∧ w.record.Bumps c tx := by
  cases effect.source sent with
  | offered _ _ _ event => cases event
  | turned hw turn h =>
    obtain ⟨rfl, hm, bump⟩ := turn.of_sent h
    exact ⟨hm, _, List.mem_of_find?_eq_some hw, rfl, bump⟩

/-! ## The payload -/

/-- A record's transaction is a payload at some price, under a policy. -/
structure Record.Carries (r : Record) (payload : UnsignedTx) (policy : Policy) (latest : SignedTx) :
    Prop where
  policy_eq : r.policy = policy
  readable : r.latest = .ok latest
  same : latest.payload = payload.withGasPrice latest.gasPrice

/-- A broadcast is one of the payload at the price that follows the stored one. -/
def Service.Allows (s : Service) (id : String) (payload : UnsignedTx) (policy : Policy)
    (tx : SignedTx) : Prop :=
  ∃ r latest, s.store.get? id = some r ∧ r.latest = .ok latest ∧
    tx.payload = payload.withGasPrice tx.gasPrice ∧
    tx.gasPrice = latest.gasPrice.scale policy.priceMultiplier ∧ tx.gasPrice ≤ policy.maxPrice

section Payloads

variable {c : Setup} {past later : List Transition} {x : Transition} {s : Service} {id : String}
  {payload : UnsignedTx} {policy : Policy} {latest tx : SignedTx} {r : Record} {w : Watcher}

/-- A broadcast keeps the payload, at the next price. -/
theorem Record.Carries.bumped (carries : r.Carries payload policy latest) (bump : r.Bumps c tx)
    (honest : c.Honest) :
    tx.payload = payload.withGasPrice tx.gasPrice ∧ tx.gasPrice = policy.raise latest.gasPrice ∧
      tx.gasPrice ≤ policy.maxPrice ∧ tx.signature.length < Wire.lengthBound := by
  obtain ⟨rfl, readable, same⟩ := carries
  obtain ⟨latest', readable', raised, within, short⟩ := bump.payload honest
  obtain rfl := Except.ok.inj (readable.symm.trans readable')
  have price : tx.gasPrice = r.policy.raise latest.gasPrice := by
    rw [SignedTx.gasPrice, raised]
    rfl
  refine ⟨?_, price, price ▸ within, short⟩
  rw [price, raised, same]
  rfl

theorem Record.Carries.allows (carries : r.Carries payload policy latest) (bump : r.Bumps c tx)
    (honest : c.Honest) (stored : s.store.get? id = some r) : s.Allows id payload policy tx := by
  obtain ⟨same, price, within, -⟩ := carries.bumped bump honest
  exact ⟨r, latest, stored, carries.readable, same, price, within⟩

/-- What a watcher writes carries the payload on, and the next price does not fall. -/
theorem Watcher.Sound.carries {after : AfterWrite} (sound : w.Sound c)
    (carries : w.record.Carries payload policy latest) (honest : c.Honest)
    (valid : policy.validate = .ok ()) (short : payload.data.length < Wire.lengthBound)
    (writing : w.phase = .writing r after) :
    ∃ next, r.Carries payload policy next ∧
      policy.raise latest.gasPrice ≤ policy.raise next.gasPrice := by
  obtain ⟨same, readable, carried⟩ := carries
  have about := sound.2
  rw [writing] at about
  cases after with
  | finish => rcases about with rfl | rfl <;> exact ⟨latest, ⟨same, readable, carried⟩, Fin.le_refl _⟩
  | giveUp =>
    rw [about]
    exact ⟨latest, ⟨same, readable, carried⟩, Fin.le_refl _⟩
  | resume =>
    -- what was next is now the price, and the price after it is no lower
    obtain ⟨tx, bump, rfl⟩ := about
    obtain ⟨kept, price, -, shortSignature⟩ :=
      Record.Carries.bumped ⟨same, readable, carried⟩ bump honest
    have shortData : tx.payload.data.length < Wire.lengthBound := by
      rw [kept]
      exact short
    refine ⟨tx, ⟨same, SignedTx.decode_encode ⟨shortData, shortSignature⟩, kept⟩, ?_⟩
    rw [← price]
    exact Policy.le_raise valid _

theorem Transition.fresh_of_insert {sender : Address} {outcome : Except StorageError Unit}
    (inserted : x.move = .insert id tx policy sender outcome) (kept : ¬ x.Rewrites id) :
    x.before.store.get? id = none := by
  by_contra known
  refine kept ⟨by rw [inserted]; exact decide_eq_true rfl, ?_⟩
  exact Option.isSome_iff_ne_none.mpr known

theorem Record.carries_initial {sender : Address} {now : Moment} (fits : tx.Fits) :
    (Record.initial id tx sender policy now).Carries tx.payload policy tx :=
  ⟨rfl, SignedTx.decode_encode fits, rfl⟩

/-- Since its insertion every version and every copy of a record has carried the payload. -/
theorem Chronicle.carried {sender : Address} (run : Chronicle c (later ++ x :: past) s)
    (inserted : x.move = .insert id tx policy sender (.ok ())) (valid : policy.validate = .ok ())
    (kept : ∀ y ∈ later ++ x :: past, ¬ y.Rewrites id) (honest : c.Honest) (fits : tx.Fits) :
    (∀ y ∈ later ++ [x], ∃ r latest, y.after.store.get? id = some r ∧
      r.Carries tx.payload policy latest) ∧
    ∀ w ∈ s.watchers, w.id = id → ∃ latest, w.record.Carries tx.payload policy latest := by
  have fresh := Transition.fresh_of_insert inserted (kept x (by simp))
  obtain ⟨versions, -, copies⟩ := run.versions
    (Q := fun r => ∃ latest, r.Carries tx.payload policy latest) fresh
    ⟨_, run.of_append.effect.get?_of_insert inserted valid, tx, Record.carries_initial fits⟩
    (fun y hy => kept y (List.mem_append_left _ hy))
    (by
      rintro y earlier - before w hw - ⟨latest, carries⟩ r after writing
      obtain ⟨next, carries, -⟩ :=
        (before.sound w hw).carries carries honest valid fits.data writing
      exact ⟨next, carries⟩)
  refine ⟨?_, copies⟩
  intro y hy
  obtain ⟨r, stored, latest, carries⟩ := versions y hy
  exact ⟨r, latest, stored, carries⟩

end Payloads

/-! ## Prices -/

/-- A payload is stored under an id, no price sent so far is above the next, and the prices rise. -/
structure Service.Raises (s : Service) (id : String) (payload : UnsignedTx) (policy : Policy)
    (sent : List SignedTx) : Prop where
  stored : ∃ r latest, s.store.get? id = some r ∧ r.Carries payload policy latest ∧
    ∀ tx ∈ sent, tx.gasPrice ≤ policy.raise latest.gasPrice
  rising : sent.Pairwise fun newer older => older.gasPrice ≤ newer.gasPrice

section Prices

variable {c : Setup} {past later : List Transition} {x : Transition} {s : Service} {id : String}
  {payload : UnsignedTx} {policy : Policy} {sent : List SignedTx}

/-- As long as nobody disturbs the record, what a move broadcasts pays the price that follows the
stored one. -/
theorem Chronicle.price_of_mem_broadcasts {r : Record} {latest tx : SignedTx}
    (run : Chronicle c (x :: past) s) (calm : ∀ y ∈ past, ¬ y.Disturbs id)
    (stored : x.before.store.get? id = some r) (carries : r.Carries payload policy latest)
    (honest : c.Honest) (h : tx ∈ broadcasts id [x]) :
    x.move = .wake id ∧ tx.gasPrice = policy.raise latest.gasPrice := by
  simp only [broadcasts, List.flatMap_cons, List.flatMap_nil, List.append_nil, List.mem_reverse,
    List.mem_filterMap] at h
  obtain ⟨e, he, h⟩ := h
  obtain ⟨chainId, rfl⟩ := Event.sent?_eq_some h
  obtain ⟨hm, w, hw, hid, bump⟩ := run.effect.of_sent he
  obtain rfl := Option.some.inj (stored.symm.trans (run.before.copy_stored calm w hw hid))
  exact ⟨hm, (carries.bumped bump honest).2.1⟩

/-- One move keeps the invariant, with its broadcasts added to those before. -/
theorem Service.Raises.after (raises : x.before.Raises id payload policy sent)
    (run : Chronicle c (x :: past) s) (calm : ∀ y ∈ x :: past, ¬ y.Disturbs id) (honest : c.Honest)
    (valid : policy.validate = .ok ()) (short : payload.data.length < Wire.lengthBound) :
    x.after.Raises id payload policy (broadcasts id [x] ++ sent) := by
  have before := run.before
  have calm' : ∀ y ∈ past, ¬ y.Disturbs id := fun y hy => calm y (List.mem_cons_of_mem x hy)
  obtain ⟨r, latest, stored, carries, bounded⟩ := raises.stored
  have next {tx : SignedTx} (h : tx ∈ broadcasts id [x]) :=
    run.price_of_mem_broadcasts calm' stored carries honest h
  constructor
  · rcases run.effect.get?_cases before.sound id with
      unchanged | ⟨r', stored', introduced | ⟨_, learned⟩⟩
    · refine ⟨r, latest, unchanged.trans stored, carries, ?_⟩
      intro tx h
      rcases List.mem_append.mp h with h | h
      · exact Fin.le_of_eq (next h).2
      · exact bounded tx h
    · exact absurd (.inl ⟨introduced, by rw [stored]; rfl⟩) (calm x List.mem_cons_self)
    · obtain ⟨hm, w, hw, writing⟩ := learned
      have mem := List.mem_of_find?_eq_some hw
      have copy := before.copy_stored calm' w mem (Watcher.id_of_watcher? hw)
      obtain rfl := Option.some.inj (stored.symm.trans copy)
      obtain ⟨latest', carries', rises⟩ :=
        (before.sound w mem).carries carries honest valid short writing
      refine ⟨r', latest', stored', carries', ?_⟩
      intro tx h
      rcases List.mem_append.mp h with h | h
      · cases hm.symm.trans (next h).1
      · exact Nat.le_trans (bounded tx h) rises
  · refine List.pairwise_append.mpr ⟨?_, raises.rising, ?_⟩
    · apply List.pairwise_of_forall_mem_list
      intro newer hn older ho
      exact Fin.le_of_eq ((next ho).2.trans (next hn).2.symm)
    · intro newer hn older ho
      rw [(next hn).2]
      exact bounded older ho

theorem broadcasts_cons (y : Transition) (rest : List Transition) :
    broadcasts id (y :: rest) = broadcasts id [y] ++ broadcasts id rest := by
  simp only [broadcasts, List.flatMap_cons, List.flatMap_nil, List.append_nil]

/-- The invariant holds from the insertion on. -/
theorem Chronicle.raises {tx : SignedTx} {sender : Address}
    (run : Chronicle c (later ++ x :: past) s)
    (inserted : x.move = .insert id tx policy sender (.ok ())) (valid : policy.validate = .ok ())
    (calm : ∀ y ∈ later ++ x :: past, ¬ y.Disturbs id) (honest : c.Honest) (fits : tx.Fits) :
    s.Raises id tx.payload policy (broadcasts id later) := by
  induction later generalizing s with
  | nil =>
    obtain ⟨-, effect, rfl⟩ := run.of_cons
    have stored := effect.get?_of_insert inserted valid
    exact ⟨⟨_, tx, stored, Record.carries_initial fits, nofun⟩, .nil⟩
  | cons y later ih =>
    obtain ⟨before, -, rfl⟩ := run.of_cons
    have raises := ih before fun z hz => calm z (List.mem_cons_of_mem y hz)
    rw [broadcasts_cons]
    exact raises.after run calm honest valid fits.data

end Prices

/-! ## Runs -/

section Runs

open Interleaving

variable {c : Setup} {past later : List Step} {x : Step} {i : Interleaving} {id : String}
  {tx : SignedTx} {policy : Policy} {sender : Address}

theorem Interleaving.Run.carried (run : Run c (later ++ x :: past) i)
    (inserted : x.stride = .move (.insert id tx policy sender (.ok ())))
    (valid : policy.validate = .ok ()) (kept : ∀ y ∈ later ++ x :: past, ¬ y.Rewrites id)
    (honest : c.Honest) (fits : tx.Fits) :
    (∀ y ∈ later ++ [x], ∃ r latest, y.after.service.store.get? id = some r ∧
      r.Carries tx.payload policy latest) ∧
    ∀ w ∈ i.service.watchers, w.id = id → ∃ latest, w.record.Carries tx.payload policy latest := by
  obtain ⟨versions, copies⟩ := run.chronicle_append.carried (congrArg Stride.asMove inserted) valid
    (moves_append later x past ▸ moves_kept kept) honest fits
  refine ⟨?_, copies⟩
  intro y hy
  have seen := List.mem_map_of_mem (f := Step.asMove) hy
  rw [List.map_append] at seen
  exact versions y.asMove seen

/-- Where every watcher starts from what is stored, the prices sent since the insertion rise. -/
theorem Interleaving.Run.raises (run : Run c (later ++ x :: past) i)
    (inserted : x.stride = .move (.insert id tx policy sender (.ok ())))
    (valid : policy.validate = .ok ()) (kept : ∀ y ∈ later ++ x :: past, ¬ y.Rewrites id)
    (current : ∀ y ∈ later ++ x :: past, ¬ y.StartsStale id) (honest : c.Honest) (fits : tx.Fits) :
    i.service.Raises id tx.payload policy (broadcasts id (moves later)) :=
  run.chronicle_append.raises (congrArg Stride.asMove inserted) valid
    (moves_append later x past ▸ run.calm kept current) honest fits

/-- **A rebroadcast changes the price only.** For a record that was handed over and is rewritten by
its watchers alone, every stored transaction and every broadcast has the payload that was handed
over but for its gas price, and a broadcast pays the price that follows one that was stored, within
the ceiling. As long as every watcher starts from what is stored, the price is the one that follows
the stored one at that moment, and no broadcast pays less than one before it. -/
theorem rebroadcasts_keep_payload (run : Run c (later ++ x :: past) i)
    (inserted : x.stride = .move (.insert id tx policy sender (.ok ())))
    (valid : policy.validate = .ok ()) (kept : ∀ y ∈ later ++ x :: past, ¬ y.Rewrites id)
    (honest : c.Honest) (fits : tx.Fits) :
    (∀ y ∈ later ++ [x], ∃ r latest, y.after.service.store.get? id = some r ∧
      r.Carries tx.payload policy latest) ∧
    (∀ after y rest chainId sent, later = after ++ y :: rest →
      .called id chainId (.send sent) ∈ y.events →
        ∃ z ∈ rest ++ x :: past, z.after.service.Allows id tx.payload policy sent) ∧
    ((∀ y ∈ later ++ x :: past, ¬ y.StartsStale id) →
      (∀ y ∈ later, ∀ chainId sent, .called id chainId (.send sent) ∈ y.events →
        y.before.service.Allows id tx.payload policy sent) ∧
      (broadcasts id (moves later)).Pairwise fun newer older => older.gasPrice ≤ newer.gasPrice) := by
  refine ⟨(run.carried inserted valid kept honest fits).1, ?_, ?_⟩
  · rintro after y rest chainId sent rfl called
    rw [List.append_assoc, List.cons_append] at run kept
    obtain ⟨before, -, -⟩ := Run.cons_iff.mp run.of_append
    obtain ⟨-, w, hw, hid, bump⟩ := run.of_append.chronicle.effect.of_sent called
    have kept' : ∀ z ∈ rest ++ x :: past, ¬ z.Rewrites id := fun z hz => kept z (by simp [hz])
    obtain ⟨latest, carries⟩ := (before.carried inserted valid kept' honest fits).2 w hw hid
    obtain ⟨_, seen, stored⟩ := before.chronicle.copy_seen w hw
    obtain ⟨z, hz, rfl⟩ := List.mem_map.mp seen
    exact ⟨z, hz, carries.allows bump honest (hid ▸ stored)⟩
  · intro current
    refine ⟨?_, (run.raises inserted valid kept current honest fits).rising⟩
    intro y hy chainId sent called
    obtain ⟨after, rest, rfl, upto⟩ := run.of_mem_append hy
    obtain ⟨before, -, -⟩ := Run.cons_iff.mp upto
    rw [List.append_assoc, List.cons_append] at kept current
    have kept' : ∀ z ∈ rest ++ x :: past, ¬ z.Rewrites id := fun z hz => kept z (by simp [hz])
    have current' : ∀ z ∈ rest ++ x :: past, ¬ z.StartsStale id := fun z hz =>
      current z (by simp [hz])
    obtain ⟨r, latest, stored, carries, -⟩ :=
      (before.raises inserted valid kept' current' honest fits).stored
    obtain ⟨-, w, hw, hid, bump⟩ := upto.chronicle.effect.of_sent called
    have copy := before.chronicle.copy_stored (before.calm kept' current') w hw hid
    obtain rfl := Option.some.inj (stored.symm.trans copy)
    exact carries.allows bump honest stored

end Runs

/-! ## A price that falls -/

namespace Sample

open Interleaving

def roomy : Policy := { policy with maxPrice := .saturating 1000 }

theorem honest : setup.Honest := by
  intro entry he now tx chainId signed h
  obtain rfl := List.mem_singleton.mp he
  obtain rfl := Except.ok.inj h
  exact ⟨rfl, Nat.one_lt_succ_succ _⟩

def handed (policy : Policy) : Stride := .move (.insert "a" tx policy .zero (.ok ()))

/-- The new price is sent but cannot be stored; the next watcher starts from the old one and sends
the new price again. -/
def retrying : List Stride :=
  [handed roomy, .move .startPoller, .move (.advance (.ofMillis 10000)), .read 0, .offer 0,
   .move (.advance (.ofMillis 14000)), .move (.wake "a"), .move (.answer "a" mined),
   .move (.stored "a" (.error ⟨"full"⟩)), .move (.advance (.ofMillis 20000)), .read 0, .offer 0,
   .move (.advance (.ofMillis 24000)), .move (.wake "a"), .move (.answer "a" mined),
   .move (.stored "a" (.ok ())), .move (.advance (.ofMillis 28000)), .move (.wake "a")]

/-- Two price increases come before the first status check. -/
def eager : Policy :=
  { roomy with checkInterval := .ofMillis 19000, increaseInterval := .ofMillis 9000 }

def broken : Replies
  | .lookup _ => .error (.rpc "out of order")
  | .receipt _ => .error (.rpc "out of order")
  | .send _ => .error (.rpc "out of order")

/-- A poll reads the record while its new price is on its way. Its watcher has this price and the
next one stored and leaves, and the record that was read before is offered. -/
def undercutting : List Stride :=
  [handed eager, .move .startPoller, .move (.advance (.ofMillis 10000)), .read 0, .offer 0,
   .move (.advance (.ofMillis 19000)), .move (.wake "a"), .move (.advance (.ofMillis 20000)),
   .read 0, .move (.answer "a" mined), .move (.stored "a" (.ok ())),
   .move (.advance (.ofMillis 28000)), .move (.wake "a"), .move (.answer "a" mined),
   .move (.stored "a" (.ok ())), .move (.advance (.ofMillis 29000)), .move (.wake "a"),
   .move (.answer "a" broken), .offer 0, .move (.advance (.ofMillis 30000)), .read 0, .offer 0,
   .move (.advance (.ofMillis 38000)), .move (.wake "a")]

def priced (policy : Policy) (price : Nat) : Record :=
  (Record.initial "a" tx .zero policy ⟨0⟩).withLatest (bumped price)

/-- A replay that begins with the sample's insertion, with a test of what comes after it. -/
theorem handed_of_replay (policy : Policy) (rest : List Stride) (test : List Step → Bool)
    (passed : (Interleaving.replay setup (handed policy :: rest) [] (.ofService (.initial ⟨0⟩))).any
      (fun p => decide (∀ y ∈ p.1, ¬ y.Rewrites "a") && test p.1.dropLast) = true) :
    ∃ later x i, Run setup (later ++ [x]) i ∧ x.stride = handed policy ∧
      later.map (·.stride) = rest.reverse ∧ (∀ y ∈ later ++ [x], ¬ y.Rewrites "a") ∧
      test later = true := by
  obtain ⟨past, i, run, strides, passed⟩ := Run.exists_of_replay _ _
    (fun past => decide (∀ y ∈ past, ¬ y.Rewrites "a") && test past.dropLast) passed
  obtain ⟨kept, passed⟩ := (Bool.and_eq_true ..).mp passed
  rw [List.reverse_cons, List.map_eq_append_iff] at strides
  obtain ⟨later, last, rfl, after, first⟩ := strides
  obtain ⟨x, rfl⟩ := List.length_eq_one_iff.mp ((List.length_map _).symm.trans (congrArg _ first))
  rw [List.dropLast_concat] at passed
  exact ⟨later, x, i, run, List.singleton_inj.mp first, after, of_decide_eq_true kept, passed⟩

theorem current_of_handed {policy : Policy} {later : List Step} {x : Step}
    (handed : x.stride = handed policy) (current : ∀ y ∈ later, ¬ y.StartsStale "a") :
    ∀ y ∈ later ++ [x], ¬ y.StartsStale "a" := by
  intro y hy
  rcases List.mem_append.mp hy with hy | hy
  · exact current y hy
  · rw [List.mem_singleton.mp hy]
    rintro ⟨poller, r, starts, -⟩
    cases handed.symm.trans starts.offers

def undercuts : List Step → Bool
  | y :: rest => .called "a" 1 (.send (bumped 80)) ∈ y.events &&
      y.before.service.store.get? "a" = some (priced eager 160) &&
      broadcasts "a" (moves (y :: rest)) = [bumped 80, bumped 160, bumped 80]
  | [] => false

end Sample

open Interleaving in
/-- A watcher that starts from an older version sends a price that does not follow the stored one and
is less than one sent before. -/
theorem undercutting_sample_pays_less : ∃ y rest x i,
    Run Sample.setup (y :: rest ++ [x]) i ∧ x.stride = Sample.handed Sample.eager ∧
    Sample.eager.validate = .ok () ∧ (∀ z ∈ y :: rest ++ [x], ¬ z.Rewrites "a") ∧
    Sample.setup.Honest ∧ Sample.tx.Fits ∧
    .called "a" 1 (.send (Sample.bumped 80)) ∈ y.events ∧
    ¬ y.before.service.Allows "a" Sample.tx.payload Sample.eager (Sample.bumped 80) ∧
    ¬ (broadcasts "a" (moves (y :: rest))).Pairwise
      fun newer older => older.gasPrice ≤ newer.gasPrice := by
  obtain ⟨later, x, i, run, handed, -, kept, passed⟩ := Sample.handed_of_replay Sample.eager
    (Sample.undercutting.drop 1) Sample.undercuts (by decide +kernel)
  unfold Sample.undercuts at passed
  split at passed
  case h_2 => cases passed
  case h_1 y rest =>
    simp only [Bool.and_eq_true, decide_eq_true_eq] at passed
    obtain ⟨⟨called, stored⟩, sent⟩ := passed
    refine ⟨y, rest, x, i, run, handed, by decide +kernel, kept, Sample.honest,
      ⟨by decide, by decide⟩, called, ?_, ?_⟩
    · rintro ⟨r, latest, stored', readable, -, price, -⟩
      obtain rfl := Option.some.inj (stored.symm.trans stored')
      have fits : (Sample.bumped 160).Fits := ⟨by decide, by decide⟩
      obtain rfl := Except.ok.inj ((SignedTx.decode_encode fits).symm.trans readable)
      exact absurd price (by decide +kernel)
    · rw [sent]
      decide +kernel

open Interleaving in
theorem retrying_sample_keeps_payload : ∃ later x i, Run Sample.setup (later ++ [x]) i ∧
    x.stride = Sample.handed Sample.roomy ∧
    broadcasts "a" (moves later) = [Sample.bumped 160, Sample.bumped 80, Sample.bumped 80] ∧
    (∀ y ∈ later ++ [x], ∃ r latest, y.after.service.store.get? "a" = some r ∧
      r.Carries Sample.tx.payload Sample.roomy latest) ∧
    (∀ y ∈ later, ∀ chainId sent, .called "a" chainId (.send sent) ∈ y.events →
      y.before.service.Allows "a" Sample.tx.payload Sample.roomy sent) ∧
    (broadcasts "a" (moves later)).Pairwise fun newer older => older.gasPrice ≤ newer.gasPrice := by
  obtain ⟨later, x, i, run, handed, -, kept, passed⟩ := Sample.handed_of_replay Sample.roomy
    (Sample.retrying.drop 1) (fun later => (∀ y ∈ later, ¬ y.StartsStale "a") ∧
      broadcasts "a" (moves later) = [Sample.bumped 160, Sample.bumped 80, Sample.bumped 80])
    (by decide +kernel)
  obtain ⟨current, sent⟩ := of_decide_eq_true passed
  obtain ⟨stored, -, rest⟩ := rebroadcasts_keep_payload run handed (by decide +kernel) kept
    Sample.honest ⟨by decide, by decide⟩
  exact ⟨later, x, i, run, handed, sent, stored, rest (Sample.current_of_handed handed current)⟩

end GasEscalator
