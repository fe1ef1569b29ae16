import GasEscalator.Proofs.AddressText
import GasEscalator.Proofs.Senders
import Mathlib.Algebra.GroupWithZero.Nat

/-!
# Queues and polls

A store that is asked for the records of several signers answers those that are queued by one of
them, and each of them is queued by one signer only. There is one difference between the two
readings of a sender's text: a poll reads it without the blanks around it, a queue reads it as it
stands. So a record whose sender has blanks around it is answered and is in no queue.
-/
namespace GasEscalator

/-- The text of a record's sender has blanks around it. -/
def Record.IsPadded (r : Record) : Prop := trim r.sender ≠ r.sender

instance (r : Record) : Decidable r.IsPadded := inferInstanceAs (Decidable (_ ≠ _))

/-- A record is queued by the sender that a poll finds for it, except that a padded record is in no
queue. -/
theorem Record.queuedBy_iff {r : Record} {a : Address} :
    r.queuedBy a = true ↔ r.status.isTerminal = false ∧
      Address.ofText? (trim r.sender) = some a ∧ ¬ r.IsPadded := by
  rw [queuedBy, IsPadded, not_not]
  constructor
  · intro queued
    obtain ⟨unsettled, read⟩ := Bool.and_eq_true_iff.mp queued
    have read := of_decide_eq_true read
    have solid := (Address.ofText?_eq_some_iff.mp read).trim_eq
    exact ⟨by simpa using unsettled, by rw [solid, read], solid⟩
  · rintro ⟨unsettled, read, solid⟩
    rw [solid] at read
    simp [unsettled, read]

/-- Two properties that exclude each other are counted one after the other. -/
theorem countP_or_of_exclusive {α : Type} {p q : α → Bool} {l : List α}
    (exclusive : ∀ x ∈ l, p x = true → q x = false) :
    l.countP (fun x => p x || q x) = l.countP p + l.countP q := by
  induction l with
  | nil => rfl
  | cons x l ih =>
    have rest := ih fun y hy => exclusive y (List.mem_cons_of_mem x hy)
    rw [List.countP_cons, List.countP_cons, List.countP_cons, rest]
    cases hp : p x with
    | false =>
      rw [Bool.false_or]
      simp only [Bool.false_eq_true, ↓reduceIte]
      omega
    | true =>
      rw [exclusive x List.mem_cons_self hp]
      simp only [Bool.or_false, Bool.false_eq_true, ↓reduceIte]
      omega

namespace Store

variable {signers : List Address}

/-- Among several signers, none of them under the zero address, a record belongs to the one whose
address its sender is. -/
theorem belongsTo_iff_of_several {r : Record} (several : 2 ≤ signers.length)
    (known : Address.zero ∉ signers) :
    belongsTo signers r = true ↔ ∃ a ∈ signers, Address.ofText? (trim r.sender) = some a := by
  rw [belongsTo_iff]
  constructor
  · rintro (⟨a, read, -, registered⟩ | ⟨alone, -⟩)
    · exact ⟨a, registered, read⟩
    · omega
  · rintro ⟨a, registered, read⟩
    exact .inl ⟨a, read, fun zero => known (zero ▸ registered), registered⟩

/-- A record is in the queue of one sender at most, so that the queues of distinct senders are
counted without overlap. -/
theorem sum_queueLength (store : Store) (distinct : signers.Nodup) :
    (signers.map store.queueLength).sum =
      store.records.countP fun r => signers.any fun a => r.queuedBy a := by
  induction signers with
  | nil => simp
  | cons a rest ih =>
    obtain ⟨first, distinct⟩ := List.nodup_cons.mp distinct
    have one : ∀ r ∈ store.records, r.queuedBy a = true →
        (rest.any fun b => r.queuedBy b) = false := by
      intro r _ queued
      refine List.any_eq_false.mpr fun b hb other => first ?_
      have same : some a = some b :=
        (Record.queuedBy_iff.mp queued).2.1.symm.trans (Record.queuedBy_iff.mp other).2.1
      exact Option.some.inj same ▸ hb
    calc ((a :: rest).map store.queueLength).sum
        = store.queueLength a + (rest.map store.queueLength).sum := List.sum_cons
      _ = store.records.countP (fun r => r.queuedBy a) +
            store.records.countP (fun r => rest.any fun b => r.queuedBy b) := by
          rw [ih distinct]
          rfl
      _ = store.records.countP fun r => (a :: rest).any fun b => r.queuedBy b :=
          (countP_or_of_exclusive one).symm

/-- What the queues of the signers hold is what a poll answers, but for the padded records. -/
theorem sum_queueLength_eq (store : Store) (distinct : signers.Nodup)
    (several : 2 ≤ signers.length) (known : Address.zero ∉ signers) :
    (signers.map store.queueLength).sum =
      (store.toCheck signers).countP fun r => ¬ r.IsPadded := by
  rw [store.sum_queueLength distinct, toCheck, List.countP_filter]
  refine List.countP_congr fun r _ => ?_
  rw [Bool.and_eq_true_iff, Bool.and_eq_true_iff, belongsTo_iff_of_several several known,
    List.any_eq_true, decide_eq_true_iff, Bool.not_eq_true']
  constructor
  · rintro ⟨a, ha, queued⟩
    obtain ⟨unsettled, read, solid⟩ := Record.queuedBy_iff.mp queued
    exact ⟨solid, unsettled, a, ha, read⟩
  · rintro ⟨solid, unsettled, a, ha, read⟩
    exact ⟨a, ha, Record.queuedBy_iff.mpr ⟨unsettled, read, solid⟩⟩

end Store

/-- **The queues of several senders are what a poll answers, but for the padded records.** A poll
for several signers, none of them under the zero address, answers as many records as their queues
hold together and the padded ones besides. An answered record is in the queue of the sender that the
poll finds for it, unless it is padded. -/
theorem queues_leave_out_padded_records {signers : List Address} (distinct : signers.Nodup)
    (several : 2 ≤ signers.length) (known : Address.zero ∉ signers) (store : Store) :
    (store.toCheck signers).length = (signers.map store.queueLength).sum +
        (store.toCheck signers).countP (fun r => r.IsPadded) ∧
      ∀ r ∈ store.records, ∀ a ∈ signers, r.queuedBy a = true ↔
        (r ∈ store.toCheck signers ∧ Address.ofText? (trim r.sender) = some a) ∧
          ¬ r.IsPadded := by
  constructor
  · rw [store.sum_queueLength_eq distinct several known, Nat.add_comm]
    simpa using List.length_eq_countP_add_countP (fun r : Record => r.IsPadded)
  · intro r hr a ha
    rw [Store.toCheck, List.mem_filter, Bool.and_eq_true_iff, Bool.not_eq_true',
      Store.belongsTo_iff_of_several several known, Record.queuedBy_iff]
    constructor
    · rintro ⟨unsettled, read, solid⟩
      exact ⟨⟨⟨hr, unsettled, a, ha, read⟩, read⟩, solid⟩
    · rintro ⟨⟨⟨-, unsettled, -⟩, read⟩, solid⟩
      exact ⟨unsettled, read, solid⟩

namespace Sample

def partners : List Address := [⟨List.replicate 20 0x44, rfl⟩, ⟨List.replicate 20 0x55, rfl⟩]

/-- A record of each of the two, the first with a blank in front of its sender. -/
def padded : Store :=
  (Store.empty.upsert
    { record with sender := " 0x4444444444444444444444444444444444444444" }).upsert
    { record with id := "b", sender := "0x5555555555555555555555555555555555555555" }

end Sample

theorem padded_sample_leaves_one_out : Sample.partners.Nodup ∧ 2 ≤ Sample.partners.length ∧
    Address.zero ∉ Sample.partners ∧
    (Sample.padded.toCheck Sample.partners).length =
      (Sample.partners.map Sample.padded.queueLength).sum + 1 := by
  have distinct : Sample.partners.Nodup := by decide
  have known : Address.zero ∉ Sample.partners := by decide
  have counted := (queues_leave_out_padded_records distinct (by decide) known Sample.padded).1
  have one : (Sample.padded.toCheck Sample.partners).countP (fun r => r.IsPadded) = 1 := by
    decide +kernel
  rw [one] at counted
  exact ⟨distinct, by decide, known, counted⟩

/-- Two records are answered, and the queues hold one. -/
theorem padded_sample_is_in_no_queue : Sample.partners.Nodup ∧ 2 ≤ Sample.partners.length ∧
    Address.zero ∉ Sample.partners ∧ (Sample.padded.toCheck Sample.partners).length = 2 ∧
    (Sample.partners.map Sample.padded.queueLength).sum = 1 := by
  decide +kernel

end GasEscalator
