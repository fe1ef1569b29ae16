import GasEscalator.Record
import GasEscalator.Text.Blank

/-!
# Stores of records

A store keeps one record per id, in the order in which the ids first came up. It answers the open
records of a group of signers and counts the open records of one sender.
-/
namespace GasEscalator

/-- Records under distinct ids. -/
structure Store where
  records : List Record
  nodup : (records.map (·.id)).Nodup

namespace Store

def empty : Store := ⟨[], by simp⟩

def get? (s : Store) (id : String) : Option Record := s.records.find? fun r => r.id = id

def size (s : Store) : Nat := s.records.length

def isEmpty (s : Store) : Bool := s.records.isEmpty

/-- Puts a record in the place of the one with its id, or behind all others if there is none. -/
def upsertList (r : Record) : List Record → List Record
  | [] => [r]
  | old :: rest => if old.id = r.id then r :: rest else old :: upsertList r rest

theorem map_id_upsertList (r : Record) (records : List Record) :
    (upsertList r records).map (·.id) =
      if r.id ∈ records.map (·.id) then records.map (·.id) else records.map (·.id) ++ [r.id] := by
  induction records with
  | nil => simp [upsertList]
  | cons old rest ih =>
    by_cases h : old.id = r.id
    · simp [upsertList, h]
    · have h' : r.id ≠ old.id := Ne.symm h
      simp only [upsertList, h, ↓reduceIte, List.map_cons, ih, List.mem_cons, h', false_or]
      split <;> simp

def upsert (s : Store) (r : Record) : Store where
  records := upsertList r s.records
  nodup := by
    rw [map_id_upsertList]
    split
    · exact s.nodup
    · next h =>
      rw [List.nodup_append]
      refine ⟨s.nodup, by simp, ?_⟩
      intro a ha b hb hab
      rw [List.mem_singleton] at hb
      exact h (hb ▸ hab ▸ ha)

/-- Whether a record belongs to one of the signers. A record without a sender belongs to a signer
that is alone. -/
def belongsTo (signers : List Address) (r : Record) : Bool :=
  match Address.ofText? (trim r.sender) with
  | some a => if a = Address.zero then signers.length = 1 else signers.contains a
  | none => signers.length = 1

def toCheck (s : Store) (signers : List Address) : List Record :=
  s.records.filter fun r => !r.status.isTerminal && belongsTo signers r

/-- The number of open records of one sender. -/
def queueLength (s : Store) (sender : Address) : Nat :=
  s.records.countP fun r => !r.status.isTerminal && Address.ofText? r.sender = some sender

end Store

end GasEscalator
