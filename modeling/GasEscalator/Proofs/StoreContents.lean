import GasEscalator.Service
import Mathlib.Data.List.Nodup

/-!
# What a store answers

A store is read through `get?`: storing a record changes the answer under its own id and no other,
and every record in the list is the answer under its id.
-/
namespace GasEscalator

/-- Whether a record counts as queued by a sender. -/
def Record.queuedBy (sender : Address) (r : Record) : Bool :=
  !r.status.isTerminal && Address.ofText? r.sender = some sender

namespace Store

theorem get?_eq_some {s : Store} {id : String} {r : Record} (h : s.get? id = some r) :
    r ∈ s.records ∧ r.id = id :=
  ⟨List.mem_of_find?_eq_some h, by simpa using List.find?_some h⟩

/-- Ids are distinct, so that a stored record is found under its id. -/
theorem get?_of_mem {s : Store} {r : Record} (h : r ∈ s.records) : s.get? r.id = some r := by
  cases hf : s.get? r.id with
  | none =>
    have := List.find?_eq_none.mp hf r h
    simp at this
  | some found =>
    obtain ⟨hm, hid⟩ := get?_eq_some hf
    rw [List.inj_on_of_nodup_map s.nodup hm h hid]

theorem find?_upsertList (r : Record) (id : String) (records : List Record) :
    (upsertList r records).find? (fun x => x.id = id) =
      if r.id = id then some r else records.find? fun x => x.id = id := by
  induction records with
  | nil => by_cases h : r.id = id <;> simp [upsertList, h]
  | cons old rest ih =>
    by_cases ho : old.id = r.id
    · by_cases h : r.id = id <;> simp [upsertList, ho, h]
    · by_cases h : r.id = id
      · have hold : old.id ≠ id := fun e => ho (e.trans h.symm)
        simp [upsertList, h, hold, ih]
      · simp [upsertList, ho, h, List.find?_cons, ih]

@[simp] theorem get?_upsert (s : Store) (r : Record) (id : String) :
    (s.upsert r).get? id = if r.id = id then some r else s.get? id :=
  find?_upsertList r id s.records

theorem mem_records_upsert {s : Store} {r r' : Record} (h : r' ∈ (s.upsert r).records) :
    r' = r ∨ r' ∈ s.records := by
  have stored := get?_of_mem h
  rw [get?_upsert] at stored
  split at stored
  · exact .inl (Option.some.inj stored).symm
  · exact .inr (get?_eq_some stored).1

/-- A stored record is counted in the place of the one that was there. -/
theorem countP_upsertList (p : Record → Bool) (r : Record) (records : List Record) :
    (upsertList r records).countP p + ((records.find? fun x => x.id = r.id).any p).toNat =
      records.countP p + (p r).toNat := by
  induction records with
  | nil => cases h : p r <;> simp [upsertList, h]
  | cons old rest ih =>
    by_cases same : old.id = r.id
    · have found : (old :: rest).find? (fun x => x.id = r.id) = some old :=
        List.find?_cons_of_pos (decide_eq_true same)
      rw [upsertList, if_pos same, found, List.countP_cons, List.countP_cons, Option.any_some]
      cases p old <;> cases p r <;> simp
    · have passed : (old :: rest).find? (fun x => x.id = r.id) = rest.find? fun x => x.id = r.id :=
        List.find?_cons_of_neg (by simpa using same)
      rw [upsertList, if_neg same, passed, List.countP_cons, List.countP_cons]
      omega

theorem queueLength_upsert (s : Store) (r : Record) (sender : Address) :
    (s.upsert r).queueLength sender + ((s.get? r.id).any (·.queuedBy sender)).toNat =
      s.queueLength sender + (r.queuedBy sender).toNat :=
  countP_upsertList (·.queuedBy sender) r s.records

end Store

/-- A poll is answered with stored records only. -/
theorem Setup.get?_of_mem_readable {c : Setup} {s : Store} {r : Record}
    (h : r ∈ c.readable s) : s.get? r.id = some r := by
  apply Store.get?_of_mem
  unfold Setup.readable at h
  split at h
  · exact (List.mem_filter.mp h).1
  · exact h

/-- A poll is answered with at most one record under an id. -/
theorem Setup.nodup_readable (c : Setup) (s : Store) : ((c.readable s).map (·.id)).Nodup := by
  unfold Setup.readable
  split
  · exact s.nodup.sublist (List.filter_sublist.map _)
  · exact s.nodup

end GasEscalator
