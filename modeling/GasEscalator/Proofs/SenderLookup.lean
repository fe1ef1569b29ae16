import GasEscalator.Registry
import GasEscalator.Proofs.AddressText
import Mathlib.Data.List.Nodup

/-!
# Looking up a sender

What a registry finds is told by the changes made to it. The signer of an address is the one that
was registered under it last, unless it has been removed since; and while one signer stands alone it
also signs for the senders without a name.
-/
namespace GasEscalator

namespace Registry

variable {σ : Type}

inductive Change (σ : Type) where
  | register (a : Address) (signer : σ)
  | remove (a : Address)

def Change.address : Change σ → Address
  | register a _ | remove a => a

def change (r : Registry σ) : Change σ → Registry σ
  | .register a signer => r.insert a signer
  | .remove a => r.erase a

/-- The registry after some changes, the latest of which comes first. -/
def ofChanges : List (Change σ) → Registry σ
  | [] => empty
  | c :: earlier => (ofChanges earlier).change c

/-- A signer was registered under an address, which has not been changed since. -/
def Stands (changes : List (Change σ)) (a : Address) (signer : σ) : Prop :=
  ∃ since earlier, changes = since ++ .register a signer :: earlier ∧ ∀ c ∈ since, c.address ≠ a

/-- A signer stands under an address and none stands under any other. -/
def StandsAlone (changes : List (Change σ)) (a : Address) (signer : σ) : Prop :=
  Stands changes a signer ∧ ∀ b other, Stands changes b other → b = a

/-- A sender from before senders were kept, blanks around it aside. -/
def IsNameless (text : String) : Prop := text = "" ∨ Address.Spells text .zero

/-! ## Changes -/

theorem stands_cons {c : Change σ} {earlier : List (Change σ)} {a : Address} {signer : σ} :
    Stands (c :: earlier) a signer ↔
      c = .register a signer ∨ c.address ≠ a ∧ Stands earlier a signer := by
  constructor
  · rintro ⟨since, before, split, others⟩
    cases since with
    | nil => exact .inl (List.cons.inj split).1
    | cons d since =>
      obtain ⟨rfl, rest⟩ := List.cons.inj split
      exact .inr ⟨others c List.mem_cons_self, since, before, rest,
        fun d hd => others d (List.mem_cons_of_mem c hd)⟩
  · rintro (rfl | ⟨other, since, before, rfl, others⟩)
    · exact ⟨[], earlier, rfl, nofun⟩
    · refine ⟨c :: since, before, rfl, ?_⟩
      intro d hd
      rcases List.mem_cons.mp hd with rfl | hd
      · exact other
      · exact others d hd

theorem mem_change {r : Registry σ} {c : Change σ} {a : Address} {signer : σ} :
    (a, signer) ∈ (r.change c).entries ↔
      c = .register a signer ∨ c.address ≠ a ∧ (a, signer) ∈ r.entries := by
  have erased (b : Address) : (a, signer) ∈ (r.erase b).entries ↔
      b ≠ a ∧ (a, signer) ∈ r.entries := by
    simp [erase, and_comm, eq_comm (a := b)]
  cases c with
  | register b other =>
    rw [change, insert, List.mem_cons, erased, Prod.mk.injEq, Change.register.injEq,
      eq_comm (a := b), eq_comm (a := other)]
    rfl
  | remove b =>
    rw [change, erased]
    simp [Change.address]

theorem mem_ofChanges {changes : List (Change σ)} {a : Address} {signer : σ} :
    (a, signer) ∈ (ofChanges changes).entries ↔ Stands changes a signer := by
  induction changes with
  | nil => simp [ofChanges, empty, Stands]
  | cons c earlier ih => rw [ofChanges, mem_change, ih, stands_cons]

/-! ## Entries -/

variable {r : Registry σ} {e : Address × σ} {a : Address}

theorem find?_eq_some_iff : r.find? a = some e ↔ e.1 = a ∧ e ∈ r.entries := by
  constructor
  · intro found
    exact ⟨by simpa using List.find?_some found, List.mem_of_find?_eq_some found⟩
  · rintro ⟨rfl, mem⟩
    cases found : r.find? e.1 with
    | none =>
      have absent := List.find?_eq_none.mp found e mem
      simp at absent
    | some other =>
      have same : other.1 = e.1 := by simpa using List.find?_some found
      rw [List.inj_on_of_nodup_map r.nodup (List.mem_of_find?_eq_some found) mem same]

/-- Entries have distinct addresses, so that one entry is alone if all have its address. -/
theorem entries_eq_singleton_iff :
    r.entries = [e] ↔ e ∈ r.entries ∧ ∀ other ∈ r.entries, other.1 = e.1 := by
  constructor
  · intro alone
    rw [alone]
    simp
  · rintro ⟨mem, same⟩
    have distinct := r.nodup
    cases entries : r.entries with
    | nil =>
      rw [entries] at mem
      cases mem
    | cons first rest =>
      rw [entries] at mem same distinct
      have nobody : rest = [] := by
        refine List.eq_nil_iff_forall_not_mem.mpr fun other there => ?_
        have shared : first.1 = other.1 :=
          (same first List.mem_cons_self).trans
            (same other (List.mem_cons_of_mem first there)).symm
        exact (List.nodup_cons.mp distinct).1 (List.mem_map.mpr ⟨other, there, shared.symm⟩)
      subst nobody
      rw [List.mem_singleton.mp mem]

theorem entries_ofChanges {changes : List (Change σ)} :
    (ofChanges changes).entries = [e] ↔ StandsAlone changes e.1 e.2 := by
  rw [entries_eq_singleton_iff, StandsAlone, ← mem_ofChanges]
  refine and_congr_right fun _ => ⟨?_, ?_⟩
  · intro same b other stands
    exact same (b, other) (mem_ofChanges.mpr stands)
  · intro same other there
    exact same other.1 other.2 (mem_ofChanges.mp there)

/-! ## Lookups -/

theorem isNameless_iff {text : String} : IsNameless text ↔
    (text.isEmpty || Address.ofText? text = some .zero) = true := by
  rw [IsNameless, Bool.or_eq_true, String.isEmpty_iff, decide_eq_true_iff,
    Address.ofText?_eq_some_iff]

/-- Alone, a signer signs for nameless senders. -/
theorem resolve_of_nameless {sender : String} (alone : r.entries = [e])
    (nameless : IsNameless (trim sender)) : r.resolve sender = some e := by
  rw [resolve, alone]
  exact if_pos (isNameless_iff.mp nameless)

theorem resolve_of_named {sender : String}
    (named : ¬ ((∃ e, r.entries = [e]) ∧ IsNameless (trim sender))) :
    r.resolve sender = (Address.ofText? (trim sender)).bind r.find? := by
  unfold resolve
  dsimp only
  split
  case h_1 only alone =>
    exact if_neg fun nameless => named ⟨⟨only, alone⟩, isNameless_iff.mpr nameless⟩
  case h_2 => rfl

/-- A lookup depends on the address that a text spells and not on the spelling. -/
theorem resolve_eq_resolveAddress {sender : String} (spells : Address.Spells (trim sender) a) :
    r.resolve sender = r.resolveAddress a := by
  have written : Address.Spells a.checksumText a :=
    Address.ofText?_eq_some_iff.mp a.ofText?_checksumText
  have read := Address.ofText?_eq_some_iff.mpr spells
  rw [resolveAddress, resolve, resolve, a.trim_checksumText, a.ofText?_checksumText, read,
    spells.isEmpty_eq_false, written.isEmpty_eq_false]

end Registry

open Registry in
/-- **A lookup finds the signer that was registered last.** Whatever the changes to a registry, a
sender is looked up by its text without the blanks around it. While one signer stands alone it is
found for a nameless sender. Otherwise the signer that stands under the address is found for every
spelling of an address, its checksummed text among them, and nothing is found for other texts. -/
theorem lookup_follows_changes {σ : Type} (changes : List (Change σ)) {sender text : String}
    (trimmed : IsTrimmed sender text) :
    (∀ a signer, StandsAlone changes a signer → IsNameless text →
      (ofChanges changes).resolve sender = some (a, signer)) ∧
    (¬ ((∃ a signer, StandsAlone changes a signer) ∧ IsNameless text) →
      (∀ a, Address.Spells text a → ∀ b signer,
        (ofChanges changes).resolve sender = some (b, signer) ↔ b = a ∧ Stands changes a signer) ∧
      ((∀ a, ¬ Address.Spells text a) → (ofChanges changes).resolve sender = none)) ∧
    ∀ a, Address.Spells a.checksumText a ∧ (Address.Spells text a →
      (ofChanges changes).resolve sender = (ofChanges changes).resolveAddress a) := by
  obtain rfl := isTrimmed_iff.mp trimmed
  refine ⟨?_, ?_, ?_⟩
  · intro a signer alone nameless
    exact resolve_of_nameless (entries_ofChanges.mpr alone) nameless
  · intro named
    have read : (ofChanges changes).resolve sender =
        (Address.ofText? (trim sender)).bind (ofChanges changes).find? := by
      refine resolve_of_named ?_
      rintro ⟨⟨e, alone⟩, nameless⟩
      exact named ⟨⟨e.1, e.2, entries_ofChanges.mp alone⟩, nameless⟩
    constructor
    · intro a spells b signer
      rw [read, Address.ofText?_eq_some_iff.mpr spells, Option.bind_some, find?_eq_some_iff,
        mem_ofChanges]
      exact and_congr_right fun same : b = a => by rw [same]
    · intro unspelled
      have unread : Address.ofText? (trim sender) = none := by
        refine Option.eq_none_iff_forall_ne_some.mpr fun a found => ?_
        exact unspelled a (Address.ofText?_eq_some_iff.mp found)
      rw [read, unread, Option.bind_none]
  · intro a
    exact ⟨Address.ofText?_eq_some_iff.mp a.ofText?_checksumText, resolve_eq_resolveAddress⟩

namespace Sample

/-- Addresses of one who stays and of one who leaves. -/
def stayer : Address := ⟨List.replicate 20 0xaa, rfl⟩
def leaver : Address := ⟨List.replicate 20 0xbb, rfl⟩

/-- Two signers are registered, one of them once more, before the other is removed. -/
def replaced : List (Registry.Change Nat) :=
  [.register stayer 3, .register leaver 2, .register stayer 1]

def bereft : List (Registry.Change Nat) := .remove leaver :: replaced

def spelled : String := " 0XAAAAAAAAAAAAAAAAAAAAAAAAAAAAAAAAAAAAAAAA\n"

end Sample

open Registry in
theorem replaced_sample_is_looked_up : IsTrimmed " " "" ∧
    IsTrimmed Sample.spelled "0XAAAAAAAAAAAAAAAAAAAAAAAAAAAAAAAAAAAAAAAA" ∧
    (ofChanges Sample.bereft).resolve " " = some (Sample.stayer, 3) ∧
    (ofChanges Sample.replaced).resolve " " = none ∧
    (ofChanges Sample.replaced).resolve Sample.spelled = some (Sample.stayer, 3) := by
  have blank : IsTrimmed " " "" := isTrimmed_iff.mpr (by decide)
  have inner : IsTrimmed Sample.spelled "0XAAAAAAAAAAAAAAAAAAAAAAAAAAAAAAAAAAAAAAAA" :=
    isTrimmed_iff.mpr (by decide +kernel)
  have both : ¬ ∃ a signer, StandsAlone Sample.replaced a signer := by
    rintro ⟨a, signer, alone⟩
    have entries := entries_ofChanges (e := (a, signer)).mpr alone
    have one : (ofChanges Sample.replaced).entries.length = 1 := congrArg List.length entries
    exact absurd one (by decide)
  have lone : StandsAlone Sample.bereft Sample.stayer 3 :=
    entries_ofChanges (e := (Sample.stayer, 3)).mp (by decide)
  have latest : Stands Sample.replaced Sample.stayer 3 := ⟨[], _, rfl, nofun⟩
  have spells : Address.Spells "0XAAAAAAAAAAAAAAAAAAAAAAAAAAAAAAAAAAAAAAAA" Sample.stayer :=
    Address.ofText?_eq_some_iff.mp (by decide +kernel)
  have unspelled : ∀ a, ¬ Address.Spells "" a := by
    intro a spells
    exact absurd spells.isEmpty_eq_false (by decide)
  refine ⟨blank, inner, ?_, ?_, ?_⟩
  · exact (lookup_follows_changes Sample.bereft blank).1 _ _ lone (.inl rfl)
  · exact ((lookup_follows_changes Sample.replaced blank).2.1 fun h => both h.1).2 unspelled
  · obtain ⟨found, -⟩ := (lookup_follows_changes Sample.replaced inner).2.1 fun h => both h.1
    exact (found _ spells _ _).mpr ⟨rfl, latest⟩

end GasEscalator
