import GasEscalator.Address
import GasEscalator.Text.Blank

/-!
# Registries of signers

At most one signer stands under each address. A sender is looked up by the text of its address,
blanks around it aside. Records from before senders were kept have an empty text or the zero
address; as long as a single signer is registered they belong to it, whatever its address is.
-/
namespace GasEscalator

/-- Signers of type `σ` under distinct addresses. -/
structure Registry (σ : Type) where
  entries : List (Address × σ)
  nodup : (entries.map (·.1)).Nodup

namespace Registry

variable {σ : Type}

def empty : Registry σ := ⟨[], by simp⟩

/-- Takes the signer under an address out. -/
def erase (r : Registry σ) (a : Address) : Registry σ where
  entries := r.entries.filter fun e => e.1 ≠ a
  nodup := r.nodup.sublist (List.filter_sublist.map _)

/-- Puts a signer under an address, in place of any other there. -/
def insert (r : Registry σ) (a : Address) (signer : σ) : Registry σ where
  entries := (a, signer) :: (r.erase a).entries
  nodup := by
    rw [List.map_cons, List.nodup_cons]
    refine ⟨?_, (r.erase a).nodup⟩
    simp [erase]

def addresses (r : Registry σ) : List Address := r.entries.map (·.1)

def size (r : Registry σ) : Nat := r.entries.length

def isEmpty (r : Registry σ) : Bool := r.entries.isEmpty

def contains (r : Registry σ) (a : Address) : Bool := r.addresses.contains a

def find? (r : Registry σ) (a : Address) : Option (Address × σ) :=
  r.entries.find? fun e => e.1 = a

/-- The entry that signs for a sender. -/
def resolve (r : Registry σ) (sender : String) : Option (Address × σ) :=
  let text := trim sender
  let parsed := Address.ofText? text
  match r.entries with
  | [only] => if text.isEmpty || parsed = some Address.zero then some only else parsed.bind r.find?
  | _ => parsed.bind r.find?

def resolveAddress (r : Registry σ) (a : Address) : Option (Address × σ) :=
  r.resolve a.checksumText

/-- The registered addresses as diagnostics show them. -/
def describe (r : Registry σ) : String :=
  "SignerRegistry \x7b addresses: [" ++
    ", ".intercalate (r.addresses.map Address.lowercaseText) ++ "] \x7d"

end Registry

end GasEscalator
