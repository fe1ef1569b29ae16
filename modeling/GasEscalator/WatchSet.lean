/-!
# Sets of watched records

A set of record ids. A guard stands for one id that its holder has marked; releasing it unmarks the
id.
-/
namespace GasEscalator

structure WatchSet where
  ids : List String
  nodup : ids.Nodup
deriving DecidableEq

namespace WatchSet

def empty : WatchSet := ⟨[], by simp⟩

def contains (s : WatchSet) (id : String) : Bool := s.ids.contains id

def size (s : WatchSet) : Nat := s.ids.length

def isEmpty (s : WatchSet) : Bool := s.ids.isEmpty

/-- Adds an id; one that is there already is not added twice. -/
def mark (s : WatchSet) (id : String) : WatchSet :=
  if h : id ∈ s.ids then s else ⟨id :: s.ids, List.nodup_cons.mpr ⟨h, s.nodup⟩⟩

/-- Takes an id out; one that is not there may be taken out too. -/
def unmark (s : WatchSet) (id : String) : WatchSet :=
  ⟨s.ids.filter (· ≠ id), s.nodup.sublist List.filter_sublist⟩

/-- A claim to one marked id. -/
structure Guard where
  id : String
deriving DecidableEq

/-- Marks an id that is not marked yet, and gives the claim to it. -/
def guard? (s : WatchSet) (id : String) : Option (Guard × WatchSet) :=
  if s.contains id then none else some (⟨id⟩, s.mark id)

def release (s : WatchSet) (g : Guard) : WatchSet := s.unmark g.id

end WatchSet

end GasEscalator
