import GasEscalator.Chain

/-!
# A simulated chain

A transaction that is broadcast counts as mined from the moment on that it pays the market price,
and every mined transaction succeeds.
-/
namespace GasEscalator

/-- A chain with one market price for all time. -/
structure SimulatedChain where
  marketPrice : Price
  /-- What has been broadcast, by digest, the latest first. -/
  broadcasts : List (Hash × SignedTx)

namespace SimulatedChain

def new (marketPrice : Price) : SimulatedChain := ⟨marketPrice, []⟩

def find? (c : SimulatedChain) (hash : Hash) : Option SignedTx := c.broadcasts.lookup hash

def broadcast (c : SimulatedChain) (tx : SignedTx) : SimulatedChain :=
  { c with broadcasts := (tx.hash, tx) :: c.broadcasts }

def replies (c : SimulatedChain) : Replies
  | .lookup hash =>
    match c.find? hash with
    | some tx => .ok (decide (tx.gasPrice < c.marketPrice))
    | none => .error (.notFound ("transaction " ++ Hash.text hash))
  | .receipt hash =>
    match c.find? hash with
    | some _ => .ok ⟨hash, Receipt.successful⟩
    | none => .error (.ofNodeMessage "receipt not found")
  | .send _ => .ok ()

end SimulatedChain

end GasEscalator
