import GasEscalator.Failure

/-!
# Calls to a chain

A chain is asked whether a transaction is still pending, for the receipt of a mined one, and to
take in a new one. Each call has its own kind of result.
-/
namespace GasEscalator

structure Receipt where
  hash : Hash
  status : UInt64
deriving DecidableEq

namespace Receipt

/-- The status of a transaction that was carried out. -/
def successful : UInt64 := 1

/-- The status of a transaction that was mined and failed. -/
def unsuccessful : UInt64 := 0

end Receipt

inductive Call
  /-- Whether the transaction with this digest is still pending. -/
  | lookup (hash : Hash)
  /-- The receipt of the transaction with this digest. -/
  | receipt (hash : Hash)
  /-- Broadcasting a transaction. -/
  | send (tx : SignedTx)
deriving DecidableEq

/-- What a call gives when it succeeds. -/
abbrev Call.Result : Call → Type
  | .lookup _ => Bool
  | .receipt _ => Receipt
  | .send _ => Unit

/-- An answer for every call. -/
abbrev Replies := (call : Call) → Except ChainError call.Result

/-- The answers of a chain that does not respond in time. -/
def Replies.timedOut (limit : Duration) : Replies := fun _ => .error (.timeout limit)

end GasEscalator
