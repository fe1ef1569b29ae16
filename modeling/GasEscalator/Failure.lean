import GasEscalator.Policy
import GasEscalator.Text.Quoted
import GasEscalator.Transaction.Wire

/-!
# Failures

What goes wrong between a record, its signer, the store and the chain; each cause has one wording.
A failure that no later attempt can heal forces its record to fail, and every other one leaves the
record to the next poll.
-/
namespace GasEscalator

/-! ## Chains -/

/-- What a chain answers instead of a result. -/
inductive ChainError
  | nonceTooLow (text : String)
  | nonceTooHigh (text : String)
  | notFound (text : String)
  /-- The call took longer than it may. -/
  | timeout (limit : Duration)
  | rpc (text : String)
deriving DecidableEq

namespace ChainError

def message : ChainError → String
  | .nonceTooLow text => "nonce too low: " ++ text
  | .nonceTooHigh text => "nonce too high: " ++ text
  | .notFound text => "not found: " ++ text
  | .timeout limit => "chain call timed out after " ++ limit.messageText
  | .rpc text => "rpc error: " ++ text

/-- Whether the characters of `part` stand in a row somewhere in `chars`. -/
def occursIn (part : List Char) : List Char → Bool
  | [] => part.isEmpty
  | c :: rest => part.isPrefixOf (c :: rest) || occursIn part rest

/-- Reads the cause off a node's message, in which case does not matter. Nodes agree on no codes,
and only these phrases are sure; every other "not found" may pass. Lowering the ASCII letters is
enough, as no other character becomes one of these phrases' letters in lowercase. -/
def ofNodeMessage (text : String) : ChainError :=
  let mentions (phrase : String) := occursIn phrase.toList (text.toList.map Char.toLower)
  if mentions "nonce too low" then .nonceTooLow text
  else if mentions "nonce too high" then .nonceTooHigh text
  else if mentions "transaction not found" || mentions "receipt not found" then .notFound text
  else .rpc text

/-- Nonce conflicts and missing transactions never heal. -/
def isUnrecoverable : ChainError → Bool
  | .nonceTooLow _ | .nonceTooHigh _ | .notFound _ => true
  | .timeout _ | .rpc _ => false

end ChainError

/-! ## Stores and signers -/

structure StorageError where
  text : String
deriving DecidableEq

def StorageError.message (e : StorageError) : String := "storage error: " ++ e.text

structure SignerError where
  text : String
deriving DecidableEq

def SignerError.message (e : SignerError) : String := "signer error: " ++ e.text

/-! ## Watching -/

/-- The two questions of a status check. -/
inductive StatusCall
  | lookup
  | receipt
deriving DecidableEq

def StatusCall.complaint : StatusCall → String
  | .lookup => "failed to get transaction by hash"
  | .receipt => "failed to get transaction receipt"

/-- What stops a record from being handed over, or a watcher in its work. -/
inductive Failure
  | invalidPolicy (cause : PolicyError)
  | storage (cause : StorageError)
  | decode (cause : DecodeError)
  | chain (call : StatusCall) (cause : ChainError)
  /-- The next price would be above the ceiling. -/
  | priceLimit (id : String) (maxPrice : Price) (chainId : UInt64)
  | missingSigner (sender : String)
  | sign (cause : SignerError)
  | broadcast (cause : ChainError)
  | unknownReceiptStatus (status : UInt64) (id : String) (hash : Hash)
deriving DecidableEq

def Hash.text (h : Hash) : String := "0x" ++ hexText h.toList

namespace Failure

def message : Failure → String
  | .invalidPolicy cause => "invalid opts given: " ++ cause.message
  | .storage cause => cause.message
  | .decode cause => cause.message
  | .chain call cause => call.complaint ++ ": " ++ cause.message
  | .priceLimit id maxPrice chainId =>
    "transaction with uniqueID '" ++ id ++ "' failed, gas price limit of " ++
      toString maxPrice.val ++ " reached on chain " ++ toString chainId.toNat
  | .missingSigner sender => "can't retry, no signer for address: " ++ quote sender
  | .sign cause => "failed to sign a transaction: " ++ cause.message
  | .broadcast cause => "failed to send a transaction: " ++ cause.message
  | .unknownReceiptStatus status id hash =>
    "received unknown receipt status " ++ toString status.toNat ++ " for tx uniqueID: '" ++ id ++
      "', lastHash: '" ++ Hash.text hash ++ "'"

/-- The message of the underlying cause, where there is one of its own. -/
def causeMessage : Failure → Option String
  | .invalidPolicy cause => some cause.message
  | .decode cause => some cause.reason
  | .chain _ cause => some cause.message
  | .sign cause => some cause.message
  | .broadcast cause => some cause.message
  | .storage _ | .priceLimit .. | .missingSigner _ | .unknownReceiptStatus .. => none

/-- Whether the record must be marked as failed rather than left for a later attempt. -/
def forcesFailure : Failure → Bool
  | .chain _ cause => cause.isUnrecoverable
  | .priceLimit .. | .missingSigner _ | .sign _ | .broadcast _ | .decode _
  | .unknownReceiptStatus .. => true
  | .invalidPolicy _ | .storage _ => false

end Failure

end GasEscalator
