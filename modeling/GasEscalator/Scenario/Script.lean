import GasEscalator.Chain.Simulated
import GasEscalator.Signer

/-!
# Scripted surroundings

A chain and signers whose conduct is laid down in advance. Times are whole milliseconds since the
run began. For each call the chain follows the first of its rules that applies when the call begins,
and none of them means an ordinary answer; where there is a market price, a simulated chain gives
the ordinary answers.
-/
namespace GasEscalator.Scenario

/-- A span of time that may have no end; its end is outside. -/
structure Window where
  opens : Nat
  closes : Option Nat

def Window.contains (w : Window) (t : Nat) : Bool := w.opens ≤ t && w.closes.all fun c => t < c

def within (t : Nat) (windows : List Window) : Bool := windows.any fun w => w.contains t

/-! ## Signers -/

structure ScriptedSigner where
  address : Address
  /-- Its signature on everything; none asks for the digest of what is signed. -/
  tag : Option (List UInt8)
  /-- The chain it signs for, whatever chain is asked for. -/
  chainId : Option UInt64
  /-- When it is out of reach. -/
  faults : List Window

/-- What the signer does in a run that began at `start`. -/
def ScriptedSigner.signer (s : ScriptedSigner) (start : Moment) : Signer := fun now tx chainId =>
  if within (now.millis - start.millis) s.faults then .error ⟨"hardware wallet disconnected"⟩
  else match s.tag with
    | none => Signer.digest s.address now tx (s.chainId.getD chainId)
    | some tag => .ok { chainId := s.chainId.getD chainId, payload := tx, signature := tag }

/-! ## Chains -/

/-- When a rule applies, and what it does. -/
structure Rule where
  nonce : Option UInt64
  minPrice : Option Price
  window : Window
  /-- The call never returns. -/
  hangs : Bool
  /-- How many milliseconds the call takes. -/
  delay : Nat
  error : Option ChainError
  /-- What a lookup answers. -/
  pending : Bool
  /-- What a receipt says. -/
  status : UInt64
  /-- The digest on a receipt, if it is not the one asked for. -/
  hash : Option Hash

namespace Rule

/-- The rule that lays nothing down. -/
def ordinary : Rule :=
  { nonce := none, minPrice := none, window := ⟨0, none⟩, hangs := false, delay := 0, error := none,
    pending := true, status := Receipt.successful, hash := none }

/-- Whether the rule applies to a call about a transaction, if it is a known one. -/
def applies (r : Rule) (t : Nat) (tx : Option SignedTx) : Bool :=
  r.window.contains t && (r.nonce.all fun n => tx.any fun x => x.nonce = n) &&
    r.minPrice.all fun p => tx.any fun x => p ≤ x.gasPrice

end Rule

structure ScriptedChain where
  lookups : List Rule
  receipts : List Rule
  sends : List Rule
  market : Option SimulatedChain
  /-- The transactions that a digest can be traced to. -/
  known : List (Hash × SignedTx)

namespace ScriptedChain

/-- From now on the digest of a transaction can be traced to it. -/
def learn (c : ScriptedChain) (tx : SignedTx) : ScriptedChain :=
  { c with known := (tx.hash, tx) :: c.known }

/-- The transaction that a call is about, if it is known. -/
def subject (c : ScriptedChain) : Call → Option SignedTx
  | .lookup hash | .receipt hash => c.known.lookup hash
  | .send tx => some tx

def rules (c : ScriptedChain) : Call → List Rule
  | .lookup _ => c.lookups
  | .receipt _ => c.receipts
  | .send _ => c.sends

def ruleFor (c : ScriptedChain) (t : Nat) (call : Call) : Rule :=
  ((c.rules call).find? fun r => r.applies t (c.subject call)).getD .ordinary

/-- The answers under a rule, as the chain stands when the call returns. -/
def replies (c : ScriptedChain) (r : Rule) : Replies := fun call =>
  match r.error with
  | some e => .error e
  | none =>
    match c.market with
    | some market => market.replies call
    | none =>
      match call with
      | .lookup hash =>
        if (c.known.lookup hash).isSome then .ok r.pending
        else .error (.notFound "unknown to the script")
      | .receipt hash => .ok ⟨r.hash.getD hash, r.status⟩
      | .send _ => .ok ()

/-- The chain once a call has returned under a rule: a transaction sent without an error is in. -/
def commit (c : ScriptedChain) (r : Rule) : Call → ScriptedChain
  | .send tx =>
    if r.error.isSome then c
    else { c.learn tx with market := c.market.map fun m => m.broadcast tx }
  | _ => c

end ScriptedChain

end GasEscalator.Scenario
