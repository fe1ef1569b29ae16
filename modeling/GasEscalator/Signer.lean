import GasEscalator.Failure
import GasEscalator.Moment

/-!
# Signers

A signer turns a transaction into a signed one for a chain, or refuses. Whether it does may depend
on the time, as for a device that is sometimes out of reach.
-/
namespace GasEscalator

abbrev Signer := Moment → UnsignedTx → (chainId : UInt64) → Except SignerError SignedTx

/-- The signer whose signature is the digest of the sender, the chain's number, the nonce and the
gas price, all most significant byte first. -/
def Signer.digest (sender : Address) : Signer := fun _ tx chainId =>
  let preimage := sender.toList ++ bigEndian 8 chainId.toNat ++ bigEndian 8 tx.nonce.toNat ++
    bigEndian 16 tx.gasPrice.val
  .ok { chainId, payload := tx, signature := (keccak256 preimage).toList }

end GasEscalator
