import GasEscalator.Address
import GasEscalator.Price

/-!
# Transactions

What a sender asks a chain to carry out, before and after it is signed.
-/
namespace GasEscalator

structure UnsignedTx where
  nonce : UInt64
  gasPrice : Price
  gasLimit : UInt64
  /-- The recipient; none creates a contract. -/
  recipient : Option Address
  /-- The amount sent, most significant byte first. -/
  value : Bytes 32
  data : List UInt8
deriving DecidableEq

/-- A transaction signed for one chain. -/
structure SignedTx where
  chainId : UInt64
  payload : UnsignedTx
  signature : List UInt8
deriving DecidableEq

def UnsignedTx.withGasPrice (tx : UnsignedTx) (price : Price) : UnsignedTx :=
  { tx with gasPrice := price }

def UnsignedTx.amount (tx : UnsignedTx) : Nat := ofBigEndian tx.value.toList

def SignedTx.withGasPrice (tx : SignedTx) (price : Price) : SignedTx :=
  { tx with payload := tx.payload.withGasPrice price }

def SignedTx.nonce (tx : SignedTx) : UInt64 := tx.payload.nonce

def SignedTx.gasPrice (tx : SignedTx) : Price := tx.payload.gasPrice

end GasEscalator
