import GasEscalator.Transaction

/-!
# The wire form of a signed transaction

Integers have a fixed width and are little-endian, an absent recipient is the byte 0 and a present
one follows the byte 1, the amount stands as its 32 bytes, and each byte string follows its length
in four bytes. Reading takes the fields in that order, stops at the first fault and accepts no byte
behind the last field. The digest of the wire form identifies the transaction.
-/
namespace GasEscalator

inductive DecodeError
  /-- The bytes end within a field. -/
  | unexpectedEnd
  /-- Bytes are left behind the last field. -/
  | trailingBytes
  /-- The byte that says whether a recipient follows is neither 0 nor 1. -/
  | badRecipientTag (tag : UInt8)
deriving DecidableEq

def DecodeError.reason : DecodeError → String
  | .unexpectedEnd => "Unexpected length of input"
  | .trailingBytes => "Not all bytes read"
  | .badRecipientTag tag =>
    "Invalid Option representation: " ++ toString tag.toNat ++ ". The first byte must be 0 or 1"

/-- The whole message for a stored transaction that cannot be read. -/
def DecodeError.message (e : DecodeError) : String := "malformed internal tx object: " ++ e.reason

namespace Wire

/-! ## Writing -/

def ofUInt64 (n : UInt64) : List UInt8 := littleEndian 8 n.toNat

def ofPrice (p : Price) : List UInt8 := littleEndian 16 p.val

def ofRecipient : Option Address → List UInt8
  | none => [0]
  | some a => 1 :: a.toList

/-- A byte string behind its length; the length is exact below `2 ^ 32` bytes. -/
def ofByteString (bytes : List UInt8) : List UInt8 := littleEndian 4 bytes.length ++ bytes

/-! ## Reading -/

/-- A reader takes bytes from the front of what is left. -/
abbrev Reader := StateT (List UInt8) (Except DecodeError)

/-- Takes exactly `n` bytes. -/
def take (n : Nat) : Reader (Bytes n) := fun left =>
  if h : n ≤ left.length then
    .ok (⟨left.take n, List.length_take_of_le h⟩, left.drop n)
  else .error .unexpectedEnd

def takeNat (width : Nat) : Reader Nat := do
  return ofLittleEndian (← take width).toList

def takeUInt64 : Reader UInt64 := do
  return UInt64.ofNat (← takeNat 8)

def takePrice : Reader Price := do
  return Fin.ofNat priceCount (← takeNat 16)

/-- Takes the tag of the recipient, and the recipient behind the tag 1. -/
def takeRecipient : Reader (Option Address) := do
  match (← takeNat 1) with
  | 0 => return none
  | 1 => return some (← take 20)
  | tag => throw (.badRecipientTag (UInt8.ofNat tag))

def takeByteString : Reader (List UInt8) := do
  return (← take (← takeNat 4)).toList

/-- Takes the fields before the signature and the chain's number. -/
def takeUnsigned : Reader UnsignedTx := do
  let nonce ← takeUInt64
  let gasPrice ← takePrice
  let gasLimit ← takeUInt64
  let recipient ← takeRecipient
  let value ← take 32
  let data ← takeByteString
  return { nonce, gasPrice, gasLimit, recipient, value, data }

def takeSigned : Reader SignedTx := do
  let chainId ← takeUInt64
  let payload ← takeUnsigned
  let signature ← takeByteString
  return { chainId, payload, signature }

end Wire

def UnsignedTx.encode (tx : UnsignedTx) : List UInt8 :=
  Wire.ofUInt64 tx.nonce ++ Wire.ofPrice tx.gasPrice ++ Wire.ofUInt64 tx.gasLimit ++
    Wire.ofRecipient tx.recipient ++ tx.value.toList ++ Wire.ofByteString tx.data

namespace SignedTx

def encode (tx : SignedTx) : List UInt8 :=
  Wire.ofUInt64 tx.chainId ++ tx.payload.encode ++ Wire.ofByteString tx.signature

/-- Reads a wire form that takes up all the bytes. -/
def decode (bytes : List UInt8) : Except DecodeError SignedTx := do
  let (tx, left) ← Wire.takeSigned bytes
  if left.isEmpty then return tx else throw .trailingBytes

def hash (tx : SignedTx) : Hash := keccak256 tx.encode

end SignedTx

end GasEscalator
