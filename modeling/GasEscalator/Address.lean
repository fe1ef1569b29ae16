import GasEscalator.Keccak

/-!
# Account addresses

An address is twenty bytes. Its text is forty hexadecimal digits behind an optional `0x`, read in
any case. It is written in lowercase or in the mixed case that encodes a checksum: a letter is
uppercase when the digit of the digest of the lowercase text at the same place is eight or more.
-/
namespace GasEscalator

abbrev Address := Bytes 20

namespace Address

/-- The address that is zero throughout; it stands for an unknown sender. -/
def zero : Address := Bytes.zero 20

/-- Reads an address; the case of the letters is not checked against the checksum. -/
def ofText? (text : String) : Option Address := do
  Bytes.ofList? 20 (← ofHexDigits? (dropHexMark text.toList))

def lowercaseText (a : Address) : String :=
  String.ofList ('0' :: 'x' :: hexDigits a.toList)

/-- The half-bytes of a byte string, in the order of its hexadecimal digits. -/
def nibbles (bytes : List UInt8) : List Nat :=
  bytes.flatMap fun b => [b.toNat / 16, b.toNat % 16]

/-- The digits of an address, with the letters raised where the checksum asks for it. -/
def checksumDigits (a : Address) : List Char :=
  let digits := hexDigits a.toList
  let digest := keccak256 (digits.map fun c => UInt8.ofNat c.toNat)
  List.zipWith (fun c n => if 8 ≤ n then c.toUpper else c) digits (nibbles digest.toList)

def checksumText (a : Address) : String :=
  String.ofList ('0' :: 'x' :: checksumDigits a)

end Address

end GasEscalator
