import GasEscalator.Bytes

/-!
# The Keccak-256 digest

The sponge over twenty-five 64-bit lanes with a rate of 136 bytes and the padding that starts with
the byte 1. Lane `(x, y)` of the state stands at index `5 * y + x`.
-/
namespace GasEscalator

abbrev Hash := Bytes 32

namespace Keccak

abbrev State := Vector UInt64 25

/-- The lane at column `x` and row `y`, both taken modulo five. -/
def lane (s : State) (x y : Nat) : UInt64 :=
  s.get ⟨5 * (y % 5) + x % 5, by omega⟩

/-- The state whose lane `(x, y)` is `f x y`. -/
def State.tabulate (f : Nat → Nat → UInt64) : State :=
  Vector.ofFn fun i => f (i.val % 5) (i.val / 5)

/-- Rotation to the left; a distance of zero leaves the word alone. -/
def rotateLeft (w : UInt64) (distance : UInt64) : UInt64 :=
  (w <<< distance) ||| (w >>> ((64 - distance) % 64))

/-- How far the lane at index `5 * y + x` is rotated. -/
def rotations : Vector UInt64 25 :=
  #v[0, 1, 62, 28, 27, 36, 44, 6, 55, 20, 3, 10, 43, 25, 39, 41, 45, 15, 21, 8, 18, 2, 61, 56, 14]

/-- The constants that break the symmetry of the rounds. -/
def roundConstants : List UInt64 :=
  [0x0000000000000001, 0x0000000000008082, 0x800000000000808a, 0x8000000080008000,
   0x000000000000808b, 0x0000000080000001, 0x8000000080008081, 0x8000000000008009,
   0x000000000000008a, 0x0000000000000088, 0x0000000080008009, 0x000000008000000a,
   0x000000008000808b, 0x800000000000008b, 0x8000000000008089, 0x8000000000008003,
   0x8000000000008002, 0x8000000000000080, 0x000000000000800a, 0x800000008000000a,
   0x8000000080008081, 0x8000000000008080, 0x0000000080000001, 0x8000000080008008]

/-- Adds to each lane the parities of two neighbouring columns. -/
def theta (s : State) : State :=
  let parity : Vector UInt64 5 := Vector.ofFn fun x =>
    lane s x 0 ^^^ lane s x 1 ^^^ lane s x 2 ^^^ lane s x 3 ^^^ lane s x 4
  let column (x : Nat) : UInt64 := parity.get ⟨x % 5, by omega⟩
  let effect : Vector UInt64 5 := Vector.ofFn fun x =>
    column (x + 4) ^^^ rotateLeft (column (x + 1)) 1
  .tabulate fun x y => lane s x y ^^^ effect.get ⟨x % 5, by omega⟩

/-- Rotates each lane by its own distance and moves it to its new place. -/
def rhoPi (s : State) : State :=
  .tabulate fun x y => rotateLeft (lane s (x + 3 * y) x) (lane rotations (x + 3 * y) x)

def chi (s : State) : State :=
  .tabulate fun x y => lane s x y ^^^ (~~~(lane s (x + 1) y) &&& lane s (x + 2) y)

def iota (s : State) (constant : UInt64) : State :=
  s.set 0 (s[0] ^^^ constant)

def round (s : State) (constant : UInt64) : State :=
  iota (chi (rhoPi (theta s))) constant

def permute (s : State) : State := roundConstants.foldl round s

/-- How many bytes one permutation takes in. -/
def rate : Nat := 136

/-- Adds a block of `rate` bytes to the state, eight bytes a lane. -/
def addBlock (s : State) (block : List UInt8) : State :=
  Vector.ofFn fun i =>
    s[i] ^^^ UInt64.ofNat (ofLittleEndian ((block.drop (8 * i.val)).take 8))

/-- The message and the padding that brings it to a multiple of `rate`: the byte 1, zeros, and
128 added to the last byte. -/
def pad (message : List UInt8) : List UInt8 :=
  match rate - message.length % rate with
  | 0 => message
  | 1 => message ++ [0x81]
  | n + 2 => message ++ 0x01 :: (List.replicate n 0 ++ [0x80])

/-- Takes in `n` blocks, permuting after each. -/
def absorb : (n : Nat) → List UInt8 → State → State
  | 0, _, s => s
  | n + 1, padded, s => absorb n (padded.drop rate) (permute (addBlock s (padded.take rate)))

/-- The first four lanes, as bytes. -/
def squeeze (s : State) : Hash where
  toList := littleEndian 8 s[0].toNat ++ littleEndian 8 s[1].toNat ++
    littleEndian 8 s[2].toNat ++ littleEndian 8 s[3].toNat
  length_toList := by simp

end Keccak

def keccak256 (message : List UInt8) : Hash :=
  let padded := Keccak.pad message
  Keccak.squeeze (Keccak.absorb (padded.length / Keccak.rate) padded (Vector.replicate 25 0))

end GasEscalator
