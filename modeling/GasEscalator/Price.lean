import GasEscalator.Binary64

/-!
# Gas prices

A gas price is an unsigned 128-bit integer. It is raised by a factor in binary floating point, so
that a fractional factor keeps its magnitude: the price is rounded to the nearest number, the
product is rounded once more, and its integer part is the new price, at most the highest there is.
-/
namespace GasEscalator

/-- How many prices there are: one for each pattern of 128 bits. -/
abbrev priceCount : Nat := 0x100000000000000000000000000000000

/-- A gas price in the chain's smallest unit. -/
abbrev Price := Fin priceCount

namespace Price

def highest : Price := ⟨priceCount - 1, by decide⟩

def ofNat? (n : Nat) : Option Price := if h : n < priceCount then some ⟨n, h⟩ else none

/-- The price nearest to `n`: `n` itself, or the highest price when `n` is above it. -/
def saturating (n : Nat) : Price := ⟨min n highest.val, by simp only [highest, priceCount]; omega⟩

def scale (price : Price) (factor : Binary64) : Price :=
  saturating ((Binary64.ofNat price.val * factor).truncate highest.val)

end Price

end GasEscalator
