/-! Double-precision numbers taken apart: a finite double is `mantissa * 2 ^ exponent` with
a sign. -/

namespace CodeIndex.Numeric

/-- The parts of a finite double. -/
structure Binary64 where
  negative : Bool
  mantissa : Nat
  exponent : Int
  deriving DecidableEq, Repr

/-- The bit in front of the 52 bits of the fraction. -/
def leadingBit : Nat := 0x10000000000000

/-- The parts of a double, or nothing for an infinity or a value that is no number. -/
def Binary64.ofFloat? (x : Float) : Option Binary64 :=
  let bits : Nat := x.toBits.toNat
  let negative := bits / 0x8000000000000000 == 1
  let biased : Nat := bits / leadingBit % 0x800
  let fraction : Nat := bits % leadingBit
  if biased = 2047 then none
  else if biased = 0 then some ⟨negative, fraction, -1074⟩
  else some ⟨negative, fraction + leadingBit, (biased : Int) - 1075⟩

/-- The lower neighbour of the value on the binary grid is only half as far away as the upper
one. -/
def Binary64.narrowBelow (b : Binary64) : Bool := b.mantissa = leadingBit && b.exponent > -1074

end CodeIndex.Numeric
