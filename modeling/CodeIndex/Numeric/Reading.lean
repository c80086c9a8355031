/-! Decimal numerals read into doubles by one scaling step: the digits, as far as they fit into 64
bits, times or over a power of ten.  Numerals of up to fifteen digits with small exponents come out
correctly rounded; longer ones may be off by a last place or two. -/

namespace CodeIndex.Numeric

/-- `10 ^ k` as a double. -/
def powerOfTen (k : Nat) : Float := Float.ofScientific 1 false k

/-- `digits * 10 ^ exponent`, or nothing when it is too large for a double. -/
def scaleDecimal (digits : Nat) (exponent : Int) : Option Float :=
  let x := Float.ofNat digits
  if 0 ≤ exponent then
    if exponent ≤ 308 then
      let y := x * powerOfTen exponent.toNat
      if y.isInf then none else some y
    else if digits = 0 then some 0 else none
  else shrink x (-exponent).toNat 4
where
  /-- Divides by `10 ^ k`, a power that a double holds at a time. -/
  shrink (x : Float) (k : Nat) : Nat → Option Float
    | 0 => some 0
    | steps + 1 =>
      if k ≤ 308 then some (x / powerOfTen k)
      else if x == 0 then some x
      else shrink (x / powerOfTen 308) (k - 308) steps

end CodeIndex.Numeric
