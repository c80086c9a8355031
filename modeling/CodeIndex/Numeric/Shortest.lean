import CodeIndex.Numeric.Binary64
import CodeIndex.Numeric.Power

/-! The shortest decimal that reads back to a double: of the decimals with the fewest digits inside
the interval of reals that round to the double, the one nearest to it. -/

namespace CodeIndex.Numeric

/-- The decimal `digits * 10 ^ exponent`, without trailing zeros among its digits. -/
structure Decimal where
  digits : Nat
  exponent : Int
  deriving DecidableEq, Repr

/-- The digits of a decimal, most significant first. -/
def Decimal.text (d : Decimal) : List Char := Nat.toDigits 10 d.digits

/-- `a / b ≤ c / d` with positive denominators, strictly unless `closed`. -/
def ratioWithin (closed : Bool) (a b c d : Nat) : Bool :=
  if closed then a * d ≤ c * b else a * d < c * b

/-- The decimal `n * 10 ^ e` rounds to the double: it lies between the midpoints to the neighbours,
which belong to it when the mantissa is even. -/
def Binary64.roundsFrom (b : Binary64) (n : Nat) (e : Int) : Bool :=
  -- All values are scaled by 4, so that the midpoints are whole multiples of the unit.
  let low := if b.narrowBelow then 4 * b.mantissa - 1 else 4 * b.mantissa - 2
  let high := 4 * b.mantissa + 2
  let closed := b.mantissa % 2 = 0
  let binary := twoTo b.exponent.toNat
  let binaryDen := twoTo (-b.exponent).toNat
  let decimal := tenTo e.toNat
  let decimalDen := tenTo (-e).toNat
  ratioWithin closed (low * binary) binaryDen (4 * n * decimal) decimalDen
    && ratioWithin closed (4 * n * decimal) decimalDen (high * binary) binaryDen

/-- The whole part of the value over `10 ^ e`, and whether the rest is under a half, a half, or
over. -/
def Binary64.scaled (b : Binary64) (e : Int) : Nat × Ordering :=
  let num := b.mantissa * twoTo b.exponent.toNat * tenTo (-e).toNat
  let den := twoTo (-b.exponent).toNat * tenTo e.toNat
  (num / den, compare (2 * (num % den)) den)

/-- The nearest decimal to the value on the grid of step `10 ^ e` that rounds to it, if one of the
two neighbours does. -/
def Binary64.onGrid? (b : Binary64) (e : Int) : Option Nat :=
  let (below, rest) := b.scaled e
  let lower := b.roundsFrom below e
  let upper := b.roundsFrom (below + 1) e
  match lower, upper with
  | true, true =>
    some (match rest with
      | .lt => below
      | .gt => below + 1
      | .eq => if below % 2 = 0 then below else below + 1)
  | true, false => some below
  | false, true => some (below + 1)
  | false, false => none

/-- The exponent of ten of the leading digit, for a value that is not zero. -/
def Binary64.magnitude (b : Binary64) : Int :=
  let num := b.mantissa * twoTo b.exponent.toNat
  let den := twoTo (-b.exponent).toNat
  if den ≤ num then ((Nat.toDigits 10 (num / den)).length : Int) - 1
  else -((Nat.toDigits 10 ((den - 1) / num)).length : Int)

/-- Tries coarser grids first, `steps` of them. -/
def Binary64.searchGrid (b : Binary64) : Nat → Int → Decimal
  | 0, e => ⟨(b.scaled e).1, e⟩
  | steps + 1, e =>
    match b.onGrid? e with
    | some n => if n = 0 then b.searchGrid steps (e - 1) else ⟨n, e⟩
    | none => b.searchGrid steps (e - 1)

/-- Drops trailing zeros from the digits, at most `steps` of them. -/
def Decimal.dropZeros (d : Decimal) : Nat → Decimal
  | 0 => d
  | steps + 1 =>
    if d.digits ≠ 0 ∧ d.digits % 10 = 0 then
      Decimal.dropZeros ⟨d.digits / 10, d.exponent + 1⟩ steps
    else d

/-- The shortest decimal of a finite double, its sign left out. -/
def Binary64.shortest (b : Binary64) : Decimal :=
  if b.mantissa = 0 then ⟨0, 0⟩
  else (b.searchGrid 20 (b.magnitude + 1)).dropZeros 20

end CodeIndex.Numeric
