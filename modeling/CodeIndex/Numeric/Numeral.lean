import CodeIndex.Numeric.Power

/-! Numerals as they are given in arguments and variables. -/

namespace CodeIndex.Numeric

/-- The number that decimal digits stand for. -/
def digitsValue (ds : List Char) : Nat := ds.foldl (fun n c => n * 10 + (c.toNat - 48)) 0

/-- A whole number below `2 ^ bits`, in decimal digits with an optional plus in front. -/
def readWord? (bits : Nat) (text : String) : Option Nat :=
  let ds := match text.toList with
    | '+' :: rest => rest
    | cs => cs
  if ds.isEmpty || !ds.all Char.isDigit then none
  else if digitsValue ds < twoTo bits then some (digitsValue ds) else none

/-- The quotient rounded to the nearest whole number, a half to the even neighbour. -/
def roundedQuotient (num den : Nat) : Nat :=
  let q := num / den
  match compare (2 * (num % den)) den with
  | .lt => q
  | .gt => q + 1
  | .eq => if q % 2 = 0 then q else q + 1

/-- The bits of the single-precision number nearest to `num / den`, a half going to the even one.
The exponent is that of the last binary place, which is never below the last place of the smallest
number; a carry out of the mantissa runs into the exponent. -/
def singleBits (num den : Nat) : Nat :=
  let shift : Int := (Nat.log2 num : Int) - Nat.log2 den
  let whole (e : Int) : Nat := num * twoTo (-e).toNat / (den * twoTo e.toNat)
  let e := shift - 23
  let e := if whole e < 0x800000 then e - 1 else e
  let e := max e (-149)
  let mantissa := roundedQuotient (num * twoTo (-e).toNat) (den * twoTo e.toNat)
  min (mantissa + (e + 149).toNat * 0x800000) 0x7F800000

/-- The single-precision number nearest to `digits * 10 ^ exponent`. -/
def nearestSingle (digits : Nat) (exponent : Int) : Float32 :=
  let places : Int := (Nat.toDigits 10 digits).length + exponent
  let bits :=
    if digits = 0 ∨ places < -60 then 0
    else if 60 < places then 0x7F800000
    else singleBits (digits * tenTo exponent.toNat) (tenTo (-exponent).toNat)
  Float32.ofBits (UInt32.ofNat bits)

def signAndRest : List Char → Bool × List Char
  | '-' :: rest => (true, rest)
  | '+' :: rest => (false, rest)
  | cs => (false, cs)

def exponent? (cs : List Char) : Option Int :=
  let (negative, ds) := signAndRest cs
  if ds.isEmpty || !ds.all Char.isDigit then none
  else some (if negative then -(digitsValue ds : Int) else digitsValue ds)

/-- The size of a single-precision number: an infinity, no number, or digits with at most one point
and at most one exponent. -/
def singleSize? (cs : List Char) : Option Float32 :=
  let word := cs.map Char.toLower
  if word = "inf".toList ∨ word = "infinity".toList then some (Float32.ofBits 0x7F800000)
  else if word = "nan".toList then some (Float32.ofBits 0x7FC00000)
  else do
    let isMark (c : Char) : Bool := c == 'e' || c == 'E'
    let mantissa := cs.takeWhile fun c => !isMark c
    let exponent ← match cs.dropWhile fun c => !isMark c with
      | [] => some 0
      | _ :: es => exponent? es
    let whole := mantissa.takeWhile Char.isDigit
    let fraction ← match mantissa.dropWhile Char.isDigit with
      | [] => some []
      | '.' :: fs => if fs.all Char.isDigit then some fs else none
      | _ => none
    let digits := whole ++ fraction
    if digits.isEmpty then none
    else some (nearestSingle (digitsValue digits) (exponent - fraction.length))

def readSingle? (text : String) : Option Float32 :=
  let (negative, cs) := signAndRest text.toList
  (singleSize? cs).map fun x => if negative then -x else x

end CodeIndex.Numeric
