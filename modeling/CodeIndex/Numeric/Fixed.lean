import CodeIndex.Numeric.Shortest

/-! Decimals with a fixed number of places, rounded from the exact value of a double. -/

namespace CodeIndex.Numeric

/-- The whole number nearest to the value over `10 ^ e`; a half goes to the even neighbour. -/
def Binary64.nearest (b : Binary64) (e : Int) : Nat :=
  match b.scaled e with
  | (n, .lt) => n
  | (n, .gt) => n + 1
  | (n, .eq) => if n % 2 = 0 then n else n + 1

/-- The number `n` over `10 ^ places`, written with all its places. -/
def placesText (places n : Nat) : List Char :=
  let digits := Nat.toDigits 10 n
  let digits := List.replicate (places + 1 - digits.length) '0' ++ digits
  let whole := digits.length - places
  digits.take whole ++ (if places = 0 then [] else '.' :: digits.drop whole)

/-- A double with a fixed number of places; the sign is kept, also that of a zero. -/
def fixedText (places : Nat) (x : Float) : String :=
  match Binary64.ofFloat? x with
  | some b =>
    String.ofList ((if b.negative then ['-'] else [])
      ++ placesText places (b.nearest (-(places : Int))))
  | none => if x.isNaN then "NaN" else if x < 0 then "-inf" else "inf"

end CodeIndex.Numeric
