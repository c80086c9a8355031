import CodeIndex.Numeric.Power

/-! Places in a text, as messages name them. -/

namespace CodeIndex.Syntax

/-- A line, and the number of the byte in it; both count from 1. -/
structure Position where
  line : Nat
  column : Nat
  deriving DecidableEq, Repr

/-- The place of an offset; the column counts the bytes from the last line feed. -/
def Position.of (text : List Char) (offset : Nat) : Position :=
  let before := text.take offset
  let line := before.reverse.takeWhile (· != '\n')
  ⟨before.count '\n' + 1, Numeric.total Char.utf8Size line + 1⟩

end CodeIndex.Syntax
