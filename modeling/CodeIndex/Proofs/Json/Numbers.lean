import CodeIndex.Proofs.Json.Reading
import CodeIndex.Proofs.Numeric.Numeral

/-! Numbers: the reader takes exactly their numerals, and whole numbers are written as numerals of
their own. -/

namespace CodeIndex.Json

open Numeric

/-! ### What may follow -/

def isMark (c : Char) : Bool := c == 'e' || c == 'E'

theorem Digits.exists_cons {text : List Char} (h : Digits text) :
    ∃ c tail, text = c :: tail ∧ c.isDigit = true := by
  cases text with
  | nil => exact absurd rfl h.nonempty
  | cons c tail => exact ⟨c, tail, rfl, h.isDigit c List.mem_cons_self⟩

theorem PartsText.exists_cons {text : List Char} {p : Parts} (h : PartsText text p) :
    ∃ c tail, text = c :: tail ∧ c.isDigit = true := by
  obtain ⟨hw, hf, he⟩ := h
  obtain ⟨c, tail, rfl, hdigit⟩ := hw.toDigits.exists_cons
  exact ⟨c, _, rfl, hdigit⟩

/-- The number that is read for an integer.  Beyond 64 bits it is a double, and beyond the doubles
there is none. -/
def integer? (n : Int) : Option Number :=
  Parts.number? (n < 0) ⟨Nat.toDigits 10 n.natAbs, none, none⟩

end CodeIndex.Json
