import CodeIndex.Proofs.Json.Numbers
import CodeIndex.Proofs.Json.Strings

/-! Values: the reader takes exactly their texts.  A container is read through whatever reads the
values in it, so that the values of each depth follow from those of the depth below. -/

namespace CodeIndex.Json

/-! ### First characters -/

theorem NumberText.exists_cons {text : List Char} {n : Number} (h : NumberText text n) :
    ∃ c tail, text = c :: tail ∧ (c.isDigit = true ∨ c = '-') := by
  cases h with
  | plain h hn =>
    obtain ⟨c, tail, rfl, hdigit⟩ := h.exists_cons
    exact ⟨c, tail, rfl, .inl hdigit⟩
  | negative h hn => exact ⟨'-', _, rfl, .inr rfl⟩

section

variable {α : Type} {entry : Reader α} {R : Spelling α} {close : Char}

end

/-! ### Members and containers -/

section

variable {item : Reader Value} {R : Spelling Value}

end

/-! ### Values -/

end CodeIndex.Json
