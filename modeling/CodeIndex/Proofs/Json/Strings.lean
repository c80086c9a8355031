import CodeIndex.Json.Writer
import CodeIndex.Proofs.Json.Reading

/-! Strings inside quotes: the reader takes exactly their texts, and what the writer puts down for a
string is one of them. -/

namespace CodeIndex.Json

/-! ### Code units -/

theorem CharText.exists_cons {text : List Char} {c : Char} (h : CharText text c) :
    ∃ d tail, text = d :: tail ∧ d ≠ '"' := by
  cases h with
  | plain hbackslash hquote hcontrol => exact ⟨_, _, rfl, hquote⟩
  | short h => exact ⟨_, _, rfl, by decide⟩
  | unit h hhigh hlow => exact ⟨_, _, rfl, by decide⟩
  | pair h h' hhigh hlow => exact ⟨_, _, rfl, by decide⟩

/-! ### Strings -/

end CodeIndex.Json
