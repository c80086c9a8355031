import CodeIndex.Proofs.Json.Grammar
import Mathlib.Data.List.TakeWhile

/-! Readers that take exactly the texts of a spelling, and the white space in front of them. -/

namespace CodeIndex.Json

/-! ### Exact readers -/

/-- What the reader takes from the front is a text of the spelling; and each such text is taken, where
it stands in front of something that may follow. -/
structure Reads {α : Type} (reader : Reader α) (R : Spelling α) (Follows : List Char → Prop) :
    Prop where
  sound {cs rest : List Char} {a : α} (h : reader cs = some (a, rest)) :
    ∃ text, R text a ∧ cs = text ++ rest
  complete {text rest : List Char} {a : α} (h : R text a) (hrest : Follows rest) :
    reader (text ++ rest) = some (a, rest)

/-- A reader whose result is put into something else. -/
theorem Reads.map {α β : Type} {reader : Reader α} {R : Spelling α} {Follows : List Char → Prop}
    (h : Reads reader R Follows) (f : α → β) :
    Reads (fun cs => (reader cs).map fun p => (f p.1, p.2)) (fun text b => ∃ a, R text a ∧ f a = b)
      Follows where
  sound {cs rest b} hread := by
    obtain ⟨⟨a, tail⟩, ha, heq⟩ := Option.map_eq_some_iff.1 hread
    cases heq
    obtain ⟨text, htext, hcs⟩ := h.sound ha
    exact ⟨text, ⟨a, htext, rfl⟩, hcs⟩
  complete {text rest b} htext hrest := by
    obtain ⟨a, ha, rfl⟩ := htext
    exact Option.map_eq_some_iff.2 ⟨(a, rest), h.complete ha hrest, rfl⟩

end CodeIndex.Json
