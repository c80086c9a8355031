import CodeIndex.Numeric.Numeral

/-! Numerals of whole numbers are read as the numbers that they are written for. -/

namespace CodeIndex.Numeric

theorem digitsValue_eq_ofDigitChars (ds : List Char) :
    digitsValue ds = Nat.ofDigitChars 10 ds 0 := by
  have hstep : (fun (n : Nat) (c : Char) => n * 10 + (c.toNat - 48)) =
      fun n c => 10 * n + (c.toNat - '0'.toNat) := by
    funext n c
    rw [Nat.mul_comm]
    rfl
  rw [digitsValue, hstep]
  rfl

theorem digitsValue_toDigits (n : Nat) : digitsValue (Nat.toDigits 10 n) = n := by
  rw [digitsValue_eq_ofDigitChars, Nat.ofDigitChars_toDigits (by decide) (by decide)]

theorem isDigit_of_mem_toDigits {n : Nat} {c : Char} (h : c ∈ Nat.toDigits 10 n) :
    c.isDigit = true :=
  Nat.isDigit_of_mem_toDigits (by decide) (by decide) h

theorem readWord?_toString {bits n : Nat} (h : n < twoTo bits) :
    readWord? bits (toString n) = some n := by
  have hlist : (toString n).toList = Nat.toDigits 10 n := Nat.toList_repr
  have hdigits : (Nat.toDigits 10 n).all Char.isDigit = true :=
    List.all_eq_true.2 fun _ => isDigit_of_mem_toDigits
  rw [readWord?, hlist]
  cases hsplit : Nat.toDigits 10 n with
  | nil => exact absurd hsplit Nat.toDigits_ne_nil
  | cons c rest =>
    have hplus : c ≠ '+' := by
      rintro rfl
      have := isDigit_of_mem_toDigits (hsplit ▸ List.mem_cons_self : '+' ∈ Nat.toDigits 10 n)
      exact absurd this (by decide)
    rw [hsplit] at hdigits
    have hvalue : digitsValue (c :: rest) = n := hsplit ▸ digitsValue_toDigits n
    split
    next heq => exact absurd (List.cons.inj heq).1 hplus
    next => simp [hdigits, hvalue, h]

theorem lt_of_readWord? {bits n : Nat} {text : String} (h : readWord? bits text = some n) :
    n < twoTo bits := by
  simp only [readWord?, Option.ite_none_left_eq_some, Option.ite_none_right_eq_some] at h
  obtain ⟨-, hlt, hvalue⟩ := h
  exact Option.some.inj hvalue ▸ hlt

end CodeIndex.Numeric
