import CodeIndex.Proofs.Json.Members

/-! When decoders succeed: a text, a count and a signed number each come from one value, and a field
of a record from the value that its name or its place leads to. -/

namespace CodeIndex.Json

theorem bind_eq_ok_iff {ε α β : Type} {x : Except ε α} {f : α → Except ε β} {b : β} :
    x >>= f = .ok b ↔ ∃ a, x = .ok a ∧ f a = .ok b := by
  cases x with
  | error e => simp [bind, Except.bind]
  | ok a => simp [bind, Except.bind]

theorem pure_eq_ok_iff {ε α : Type} {a b : α} : (pure a : Except ε α) = .ok b ↔ a = b :=
  ⟨Except.ok.inj, congrArg _⟩

theorem decodeText_eq_ok_iff {v : Value} {s : String} : decodeText v = .ok s ↔ v = .string s := by
  constructor
  · intro h
    cases v <;> cases h
    rfl
  · rintro rfl
    rfl

theorem decodeUnsigned_eq_ok_iff {expected : Expected} {v : Value} {n : UInt64} :
    decodeUnsigned expected v = .ok n ↔ v = .nat n.toNat := by
  constructor
  · intro h
    cases v with
    | number k =>
      cases k with
      | whole k =>
        rw [decodeUnsigned] at h
        split at h
        · next hk =>
          cases h
          have hvalue : (UInt64.ofNat k.toNat).toNat = k.toNat :=
            UInt64.toNat_ofNat_of_lt' (by show k.toNat < 18446744073709551616; omega)
          rw [Value.nat, hvalue, Int.toNat_of_nonneg hk.1]
        · cases h
      | double x => cases h
    | null | bool | string | array | object => cases h
  · rintro rfl
    have hn := n.toNat_lt
    rw [Value.nat, decodeUnsigned, if_pos ⟨by omega, by omega⟩, Int.toNat_natCast,
      UInt64.ofNat_toNat]

theorem decodeSigned_eq_ok_iff {v : Value} {n : Int64} :
    decodeSigned v = .ok n ↔ v = .int n.toInt := by
  constructor
  · intro h
    cases v with
    | number k =>
      cases k with
      | whole k =>
        rw [decodeSigned] at h
        split at h
        · next hk =>
          cases h
          rw [Value.int, Int64.toInt_ofInt_of_le (by omega) (by omega)]
        · cases h
      | double x => cases h
    | null | bool | string | array | object => cases h
  · rintro rfl
    have hlow := n.le_toInt
    have hhigh := n.toInt_lt
    rw [Value.int, decodeSigned, if_pos ⟨by omega, by omega⟩, Int64.ofInt_toInt]

section

variable {α : Type} {decode : Decoder α} {a : α}

theorem member?_eq_ok_some_iff {v : Value} {name : String} :
    member? v name decode = .ok (some a) ↔ ∃ w, v.get? name = some w ∧ decode w = .ok a := by
  rw [member?]
  cases v.get? name with
  | none => simp
  | some w =>
    cases hw : decode w <;> simp [hw, Functor.map, Except.map]

theorem required_eq_ok_iff {name : String} {found : Option α} :
    required name found = .ok a ↔ found = some a := by
  cases found <;> simp [required]

theorem item_eq_ok_iff {items : List Value} {place : Nat} {name : String} {fields : Nat} :
    item items place name fields decode = .ok a ↔
      ∃ w, items[place]? = some w ∧ decode w = .ok a := by
  rw [item]
  cases items[place]? <;> simp

end

section

variable {v : Value} {items : List Value} {name : String} {place fields : Nat}
  {expected : Expected} {s : String} {n : UInt64} {k : Int64}

theorem member?_text_iff :
    member? v name decodeText = .ok (some s) ↔ v.get? name = some (.string s) := by
  simp only [member?_eq_ok_some_iff, decodeText_eq_ok_iff, exists_eq_right]

theorem member?_unsigned_iff :
    member? v name (decodeUnsigned expected) = .ok (some n) ↔
      v.get? name = some (.nat n.toNat) := by
  simp only [member?_eq_ok_some_iff, decodeUnsigned_eq_ok_iff, exists_eq_right]

theorem member?_signed_iff :
    member? v name decodeSigned = .ok (some k) ↔ v.get? name = some (.int k.toInt) := by
  simp only [member?_eq_ok_some_iff, decodeSigned_eq_ok_iff, exists_eq_right]

theorem item_text_iff :
    item items place name fields decodeText = .ok s ↔ items[place]? = some (.string s) := by
  simp only [item_eq_ok_iff, decodeText_eq_ok_iff, exists_eq_right]

theorem item_unsigned_iff :
    item items place name fields (decodeUnsigned expected) = .ok n ↔
      items[place]? = some (.nat n.toNat) := by
  simp only [item_eq_ok_iff, decodeUnsigned_eq_ok_iff, exists_eq_right]

theorem item_signed_iff :
    item items place name fields decodeSigned = .ok k ↔ items[place]? = some (.int k.toInt) := by
  simp only [item_eq_ok_iff, decodeSigned_eq_ok_iff, exists_eq_right]

end

theorem noMore_eq_ok_iff {items : List Value} {fields : Nat} :
    noMore items fields = .ok () ↔ items.length ≤ fields := by
  rw [noMore]
  split <;> simp_all

end CodeIndex.Json
