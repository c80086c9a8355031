import Mathlib

/-! Numbers of single precision.  But for NaN they are ordered by a key, so that neither-smaller is
an equivalence.  Natural numbers, sums of numbers without a minus sign and their reciprocals have no
minus sign and are not NaN. -/

namespace CodeIndex.Numeric

open Float.Model Float.Model.UnpackedFloat

/-! ### The order -/

/-- Numbers compare as their keys: by sign and size of the class, then by exponent and mantissa. -/
def orderKey : UnpackedFloat → ℤ ×ₗ ℤ ×ₗ ℤ
  | .infinity .negative => toLex (-2, toLex (0, 0))
  | .finite .negative m e _ => toLex (-1, toLex (-e, -m))
  | .notANumber => toLex (0, toLex (0, 0))
  | .zero _ => toLex (0, toLex (0, 0))
  | .finite .positive m e _ => toLex (1, toLex (e, m))
  | .infinity .positive => toLex (2, toLex (0, 0))

theorem toLex_lt_iff {a b c d e f : ℤ} :
    (toLex (a, toLex (b, c)) : ℤ ×ₗ ℤ ×ₗ ℤ) < toLex (d, toLex (e, f)) ↔
      a < d ∨ (a = d ∧ (b < e ∨ (b = e ∧ c < f))) := by
  simp only [Prod.Lex.toLex_lt_toLex]

theorem finite_lt_finite {s t : Sign} {m n : ℕ} {e f : ℤ} (hm : 0 < m) (hn : 0 < n) :
    (finite s m e hm).lt (finite t n f hn) = true ↔
      orderKey (finite s m e hm) < orderKey (finite t n f hn) := by
  rw [UnpackedFloat.lt, beq_iff_eq]
  cases s with
  | negative =>
    cases t with
    | negative =>
      simp only [UnpackedFloat.compare, orderKey, toLex_lt_iff, Option.some.injEq,
        Ordering.swap_eq_lt, Ordering.then_eq_gt, compare_gt_iff_gt, compare_eq_iff_eq,
        lt_irrefl, false_or, true_and]
      omega
    | positive => simp [UnpackedFloat.compare, orderKey, toLex_lt_iff]
  | positive =>
    cases t with
    | negative => simp [UnpackedFloat.compare, orderKey, toLex_lt_iff]
    | positive =>
      simp only [UnpackedFloat.compare, orderKey, toLex_lt_iff, Option.some.injEq,
        Ordering.then_eq_lt, compare_lt_iff_lt, compare_eq_iff_eq, lt_irrefl, false_or, true_and]
      omega

theorem lt_iff_orderKey_lt {a b : UnpackedFloat} (ha : a.isNaN = false) (hb : b.isNaN = false) :
    a.lt b = true ↔ orderKey a < orderKey b := by
  cases a with
  | notANumber => cases ha
  | finite s m e hm =>
    cases b with
    | notANumber => cases hb
    | finite t n f hn => exact finite_lt_finite hm hn
    | infinity t =>
      cases s <;> cases t <;> simp [UnpackedFloat.lt, UnpackedFloat.compare, orderKey, toLex_lt_iff]
    | zero t => cases s <;> simp [UnpackedFloat.lt, UnpackedFloat.compare, orderKey, toLex_lt_iff]
  | infinity s =>
    cases b with
    | notANumber => cases hb
    | infinity t =>
      cases s <;> cases t <;> simp only [orderKey, toLex_lt_iff] <;> decide
    | finite t n f hn =>
      cases s <;> cases t <;> simp [UnpackedFloat.lt, UnpackedFloat.compare, orderKey, toLex_lt_iff]
    | zero t => cases s <;> simp [UnpackedFloat.lt, UnpackedFloat.compare, orderKey, toLex_lt_iff]
  | zero s =>
    cases b with
    | notANumber => cases hb
    | infinity t => cases t <;> simp [UnpackedFloat.lt, UnpackedFloat.compare, orderKey, toLex_lt_iff]
    | finite t n f hn =>
      cases t <;> simp [UnpackedFloat.lt, UnpackedFloat.compare, orderKey, toLex_lt_iff]
    | zero t => simp [UnpackedFloat.lt, UnpackedFloat.compare, orderKey]

theorem lt_iff_key {a b : Float32} (ha : a.isNaN = false) (hb : b.isNaN = false) :
    a < b ↔ orderKey a.toModel.unpack < orderKey b.toModel.unpack := by
  rw [← lt_iff_orderKey_lt ha hb]
  exact decide_eq_true_iff

/-! ### Signs -/

/-- A number without a minus sign, not NaN. -/
def Unsigned : UnpackedFloat → Prop
  | .infinity .positive => True
  | .zero .positive => True
  | .finite .positive _ _ _ => True
  | _ => False

variable {a b : UnpackedFloat} {spec : Format}

theorem Unsigned.isNaN (h : Unsigned a) : a.isNaN = false := by
  cases a with
  | notANumber => cases h
  | infinity s => rfl
  | zero s => rfl
  | finite s m e hm => rfl

theorem unsigned_roundWithAccuracy (m : ℕ) (e : ℤ) (accuracy : Accuracy) :
    Unsigned (roundWithAccuracy spec .positive m e accuracy) := by
  unfold roundWithAccuracy
  dsimp only
  split <;> trivial

theorem unsigned_normalize {n : ℤ} (h : 0 ≤ n) (e : ℤ) :
    Unsigned (UnpackedFloat.normalize spec n e .positive) := by
  unfold UnpackedFloat.normalize
  split
  · next hlt => exact absurd (compare_lt_iff_lt.1 hlt) (not_lt.2 h)
  · trivial
  · exact unsigned_roundWithAccuracy ..

theorem Unsigned.cases (h : Unsigned a) :
    a = .infinity .positive ∨ a = .zero .positive ∨ ∃ m e hm, a = .finite .positive m e hm := by
  cases a with
  | notANumber => cases h
  | infinity s =>
    cases s with
    | negative => cases h
    | positive => exact .inl rfl
  | zero s =>
    cases s with
    | negative => cases h
    | positive => exact .inr (.inl rfl)
  | finite s m e hm =>
    cases s with
    | negative => cases h
    | positive => exact .inr (.inr ⟨m, e, hm, rfl⟩)

theorem Unsigned.add (ha : Unsigned a) (hb : Unsigned b) : Unsigned (a.add spec b) := by
  rcases ha.cases with rfl | rfl | ⟨m, e, hm, rfl⟩ <;>
    rcases hb.cases with rfl | rfl | ⟨n, f, hn, rfl⟩
  case inr.inr.inr.inr =>
    refine unsigned_normalize (Int.add_nonneg ?_ ?_) _ <;> exact Int.natCast_nonneg _
  all_goals trivial

/-- The product with a finite number; zero times infinity would be NaN. -/
theorem Unsigned.mul_finite (ha : Unsigned a) {m : ℕ} {e : ℤ} (hm : 0 < m) :
    Unsigned (a.mul spec (.finite .positive m e hm)) := by
  rcases ha.cases with rfl | rfl | ⟨n, f, hn, rfl⟩
  · trivial
  · trivial
  · exact unsigned_roundWithAccuracy ..

theorem Unsigned.finite_div (hb : Unsigned b) {m : ℕ} {e : ℤ} (hm : 0 < m) :
    Unsigned (UnpackedFloat.div spec (.finite .positive m e hm) b) := by
  rcases hb.cases with rfl | rfl | ⟨n, f, hn, rfl⟩
  · trivial
  · trivial
  · exact unsigned_roundWithAccuracy ..

theorem unsigned_ofScientific (m : ℕ) : Unsigned (UnpackedFloat.ofScientific spec m 0) := by
  unfold UnpackedFloat.ofScientific
  split
  · trivial
  · split
    · trivial
    · split
      · trivial
      · split
        · exact Unsigned.mul_finite (a := .finite .positive _ _ _) trivial _
        · next h => exact absurd (le_refl 0) h

theorem unsigned_unpack_packComponents {exponent : BitVec 8} {mantissa : BitVec 23}
    (h : exponent = -1#8 → mantissa = 0#23) :
    Unsigned (unpack .binary32 (packComponents .binary32 .positive exponent mantissa)) := by
  unfold UnpackedFloat.unpack
  simp only [unpackMantissa_packComponents, unpackExponent_packComponents,
    unpackSign_packComponents, Sign.ofBitVec_toBitVec]
  split
  · next hexponent =>
    rw [if_pos (h hexponent)]
    trivial
  · split
    · split <;> trivial
    · trivial

/-- The exponent of all ones is that of what is not finite. -/
theorem ofNat_ne_ones {biased : ℕ} (h : biased < 255) : BitVec.ofNat 8 biased ≠ -1#8 := by
  intro hsame
  have hvalue := congrArg BitVec.toNat hsame
  simp at hvalue
  omega

theorem Unsigned.unpack_pack (ha : Unsigned a) :
    Unsigned (unpack .binary32 (pack .binary32 a)) := by
  rcases ha.cases with rfl | rfl | ⟨m, e, hm, rfl⟩
  · exact unsigned_unpack_packComponents fun _ => rfl
  · exact unsigned_unpack_packComponents fun _ => rfl
  · unfold UnpackedFloat.pack
    dsimp only
    split
    · exact unsigned_unpack_packComponents fun _ => rfl
    · next hfits =>
      have hsize : 2 ^ Format.exponentBits .binary32 = 256 := rfl
      split
      · exact unsigned_unpack_packComponents fun h => absurd h (ofNat_ne_ones (by omega))
      · exact unsigned_unpack_packComponents fun h => absurd h (by decide)

/-! ### Single precision -/

/-- A number of single precision without a minus sign, not NaN. -/
def IsUnsigned (x : Float32) : Prop := Unsigned x.toModel.unpack

variable {x y : Float32}

theorem IsUnsigned.isNaN (h : IsUnsigned x) : x.isNaN = false := Unsigned.isNaN h

theorem isUnsigned_pack (ha : Unsigned a) : IsUnsigned (.ofModel (.pack a)) := ha.unpack_pack

theorem IsUnsigned.add (hx : IsUnsigned x) (hy : IsUnsigned y) : IsUnsigned (x + y) :=
  isUnsigned_pack (Unsigned.add hx hy)

theorem unpack_one :
    (1 : Float32).toModel.unpack = .finite .positive 8388608 (-23) (by decide) := rfl

theorem IsUnsigned.mul_one (hx : IsUnsigned x) : IsUnsigned (x * 1) := by
  have hmul : (x * 1).toModel =
      .pack (.mul .binary32 x.toModel.unpack (1 : Float32).toModel.unpack) := rfl
  rw [IsUnsigned, hmul, unpack_one]
  exact isUnsigned_pack (Unsigned.mul_finite hx _)

theorem IsUnsigned.one_div (hx : IsUnsigned x) : IsUnsigned (1 / x) := by
  have hdiv : (1 / x).toModel =
      .pack (.div .binary32 (1 : Float32).toModel.unpack x.toModel.unpack) := rfl
  rw [IsUnsigned, hdiv, unpack_one]
  exact isUnsigned_pack (Unsigned.finite_div hx _)

theorem isUnsigned_toFloat32 (n : UInt64) : IsUnsigned n.toFloat32 :=
  isUnsigned_pack (unsigned_normalize (Int.natCast_nonneg _) _)

theorem isUnsigned_ofNat (n : ℕ) : IsUnsigned (Float32.ofNat n) := by
  have hofNat : Float32.ofNat n = Float32.ofScientific n false 0 := rfl
  have hone : Float32.exactlyRepresentablePowersOfTen[0] = 1 := by decide +kernel
  rw [hofNat, Float32.ofScientific]
  split
  · simp only [Bool.false_eq_true, if_false, hone]
    exact (isUnsigned_toFloat32 _).mul_one
  · exact isUnsigned_pack (unsigned_ofScientific n)

/-- What is at most zero is at most a number without a minus sign. -/
theorem Unsigned.le_of_le_zero (hb : Unsigned b) (ha : a.le (.zero .positive) = true) :
    a.le b = true := by
  cases a with
  | notANumber => cases ha
  | infinity s =>
    cases s with
    | positive => cases ha
    | negative => rcases hb.cases with rfl | rfl | ⟨n, f, hn, rfl⟩ <;> rfl
  | zero s => rcases hb.cases with rfl | rfl | ⟨n, f, hn, rfl⟩ <;> rfl
  | finite s m e hm =>
    cases s with
    | positive => cases ha
    | negative => rcases hb.cases with rfl | rfl | ⟨n, f, hn, rfl⟩ <;> rfl

theorem IsUnsigned.le_of_le_zero (hy : IsUnsigned y) (hx : x ≤ 0) : x ≤ y :=
  decide_eq_true (Unsigned.le_of_le_zero hy (of_decide_eq_true hx))

/-- NaN is neither smaller nor greater than any number. -/
theorem isNaN_of_lt (h : x < y) : x.isNaN = false ∧ y.isNaN = false := by
  have hlt : x.toModel.unpack.lt y.toModel.unpack = true := of_decide_eq_true h
  show x.toModel.unpack.isNaN = false ∧ y.toModel.unpack.isNaN = false
  generalize x.toModel.unpack = a at hlt ⊢
  generalize y.toModel.unpack = b at hlt ⊢
  constructor
  · cases a with
    | notANumber => cases hlt
    | infinity s => rfl
    | zero s => rfl
    | finite s m e hm => rfl
  · cases b with
    | notANumber => cases a <;> cases hlt
    | infinity s => rfl
    | zero s => rfl
    | finite s m e hm => rfl

/-- But for NaN, being smaller goes one way only. -/
theorem lt_asymm_single (hx : x.isNaN = false) (hy : y.isNaN = false) (h : x < y) : ¬ y < x := by
  rw [lt_iff_key hx hy] at h
  rw [lt_iff_key hy hx]
  exact h.asymm

/-- But for NaN, not being smaller goes on over a third number. -/
theorem not_lt_trans_single {z : Float32} (hx : x.isNaN = false) (hy : y.isNaN = false)
    (hz : z.isNaN = false) (hxy : ¬ x < y) (hyz : ¬ y < z) : ¬ x < z := by
  rw [lt_iff_key hx hy, not_lt] at hxy
  rw [lt_iff_key hy hz, not_lt] at hyz
  rw [lt_iff_key hx hz, not_lt]
  exact hyz.trans hxy

end CodeIndex.Numeric
