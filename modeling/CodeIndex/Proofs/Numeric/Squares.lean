import CodeIndex.Proofs.Numeric.Magnitude

/-! Squares and their roots in single precision.  A number whose square is not too great is so small
that its product with any other such number is not too great either.  The root of a number that is
not too great is one of them, and it is so far from zero that the product of two roots is not zero. -/

namespace CodeIndex.Numeric

open Float.Model Float.Model.UnpackedFloat

variable {a b : UnpackedFloat} {m n : ℕ} {e f : ℤ} {s : Sign}

/-! ### Products -/

/-- A rounded number that is not too great is read as it was stored. -/
theorem Rounded.stored_eq (h : Rounded s m e a) (hle : e ≤ scale m e) (hscale : scale m e ≤ 104)
    (hfull : scale m e = 104 → scaled m e + 1 < 2 ^ 24) : stored a = a := by
  have hleast : -149 ≤ scale m e := le_max_right _ _
  cases h with
  | gone _ => exact stored_zero s
  | @kept r hr hge _ hlt =>
    refine stored_finite hr ⟨hlt, hleast, ?_⟩ hscale
    rcases hleast.lt_or_eq with hmore | hsame
    · exact .inl ((le_scaled hle hmore).trans hge)
    · exact .inr hsame.symm
  | grown hgrown => exact stored_finite _ ⟨by decide, by omega, .inl le_rfl⟩ (by omega)

/-- A number below two to the power of 64 in size. -/
def Small : UnpackedFloat → Prop
  | .zero _ => True
  | .finite _ m e _ => Normal m e ∧ e ≤ 40
  | _ => False

theorem Normal.le_scale_mul (hm : 0 < m) (hn : 0 < n) (hme : Normal m e) (hnf : Normal n f) :
    e + f ≤ scale (m * n) (e + f) := by
  rw [scale]
  rcases hme.full with hlarge | hleast
  · have hlog : 23 ≤ (m * n).log2 :=
      (Nat.le_log2 (by positivity)).2 (hlarge.trans (Nat.le_mul_of_pos_right m hn))
    omega
  · rcases hnf.full with hlarge | hleast'
    · have hlog : 23 ≤ (m * n).log2 :=
        (Nat.le_log2 (by positivity)).2 (hlarge.trans (Nat.le_mul_of_pos_left n hm))
      omega
    · omega

/-- The product of two small numbers is not too great. -/
theorem Small.stored_mul (ha : Small a) (hb : Small b) :
    stored (a.mul .binary32 b) = a.mul .binary32 b ∧ (a.mul .binary32 b).isFinite = true := by
  cases a with
  | notANumber => exact ha.elim
  | infinity s => exact ha.elim
  | zero s =>
    cases b with
    | notANumber => exact hb.elim
    | infinity t => exact hb.elim
    | zero t => exact ⟨stored_zero _, rfl⟩
    | finite t n f hn => exact ⟨stored_zero _, rfl⟩
  | finite s m e hm =>
    cases b with
    | notANumber => exact hb.elim
    | infinity t => exact hb.elim
    | zero t => exact ⟨stored_zero _, rfl⟩
    | finite t n f hn =>
      obtain ⟨hme, he⟩ := ha
      obtain ⟨hnf, hf⟩ := hb
      have hle := hme.le_scale_mul hm hn hnf
      have hproduct : m * n ≤ (2 ^ 24 - 1) * (2 ^ 24 - 1) :=
        Nat.mul_le_mul (Nat.le_sub_one_of_lt hme.lt) (Nat.le_sub_one_of_lt hnf.lt)
      have hlog : (m * n).log2 < 48 := log2_lt_of_lt (by positivity) (by omega)
      have hrounded := rounded_roundWithAccuracy hle (s * t) .exact
      refine ⟨hrounded.stored_eq hle (by rw [scale]; omega) fun hmax => ?_, ?_⟩
      · have hshift : (scale (m * n) (e + f) - (e + f)).toNat = 24 := by
          rw [scale] at hmax ⊢
          omega
        rw [scaled, hshift]
        omega
      · show (roundWithAccuracy .binary32 (s * t) (m * n) (e + f) .exact).isFinite = true
        generalize roundWithAccuracy .binary32 (s * t) (m * n) (e + f) .exact = result at hrounded
        cases hrounded <;> rfl

/-- A number whose square is not too great is small. -/
theorem Single.small (ha : Single a) (hfinite : a.isFinite = true)
    (hsquare : (stored (a.mul .binary32 a)).isFinite = true) : Small a := by
  cases a with
  | notANumber => cases hfinite
  | infinity s => cases hfinite
  | zero s => trivial
  | finite s m e hm =>
    obtain ⟨hnormal, -⟩ := ha
    refine ⟨hnormal, not_lt.1 fun hgt => ?_⟩
    have hlarge : 2 ^ 23 ≤ m := hnormal.full.resolve_right (by omega)
    have hle : 2 ^ 23 * 2 ^ 23 ≤ m * m := Nat.mul_le_mul hlarge hlarge
    have hlog : 46 ≤ (m * m).log2 := (Nat.le_log2 (by omega)).2 hle
    have hwide : Wide (m * m) (e + e) := ⟨by omega, by omega⟩
    obtain ⟨r, g, hr, hresult, -, hg⟩ := hwide.rounded (s * s) .exact
    have hmul : (UnpackedFloat.finite s m e hm).mul .binary32 (.finite s m e hm) =
        .finite (s * s) r g hr := hresult
    rw [hmul, stored_overflow hr (by omega)] at hsquare
    cases hsquare

/-! ### Roots -/

/-- A root of a positive number.  It has 24 bits and is small, and only the root of the least number
has the least exponent. -/
def Root : UnpackedFloat → Prop
  | .finite .positive m e _ => m.log2 = 23 ∧ e ≤ 40 ∧ (-97 ≤ e ∨ (e = -98 ∧ m = 11863283))
  | _ => False

instance : DecidablePred Root
  | .finite .positive m e _ =>
    inferInstanceAs (Decidable (m.log2 = 23 ∧ e ≤ 40 ∧ (-97 ≤ e ∨ (e = -98 ∧ m = 11863283))))
  | .finite .negative _ _ _ => .isFalse id
  | .infinity _ => .isFalse id
  | .zero _ => .isFalse id
  | .notANumber => .isFalse id

theorem Root.cases (h : Root a) :
    ∃ m e hm, a = .finite .positive m e hm ∧ m.log2 = 23 ∧ e ≤ 40 ∧
      (-97 ≤ e ∨ (e = -98 ∧ m = 11863283)) := by
  cases a with
  | notANumber => cases h
  | infinity s => cases h
  | zero s => cases h
  | finite s m e hm =>
    cases s with
    | negative => cases h
    | positive => exact ⟨m, e, hm, rfl, h⟩

theorem Root.small (h : Root a) : Small a := by
  obtain ⟨m, e, hm, rfl, hlog, he, hleast⟩ := h.cases
  refine ⟨⟨(Nat.log2_lt hm.ne').1 (by omega), by omega, .inl (two_pow_le_of_log2 hm hlog)⟩, he⟩

theorem Root.stored_eq (h : Root a) : stored a = a := by
  obtain ⟨m, e, hm, rfl, -⟩ := h.cases
  obtain ⟨hnormal, he⟩ := h.small
  exact stored_finite hm hnormal (by omega)

/-- The product of two roots is positive: it is not rounded to zero. -/
theorem Root.mul (ha : Root a) (hb : Root b) :
    ∃ m e hm, stored (a.mul .binary32 b) = .finite .positive m e hm := by
  rw [(ha.small.stored_mul hb.small).1]
  obtain ⟨m, e, hm, rfl, hlogm, -, hleastm⟩ := ha.cases
  obtain ⟨n, f, hn, rfl, hlogn, -, hleastn⟩ := hb.cases
  have hmul : (UnpackedFloat.finite .positive m e hm).mul .binary32 (.finite .positive n f hn) =
      roundWithAccuracy .binary32 .positive (m * n) (e + f) .exact := rfl
  rcases lt_or_ge (e + f) (-195) with hlt | hge
  · obtain ⟨rfl, rfl⟩ := hleastm.resolve_left (by omega)
    obtain ⟨rfl, rfl⟩ := hleastn.resolve_left (by omega)
    exact ⟨1, -149, by decide, rfl⟩
  · have hproduct : 2 ^ 23 * 2 ^ 23 ≤ m * n :=
      Nat.mul_le_mul (two_pow_le_of_log2 hm hlogm) (two_pow_le_of_log2 hn hlogn)
    have hpos : 0 < m * n := by omega
    have hlog : 46 ≤ (m * n).log2 := (Nat.le_log2 hpos.ne').2 hproduct
    have hle : e + f ≤ scale (m * n) (e + f) := by
      rw [scale]
      omega
    have hscaled : 0 < scaled (m * n) (e + f) := by
      have hshift : (scale (m * n) (e + f) - (e + f)).toNat ≤ (m * n).log2 := by
        rw [scale]
        omega
      refine Nat.div_pos ?_ (by positivity)
      exact (Nat.pow_le_pow_right two_pos hshift).trans (Nat.log2_self_le hpos.ne')
    rw [hmul]
    have hrounded := rounded_roundWithAccuracy hle .positive .exact
    generalize roundWithAccuracy .binary32 .positive (m * n) (e + f) .exact = result at hrounded
    cases hrounded with
    | gone hzero => omega
    | kept hr => exact ⟨_, _, hr, rfl⟩
    | grown _ => exact ⟨_, _, by decide, rfl⟩

/-- The exponent of a root before it is rounded: half of that of the number, less the 24 bits. -/
def rootScale (m : ℕ) (e : ℤ) : ℤ := (m.log2 + e + 2) / 2 - 24

/-- The mantissa that belongs to this exponent. -/
def rootMantissa (m : ℕ) (e : ℤ) : ℕ := (m <<< (e - 2 * rootScale m e).toNat).sqrt

theorem sqrtCore_eq (h : Normal m e) (hm : 0 < m) :
    (sqrtCore .binary32 m e).1 = rootMantissa m e ∧
      (sqrtCore .binary32 m e).2.1 = rootScale m e := by
  have hlog := log2_lt_of_lt hm h.lt
  have hge := h.ge
  have htarget : min (e.ediv 2) (Format.targetExponent .binary32 ((totalExponent m e + 1).ediv 2)) =
      rootScale m e := by
    show min (e / 2) (Format.targetExponent .binary32 ((totalExponent m e + 1) / 2)) = _
    simp only [Format.targetExponent, totalExponent, Format.mantissaBits, Format.minExponent,
      rootScale]
    norm_num
    omega
  unfold sqrtCore
  dsimp only
  rw [htarget]
  exact ⟨rfl, rfl⟩

/-- But for the least number, the exponent of a root leaves room for products. -/
theorem rootScale_bounds (h : Normal m e) (he : e ≤ 104) (hm : 0 < m)
    (hleast : ¬ (m = 1 ∧ e = -149)) : -97 ≤ rootScale m e ∧ rootScale m e ≤ 40 := by
  have hlog := log2_lt_of_lt hm h.lt
  have hge := h.ge
  have hmore : m = 1 ∨ 1 ≤ m.log2 := by
    rcases Nat.lt_or_ge m 2 with hlt | hlarge
    · exact .inl (by omega)
    · exact .inr ((Nat.le_log2 hm.ne').2 hlarge)
  rw [rootScale]
  omega

/-- The root is taken of a number of 47 or 48 bits. -/
theorem rootMantissa_bounds (h : Normal m e) (hm : 0 < m) :
    2 ^ 23 ≤ rootMantissa m e ∧ rootMantissa m e < 2 ^ 24 := by
  have hlog := log2_lt_of_lt hm h.lt
  have hbits := log2_shiftLeft hm.ne' (e - 2 * rootScale m e).toNat
  rw [rootMantissa]
  generalize hwide : m <<< (e - 2 * rootScale m e).toNat = wide at hbits
  have hpos : 0 < wide := by
    rw [← hwide, Nat.shiftLeft_eq]
    positivity
  rw [rootScale] at hbits
  have hlow : 2 ^ 46 ≤ wide := (Nat.le_log2 hpos.ne').1 (by omega)
  have hhigh : wide < 2 ^ 48 := (Nat.log2_lt hpos.ne').1 (by omega)
  exact ⟨Nat.le_sqrt.2 (by omega), Nat.sqrt_lt.2 (by omega)⟩

/-- Only the greatest number has all ones in the root of the greatest exponent. -/
theorem rootMantissa_ne (h : Normal m e) (he : e ≤ 104) (hscale : rootScale m e = 40)
    (hgreatest : ¬ (m = 2 ^ 24 - 1 ∧ e = 104)) : rootMantissa m e + 1 ≠ 2 ^ 24 := by
  intro hones
  have hlt := h.lt
  have hsquare := Nat.sqrt_le (m <<< (e - 2 * rootScale m e).toNat)
  rw [← rootMantissa, Nat.eq_sub_of_add_eq hones, hscale, Nat.shiftLeft_eq] at hsquare
  rcases eq_or_ne e 104 with rfl | hne
  · have hshift : ((104 : ℤ) - 2 * 40).toNat = 24 := rfl
    rw [hshift] at hsquare
    omega
  · have hshift : 2 ^ (e - 2 * 40).toNat ≤ 2 ^ 23 := Nat.pow_le_pow_right two_pos (by omega)
    have hsmall := Nat.mul_le_mul hlt.le hshift
    omega

theorem root_sqrt_least : Root (sqrt .binary32 (.finite .positive 1 (-149) (by decide))) := by
  decide +kernel

theorem root_sqrt_greatest :
    Root (sqrt .binary32 (.finite .positive (2 ^ 24 - 1) 104 (by decide))) := by
  decide +kernel

/-- The square root of a positive number of single precision is a root. -/
theorem root_sqrt (h : Normal m e) (he : e ≤ 104) (hm : 0 < m) :
    Root (sqrt .binary32 (.finite .positive m e hm)) := by
  by_cases hleast : m = 1 ∧ e = -149
  · obtain ⟨rfl, rfl⟩ := hleast
    exact root_sqrt_least
  by_cases hgreatest : m = 2 ^ 24 - 1 ∧ e = 104
  · obtain ⟨rfl, rfl⟩ := hgreatest
    exact root_sqrt_greatest
  obtain ⟨hlow, hhigh⟩ := rootScale_bounds h he hm hleast
  obtain ⟨hbits, hfits⟩ := rootMantissa_bounds h hm
  obtain ⟨hmantissa, hexponent⟩ := sqrtCore_eq h hm
  have hsqrt : sqrt .binary32 (.finite .positive m e hm) =
      roundWithAccuracy .binary32 .positive (sqrtCore .binary32 m e).1
        (sqrtCore .binary32 m e).2.1 (sqrtCore .binary32 m e).2.2 := rfl
  rw [hsqrt, hmantissa, hexponent]
  have hscale : scale (rootMantissa m e) (rootScale m e) = rootScale m e := by
    rw [scale, log2_eq_of_bits hbits hfits]
    omega
  have hscaled : scaled (rootMantissa m e) (rootScale m e) = rootMantissa m e := by
    rw [scaled, hscale, sub_self]
    exact Nat.div_one _
  have hrounded := rounded_roundWithAccuracy hscale.ge .positive (sqrtCore .binary32 m e).2.2
  generalize roundWithAccuracy .binary32 .positive (rootMantissa m e) (rootScale m e) _ = result
    at hrounded
  cases hrounded with
  | gone hzero => omega
  | @kept r hr hle _ hlt =>
    rw [hscale]
    exact ⟨log2_eq_of_bits (by omega) hlt, hhigh, .inl hlow⟩
  | grown hfull =>
    rw [hscale]
    have hne : rootScale m e ≠ 40 := fun hmost => rootMantissa_ne h he hmost hgreatest (by omega)
    exact ⟨by decide, by omega, .inl (by omega)⟩

/-! ### What is no number -/

theorem Unsigned.mul_self (ha : a.isFinite = true) : Unsigned (a.mul .binary32 a) := by
  cases a with
  | notANumber => cases ha
  | infinity s => cases ha
  | zero s => cases s <;> trivial
  | finite s m e hm => cases s <;> exact unsigned_roundWithAccuracy ..

theorem Unsigned.eq_infinity (ha : Unsigned a) (h : a.isFinite ≠ true) :
    a = .infinity .positive := by
  rcases ha.cases with rfl | rfl | ⟨m, e, hm, rfl⟩
  · rfl
  · exact absurd rfl h
  · exact absurd rfl h

theorem Unsigned.infinity_add (hb : Unsigned b) :
    UnpackedFloat.add .binary32 (.infinity .positive) b = .infinity .positive := by
  rcases hb.cases with rfl | rfl | ⟨n, f, hn, rfl⟩ <;> rfl

theorem Unsigned.add_infinity (ha : Unsigned a) :
    a.add .binary32 (.infinity .positive) = .infinity .positive := by
  rcases ha.cases with rfl | rfl | ⟨m, e, hm, rfl⟩ <;> rfl

/-- What becomes finite by adding was finite. -/
theorem Unsigned.isFinite_of_add (ha : Unsigned a) (hb : Unsigned b)
    (h : (stored (a.add .binary32 b)).isFinite = true) :
    a.isFinite = true ∧ b.isFinite = true := by
  constructor <;> by_contra hinfinite
  · rw [ha.eq_infinity hinfinite, hb.infinity_add] at h
    cases h
  · rw [hb.eq_infinity hinfinite, ha.add_infinity] at h
    cases h

theorem isNaN_roundWithAccuracy (s : Sign) (m : ℕ) (e : ℤ) (accuracy : Accuracy) :
    (roundWithAccuracy .binary32 s m e accuracy).isNaN = false := by
  unfold roundWithAccuracy
  dsimp only
  split <;> rfl

theorem isNaN_normalize (n e : ℤ) (s : Sign) :
    (UnpackedFloat.normalize .binary32 n e s).isNaN = false := by
  unfold UnpackedFloat.normalize
  split
  · exact isNaN_roundWithAccuracy ..
  · rfl
  · exact isNaN_roundWithAccuracy ..

/-- Only infinities of both signs add up to what is no number. -/
theorem isNaN_add_finite (ha : a.isNaN = false) (hb : b.isFinite = true) :
    (a.add .binary32 b).isNaN = false := by
  cases a with
  | notANumber => cases ha
  | infinity s => cases b with
    | notANumber => cases hb
    | infinity t => cases hb
    | zero t => rfl
    | finite t n f hn => rfl
  | zero s => cases b with
    | notANumber => cases hb
    | infinity t => cases hb
    | zero t => cases s <;> cases t <;> rfl
    | finite t n f hn => rfl
  | finite s m e hm => cases b with
    | notANumber => cases hb
    | infinity t => cases hb
    | zero t => rfl
    | finite t n f hn => exact isNaN_normalize ..

theorem isNaN_div_infinity (a : UnpackedFloat) :
    (UnpackedFloat.div .binary32 a (.infinity .positive)).isNaN = !a.isFinite := by
  cases a <;> rfl

theorem isNaN_div_finite (a : UnpackedFloat) (hm : 0 < m) :
    (UnpackedFloat.div .binary32 a (.finite .positive m e hm)).isNaN = a.isNaN := by
  cases a with
  | notANumber => rfl
  | infinity s => rfl
  | zero s => rfl
  | finite s n f hn => exact isNaN_roundWithAccuracy ..

/-! ### Single precision -/

section

variable {x y : Float32} {ys : List Float32}

theorem unpack_mul (x y : Float32) :
    (x * y).toModel.unpack = stored (x.toModel.unpack.mul .binary32 y.toModel.unpack) := rfl

theorem unpack_add (x y : Float32) :
    (x + y).toModel.unpack = stored (x.toModel.unpack.add .binary32 y.toModel.unpack) := rfl

theorem unpack_div (x y : Float32) :
    (x / y).toModel.unpack = stored (x.toModel.unpack.div .binary32 y.toModel.unpack) := rfl

theorem unpack_sqrt (x : Float32) :
    x.sqrt.toModel.unpack = stored (x.toModel.unpack.sqrt .binary32) := rfl

theorem isUnsigned_square (hx : x.isFinite = true) : IsUnsigned (x * x) :=
  isUnsigned_pack (Unsigned.mul_self hx)

/-- The product of finite numbers is finite if their squares are. -/
theorem isFinite_mul (hx : x.isFinite = true) (hy : y.isFinite = true)
    (hxx : (x * x).isFinite = true) (hyy : (y * y).isFinite = true) :
    (x * y).isFinite = true := by
  have hsmallx : Small x.toModel.unpack := (single_unpack _).small hx hxx
  have hsmally : Small y.toModel.unpack := (single_unpack _).small hy hyy
  obtain ⟨hstored, hfinite⟩ := hsmallx.stored_mul hsmally
  show (x * y).toModel.unpack.isFinite = true
  rw [unpack_mul, hstored, hfinite]

theorem isNaN_div_of_infinity (hy : y.toModel.unpack = .infinity .positive) :
    (x / y).isNaN = !x.isFinite := by
  show (x / y).toModel.unpack.isNaN = _
  rw [unpack_div, isNaN_stored, hy, isNaN_div_infinity]
  rfl

/-- Over a product of roots, which is positive, only what is no number gives no number. -/
theorem isNaN_div_roots {z : Float32} (hy : Root y.toModel.unpack) (hz : Root z.toModel.unpack) :
    (x / (y * z)).isNaN = x.isNaN := by
  obtain ⟨m, e, hm, hproduct⟩ := hy.mul hz
  show (x / (y * z)).toModel.unpack.isNaN = _
  rw [unpack_div, isNaN_stored, unpack_mul, hproduct, isNaN_div_finite]
  rfl

/-- An infinity stays infinite when it is multiplied by an infinity or by a root. -/
theorem unpack_infinity_mul (hx : x.toModel.unpack = .infinity .positive)
    (hy : y.toModel.unpack = .infinity .positive ∨ Root y.toModel.unpack) :
    (x * y).toModel.unpack = .infinity .positive ∧ (y * x).toModel.unpack = .infinity .positive := by
  rw [unpack_mul, unpack_mul, hx]
  rcases hy with hy | hy
  · rw [hy]
    exact ⟨stored_infinity _, stored_infinity _⟩
  · obtain ⟨m, e, hm, h, -⟩ := hy.cases
    rw [h]
    exact ⟨stored_infinity _, stored_infinity _⟩

theorem isNaN_add (hx : x.isNaN = false) (hy : y.isFinite = true) : (x + y).isNaN = false := by
  show (x + y).toModel.unpack.isNaN = false
  rw [unpack_add, isNaN_stored]
  exact isNaN_add_finite hx hy

theorem isNaN_foldl_add (hx : x.isNaN = false) (hys : ∀ y ∈ ys, y.isFinite = true) :
    (ys.foldl (· + ·) x).isNaN = false :=
  List.foldlRecOn (motive := fun sum : Float32 => sum.isNaN = false) ys _ hx fun _ hsum y hy =>
    isNaN_add hsum (hys y hy)

theorem IsUnsigned.foldl_add (hx : IsUnsigned x) (hys : ∀ y ∈ ys, IsUnsigned y) :
    IsUnsigned (ys.foldl (· + ·) x) :=
  List.foldlRecOn (motive := IsUnsigned) ys _ hx fun _ hsum y hy => hsum.add (hys y hy)

/-- A sum without a minus sign is finite only if all its terms are. -/
theorem isFinite_of_foldl_add (hx : IsUnsigned x) (hys : ∀ y ∈ ys, IsUnsigned y)
    (h : (ys.foldl (· + ·) x).isFinite = true) :
    x.isFinite = true ∧ ∀ y ∈ ys, y.isFinite = true := by
  induction ys generalizing x with
  | nil => exact ⟨h, fun _ hy => absurd hy List.not_mem_nil⟩
  | cons y rest ih =>
    have hy := hys y List.mem_cons_self
    obtain ⟨hsum, hrest⟩ := ih (hx.add hy) (fun z hz => hys z (List.mem_cons_of_mem _ hz)) h
    obtain ⟨hfinite, hfinitey⟩ := Unsigned.isFinite_of_add hx hy hsum
    exact ⟨hfinite, List.forall_mem_cons.2 ⟨hfinitey, hrest⟩⟩

/-- The root of a number without a minus sign is infinite, zero, or a root of a positive number. -/
theorem IsUnsigned.sqrt_cases (hx : IsUnsigned x) :
    (x.isFinite = false ∧ x.sqrt.toModel.unpack = .infinity .positive) ∨
      (x.isFinite = true ∧ ((x.sqrt == 0) = true ∨ Root x.sqrt.toModel.unpack)) := by
  have hsingle : Single x.toModel.unpack := single_unpack _
  rw [IsUnsigned] at hx
  have hfinite : x.isFinite = x.toModel.unpack.isFinite := rfl
  have hzero : (x.sqrt == 0) = x.sqrt.toModel.unpack.beq (.zero .positive) := rfl
  rw [hfinite, hzero, unpack_sqrt]
  rcases hx.cases with h | h | ⟨m, e, hm, h⟩
  · rw [h]
    exact .inl ⟨rfl, stored_infinity _⟩
  · rw [h]
    exact .inr ⟨rfl, .inl rfl⟩
  · rw [h] at hsingle ⊢
    have hroot := root_sqrt hsingle.1 hsingle.2 hm
    rw [hroot.stored_eq]
    exact .inr ⟨rfl, .inr hroot⟩

end

end CodeIndex.Numeric
