import CodeIndex.Proofs.Numeric.Single

/-! Rounding to single precision.  The exponent of a rounded number is that of 24 bits, or the least one;
the mantissa is what is left of the number on that scale, or one more, and a mantissa that grows to 25
bits is halved.  So rounding gives numbers in the form in which they are stored, and what is too great
is stored as infinity. -/

namespace CodeIndex.Numeric

open Float.Model Float.Model.UnpackedFloat

variable {m : ℕ} {e : ℤ} {s : Sign}

/-! ### Shifts -/

theorem mantissa_shiftRight (em : ExtendedMantissa) (k : ℕ) :
    (em >>> k).mantissa = em.mantissa / 2 ^ k := by
  induction k with
  | zero => exact (Nat.div_one _).symm
  | succ k ih =>
    have hstep : (em >>> (k + 1)).mantissa = (em >>> k).mantissa / 2 := rfl
    rw [hstep, ih, Nat.div_div_eq_div_mul, pow_succ]

theorem mantissa_ofMantissaAndAccuracy (m : ℕ) (accuracy : Accuracy) :
    (ExtendedMantissa.ofMantissaAndAccuracy m accuracy).mantissa = m := by
  unfold ExtendedMantissa.ofMantissaAndAccuracy
  split <;> rfl

theorem roundedMantissa_bounds (em : ExtendedMantissa) :
    em.mantissa ≤ em.roundedMantissa ∧ em.roundedMantissa ≤ em.mantissa + 1 := by
  unfold ExtendedMantissa.roundedMantissa Accuracy.roundToNearestEven
  split <;> omega

theorem log2_div_two_pow (m k : ℕ) : (m / 2 ^ k).log2 = m.log2 - k := by
  rw [Nat.log2_eq_log_two, Nat.log2_eq_log_two, Nat.log_div_base_pow]

theorem log2_shiftLeft (hm : m ≠ 0) (k : ℕ) : (m <<< k).log2 = m.log2 + k := by
  induction k with
  | zero => rfl
  | succ k ih =>
    have hne : m <<< k ≠ 0 := by simpa [Nat.shiftLeft_eq] using hm
    rw [Nat.shiftLeft_succ, Nat.log2_two_mul hne, ih, Nat.add_assoc]

theorem two_pow_le_of_log2 (hm : 0 < m) {k : ℕ} (hlog : m.log2 = k) : 2 ^ k ≤ m :=
  hlog ▸ Nat.log2_self_le hm.ne'

theorem log2_lt_of_lt {k : ℕ} (hm : 0 < m) (h : m < 2 ^ k) : m.log2 < k :=
  (Nat.log2_lt hm.ne').2 h

theorem log2_eq_of_bits (hge : 2 ^ 23 ≤ m) (hlt : m < 2 ^ 24) : m.log2 = 23 := by
  have hpos : 0 < m := by omega
  have hlow : 23 ≤ m.log2 := (Nat.le_log2 hpos.ne').2 hge
  have hhigh := log2_lt_of_lt hpos hlt
  omega

/-! ### The scale of a number -/

/-- The exponent with which a number is stored: that of 24 bits, or the least one. -/
def scale (m : ℕ) (e : ℤ) : ℤ := max (m.log2 + e - 23) (-149)

/-- What is left of a mantissa on the scale of its number. -/
def scaled (m : ℕ) (e : ℤ) : ℕ := m / 2 ^ (scale m e - e).toNat

theorem targetExponent_eq (m : ℕ) (e : ℤ) :
    Format.targetExponent .binary32 (totalExponent m e) = scale m e := by
  simp only [Format.targetExponent, totalExponent, Format.mantissaBits, Format.minExponent, scale]
  norm_num
  omega

theorem shiftToTargetExponent_eq (h : e ≤ scale m e) (accuracy : Accuracy) :
    (shiftToTargetExponent .binary32 m e accuracy).1.mantissa = scaled m e ∧
      (shiftToTargetExponent .binary32 m e accuracy).2 = scale m e := by
  rw [shiftToTargetExponent, shiftToExponent, targetExponent_eq]
  refine ⟨?_, ?_⟩
  · rw [mantissa_shiftRight, mantissa_ofMantissaAndAccuracy, scaled]
  · dsimp only
    omega

theorem scaled_lt (m : ℕ) (e : ℤ) : scaled m e < 2 ^ 24 := by
  rcases Nat.eq_zero_or_pos (scaled m e) with hzero | hpos
  · rw [hzero]
    positivity
  · rw [← Nat.log2_lt hpos.ne', scaled, log2_div_two_pow, scale]
    omega

/-- But on the least scale, 24 bits are left. -/
theorem le_scaled (h : e ≤ scale m e) (hscale : -149 < scale m e) :
    2 ^ 23 ≤ scaled m e := by
  have hlog : (scaled m e).log2 = 23 := by
    rw [scaled, log2_div_two_pow]
    rw [scale] at h hscale ⊢
    omega
  refine two_pow_le_of_log2 ?_ hlog
  refine Nat.pos_of_ne_zero fun hzero => ?_
  rw [hzero] at hlog
  cases hlog

/-! ### Rounding -/

/-- A mantissa that is rounded to at most 24 bits is kept. -/
theorem shiftToTargetExponent_kept (hm : m < 2 ^ 24) (he : -149 ≤ e) :
    (shiftToTargetExponent .binary32 m e .exact).1.mantissa = m ∧
      (shiftToTargetExponent .binary32 m e .exact).2 = e := by
  have hscale : (scale m e - e).toNat = 0 := by
    rcases Nat.eq_zero_or_pos m with rfl | hpos
    · simp [scale]
      omega
    · have := log2_lt_of_lt hpos hm
      rw [scale]
      omega
  rw [shiftToTargetExponent, shiftToExponent, targetExponent_eq, hscale]
  exact ⟨mantissa_ofMantissaAndAccuracy m .exact, add_zero e⟩

/-- A number that is rounded on its scale has become zero, has kept its scale, or has grown to 25 bits
and is halved. -/
inductive Rounded (s : Sign) (m : ℕ) (e : ℤ) : UnpackedFloat → Prop
  | gone (hzero : scaled m e = 0) : Rounded s m e (.zero s)
  | kept {r : ℕ} (hr : 0 < r) (hle : scaled m e ≤ r) (hge : r ≤ scaled m e + 1) (hlt : r < 2 ^ 24) :
      Rounded s m e (.finite s r (scale m e) hr)
  | grown (hfull : scaled m e + 1 = 2 ^ 24) :
      Rounded s m e (.finite s (2 ^ 23) (scale m e + 1) (by decide))

theorem rounded_roundWithAccuracy (h : e ≤ scale m e) (s : Sign) (accuracy : Accuracy) :
    Rounded s m e (roundWithAccuracy .binary32 s m e accuracy) := by
  obtain ⟨hmantissa, hexponent⟩ := shiftToTargetExponent_eq h accuracy
  unfold roundWithAccuracy
  dsimp only
  generalize shiftToTargetExponent .binary32 m e accuracy = first at *
  obtain ⟨em, g⟩ := first
  dsimp only at *
  obtain ⟨hle, hge⟩ := roundedMantissa_bounds em
  rw [hmantissa] at hle hge
  subst hexponent
  have hscale : -149 ≤ scale m e := le_max_right _ _
  generalize hr : em.roundedMantissa = r at *
  have hfull := scaled_lt m e
  rcases Nat.lt_or_ge r (2 ^ 24) with hlt | hlarge
  · obtain ⟨hfirst, hsecond⟩ := shiftToTargetExponent_kept hlt hscale
    split
    · next hzero =>
      have hgone : scaled m e = 0 := by omega
      exact .gone hgone
    · next hne =>
      have hpos : 0 < r := by omega
      have hkept := Rounded.kept (s := s) hpos hle hge hlt
      simpa only [hfirst, hsecond] using hkept
  · have hsame : r = 2 ^ 24 := by omega
    have hnext : scale (2 ^ 24) (scale m e) = scale m e + 1 := by
      have hlog : (2 ^ 24).log2 = 24 := by decide
      rw [scale, hlog]
      omega
    obtain ⟨hfirst, hsecond⟩ :=
      shiftToTargetExponent_eq (m := 2 ^ 24) (e := scale m e) (by omega) .exact
    have hhalf : scaled (2 ^ 24) (scale m e) = 2 ^ 23 := by
      rw [scaled, hnext, add_sub_cancel_left]
      rfl
    rw [hhalf] at hfirst
    rw [hnext] at hsecond
    subst hsame
    split
    · next hzero =>
      rw [hfirst] at hzero
      exact absurd hzero (by decide)
    · have hgrown := Rounded.grown (s := s) (m := m) (e := e) (by omega)
      simpa only [hfirst, hsecond] using hgrown

/-! ### Storing -/

/-- A mantissa and an exponent as numbers of single precision have them. -/
structure Normal (m : ℕ) (e : ℤ) : Prop where
  lt : m < 2 ^ 24
  ge : -149 ≤ e
  full : 2 ^ 23 ≤ m ∨ e = -149

/-- A number as it is read after it was stored. -/
def stored (a : UnpackedFloat) : UnpackedFloat := unpack .binary32 (pack .binary32 a)

theorem toNat_one_append (mantissa : BitVec 23) :
    (1#1 ++ mantissa).toNat = 2 ^ 23 + mantissa.toNat := by
  rw [BitVec.toNat_append, ← Nat.shiftLeft_add_eq_or_of_lt mantissa.isLt]
  rfl

theorem finite_congr {m n : ℕ} {e f : ℤ} (hm : 0 < m) (hn : 0 < n) (hmantissa : m = n)
    (hexponent : e = f) : UnpackedFloat.finite s m e hm = .finite s n f hn := by
  subst hmantissa hexponent
  rfl

theorem unpack_normal {biased : ℕ} (hpos : 0 < biased) (hlt : biased < 255) (hm : 2 ^ 23 ≤ m)
    (hfits : m < 2 ^ 24) :
    unpack .binary32 (packComponents .binary32 s (BitVec.ofNat 8 biased) (BitVec.ofNat 23 m)) =
      .finite s m (biased - 150) (by omega) := by
  have hvalue : (BitVec.ofNat 8 biased).toNat = biased := by
    rw [BitVec.toNat_ofNat]
    omega
  have hones : BitVec.ofNat 8 biased ≠ -1#8 := ofNat_ne_ones hlt
  have hzero : BitVec.ofNat 8 biased ≠ 0#8 := by
    intro h
    rw [h] at hvalue
    simp at hvalue
    omega
  unfold UnpackedFloat.unpack
  simp only [unpackMantissa_packComponents, unpackExponent_packComponents,
    unpackSign_packComponents, Sign.ofBitVec_toBitVec]
  rw [if_neg hones, if_neg hzero]
  refine finite_congr _ _ ?_ ?_
  · rw [toNat_one_append, BitVec.toNat_ofNat]
    omega
  · rw [hvalue]
    rfl

theorem unpack_subnormal (hm : 0 < m) (hfits : m < 2 ^ 23) :
    unpack .binary32 (packComponents .binary32 s 0#8 (BitVec.ofNat 23 m)) =
      .finite s m (-149) hm := by
  have hvalue : (BitVec.ofNat 23 m).toNat = m := by
    rw [BitVec.toNat_ofNat]
    omega
  have hne : BitVec.ofNat 23 m ≠ 0#23 := by
    intro h
    rw [h] at hvalue
    simp at hvalue
    omega
  have hones : (0#8 : BitVec 8) ≠ -1#8 := by decide
  unfold UnpackedFloat.unpack
  simp only [unpackMantissa_packComponents, unpackExponent_packComponents,
    unpackSign_packComponents, Sign.ofBitVec_toBitVec]
  rw [if_neg hones, if_pos trivial, dif_neg hne]
  exact finite_congr _ _ hvalue rfl

theorem stored_infinity (s : Sign) : stored (.infinity s) = .infinity s := by
  cases s <;> rfl

theorem stored_zero (s : Sign) : stored (.zero s) = .zero s := by
  cases s <;> rfl

theorem isNaN_unpack_packComponents {exponent : BitVec 8} {mantissa : BitVec 23}
    (h : exponent ≠ -1#8) :
    (unpack .binary32 (packComponents .binary32 s exponent mantissa)).isNaN = false := by
  unfold UnpackedFloat.unpack
  simp only [unpackMantissa_packComponents, unpackExponent_packComponents,
    unpackSign_packComponents, Sign.ofBitVec_toBitVec]
  rw [if_neg h]
  split
  · split <;> rfl
  · rfl

/-- What is no number is stored as such, and nothing else is. -/
theorem isNaN_stored (a : UnpackedFloat) : (stored a).isNaN = a.isNaN := by
  cases a with
  | notANumber => rfl
  | infinity s => rw [stored_infinity]
  | zero s => rw [stored_zero]
  | finite s m e hm =>
    have hsize : 2 ^ Format.exponentBits .binary32 = 256 := rfl
    unfold stored UnpackedFloat.pack
    dsimp only
    split
    · have hinfinity := congrArg UnpackedFloat.isNaN (stored_infinity s)
      exact hinfinity
    · split
      · exact isNaN_unpack_packComponents (ofNat_ne_ones (by omega))
      · exact isNaN_unpack_packComponents (by decide)

/-- What is not too great is read as it was stored. -/
theorem stored_finite (hm : 0 < m) (h : Normal m e) (he : e ≤ 104) :
    stored (.finite s m e hm) = .finite s m e hm := by
  obtain ⟨hlt, hge, hfull⟩ := h
  have hbias : (Format.exponentBias .binary32 : ℤ) = 127 := rfl
  have hbits : (Format.mantissaBitsWithoutImplicit .binary32 : ℤ) = 23 := rfl
  unfold stored UnpackedFloat.pack
  dsimp only
  generalize hbiased : (e + (Format.exponentBias .binary32 : ℕ) + (23 : ℕ)).toNat = biased
  have hfits : ¬ 2 ^ Format.exponentBits .binary32 ≤ biased + 1 := by
    have hsize : 2 ^ Format.exponentBits .binary32 = 256 := rfl
    omega
  rw [if_neg hfits]
  rcases Nat.lt_or_ge m (2 ^ 23) with hsmall | hlarge
  · have hlog : ¬ m.log2 + 1 = Format.mantissaBits .binary32 := by
      have hcount : Format.mantissaBits .binary32 = 24 := rfl
      have := log2_lt_of_lt hm hsmall
      omega
    have hleast : e = -149 := by omega
    subst hleast
    rw [if_neg hlog]
    exact unpack_subnormal hm hsmall
  · have hlog : m.log2 + 1 = Format.mantissaBits .binary32 := by
      rw [log2_eq_of_bits hlarge hlt]
      rfl
    rw [if_pos hlog]
    refine (unpack_normal (by omega) (by omega) hlarge hlt).trans ?_
    exact finite_congr _ _ rfl (by omega)

theorem stored_overflow (hm : 0 < m) (he : 105 ≤ e) :
    stored (.finite s m e hm) = .infinity s := by
  have hbias : (Format.exponentBias .binary32 : ℤ) = 127 := rfl
  unfold stored UnpackedFloat.pack
  dsimp only
  have hfits : 2 ^ Format.exponentBits .binary32 ≤
      (e + (Format.exponentBias .binary32 : ℕ) + (23 : ℕ)).toNat + 1 := by
    have hsize : 2 ^ Format.exponentBits .binary32 = 256 := rfl
    omega
  rw [if_pos hfits]
  exact stored_infinity s

/-- A finite number has the form of single precision. -/
def Single : UnpackedFloat → Prop
  | .finite _ m e _ => Normal m e ∧ e ≤ 104
  | _ => True

theorem single_unpack (b : BitVec (Format.numBits .binary32)) : Single (unpack .binary32 b) := by
  have hbias : (Format.exponentBias .binary32 : ℤ) = 127 := rfl
  have hbits : (Format.mantissaBitsWithoutImplicit .binary32 : ℤ) = 23 := rfl
  have hmantissa : (unpackMantissa b).toNat < 2 ^ 23 := (unpackMantissa b).isLt
  have hexponent : (unpackExponent b).toNat < 256 := (unpackExponent b).isLt
  unfold UnpackedFloat.unpack
  dsimp only
  split
  · split <;> trivial
  · next hones =>
    have hnotones : (unpackExponent b).toNat ≠ 255 := fun h => hones (BitVec.eq_of_toNat_eq h)
    split
    · next hzero =>
      split
      · trivial
      · have hvalue : (unpackExponent b).toNat = 0 := congrArg BitVec.toNat hzero
        exact ⟨⟨by omega, by omega, .inr (by omega)⟩, by omega⟩
    · next hzero =>
      have hpos : (unpackExponent b).toNat ≠ 0 := fun h => hzero (BitVec.eq_of_toNat_eq h)
      have happend : (1#1 ++ unpackMantissa b).toNat = 2 ^ 23 + (unpackMantissa b).toNat :=
        toNat_one_append _
      exact ⟨⟨by omega, by omega, .inl (by omega)⟩, by omega⟩

end CodeIndex.Numeric
