import CodeIndex.Proofs.Numeric.Rounding

/-! Numbers of single precision from one on.  Rounding does not bring a number below one, so sums and
products of numbers from one on are such numbers again, infinity included, and every positive count
is one. -/

namespace CodeIndex.Numeric

open Float.Model Float.Model.UnpackedFloat

variable {a b : UnpackedFloat} {m n : ℕ} {e f : ℤ}

/-! ### Rounding -/

/-- The mantissa has the 24 bits of single precision, or more, and the number is at least one. -/
structure Wide (m : ℕ) (e : ℤ) : Prop where
  bits : 23 ≤ m.log2
  one_le : 0 ≤ m.log2 + e

theorem Wide.scale_eq (h : Wide m e) : scale m e = m.log2 + e - 23 := by
  obtain ⟨hbits, hone⟩ := h
  rw [scale]
  omega

theorem Wide.le_scale (h : Wide m e) : e ≤ scale m e := by
  have hbits := h.bits
  rw [h.scale_eq]
  omega

/-- A wide number is not rounded to zero, and it keeps its 24 bits. -/
theorem Wide.rounded (h : Wide m e) (s : Sign) (accuracy : Accuracy) :
    ∃ r g, ∃ hr : 0 < r, roundWithAccuracy .binary32 s m e accuracy = .finite s r g hr ∧
      r.log2 = 23 ∧ m.log2 + e - 23 ≤ g := by
  have hone := h.one_le
  have hscale := h.scale_eq
  have hfull : 2 ^ 23 ≤ scaled m e := le_scaled h.le_scale (by omega)
  generalize hresult : roundWithAccuracy .binary32 s m e accuracy = result
  have hrounded := hresult ▸ rounded_roundWithAccuracy h.le_scale s accuracy
  cases hrounded with
  | gone hzero => omega
  | @kept r hr hle hge hlt =>
    exact ⟨r, _, hr, rfl, log2_eq_of_bits (hfull.trans hle) hlt, by omega⟩
  | grown _ => exact ⟨_, _, by decide, rfl, by decide, by omega⟩

/-! ### From one on -/

/-- A number of single precision from one on. -/
def FromOne : UnpackedFloat → Prop
  | .infinity .positive => True
  | .finite .positive m e _ => m.log2 = 23 ∧ -23 ≤ e
  | _ => False

theorem FromOne.cases (h : FromOne a) :
    a = .infinity .positive ∨
      ∃ m e hm, a = .finite .positive m e hm ∧ m.log2 = 23 ∧ -23 ≤ e := by
  cases a with
  | notANumber => cases h
  | zero s => cases h
  | infinity s =>
    cases s with
    | negative => cases h
    | positive => exact .inl rfl
  | finite s m e hm =>
    cases s with
    | negative => cases h
    | positive => exact .inr ⟨m, e, hm, rfl, h⟩

theorem FromOne.unsigned (h : FromOne a) : Unsigned a := by
  rcases h.cases with rfl | ⟨m, e, hm, rfl, -⟩ <;> trivial

theorem fromOne_roundWithAccuracy (h : Wide m e) (accuracy : Accuracy) :
    FromOne (roundWithAccuracy .binary32 .positive m e accuracy) := by
  have hone := h.one_le
  obtain ⟨r, g, hr, hresult, hlog, hg⟩ := h.rounded .positive accuracy
  rw [hresult]
  exact ⟨hlog, by omega⟩

/-- A mantissa of too few bits is widened before it is rounded. -/
theorem fromOne_normalize (hm : 0 < m) (hone : 0 ≤ m.log2 + e) :
    FromOne (UnpackedFloat.normalize .binary32 m e .positive) := by
  have hgt : compare (m : ℤ) 0 = .gt := compare_gt_iff_gt.2 (Int.natCast_pos.2 hm)
  have hshift : (e - scale m e).toNat = 23 - m.log2 := by
    rw [scale]
    omega
  rw [UnpackedFloat.normalize, hgt]
  dsimp only
  rw [Int.toNat_natCast, UnpackedFloat.round, decreaseExponent, targetExponent_eq, hshift]
  refine fromOne_roundWithAccuracy ⟨?_, ?_⟩ _ <;> rw [log2_shiftLeft hm.ne'] <;> omega

/-! ### Operations -/

theorem FromOne.mul (ha : FromOne a) (hb : FromOne b) : FromOne (a.mul .binary32 b) := by
  rcases ha.cases with rfl | ⟨m, e, hm, rfl, hlogm, he⟩ <;>
    rcases hb.cases with rfl | ⟨n, f, hn, rfl, hlogn, hf⟩
  case inr.inr =>
    have hle : 2 ^ 23 * 2 ^ 23 ≤ m * n :=
      Nat.mul_le_mul (two_pow_le_of_log2 hm hlogm) (two_pow_le_of_log2 hn hlogn)
    have hlog : 46 ≤ (m * n).log2 := (Nat.le_log2 (by omega)).2 hle
    exact fromOne_roundWithAccuracy ⟨by omega, by omega⟩ _
  all_goals trivial

theorem FromOne.zero_add (ha : FromOne a) :
    FromOne (UnpackedFloat.add .binary32 (.zero .positive) a) := by
  rcases ha.cases with rfl | ⟨m, e, hm, rfl, h⟩
  · trivial
  · exact h

theorem FromOne.add (ha : FromOne a) (hb : FromOne b) : FromOne (a.add .binary32 b) := by
  rcases ha.cases with rfl | ⟨m, e, hm, rfl, hlogm, he⟩ <;>
    rcases hb.cases with rfl | ⟨n, f, hn, rfl, hlogn, hf⟩
  case inr.inr =>
    have hsum : UnpackedFloat.add .binary32 (.finite .positive m e hm) (.finite .positive n f hn) =
        UnpackedFloat.normalize .binary32
          (m <<< (e - min e f).toNat + n <<< (f - min e f).toNat : ℕ) (min e f) .positive := by
      rw [Int.natCast_add]
      rfl
    have hle : 2 ^ 23 ≤ m <<< (e - min e f).toNat + n <<< (f - min e f).toNat := by
      refine le_trans ?_ (Nat.le_add_right _ _)
      rw [Nat.shiftLeft_eq]
      exact (two_pow_le_of_log2 hm hlogm).trans (Nat.le_mul_of_pos_right _ (by positivity))
    have hlog := (Nat.le_log2 (by omega)).2 hle
    rw [hsum]
    refine fromOne_normalize ?_ ?_ <;> omega
  all_goals trivial

theorem FromOne.unpack_pack (ha : FromOne a) : FromOne (unpack .binary32 (pack .binary32 a)) := by
  show FromOne (stored a)
  rcases ha.cases with rfl | ⟨m, e, hm, rfl, hlog, he⟩
  · rw [stored_infinity]
    trivial
  · have hnormal : Normal m e :=
      ⟨(Nat.log2_lt hm.ne').1 (by omega), by omega, .inl (two_pow_le_of_log2 hm hlog)⟩
    rcases le_or_gt e 104 with hle | hgt
    · rw [stored_finite hm hnormal hle]
      exact ⟨hlog, he⟩
    · rw [stored_overflow hm (by omega)]
      trivial

/-! ### Single precision -/

/-- A number of single precision from one on, as one that is stored. -/
def IsFromOne (x : Float32) : Prop := FromOne x.toModel.unpack

variable {x y : Float32}

theorem isFromOne_pack (ha : FromOne a) : IsFromOne (.ofModel (.pack a)) := ha.unpack_pack

theorem IsFromOne.mul (hx : IsFromOne x) (hy : IsFromOne y) : IsFromOne (x * y) :=
  isFromOne_pack (FromOne.mul hx hy)

theorem IsFromOne.add (hx : IsFromOne x) (hy : IsFromOne y) : IsFromOne (x + y) :=
  isFromOne_pack (FromOne.add hx hy)

theorem IsFromOne.zero_add (hx : IsFromOne x) : IsFromOne (0 + x) :=
  isFromOne_pack (FromOne.zero_add hx)

theorem IsFromOne.isUnsigned (hx : IsFromOne x) : IsUnsigned x := FromOne.unsigned hx

theorem IsFromOne.pos (hx : IsFromOne x) : 0 < x := by
  rw [lt_iff_key rfl hx.isUnsigned.isNaN]
  have hzero : orderKey (0 : Float32).toModel.unpack = toLex (0, toLex (0, 0)) := rfl
  rw [hzero]
  rcases FromOne.cases hx with h | ⟨m, e, hm, h, -⟩ <;> rw [h, orderKey, toLex_lt_iff] <;>
    exact .inl (by decide)

theorem IsFromOne.foldl_add {ys : List Float32} (hx : IsFromOne x) (hys : ∀ y ∈ ys, IsFromOne y) :
    IsFromOne (ys.foldl (· + ·) x) :=
  List.foldlRecOn (motive := IsFromOne) ys _ hx fun _ hsum y hy => hsum.add (hys y hy)

theorem isFromOne_sum {ys : List Float32} (hne : ys ≠ []) (hys : ∀ y ∈ ys, IsFromOne y) :
    IsFromOne (ys.foldl (· + ·) 0) := by
  obtain ⟨y, rest, rfl⟩ := List.exists_cons_of_ne_nil hne
  exact (hys y List.mem_cons_self).zero_add.foldl_add fun z hz => hys z (List.mem_cons_of_mem _ hz)

theorem isFromOne_toFloat32 {n : UInt32} (hn : 1 ≤ n.toNat) : IsFromOne n.toFloat32 :=
  isFromOne_pack (fromOne_normalize hn (by omega))

end CodeIndex.Numeric
