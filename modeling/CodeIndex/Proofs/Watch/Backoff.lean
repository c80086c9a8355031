import CodeIndex.Watch.Backoff

/-! Delays in nanoseconds.  Multiplying a duration multiplies its nanoseconds, up to the longest
duration: the seconds that are carried over are exact, and the product is longer than the longest
duration if its seconds do not fit into 64 bits.  So a delay is the base as often doubled as there
were attempts before, and it grows with the base and with the attempt. -/

namespace CodeIndex.Watch

open Numeric (twoTo)

theorem word?_eq_some_iff {n : Nat} {w : UInt64} : word? n = some w ↔ w.toNat = n := by
  rw [word?]
  split
  · next h =>
    rw [Option.some.injEq, ← UInt64.toNat_inj, UInt64.toNat_ofNat_of_lt' h, eq_comm]
  · next h =>
    have hw := w.toNat_lt_size
    constructor
    · intro hnone
      cases hnone
    · intro hn
      omega

theorem word?_eq_none_iff {n : Nat} : word? n = none ↔ UInt64.size ≤ n := by
  rw [word?]
  split
  · next h => simpa using h
  · next h => simpa using h

theorem exists_powerOfTwo {exponent : Nat} (h : exponent < 32) :
    ∃ factor, powerOfTwo? exponent = some factor ∧ factor.toNat = twoTo exponent := by
  have hlt : twoTo exponent < UInt32.size := Nat.pow_lt_pow_right (by decide) h
  exact ⟨_, if_pos h, UInt32.toNat_ofNat_of_lt' hlt⟩

theorem powerOfTwo_eq_none {exponent : Nat} (h : 32 ≤ exponent) : powerOfTwo? exponent = none :=
  if_neg (Nat.not_lt.2 h)

theorem twoTo_le_twoTo {a b : Nat} (h : a ≤ b) : twoTo a ≤ twoTo b :=
  Nat.pow_le_pow_right (by decide) h

namespace Duration

variable {d base base' : Duration} {factor : UInt32} {attempt attempt' : Nat}

theorem toNanos_longest : longest.toNanos + 1 = UInt64.size * second := by decide

theorem toNanos_lt (d : Duration) : d.toNanos < (d.seconds.toNat + 1) * second := by
  have hnanos := d.nanos_lt
  rw [toNanos, Nat.succ_mul]
  omega

theorem toNanos_le_longest (d : Duration) : d.toNanos ≤ longest.toNanos := by
  have hseconds : (d.seconds.toNat + 1) * second ≤ UInt64.size * second :=
    Nat.mul_le_mul_right _ d.seconds.toNat_lt_size
  have hlt := d.toNanos_lt
  have hlongest := toNanos_longest
  omega

/-- The product of the nanoseconds fits into 64 bits. -/
theorem nanos_mul_lt (d : Duration) (factor : UInt32) :
    d.nanos.toNat * factor.toNat < UInt64.size := by
  have hnanos := Nat.le_of_lt d.nanos_lt
  have hfactor := Nat.le_of_lt factor.toNat_lt_size
  calc d.nanos.toNat * factor.toNat
    _ ≤ second * UInt32.size := Nat.mul_le_mul hnanos hfactor
    _ < UInt64.size := by decide

theorem toNat_product (d : Duration) (factor : UInt32) :
    (d.nanos.toUInt64 * factor.toUInt64).toNat = d.nanos.toNat * factor.toNat := by
  rw [UInt64.toNat_mul, UInt32.toNat_toUInt64, UInt32.toNat_toUInt64]
  exact Nat.mod_eq_of_lt (d.nanos_mul_lt factor)

/-- The nanoseconds of a product, with the seconds that are carried over. -/
theorem toNanos_mul (d : Duration) (factor : UInt32) :
    d.toNanos * factor.toNat =
      (d.seconds.toNat * factor.toNat + d.nanos.toNat * factor.toNat / second) * second +
        d.nanos.toNat * factor.toNat % second := by
  have hdivided := Nat.div_add_mod' (d.nanos.toNat * factor.toNat) second
  rw [toNanos, Nat.add_mul, Nat.add_mul, Nat.mul_right_comm]
  omega

theorem toNat_carried (d : Duration) (factor : UInt32) :
    (d.nanos.toUInt64 * factor.toUInt64 / 1000000000).toNat =
      d.nanos.toNat * factor.toNat / second := by
  rw [UInt64.toNat_div, toNat_product]
  rfl

theorem toNat_left (d : Duration) (factor : UInt32) :
    (d.nanos.toUInt64 * factor.toUInt64 % 1000000000).toUInt32.toNat =
      d.nanos.toNat * factor.toNat % second := by
  have hlt : d.nanos.toNat * factor.toNat % second < second := Nat.mod_lt _ (by decide)
  rw [UInt64.toNat_toUInt32, UInt64.toNat_mod, toNat_product]
  exact Nat.mod_eq_of_lt (Nat.lt_trans hlt (by decide))

theorem toNanos_of_multiply? {product : Duration} (h : d.multiply? factor = some product) :
    product.toNanos = d.toNanos * factor.toNat := by
  obtain ⟨whole, hwhole, h⟩ := Option.bind_eq_some_iff.1 h
  obtain ⟨seconds, hseconds, h⟩ := Option.bind_eq_some_iff.1 h
  cases h
  rw [word?_eq_some_iff] at hwhole hseconds
  rw [toNanos, toNanos_mul, hseconds, hwhole, toNat_carried, toNat_left]

theorem longest_lt_of_multiply? (h : d.multiply? factor = none) :
    longest.toNanos < d.toNanos * factor.toNat := by
  have hsize : UInt64.size ≤
      d.seconds.toNat * factor.toNat + d.nanos.toNat * factor.toNat / second := by
    cases hwhole : word? (d.seconds.toNat * factor.toNat) with
    | none =>
      exact Nat.le_trans (word?_eq_none_iff.1 hwhole) (Nat.le_add_right _ _)
    | some whole =>
      have hcarry := Option.bind_eq_none_iff.1 h whole hwhole
      cases hseconds : word? (whole.toNat +
          (d.nanos.toUInt64 * factor.toUInt64 / 1000000000).toNat) with
      | none =>
        rw [word?_eq_none_iff, toNat_carried, word?_eq_some_iff.1 hwhole] at hseconds
        exact hseconds
      | some seconds => cases Option.bind_eq_none_iff.1 hcarry seconds hseconds
  have hlongest := toNanos_longest
  have hproduct := Nat.mul_le_mul_right second hsize
  rw [toNanos_mul]
  omega

theorem toNanos_multiply (d : Duration) (factor : UInt32) :
    (d.multiply factor).toNanos = min (d.toNanos * factor.toNat) longest.toNanos := by
  rw [multiply]
  cases h : d.multiply? factor with
  | none =>
    rw [Option.getD_none, Nat.min_eq_right (Nat.le_of_lt (longest_lt_of_multiply? h))]
  | some product =>
    have hproduct := toNanos_of_multiply? h
    rw [Option.getD_some, ← hproduct, Nat.min_eq_left product.toNanos_le_longest]

/-! ### Delays -/

theorem toNanos_backoff (h : attempt ≤ 32) :
    (base.backoff attempt).toNanos =
      min (base.toNanos * twoTo (attempt - 1)) longest.toNanos := by
  obtain ⟨factor, hfactor, hvalue⟩ := exists_powerOfTwo (show attempt - 1 < 32 by omega)
  rw [backoff, hfactor, ← hvalue]
  exact base.toNanos_multiply factor

theorem backoff_eq_longest (h : 33 ≤ attempt) : base.backoff attempt = longest := by
  rw [backoff, powerOfTwo_eq_none (by omega)]

theorem backoff_le_of_attempt (h : attempt ≤ attempt') :
    (base.backoff attempt).toNanos ≤ (base.backoff attempt').toNanos := by
  by_cases hlast : attempt' ≤ 32
  · have hpower : base.toNanos * twoTo (attempt - 1) ≤ base.toNanos * twoTo (attempt' - 1) :=
      Nat.mul_le_mul_left _ (twoTo_le_twoTo (by omega))
    rw [toNanos_backoff (by omega), toNanos_backoff hlast]
    omega
  · rw [backoff_eq_longest (show 33 ≤ attempt' by omega)]
    exact toNanos_le_longest _

theorem backoff_le_of_base (h : base.toNanos ≤ base'.toNanos) (attempt : Nat) :
    (base.backoff attempt).toNanos ≤ (base'.backoff attempt).toNanos := by
  by_cases hlast : attempt ≤ 32
  · have hpower := Nat.mul_le_mul_right (twoTo (attempt - 1)) h
    rw [toNanos_backoff hlast, toNanos_backoff hlast]
    omega
  · have hmax : ∀ b : Duration, b.backoff attempt = longest := fun _ =>
      backoff_eq_longest (by omega)
    exact Nat.le_of_eq (by rw [hmax, hmax])

theorem backoff_succ (hfirst : 1 ≤ attempt) (hlast : attempt < 32)
    (h : 2 * (base.backoff attempt).toNanos ≤ longest.toNanos) :
    (base.backoff (attempt + 1)).toNanos = 2 * (base.backoff attempt).toNanos := by
  obtain ⟨k, rfl⟩ := Nat.exists_eq_add_of_le' hfirst
  have hpos : 0 < longest.toNanos := by decide
  have hdouble : base.toNanos * twoTo (k + 1) = 2 * (base.toNanos * twoTo k) := by
    rw [Numeric.twoTo_succ, Nat.mul_left_comm]
  rw [toNanos_backoff (by omega)] at h
  rw [toNanos_backoff (by omega), toNanos_backoff (by omega)]
  simp only [Nat.add_sub_cancel] at h ⊢
  omega

/-- A delay is the base, doubled once for each attempt before the last one, or the longest duration if
that is longer; after the 32nd attempt it is the longest.  It is never less for a later attempt or
a greater base, and it doubles from one attempt to the next while the double can be kept.  What is
computed on the way fits into 64 bits, where it is not compared with them. -/
theorem backoff_doubles_base (base : Duration) (attempt : Nat) :
    (attempt ≤ 32 → (base.backoff attempt).toNanos =
      min (base.toNanos * twoTo (max attempt 1 - 1)) longest.toNanos) ∧
    (33 ≤ attempt → base.backoff attempt = longest) ∧
    (∀ attempt', attempt ≤ attempt' →
      (base.backoff attempt).toNanos ≤ (base.backoff attempt').toNanos) ∧
    (∀ base' : Duration, base.toNanos ≤ base'.toNanos →
      (base.backoff attempt).toNanos ≤ (base'.backoff attempt).toNanos) ∧
    (1 ≤ attempt → attempt < 32 → 2 * (base.backoff attempt).toNanos ≤ longest.toNanos →
      (base.backoff (attempt + 1)).toNanos = 2 * (base.backoff attempt).toNanos) ∧
    (∀ factor : UInt32, base.nanos.toNat * factor.toNat < UInt64.size) := by
  refine ⟨fun h => ?_, backoff_eq_longest, fun _ => backoff_le_of_attempt,
    fun _ h => backoff_le_of_base h attempt, backoff_succ, base.nanos_mul_lt⟩
  have hexponent : max attempt 1 - 1 = attempt - 1 := by omega
  rw [hexponent, toNanos_backoff h]

def tenth : Duration := ⟨0, 100000000, by decide⟩

/-- A tenth of a second is carried over into seconds the fourth time that it is doubled. -/
theorem backoff_doubles_base_tenth :
    (backoff tenth 4).toNanos = 800000000 ∧
    (backoff tenth 5).toNanos = 2 * (backoff tenth 4).toNanos ∧
    backoff tenth 33 = longest ∧
    (backoff tenth 4).toNanos ≤ (backoff tenth 40).toNanos ∧
    (backoff tenth 4).toNanos ≤ (backoff ⟨1, 0, by decide⟩ 4).toNanos := by
  obtain ⟨hexact, -, hattempt, hbase, hdouble, -⟩ := backoff_doubles_base tenth 4
  have hlast := (backoff_doubles_base tenth 33).2.1
  exact ⟨(hexact (by decide)).trans (by decide), hdouble (by decide) (by decide) (by decide),
    hlast (by decide), hattempt 40 (by decide), hbase ⟨1, 0, by decide⟩ (by decide)⟩

end Duration

end CodeIndex.Watch
