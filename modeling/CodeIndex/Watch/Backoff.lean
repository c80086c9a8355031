import CodeIndex.Numeric.Power

/-! The time to wait before a connection is tried again.  Durations are kept as whole seconds and
nanoseconds; one that would be too long to be kept is the longest one. -/

namespace CodeIndex.Watch

/-- Nanoseconds in a second. -/
def second : Nat := 1000000000

/-- A length of time: whole seconds, and nanoseconds for what is less than a second. -/
structure Duration where
  seconds : UInt64
  nanos : UInt32
  nanos_lt : nanos.toNat < second
  deriving DecidableEq, Repr

/-- A number, if it fits into 64 bits. -/
def word? (n : Nat) : Option UInt64 :=
  if n < UInt64.size then some (UInt64.ofNat n) else none

/-- The power of two, if it fits into 32 bits. -/
def powerOfTwo? (exponent : Nat) : Option UInt32 :=
  if exponent < 32 then some (UInt32.ofNat (Numeric.twoTo exponent)) else none

namespace Duration

/-- The longest duration: `2 ^ 64` seconds less a nanosecond. -/
def longest : Duration := ⟨0xFFFFFFFFFFFFFFFF, 999999999, by decide⟩

def toNanos (d : Duration) : Nat := d.seconds.toNat * second + d.nanos.toNat

theorem toNat_mod_second_lt (n : UInt64) : (n % 1000000000).toUInt32.toNat < second := by
  have h : (n % 1000000000).toNat < 1000000000 := by
    rw [UInt64.toNat_mod]
    exact Nat.mod_lt _ (by decide)
  rw [UInt64.toNat_toUInt32, Nat.mod_eq_of_lt (by omega)]
  exact h

/-- So many nanoseconds, or the longest duration if there are more. -/
def ofNanos (n : Nat) : Duration :=
  if n ≤ longest.toNanos then
    ⟨UInt64.ofNat (n / second), (UInt64.ofNat (n % second) % 1000000000).toUInt32,
      toNat_mod_second_lt _⟩
  else longest

/-- So many times the duration, if it can be kept.  Seconds are carried over from the nanoseconds,
whose product always fits into 64 bits. -/
def multiply? (d : Duration) (factor : UInt32) : Option Duration := do
  let nanos := d.nanos.toUInt64 * factor.toUInt64
  let seconds ← word? (d.seconds.toNat * factor.toNat)
  let seconds ← word? (seconds.toNat + (nanos / 1000000000).toNat)
  pure ⟨seconds, (nanos % 1000000000).toUInt32, toNat_mod_second_lt nanos⟩

/-- So many times the duration, or the longest one. -/
def multiply (d : Duration) (factor : UInt32) : Duration := (d.multiply? factor).getD longest

/-- The delay doubles from one attempt to the next, as long as the power of two can be kept. -/
def backoff (base : Duration) (attempt : Nat) : Duration :=
  match powerOfTwo? (attempt - 1) with
  | some factor => base.multiply factor
  | none => longest

end Duration

/-- The delay before the next attempt; times are in nanoseconds. -/
def backoff (base attempt : Nat) : Nat := ((Duration.ofNanos base).backoff attempt).toNanos

end CodeIndex.Watch
