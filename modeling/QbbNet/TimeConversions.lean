import QbbNet.Rounding
import QbbNet.TokenBucket

set_option autoImplicit false

/- Times made of seconds and seconds made of times, through the source's numbers of 64
binary places. None of them is negative. -/
namespace QbbNet

/- An int64x64_t is the number of its units of 2^-64. -/
namespace Int64x64

/-- The constructor from a double, whose sums of long doubles are exact. -/
def ofDouble (value : ℚ) : Nat :=
  ⌊value⌋.toNat * 2 ^ 64 + ⌊Int.fract value * 2 ^ 64 + 1 / 2⌋.toNat

def ofInt (v : Nat) : Nat := v * 2 ^ 64

def mul (a b : Nat) : Nat := a * b / 2 ^ 64

/-- Udiv by a whole number. -/
def udiv (a b : Nat) : Nat := a * 2 ^ 64 / b

/-- UmulByInvert of a whole number. The inverse is in units of 2^-128. -/
def mulByInvert (a : Nat) (b : Nat) : Nat := a * b / 2 ^ 128

def invert (v : Nat) : Nat :=
  let result := udiv (2 ^ 64) v
  if mulByInvert (ofInt v) result / 2 ^ 64 = 1 then result else result + 1

def round (a : Nat) : Nat := (a + 2 ^ 63) / 2 ^ 64

/-- The sum of both halves is a long double. -/
def getDouble (a : Nat) : ℚ := toDouble (roundToDigits 64 (a / 2 ^ 64))

end Int64x64

namespace Time

open Int64x64

/-- Time::From for seconds. -/
def fromSeconds (value : Nat) : Time := round (mul value (ofInt 1000000000))

/-- Seconds of a double. -/
def seconds (value : ℚ) : Time := fromSeconds (ofDouble value)

def getSeconds (t : Time) : ℚ := getDouble (mulByInvert (ofInt t) (invert 1000000000))

end Time

/-- The number of bits is a uint32_t. -/
def DataRate.calculateBytesTxTime (bps bytes : Nat) : Time :=
  Time.fromSeconds (Int64x64.udiv (Int64x64.ofInt (bytes * 8 % 2 ^ 32)) (Int64x64.ofInt bps))

example : DataRate.calculateBytesTxTime 15000000 1002 = 534400 := by decide

example : Time.getSeconds 43000000 = toDouble (43 / 1000) := by decide +kernel

namespace Int64x64

theorem mul_ofInt (a b : Nat) : mul a (ofInt b) = a * b := by
  unfold mul ofInt
  rw [← Nat.mul_assoc]
  exact Nat.mul_div_cancel _ (Nat.two_pow_pos 64)

theorem abs_ofDouble_sub_le {value : ℚ} (nonneg : 0 ≤ value) :
    |(ofDouble value : ℚ) / 2 ^ 64 - value| ≤ 1 / 2 ^ 65 := by
  have whole : ((⌊value⌋.toNat : Nat) : ℚ) = ⌊value⌋ := by
    exact_mod_cast Int.toNat_of_nonneg (Int.floor_nonneg.mpr nonneg)
  have scaled : (0 : ℚ) ≤ Int.fract value * 2 ^ 64 + 1 / 2 := by
    have fract := Int.fract_nonneg value
    positivity
  have places : ((⌊Int.fract value * 2 ^ 64 + 1 / 2⌋.toNat : Nat) : ℚ) =
      ⌊Int.fract value * 2 ^ 64 + 1 / 2⌋ := by
    exact_mod_cast Int.toNat_of_nonneg (Int.floor_nonneg.mpr scaled)
  have low := Int.floor_le (Int.fract value * 2 ^ 64 + 1 / 2)
  have high := Int.lt_floor_add_one (Int.fract value * 2 ^ 64 + 1 / 2)
  have sum := Int.floor_add_fract value
  have exact : (ofDouble value : ℚ) = ⌊value⌋ * 2 ^ 64 + ⌊Int.fract value * 2 ^ 64 + 1 / 2⌋ := by
    rw [ofDouble, Nat.cast_add, Nat.cast_mul, whole, places]
    norm_num
  rw [abs_le, exact]
  constructor <;> linarith

theorem round_near (a : Nat) : |(round a : ℚ) - a / 2 ^ 64| ≤ 1 / 2 := by
  have floor : round a * 2 ^ 64 ≤ a + 2 ^ 63 ∧ a + 2 ^ 63 < (round a + 1) * 2 ^ 64 := by
    unfold round
    omega
  have low : (round a * 2 ^ 64 : ℚ) ≤ a + 2 ^ 63 := by exact_mod_cast floor.1
  have high : (a + 2 ^ 63 : ℚ) < (round a + 1) * 2 ^ 64 := by exact_mod_cast floor.2
  rw [abs_le]
  constructor <;> linarith

end Int64x64

namespace Time

open Int64x64

/-- A time in whole nanoseconds is off by half of one. -/
theorem abs_fromSeconds_sub_le (value : Nat) :
    |(fromSeconds value : ℚ) - 1000000000 * (value / 2 ^ 64)| ≤ 1 / 2 := by
  have near := round_near (value * 1000000000)
  rw [fromSeconds, mul_ofInt]
  push_cast at near
  rwa [mul_comm (value : ℚ), mul_div_assoc] at near

theorem abs_seconds_sub_le {value : ℚ} (nonneg : 0 ≤ value) :
    |(seconds value : ℚ) - 1000000000 * value| ≤ 1 / 2 + 1 / 2 ^ 35 := by
  have rounded := abs_le.mp (abs_fromSeconds_sub_le (ofDouble value))
  have read := abs_le.mp (abs_ofDouble_sub_le nonneg)
  rw [seconds, abs_le]
  constructor <;> linarith

@[simp] theorem seconds_zero : seconds 0 = 0 := by decide +kernel

end Time

/-- A transmission time is less than a nanosecond shorter than its bits take. -/
theorem DataRate.bits_le_calculateBytesTxTime {bps bytes : Nat} (positive : 0 < bps)
    (short : bytes < 2 ^ 29) :
    8 * 1000000000 * bytes ≤ bps * (calculateBytesTxTime bps bytes + 1) := by
  have bits : bytes * 8 % 2 ^ 32 = bytes * 8 := Nat.mod_eq_of_lt (by omega)
  have quotient : Int64x64.udiv (Int64x64.ofInt (bytes * 8)) (Int64x64.ofInt bps) =
      bytes * 8 * 2 ^ 64 / bps := by
    unfold Int64x64.udiv Int64x64.ofInt
    exact Nat.mul_div_mul_right _ _ (by positivity)
  have nanoseconds : calculateBytesTxTime bps bytes =
      (bytes * 8 * 2 ^ 64 / bps * 1000000000 + 2 ^ 63) / 2 ^ 64 := by
    rw [calculateBytesTxTime, bits, quotient, Time.fromSeconds, Int64x64.mul_ofInt, Int64x64.round]
  have divided := Nat.lt_mul_div_succ (bytes * 8 * 2 ^ 64) positive
  have rounded : bytes * 8 * 2 ^ 64 / bps * 1000000000 + 1000000000 ≤
      (calculateBytesTxTime bps bytes + 1) * 2 ^ 64 := by
    rw [nanoseconds]
    omega
  apply Nat.le_of_mul_le_mul_right _ (Nat.two_pow_pos 64)
  calc 8 * 1000000000 * bytes * 2 ^ 64 = bytes * 8 * 2 ^ 64 * 1000000000 := by ring
    _ ≤ bps * (bytes * 8 * 2 ^ 64 / bps + 1) * 1000000000 := Nat.mul_le_mul_right _ divided.le
    _ = bps * (bytes * 8 * 2 ^ 64 / bps * 1000000000 + 1000000000) := by ring
    _ ≤ bps * ((calculateBytesTxTime bps bytes + 1) * 2 ^ 64) := Nat.mul_le_mul_left _ rounded
    _ = _ := by ring

end QbbNet
