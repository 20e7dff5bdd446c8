import Mathlib.Data.Int.Log
import Mathlib.Algebra.Order.Ring.Pow
import Mathlib.Data.Rat.Floor
import Mathlib.Tactic.Linarith
import Mathlib.Tactic.Ring
import Mathlib.Tactic.Positivity

set_option autoImplicit false

/- Rounding to numbers of so many binary digits, and to the nearest double. A finite
double is the number it stands for. -/
namespace QbbNet

/-- The nearest integer, and the even one of two that are equally near. -/
def roundHalfEven (x : ℚ) : Int :=
  let rest := x - ⌊x⌋
  if rest < 1 / 2 then ⌊x⌋
  else if 1 / 2 < rest then ⌊x⌋ + 1
  else if ⌊x⌋ % 2 = 0 then ⌊x⌋
  else ⌊x⌋ + 1

/-- The double nearest to a number that is not negative, unless it is infinite. -/
def nearestDouble (x : ℚ) : Option ℚ :=
  if x = 0 then some 0
  else
    let e := max (Int.log 2 x - 52) (-1074)
    let value := (roundHalfEven (x / 2 ^ e) : ℚ) * 2 ^ e
    if value < 2 ^ 1024 then some value else none

/-- The largest double. -/
def maxDouble : ℚ := (2 ^ 53 - 1) * 2 ^ 971

/-- The double nearest to a number that is neither negative nor too large for a double. -/
def toDouble (x : ℚ) : ℚ := (nearestDouble x).getD maxDouble

/-- A number that is not negative rounded to this many binary digits. -/
def roundToDigits (digits : Nat) (x : ℚ) : ℚ :=
  if x = 0 then 0
  else
    let e := Int.log 2 x + 1 - digits
    roundHalfEven (x / 2 ^ e) * 2 ^ e

variable {x y z : ℚ} {n m : Nat}

theorem abs_roundHalfEven_sub_le (x : ℚ) : |(roundHalfEven x : ℚ) - x| ≤ 1 / 2 := by
  have low := Int.floor_le x
  have high := Int.lt_floor_add_one x
  unfold roundHalfEven
  dsimp only
  rw [abs_le]
  split
  · constructor <;> linarith
  · split
    · push_cast
      constructor <;> linarith
    · split
      · constructor <;> linarith
      · push_cast
        constructor <;> linarith

/-- Half a unit of the last of so many digits is a part of the number. -/
theorem abs_roundHalfEven_digits (positive : 0 < x) (digits : Nat) :
    |(roundHalfEven (x / 2 ^ (Int.log 2 x + 1 - digits)) : ℚ) * 2 ^ (Int.log 2 x + 1 - digits) - x| ≤
      x / 2 ^ digits := by
  have unit : (0 : ℚ) < 2 ^ (Int.log 2 x + 1 - digits) := zpow_pos two_pos _
  have leading : (2 : ℚ) ^ (Int.log 2 x + 1 - digits) * 2 ^ digits ≤ 2 * x := by
    have log : (2 : ℚ) ^ Int.log 2 x ≤ x := Int.zpow_log_le_self Nat.one_lt_two positive
    calc (2 : ℚ) ^ (Int.log 2 x + 1 - digits) * 2 ^ digits = 2 ^ Int.log 2 x * 2 := by
          rw [← zpow_natCast, ← zpow_add₀ two_ne_zero, sub_add_cancel, zpow_add_one₀ two_ne_zero]
      _ ≤ 2 * x := by linarith
  have factored : (roundHalfEven (x / 2 ^ (Int.log 2 x + 1 - digits)) : ℚ) *
      2 ^ (Int.log 2 x + 1 - digits) - x =
      (roundHalfEven (x / 2 ^ (Int.log 2 x + 1 - digits)) - x / 2 ^ (Int.log 2 x + 1 - digits)) *
        2 ^ (Int.log 2 x + 1 - digits) := by
    rw [sub_mul, div_mul_cancel₀ x unit.ne']
  rw [factored, abs_mul, abs_of_pos unit]
  calc _ ≤ 1 / 2 * 2 ^ (Int.log 2 x + 1 - digits) :=
        mul_le_mul_of_nonneg_right (abs_roundHalfEven_sub_le _) unit.le
    _ ≤ x / 2 ^ digits := by
      rw [le_div_iff₀ (by positivity)]
      linarith

/-- A number that is in the range of the doubles. -/
structure InRange (x : ℚ) : Prop where
  low : x = 0 ∨ 2 ^ (-1022 : Int) ≤ x
  high : x < 2 ^ 1023

theorem InRange.zero : InRange 0 := ⟨.inl rfl, by positivity⟩

theorem InRange.of_le (low : 1 / 2 ^ 255 ≤ x) (high : x ≤ 2 ^ 255) : InRange x where
  low := .inr <| by
    have tiny : (2 : ℚ) ^ (-1022 : Int) ≤ 2 ^ (-255 : Int) :=
      zpow_le_zpow_right₀ one_le_two (by norm_num)
    exact tiny.trans (by simpa using low)
  high := high.trans_lt (pow_lt_pow_right₀ one_lt_two (by norm_num))

@[simp] theorem toDouble_zero : toDouble 0 = 0 := rfl

@[simp] theorem roundToDigits_zero (digits : Nat) : roundToDigits digits 0 = 0 := if_pos rfl

theorem abs_roundToDigits_sub_le (nonneg : 0 ≤ x) (digits : Nat) :
    |roundToDigits digits x - x| ≤ x / 2 ^ digits := by
  rcases nonneg.eq_or_lt with rfl | positive
  · simp
  · rw [roundToDigits, if_neg positive.ne']
    exact abs_roundHalfEven_digits positive digits

theorem abs_toDouble_sub_le (range : InRange x) : |toDouble x - x| ≤ x / 2 ^ 53 := by
  rcases range.low with rfl | low
  · simp
  have positive : 0 < x := lt_of_lt_of_le (zpow_pos two_pos _) low
  have normal : -1022 ≤ Int.log 2 x := (Int.zpow_le_iff_le_log Nat.one_lt_two positive).mp low
  have exponent : max (Int.log 2 x - 52) (-1074) = Int.log 2 x + 1 - (53 : Nat) := by omega
  have near := abs_roundHalfEven_digits positive 53
  have finite : (roundHalfEven (x / 2 ^ (Int.log 2 x + 1 - (53 : Nat))) : ℚ) *
      2 ^ (Int.log 2 x + 1 - (53 : Nat)) < 2 ^ 1024 := by
    have few : x / 2 ^ 53 ≤ x := div_le_self positive.le (one_le_pow₀ one_le_two)
    calc _ ≤ x + x := by
          have bound := (abs_le.mp near).2
          rw [sub_le_iff_le_add] at bound
          exact bound.trans (add_le_add_left few x)
      _ < 2 ^ 1023 + 2 ^ 1023 := add_lt_add range.high range.high
      _ = 2 ^ 1024 := by rw [← two_mul, ← pow_succ']
  rw [toDouble, nearestDouble, if_neg positive.ne', exponent]
  dsimp only
  rw [if_pos finite]
  exact near

/-- A rounding to a double changes a number by less than this factor. -/
def roundingFactor : ℚ := 1 + 1 / 2 ^ 52

/-- The second number is what so many roundings can make of the first. -/
structure Rounded (n : Nat) (x y : ℚ) : Prop where
  above : y ≤ x * roundingFactor ^ n
  below : x ≤ y * roundingFactor ^ n

theorem one_le_roundingFactor : 1 ≤ roundingFactor := by norm_num [roundingFactor]

theorem roundingFactor_pow_pos (n : Nat) : 0 < roundingFactor ^ n :=
  pow_pos (zero_lt_one.trans_le one_le_roundingFactor) n

namespace Rounded

theorem refl (x : ℚ) : Rounded 0 x x := ⟨by simp, by simp⟩

theorem of_abs (near : |y - x| ≤ x / 2 ^ 53) : Rounded 1 x y := by
  obtain ⟨below, above⟩ := abs_le.mp near
  have nonneg : 0 ≤ x := by
    have room := (abs_nonneg _).trans near
    exact le_of_not_gt fun negative => absurd room (not_le.mpr (div_neg_of_neg_of_pos negative
      (by positivity)))
  constructor <;>
  · unfold roundingFactor
    linarith

theorem toDouble (range : InRange x) : Rounded 1 x (toDouble x) :=
  of_abs (abs_toDouble_sub_le range)

theorem roundToDigits (nonneg : 0 ≤ x) {digits : Nat} (enough : 53 ≤ digits) :
    Rounded 1 x (roundToDigits digits x) :=
  of_abs ((abs_roundToDigits_sub_le nonneg digits).trans
    (div_le_div_of_nonneg_left nonneg (by positivity) (pow_le_pow_right₀ one_le_two enough)))

theorem trans (first : Rounded n x y) (second : Rounded m y z) : Rounded (n + m) x z where
  above := by
    calc z ≤ y * roundingFactor ^ m := second.above
      _ ≤ x * roundingFactor ^ n * roundingFactor ^ m :=
        mul_le_mul_of_nonneg_right first.above (roundingFactor_pow_pos m).le
      _ = _ := by rw [pow_add, mul_assoc]
  below := by
    calc x ≤ y * roundingFactor ^ n := first.below
      _ ≤ z * roundingFactor ^ m * roundingFactor ^ n :=
        mul_le_mul_of_nonneg_right second.below (roundingFactor_pow_pos n).le
      _ = _ := by rw [pow_add, mul_assoc, mul_comm (roundingFactor ^ m)]

theorem mul_left {a : ℚ} (nonneg : 0 ≤ a) (rounded : Rounded n x y) :
    Rounded n (a * x) (a * y) where
  above := by
    rw [mul_assoc]
    exact mul_le_mul_of_nonneg_left rounded.above nonneg
  below := by
    rw [mul_assoc]
    exact mul_le_mul_of_nonneg_left rounded.below nonneg

theorem mul_right {a : ℚ} (rounded : Rounded n x y) (nonneg : 0 ≤ a) :
    Rounded n (x * a) (y * a) := by
  rw [mul_comm x, mul_comm y]
  exact rounded.mul_left nonneg

/-- A number that is added makes the part of the roundings smaller. -/
theorem add_right {a : ℚ} (nonneg : 0 ≤ a) (rounded : Rounded n x y) :
    Rounded n (x + a) (y + a) := by
  have more : a ≤ a * roundingFactor ^ n :=
    le_mul_of_one_le_right nonneg (one_le_pow₀ one_le_roundingFactor)
  constructor
  · rw [add_mul]
    exact add_le_add rounded.above more
  · rw [add_mul]
    exact add_le_add rounded.below more

theorem add {a b : ℚ} (first : Rounded n x y) (second : Rounded n a b) :
    Rounded n (x + a) (y + b) where
  above := by
    rw [add_mul]
    exact add_le_add first.above second.above
  below := by
    rw [add_mul]
    exact add_le_add first.below second.below

theorem max {a b : ℚ} (first : Rounded n x y) (second : Rounded n a b) :
    Rounded n (max x a) (max y b) where
  above := by
    rw [max_mul_of_nonneg _ _ (roundingFactor_pow_pos n).le]
    exact max_le_max first.above second.above
  below := by
    rw [max_mul_of_nonneg _ _ (roundingFactor_pow_pos n).le]
    exact max_le_max first.below second.below

theorem one_div (positive : 0 < x) (positive' : 0 < y) (rounded : Rounded n x y) :
    Rounded n (1 / x) (1 / y) where
  above := by
    rw [div_mul_eq_mul_div, one_mul, div_le_div_iff₀ positive' positive, one_mul, mul_comm]
    exact rounded.below
  below := by
    rw [div_mul_eq_mul_div, one_mul, div_le_div_iff₀ positive positive', one_mul, mul_comm]
    exact rounded.above

theorem pos (rounded : Rounded n x y) (positive : 0 < x) : 0 < y :=
  pos_of_mul_pos_left (positive.trans_le rounded.below) (roundingFactor_pow_pos n).le

theorem nonneg (rounded : Rounded n x y) (nonneg : 0 ≤ x) : 0 ≤ y :=
  nonneg_of_mul_nonneg_left (nonneg.trans rounded.below) (roundingFactor_pow_pos n)

theorem mul {a b : ℚ} (first : Rounded n x y) (second : Rounded m a b) (left : 0 ≤ x) (right : 0 ≤ a) :
    Rounded (n + m) (x * a) (y * b) :=
  (first.mul_right right).trans (second.mul_left (first.nonneg left))

theorem mono (rounded : Rounded n x y) (nonneg : 0 ≤ x) (more : n ≤ m) : Rounded m x y where
  above := rounded.above.trans (mul_le_mul_of_nonneg_left
    (pow_le_pow_right₀ one_le_roundingFactor more) nonneg)
  below := rounded.below.trans (mul_le_mul_of_nonneg_left
    (pow_le_pow_right₀ one_le_roundingFactor more) (rounded.nonneg nonneg))

theorem abs_sub_le (rounded : Rounded n x y) (nonneg : 0 ≤ x) :
    |y - x| ≤ x * (roundingFactor ^ n - 1) := by
  have grows : 0 ≤ roundingFactor ^ n - 1 := sub_nonneg.mpr (one_le_pow₀ one_le_roundingFactor)
  rw [abs_le]
  constructor
  · rcases le_total x y with less | less
    · have room := mul_nonneg nonneg grows
      linarith
    · have part : y * (roundingFactor ^ n - 1) ≤ x * (roundingFactor ^ n - 1) :=
        mul_le_mul_of_nonneg_right less grows
      linarith [rounded.below]
  · linarith [rounded.above]

end Rounded

/-- So many roundings change a number by no more than their share of a factor of two. -/
theorem roundingFactor_pow_le (few : n ≤ 2 ^ 51) : roundingFactor ^ n ≤ 1 + n / 2 ^ 51 := by
  have most : (n : ℚ) ≤ 2 ^ 51 := by exact_mod_cast few
  have none_less : (0 : ℚ) ≤ n := Nat.cast_nonneg n
  have shrink : 1 - n / 2 ^ 52 ≤ (1 - 1 / 2 ^ 52 : ℚ) ^ n := by
    have bernoulli := one_add_mul_le_pow (show (-2 : ℚ) ≤ -(1 / 2 ^ 52) by norm_num) n
    rw [← sub_eq_add_neg] at bernoulli
    linarith
  have cancel : roundingFactor ^ n * (1 - 1 / 2 ^ 52) ^ n ≤ 1 := by
    rw [← mul_pow]
    exact pow_le_one₀ (by norm_num [roundingFactor]) (by norm_num [roundingFactor])
  have part : roundingFactor ^ n * (1 - n / 2 ^ 52) ≤ 1 :=
    (mul_le_mul_of_nonneg_left shrink (roundingFactor_pow_pos n).le).trans cancel
  have positive : (0 : ℚ) < 1 - n / 2 ^ 52 := by linarith
  refine ((le_div_iff₀ positive).mpr part).trans ((div_le_iff₀ positive).mpr ?_)
  have room : (0 : ℚ) ≤ n / 2 ^ 52 * (1 - n / 2 ^ 51) := mul_nonneg (by positivity) (by linarith)
  linarith

theorem roundingFactor_pow_le_two (few : n ≤ 2 ^ 51) : roundingFactor ^ n ≤ 2 := by
  have most : (n : ℚ) ≤ 2 ^ 51 := by exact_mod_cast few
  have bound := roundingFactor_pow_le few
  linarith

/-- Zero, or neither small nor large beyond so many binary digits. -/
def Moderate (k : Nat) (x : ℚ) : Prop := x = 0 ∨ 1 / 2 ^ k ≤ x ∧ x ≤ 2 ^ k

namespace Moderate

variable {k l : Nat}

theorem nonneg (moderate : Moderate k x) : 0 ≤ x := by
  rcases moderate with rfl | ⟨low, -⟩
  · exact le_refl 0
  · exact (by positivity : (0 : ℚ) ≤ 1 / 2 ^ k).trans low

theorem mono (moderate : Moderate k x) (more : k ≤ l) : Moderate l x := by
  have larger : (2 : ℚ) ^ k ≤ 2 ^ l := pow_le_pow_right₀ one_le_two more
  exact moderate.imp_right fun ⟨low, high⟩ =>
    ⟨(one_div_le_one_div_of_le (by positivity) larger).trans low, high.trans larger⟩

theorem inRange (moderate : Moderate k x) (few : k ≤ 255) : InRange x := by
  rcases moderate.mono few with rfl | ⟨low, high⟩
  · exact .zero
  · exact .of_le low high

theorem mul (first : Moderate k x) (second : Moderate l y) : Moderate (k + l) (x * y) := by
  rcases first with rfl | ⟨low, high⟩
  · exact .inl (zero_mul y)
  rcases second with rfl | ⟨low', high'⟩
  · exact .inl (mul_zero x)
  have positive : (0 : ℚ) ≤ 1 / 2 ^ k := by positivity
  have positive' : (0 : ℚ) ≤ 1 / 2 ^ l := by positivity
  refine .inr ⟨?_, ?_⟩
  · rw [pow_add, ← one_div_mul_one_div]
    exact mul_le_mul low low' positive' (positive.trans low)
  · rw [pow_add]
    exact mul_le_mul high high' (positive'.trans low') (by positivity)

theorem add (first : Moderate k x) (second : Moderate k y) : Moderate (k + 1) (x + y) := by
  rcases first with rfl | ⟨low, high⟩
  · rw [zero_add]
    exact second.mono (Nat.le_succ k)
  have most : y ≤ 2 ^ k := by
    rcases second with rfl | ⟨-, high'⟩
    · positivity
    · exact high'
  have less : (1 : ℚ) / 2 ^ (k + 1) ≤ 1 / 2 ^ k :=
    one_div_le_one_div_of_le (by positivity) (pow_le_pow_right₀ one_le_two (Nat.le_succ k))
  refine .inr ⟨(less.trans low).trans (le_add_of_nonneg_right second.nonneg), ?_⟩
  rw [pow_succ, mul_two]
  exact add_le_add high most

theorem one_div (moderate : Moderate k x) : Moderate k (1 / x) := by
  rcases moderate with rfl | ⟨low, high⟩
  · exact .inl (div_zero 1)
  have positive : 0 < x := lt_of_lt_of_le (by positivity) low
  refine .inr ⟨one_div_le_one_div_of_le positive high, ?_⟩
  rwa [one_div_le positive (by positivity)]

theorem rounded (moderate : Moderate k x) (rounded : Rounded n x y) (few : n ≤ 2 ^ 51) :
    Moderate (k + 1) y := by
  have factor := roundingFactor_pow_le_two few
  rcases moderate with rfl | ⟨low, high⟩
  · have above : y ≤ 0 := by simpa using rounded.above
    exact .inl (le_antisymm above (rounded.nonneg (le_refl 0)))
  · have positive : 0 < x := lt_of_lt_of_le (by positivity) low
    have below := rounded.below.trans
      (mul_le_mul_of_nonneg_left factor (rounded.nonneg positive.le))
    have above := rounded.above.trans (mul_le_mul_of_nonneg_left factor positive.le)
    refine .inr ⟨?_, ?_⟩
    · rw [pow_succ, ← one_div_mul_one_div]
      linarith
    · rw [pow_succ]
      linarith

theorem toDouble (moderate : Moderate k x) (few : k ≤ 255) :
    Rounded 1 x (toDouble x) ∧ Moderate (k + 1) (toDouble x) :=
  have rounding := Rounded.toDouble (moderate.inRange few)
  ⟨rounding, moderate.rounded rounding (by norm_num)⟩

end Moderate

/-- A sum of so many numbers between two bounds, each of them moderate, that was rounded to
a double after each addition. -/
structure RunningSum (count : Nat) (least greatest total sum : ℚ) : Prop where
  rounded : Rounded count sum total
  below : count * least ≤ sum
  above : sum ≤ count * greatest
  low : sum = 0 ∨ 1 / 2 ^ 128 ≤ sum
  high : sum ≤ count * 2 ^ 128

namespace RunningSum

variable {count : Nat} {least greatest total sum a : ℚ}

theorem zero (least greatest : ℚ) : RunningSum 0 least greatest 0 0 where
  rounded := .refl 0
  below := by simp
  above := by simp
  low := .inl rfl
  high := by simp

theorem moderate (running : RunningSum count least greatest total sum) (few : count ≤ 2 ^ 32) :
    Moderate 160 sum := by
  refine running.low.imp_right fun low => ⟨?_, ?_⟩
  · exact (one_div_le_one_div_of_le (by positivity) (by norm_num)).trans low
  · have most : (count : ℚ) ≤ 2 ^ 32 := by exact_mod_cast few
    linarith [running.high]

theorem add (running : RunningSum count least greatest total sum) (few : count < 2 ^ 32)
    (moderate : Moderate 128 a) (below : least ≤ a) (above : a ≤ greatest) :
    RunningSum (count + 1) least greatest (toDouble (total + a)) (sum + a) := by
  have nonneg : 0 ≤ sum := (running.moderate few.le).nonneg
  have exact : RunningSum (count + 1) least greatest (sum + a) (sum + a) := by
    have low : sum + a = 0 ∨ 1 / 2 ^ 128 ≤ sum + a := by
      rcases moderate with rfl | ⟨low, -⟩
      · rw [add_zero]
        exact running.low
      · exact .inr (low.trans (le_add_of_nonneg_left nonneg))
    have high : a ≤ 2 ^ 128 := by
      rcases moderate with rfl | ⟨-, high⟩
      · positivity
      · exact high
    have grows (bound : ℚ) : ((count + 1 : Nat) : ℚ) * bound = count * bound + bound := by
      rw [Nat.cast_succ, add_mul, one_mul]
    refine ⟨(Rounded.refl _).mono (add_nonneg nonneg moderate.nonneg) (Nat.zero_le _), ?_, ?_, low, ?_⟩
    · rw [grows]
      exact add_le_add running.below below
    · rw [grows]
      exact add_le_add running.above above
    · rw [grows]
      exact add_le_add running.high high
  have rounded := running.rounded.add_right moderate.nonneg
  have rounding := (((exact.moderate few).rounded rounded (by omega)).toDouble (by norm_num)).1
  exact { exact with rounded := rounded.trans rounding }

end RunningSum

end QbbNet
