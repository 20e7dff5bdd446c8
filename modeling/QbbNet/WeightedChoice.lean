import Mathlib.Algebra.BigOperators.Group.List.Lemmas
import Mathlib.Algebra.Order.BigOperators.Group.List
import Mathlib.Algebra.Order.Field.Rat
import Mathlib.Order.Interval.Finset.Nat
import Mathlib.Tactic.Linarith
import Mathlib.Tactic.Ring

set_option autoImplicit false

/- Parts of given sizes lie one after another, and a position picks the part
that it falls in. -/
namespace QbbNet.WeightedChoice

def Within (sizes : List Nat) (position i : Nat) : Prop :=
  (sizes.take i).sum ≤ position ∧ position < (sizes.take (i + 1)).sum

variable {sizes : List Nat} {position i : Nat}

variable (sizes) in
theorem sum_take_mono {m n : Nat} (le : m ≤ n) : (sizes.take m).sum ≤ (sizes.take n).sum :=
  (List.take_sublist_take_left le).sum_le_sum (by simp)

theorem sum_take_le (n : Nat) : (sizes.take n).sum ≤ sizes.sum :=
  (List.take_sublist n sizes).sum_le_sum (by simp)

theorem Within.unique {j : Nat} (within : Within sizes position i) (also : Within sizes position j) :
    i = j := by
  unfold Within at within also
  by_contra different
  by_cases lt : i < j
  · have le := sum_take_mono sizes (show i + 1 ≤ j from lt)
    omega
  · have le := sum_take_mono sizes (show j + 1 ≤ i by omega)
    omega

theorem within_cons_zero {size : Nat} : Within (size :: sizes) position 0 ↔ position < size := by
  simp [Within]

theorem within_cons_succ {size : Nat} :
    Within (size :: sizes) position (i + 1) ↔ size ≤ position ∧ Within sizes (position - size) i := by
  simp only [Within, List.take_succ_cons, List.sum_cons]
  omega

theorem exists_within (inside : position < sizes.sum) : ∃ i, Within sizes position i := by
  induction sizes generalizing position with
  | nil => exact absurd inside (Nat.not_lt_zero _)
  | cons size sizes ih =>
    rw [List.sum_cons] at inside
    by_cases first : position < size
    · exact ⟨0, within_cons_zero.mpr first⟩
    · have ⟨i, later⟩ := ih (show position - size < sizes.sum by omega)
      exact ⟨i + 1, within_cons_succ.mpr ⟨by omega, later⟩⟩

/-- Only a part that has a size is picked. -/
theorem Within.part (within : Within sizes position i) : ∃ size, sizes[i]? = some size ∧ 0 < size := by
  unfold Within at within
  by_cases part : i < sizes.length
  · rw [List.take_succ_eq_append_getElem part, List.sum_append, List.sum_singleton] at within
    exact ⟨sizes[i], List.getElem?_eq_getElem part, by omega⟩
  · rw [List.take_of_length_le (by omega), List.take_of_length_le (by omega)] at within
    omega

theorem Within.lt_length (within : Within sizes position i) : i < sizes.length := by
  have ⟨size, part, _⟩ := within.part
  exact (List.getElem?_eq_some_iff.mp part).1

/-- Another position that is far enough off falls within another part. -/
theorem Within.far {other far : Nat} (within : Within sizes position i)
    (also : Within sizes other i) (small : ∀ size ∈ sizes, size ≤ far) : other < position + far := by
  have ⟨size, part, _⟩ := within.part
  have bound := small size (List.mem_of_getElem? part)
  unfold Within at within also
  rw [List.take_add_one, List.sum_append, part] at also
  simp only [Option.toList_some, List.sum_singleton] at also
  omega

/- `position * total / range` scales a position on a line of length `range` to
one of length `total`. -/

variable {total range : Nat}

theorem scaled_lt (inside : position < range) (some_total : 0 < total) :
    position * total / range < total := by
  apply Nat.div_lt_of_lt_mul
  exact Nat.mul_lt_mul_of_pos_right inside some_total

/-- The first position that is scaled to `bound` or further. -/
def first (total range bound : Nat) : Nat := (bound * range + (total - 1)) / total

theorem le_scaled {bound : Nat} (some_total : 0 < total) (some_range : 0 < range) :
    bound ≤ position * total / range ↔ first total range bound ≤ position := by
  have rounded : first total range bound ≤ position ↔
      bound * range + (total - 1) < (position + 1) * total := by
    rw [first, ← Nat.lt_succ_iff, Nat.div_lt_iff_lt_mul some_total]
  rw [Nat.le_div_iff_mul_le some_range, rounded, Nat.add_mul]
  omega

theorem first_mono {a b : Nat} (le : a ≤ b) : first total range a ≤ first total range b :=
  Nat.div_le_div_right (Nat.add_le_add_right (Nat.mul_le_mul_right range le) _)

theorem first_le (some_total : 0 < total) {bound : Nat} (le : bound ≤ total) :
    first total range bound ≤ range := by
  rw [first, ← Nat.lt_succ_iff, Nat.div_lt_iff_lt_mul some_total, Nat.succ_mul]
  have scaled := Nat.mul_le_mul_right range le
  rw [Nat.mul_comm total range] at scaled
  omega

variable (range) in
/-- `first` rounds up. -/
theorem first_bounds (some_total : 0 < total) (bound : Nat) :
    (bound * range : ℚ) / total ≤ first total range bound ∧
      (first total range bound : ℚ) < bound * range / total + 1 := by
  have positive : (0 : ℚ) < total := by exact_mod_cast some_total
  have divided := Nat.div_add_mod (bound * range + (total - 1)) total
  have rest := Nat.mod_lt (bound * range + (total - 1)) some_total
  rw [← first, Nat.mul_comm total] at divided
  have low : bound * range ≤ first total range bound * total := by omega
  have high : first total range bound * total < bound * range + total := by omega
  have low' : (bound * range : ℚ) ≤ first total range bound * total := by exact_mod_cast low
  have high' : (first total range bound * total : ℚ) < bound * range + total := by exact_mod_cast high
  constructor
  · rwa [div_le_iff₀ positive]
  · rw [← sub_lt_iff_lt_add, lt_div_iff₀ positive, sub_mul, one_mul]
    linarith

theorem card_scaled {a b : Nat} (some_total : 0 < total) (some_range : 0 < range) (le : b ≤ total) :
    ((Finset.range range).filter fun position =>
      a ≤ position * total / range ∧ position * total / range < b).card =
        first total range b - first total range a := by
  rw [← Nat.card_Ico]
  congr 1
  ext position
  have lower : a ≤ position * total / range ↔ first total range a ≤ position :=
    le_scaled some_total some_range
  have upper : b ≤ position * total / range ↔ first total range b ≤ position :=
    le_scaled some_total some_range
  have within : first total range b ≤ range := first_le some_total le
  rw [Finset.mem_filter, Finset.mem_range, Finset.mem_Ico]
  omega

/-- The positions that are scaled to a part are as many as its share of the
line, to within one. -/
theorem card_share {a b : Nat} (some_total : 0 < total) (some_range : 0 < range) (le : a ≤ b)
    (within : b ≤ total) :
    |(((Finset.range range).filter fun position =>
      a ≤ position * total / range ∧ position * total / range < b).card : ℚ) -
        range * (b - a : Nat) / total| < 1 := by
  have lower := first_bounds range some_total a
  have upper := first_bounds range some_total b
  have share : (range * (b - a : Nat) : ℚ) / total = b * range / total - a * range / total := by
    rw [Nat.cast_sub le]
    ring
  rw [card_scaled some_total some_range within, Nat.cast_sub (first_mono le), share, abs_lt]
  constructor <;> linarith

/-- Parts of one size are picked as if each counted for one. -/
theorem within_replicate {size count : Nat} (some_size : 0 < size) :
    Within (List.replicate count size) (position * (count * size) / range) i ↔
      i < count ∧ i = position * count / range := by
  have scaled : position * (count * size) / range / size = position * count / range := by
    rw [Nat.div_div_eq_div_mul, ← Nat.mul_assoc, Nat.mul_div_mul_right _ _ some_size]
  have sum_take (n : Nat) : ((List.replicate count size).take n).sum = min n count * size := by
    rw [List.take_replicate, List.sum_replicate_nat]
  have bounds : i * size ≤ position * (count * size) / range ∧
      position * (count * size) / range < (i + 1) * size ↔ i = position * count / range := by
    rw [← scaled, eq_comm, Nat.div_eq_iff some_size, Nat.add_mul]
    omega
  constructor
  · intro within
    have part := within.lt_length
    rw [List.length_replicate] at part
    unfold Within at within
    rw [sum_take, sum_take, Nat.min_eq_left part.le, Nat.min_eq_left part] at within
    exact ⟨part, bounds.mp within⟩
  · intro ⟨part, same⟩
    unfold Within
    rw [sum_take, sum_take, Nat.min_eq_left part.le, Nat.min_eq_left part]
    exact bounds.mpr same

end QbbNet.WeightedChoice
