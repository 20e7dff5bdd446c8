import Mathlib.Algebra.Order.Field.Basic
import Mathlib.Data.List.Pairwise
import Mathlib.Tactic.Ring
import Mathlib.Tactic.Linarith
import Mathlib.Tactic.GCongr

set_option autoImplicit false

/- Linear interpolation between the points of a rising table. -/
namespace QbbNet.Interpolation

variable {K : Type*} [Field K]

/-- The value at `x` of the line through two points. -/
def line (p q : K × K) (x : K) : K := p.2 + (x - p.1) / (q.1 - p.1) * (q.2 - p.2)

theorem line_left (p q : K × K) : line p q p.1 = p.2 := by simp [line]

variable [LinearOrder K]

/-- The points stand from left to right, and none is lower than one before it. -/
def Rising (points : List (K × K)) : Prop := points.Pairwise fun p q => p.1 < q.1 ∧ p.2 ≤ q.2

/-- The line of the first segment that does not end before `x`. Behind the last point
the value stays. -/
def interpolate : List (K × K) → K → K
  | [], _ => 0
  | [p], _ => p.2
  | p :: q :: rest, x => if x ≤ q.1 then line p q x else interpolate (q :: rest) x

theorem interpolate_first {p : K × K} {rest : List (K × K)} (rising : Rising (p :: rest)) :
    interpolate (p :: rest) p.1 = p.2 := by
  cases rest with
  | nil => rfl
  | cons q rest =>
    have before := (List.rel_of_pairwise_cons rising List.mem_cons_self).1
    rw [interpolate, if_pos before.le, line_left]

/-- A search for the first point that is not before `x` finds the segment. -/
theorem interpolate_segment {points : List (K × K)} {j : Nat} {p q : K × K} {x : K}
    (left : points[j]? = some p) (right : points[j + 1]? = some q)
    (passed : ∀ r ∈ points.take (j + 1), r.1 < x) (inside : x ≤ q.1) :
    interpolate points x = line p q x := by
  induction j generalizing points with
  | zero =>
    match points with
    | first :: second :: rest =>
      have same : first = p := Option.some.inj left
      have next : second = q := Option.some.inj right
      rw [interpolate, same, next, if_pos inside]
  | succ j ih =>
    match points with
    | first :: second :: rest =>
      have behind : second.1 < x := passed second (by simp)
      rw [interpolate, if_neg (not_le.mpr behind)]
      apply ih left right
      intro r member
      exact passed r (List.mem_cons_of_mem first member)

variable [IsStrictOrderedRing K]

theorem line_right {p q : K × K} (before : p.1 < q.1) : line p q q.1 = q.2 := by
  have apart : q.1 - p.1 ≠ 0 := by linarith
  rw [line, div_self apart]
  ring

theorem line_mono {p q : K × K} (before : p.1 < q.1) (below : p.2 ≤ q.2) {x y : K} (le : x ≤ y) :
    line p q x ≤ line p q y := by
  have width : 0 ≤ q.1 - p.1 := by linarith
  have height : 0 ≤ q.2 - p.2 := by linarith
  unfold line
  gcongr

theorem interpolate_mono {p : K × K} {rest : List (K × K)} (rising : Rising (p :: rest)) {x y : K}
    (inside : p.1 ≤ x) (le : x ≤ y) : interpolate (p :: rest) x ≤ interpolate (p :: rest) y := by
  induction rest generalizing p x with
  | nil => exact le_refl _
  | cons q rest ih =>
    have ⟨before, below⟩ := List.rel_of_pairwise_cons rising List.mem_cons_self
    rw [interpolate, interpolate]
    by_cases right : y ≤ q.1
    · rw [if_pos right, if_pos (le.trans right)]
      exact line_mono before below le
    rw [if_neg right]
    have rest_mono {z : K} := ih (x := z) rising.of_cons
    by_cases left : x ≤ q.1
    · rw [if_pos left]
      calc
        line p q x ≤ line p q q.1 := line_mono before below left
        _ = q.2 := line_right before
        _ = interpolate (q :: rest) q.1 := (interpolate_first rising.of_cons).symm
        _ ≤ interpolate (q :: rest) y := rest_mono le_rfl (not_le.mp right).le
    · rw [if_neg left]
      exact rest_mono (not_le.mp left).le le

theorem interpolate_point {points : List (K × K)} (rising : Rising points) {p : K × K}
    (member : p ∈ points) : interpolate points p.1 = p.2 := by
  induction points with
  | nil => cases member
  | cons first rest ih =>
    rcases List.mem_cons.mp member with rfl | later
    · exact interpolate_first rising
    cases rest with
    | nil => cases later
    | cons q rest =>
      have before := (List.rel_of_pairwise_cons rising List.mem_cons_self).1
      rw [interpolate]
      by_cases left : p.1 ≤ q.1
      · rcases List.mem_cons.mp later with rfl | behind
        · rw [if_pos le_rfl, line_right before]
        · exact absurd left (not_le.mpr (List.rel_of_pairwise_cons rising.of_cons behind).1)
      · rw [if_neg left]
        exact ih rising.of_cons later

theorem interpolate_le {points : List (K × K)} (rising : Rising points) {a : K × K}
    (member : a ∈ points) {x y : K} (inside : a.1 ≤ x) (le : x ≤ y) :
    interpolate points x ≤ interpolate points y := by
  cases points with
  | nil => cases member
  | cons p rest =>
    have first : p.1 ≤ a.1 := by
      rcases List.mem_cons.mp member with rfl | later
      · exact le_rfl
      · exact (List.rel_of_pairwise_cons rising later).1.le
    exact interpolate_mono rising (first.trans inside) le

/-- Between two points of the table the value lies between theirs. -/
theorem interpolate_between {points : List (K × K)} (rising : Rising points) {a b : K × K}
    (left : a ∈ points) (right : b ∈ points) {x : K} (after : a.1 ≤ x) (before : x ≤ b.1) :
    a.2 ≤ interpolate points x ∧ interpolate points x ≤ b.2 := by
  have low := interpolate_le rising left le_rfl after
  have high := interpolate_le rising left after before
  rw [interpolate_point rising left] at low
  rw [interpolate_point rising right] at high
  exact ⟨low, high⟩

end QbbNet.Interpolation
