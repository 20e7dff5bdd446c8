import Mathlib.Data.Finset.Max
import Mathlib.Tactic.Order
import Mathlib.Tactic.Common

set_option autoImplicit false

/- Cyclic service order over a finite set of candidates: the next one served is
the least candidate above the last one served, or else the least of all. -/
namespace QbbNet.RoundRobin

variable {α : Type} [LinearOrder α]

def least (candidates : Finset α) : Option α :=
  if some_candidate : candidates.Nonempty then some (candidates.min' some_candidate) else none

def next (candidates : Finset α) (last : α) : Option α :=
  match least (candidates.filter (last < ·)) with
  | some candidate => some candidate
  | none => least candidates

theorem least_eq_some {candidates : Finset α} {x : α} :
    least candidates = some x ↔ x ∈ candidates ∧ ∀ y ∈ candidates, x ≤ y := by
  unfold least
  split
  · rename_i nonempty
    rw [Option.some.injEq, Finset.min'_eq_iff]
  · rename_i empty
    rw [Finset.not_nonempty_iff_eq_empty] at empty
    simp [empty]

theorem least_eq_none {candidates : Finset α} : least candidates = none ↔ candidates = ∅ := by
  unfold least
  split
  · rename_i nonempty
    simp [nonempty.ne_empty]
  · rename_i empty
    simpa using empty

/-- Going round from `last`, the candidate `x` is met no later than `y`. -/
def Before (last x y : α) : Prop :=
  (last < x ∧ (y ≤ last ∨ x ≤ y)) ∨ (x ≤ last ∧ y ≤ last ∧ x ≤ y)

theorem Before.antisymm {last x y : α} (xy : Before last x y) (yx : Before last y x) : x = y := by
  unfold Before at xy yx
  rcases xy with ⟨hx, hy | hy⟩ | ⟨hx, hy, le⟩ <;> rcases yx with ⟨hy', hx' | hx'⟩ | ⟨hy', hx', le'⟩ <;>
    order

/-- Going round from `x`, the turn has come as far as `last`, and not yet to `y`. -/
def Short (x y last : α) : Prop := last = x ∨ (Before x last y ∧ last ≠ y)

/-- Whoever is met before `y` leaves the turn short of `y`. -/
theorem Short.advance {x y last z : α} (short : Short x y last) (before : Before last z y)
    (other : z ≠ y) (away : y ≠ x) : z ≠ x ∧ Short x y z := by
  unfold Short Before at *
  rcases short with rfl | ⟨⟨above, low | le⟩ | ⟨_, low, le⟩, ne⟩ <;>
    rcases before with ⟨above', low' | le'⟩ | ⟨below', low', le'⟩ <;> grind

/-- The next candidate served is the first one met. -/
theorem next_eq_some {candidates : Finset α} {last x : α} :
    next candidates last = some x ↔ x ∈ candidates ∧ ∀ y ∈ candidates, Before last x y := by
  unfold next
  cases above : least (candidates.filter (last < ·)) with
  | some first =>
    rw [least_eq_some] at above
    simp only [Finset.mem_filter, and_imp] at above
    obtain ⟨⟨member, greater⟩, lowest⟩ := above
    have first_before : ∀ y ∈ candidates, Before last first y := by
      intro y hy
      rcases le_or_gt y last with low | high
      · exact Or.inl ⟨greater, Or.inl low⟩
      · exact Or.inl ⟨greater, Or.inr (lowest y hy high)⟩
    simp only [Option.some.injEq]
    constructor
    · rintro rfl
      exact ⟨member, first_before⟩
    · rintro ⟨hx, before⟩
      exact (first_before x hx).antisymm (before first member)
  | none =>
    rw [least_eq_none, Finset.filter_eq_empty_iff] at above
    rw [least_eq_some]
    constructor
    · rintro ⟨member, lowest⟩
      refine ⟨member, fun y hy => Or.inr ⟨?_, ?_, lowest y hy⟩⟩
      · exact not_lt.mp (above member)
      · exact not_lt.mp (above hy)
    · rintro ⟨member, before⟩
      refine ⟨member, fun y hy => ?_⟩
      rcases before y hy with ⟨greater, -⟩ | ⟨-, -, le⟩
      · exact absurd greater (above member)
      · exact le

theorem next_eq_none {candidates : Finset α} {last : α} :
    next candidates last = none ↔ candidates = ∅ := by
  unfold next
  cases above : least (candidates.filter (last < ·)) with
  | some first =>
    have member := (Finset.mem_filter.mp (least_eq_some.mp above).1).1
    simp only [reduceCtorEq, false_iff]
    exact Finset.ne_empty_of_mem member
  | none => exact least_eq_none

/-- A candidate that is met first among many is met first among fewer. -/
theorem next_of_subset {few many : Finset α} {last x : α} (sub : few ⊆ many)
    (first : next many last = some x) (member : x ∈ few) : next few last = some x := by
  rw [next_eq_some] at first ⊢
  exact ⟨member, fun y hy => first.2 y (sub hy)⟩

/-- Candidates ask one after another until one is served; every one stays a
candidate from then on. -/
def asks (candidates : Finset α) (last : α) : List α → Bool
  | [] => false
  | x :: xs =>
      decide (next (insert x candidates) last = some x) || asks (insert x candidates) last xs

/-- One of those who ask is served exactly if the next of all candidates is among them. -/
theorem asks_iff {candidates : Finset α} {last : α} {xs : List α} :
    asks candidates last xs = true ↔
      ∃ x ∈ xs, next (candidates ∪ xs.toFinset) last = some x := by
  induction xs generalizing candidates with
  | nil => simp [asks]
  | cons x xs ih =>
    have all : insert x candidates ∪ xs.toFinset = candidates ∪ (x :: xs).toFinset := by
      simp [Finset.insert_union]
    have sub : insert x candidates ⊆ candidates ∪ (x :: xs).toFinset :=
      all ▸ Finset.subset_union_left
    rw [asks, Bool.or_eq_true, decide_eq_true_eq, ih, all]
    constructor
    · rintro (served | ⟨y, member, first⟩)
      · cases first : next (candidates ∪ (x :: xs).toFinset) last with
        | none =>
          rw [next_eq_none] at first
          exact absurd (sub (Finset.mem_insert_self x candidates)) (first ▸ Finset.notMem_empty x)
        | some y =>
          -- the first of all cannot have been a candidate before the asking began
          refine ⟨y, ?_, rfl⟩
          rcases Finset.mem_union.mp (next_eq_some.mp first).1 with old | asking
          · have same := next_of_subset sub first (Finset.mem_insert_of_mem old)
            rw [served, Option.some.injEq] at same
            exact same ▸ List.mem_cons_self
          · exact List.mem_toFinset.mp asking
      · exact ⟨y, List.mem_cons_of_mem x member, first⟩
    · rintro ⟨y, member, first⟩
      rcases List.mem_cons.mp member with rfl | member
      · exact Or.inl (next_of_subset sub first (Finset.mem_insert_self y candidates))
      · exact Or.inr ⟨y, member, first⟩

end QbbNet.RoundRobin
