import Mathlib.Data.List.Infix
import Mathlib.Data.List.Sort
import Mathlib.Tactic.Common

set_option autoImplicit false

/- Spans of a list, each with the place where it starts, and what they cover of it. -/
namespace QbbNet

structure Span (α : Type) where
  start : Nat
  items : List α
  deriving DecidableEq

namespace Span

variable {α : Type} {s other : Span α} {whole : List α}

def stop (s : Span α) : Nat := s.start + s.items.length

def Covers (s : Span α) (place : Nat) : Prop := s.start ≤ place ∧ place < s.stop

instance (s : Span α) (place : Nat) : Decidable (s.Covers place) :=
  inferInstanceAs (Decidable (_ ∧ _))

/-- A span that is not empty and is that part of the list. -/
structure Of (s : Span α) (whole : List α) : Prop where
  nonempty : s.items ≠ []
  content : s.items <+: whole.drop s.start

theorem Of.length_pos (part : s.Of whole) : 0 < s.items.length :=
  List.length_pos_iff.mpr part.nonempty

theorem Of.stop_le (part : s.Of whole) : s.stop ≤ whole.length := by
  have positive := part.length_pos
  have fits := part.content.length_le
  rw [List.length_drop] at fits
  unfold stop
  omega

theorem Of.items_eq (part : s.Of whole) : s.items = (whole.drop s.start).take s.items.length :=
  List.prefix_iff_eq_take.mp part.content

/-- A span of a span. -/
theorem Of.trans (inner : other.Of s.items) (part : s.Of whole) :
    Span.Of ⟨s.start + other.start, other.items⟩ whole where
  nonempty := inner.nonempty
  content := by
    refine inner.content.trans ?_
    rw [← List.drop_drop]
    exact List.IsPrefix.drop part.content other.start

/-- How far spans, taken one after another, reach in a list of which a part is covered
already; none if they leave a gap. -/
def reach (reached : Nat) : List (Span α) → Option Nat
  | [] => some reached
  | s :: rest => if reached < s.start then none else reach (max reached s.stop) rest

/-- What a span has beyond a front of the list that it touches. -/
theorem Of.extend (part : s.Of whole) {reached : Nat} (touches : s.start ≤ reached) :
    whole.take reached ++ s.items.drop (reached - s.start) = whole.take (max reached s.stop) := by
  by_cases beyond : reached ≤ s.stop
  · have rest : s.items.drop (reached - s.start) =
        (whole.drop reached).take (s.stop - reached) := by
      rw [part.items_eq, List.drop_take, List.drop_drop, Nat.add_sub_cancel' touches]
      refine congrArg (List.take · _) ?_
      unfold stop
      omega
    rw [rest, max_eq_right beyond, ← List.take_add, Nat.add_sub_cancel' beyond]
  · have none_left : s.items.drop (reached - s.start) = [] := by
      refine List.drop_eq_nil_of_le ?_
      unfold stop at beyond
      omega
    rw [none_left, List.append_nil, max_eq_left (Nat.le_of_not_le beyond)]

/-- What is reached is where one of the spans stops that stops last. -/
theorem reach_stop {parts : List (Span α)} :
    ∀ {reached last : Nat}, reach reached parts = some last →
      reached ≤ last ∧ (∀ s ∈ parts, s.stop ≤ last) ∧
        (last = reached ∨ ∃ s ∈ parts, last = s.stop) := by
  induction parts with
  | nil =>
    intro reached last covers
    cases covers
    exact ⟨Nat.le_refl _, fun _ => nofun, Or.inl rfl⟩
  | cons s rest ih =>
    intro reached last covers
    unfold reach at covers
    split at covers
    · cases covers
    · obtain ⟨above, stops, ends⟩ := ih covers
      refine ⟨(le_max_left _ _).trans above, ?_, ?_⟩
      · exact List.forall_mem_cons.mpr ⟨(le_max_right _ _).trans above, stops⟩
      · rcases ends with same | ⟨other, mem, same⟩
        · by_cases beyond : reached ≤ s.stop
          · exact Or.inr ⟨s, List.mem_cons_self, same.trans (max_eq_right beyond)⟩
          · exact Or.inl (same.trans (max_eq_left (Nat.le_of_not_le beyond)))
        · exact Or.inr ⟨other, List.mem_cons_of_mem s mem, same⟩

/-- What is reached beyond the start is covered. -/
theorem covers_of_reach {parts : List (Span α)} :
    ∀ {reached last : Nat}, reach reached parts = some last →
      ∀ place, reached ≤ place → place < last → ∃ s ∈ parts, s.Covers place := by
  induction parts with
  | nil =>
    intro reached last covers place above below
    cases covers
    omega
  | cons s rest ih =>
    intro reached last covers place above below
    unfold reach at covers
    split at covers
    · cases covers
    · by_cases here : place < s.stop
      · exact ⟨s, List.mem_cons_self, by omega, here⟩
      · obtain ⟨s', mem, there⟩ := ih covers place (max_le above (Nat.le_of_not_lt here)) below
        exact ⟨s', List.mem_cons_of_mem s mem, there⟩

/-- Spans in the order of their starts reach the end of the list exactly if they cover it. -/
theorem reach_eq_iff {parts : List (Span α)} (of : ∀ s ∈ parts, s.Of whole)
    (sorted : parts.Pairwise fun s other => s.start ≤ other.start) :
    ∀ {reached : Nat}, reached ≤ whole.length → (reach reached parts = some whole.length ↔
      ∀ place, reached ≤ place → place < whole.length → ∃ s ∈ parts, s.Covers place) := by
  induction parts with
  | nil =>
    intro reached inside
    simp only [reach, Option.some.injEq, List.not_mem_nil, false_and, exists_false]
    constructor
    · intro same place above below
      omega
    · intro none_left
      by_contra short
      exact none_left reached (Nat.le_refl _) (by omega)
  | cons s rest ih =>
    intro reached inside
    refine ⟨covers_of_reach, fun covered => ?_⟩
    rw [List.forall_mem_cons] at of
    rw [List.pairwise_cons] at sorted
    have bound := of.1.stop_le
    have positive := of.1.length_pos
    have touches : s.start ≤ reached := by
      by_contra gap
      obtain ⟨s', mem, there⟩ := covered reached (Nat.le_refl _) (by unfold stop at bound; omega)
      rcases List.mem_cons.mp mem with rfl | later
      · exact gap there.1
      · exact gap ((sorted.1 s' later).trans there.1)
    rw [reach, if_neg (Nat.not_lt.mpr touches), ih of.2 sorted.2 (max_le inside bound)]
    intro place above below
    obtain ⟨s', mem, there⟩ := covered place ((le_max_left _ _).trans above) below
    rcases List.mem_cons.mp mem with rfl | later
    · exact absurd there.2 (Nat.not_lt.mpr ((le_max_right _ _).trans above))
    · exact ⟨s', later, there⟩

end Span

end QbbNet
