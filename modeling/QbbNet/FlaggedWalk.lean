import Mathlib.Data.List.Nodup
import Mathlib.Logic.Relation

set_option autoImplicit false

/- A depth-first walk of a directed graph that flags each vertex after the walk from it,
and goes on to the children without a flag. -/
namespace QbbNet

namespace FlaggedWalk

variable {V : Type} [DecidableEq V] (children : V → List V)

/-- The vertices that are visited, in order, and those that are flagged then. -/
def walk : Nat → V → List V → Option (List V × List V)
  | 0, _, _ => none
  | fuel + 1, v, flagged =>
      (children v).foldlM (fun s child =>
        if child ∈ s.2 then some s
        else (walk fuel child s.2).map fun below => (s.1 ++ below.1, child :: below.2))
        ([v], flagged)

variable {children}

/-- The children of a flagged vertex are flagged. -/
def Closed (children : V → List V) (flagged : List V) : Prop := ∀ v ∈ flagged, children v ⊆ flagged

def Reaches (children : V → List V) : V → V → Prop :=
  Relation.ReflTransGen fun v child => child ∈ children v

/-- What a walk from `v` has visited and flagged so far. -/
structure Walking (children : V → List V) (v : V) (before visited flagged : List V) : Prop where
  start : v ∈ visited
  nodup : visited.Nodup
  fresh : ∀ x ∈ visited, x ∉ before
  flags : ∀ x, x ∈ flagged ↔ x ∈ before ∨ (x ∈ visited ∧ x ≠ v)
  reached : ∀ x ∈ visited, Reaches children v x
  closed : Closed children flagged

/-- What it has when it ends. -/
structure Walks (children : V → List V) (v : V) (before visited flagged : List V) : Prop
    extends Walking children v before visited flagged where
  finished : children v ⊆ flagged

variable {rank : V → Nat} {top : Nat}

omit [DecidableEq V] in
theorem Reaches.rank_le (down : ∀ v, ∀ child ∈ children v, rank v < rank child) {v x : V}
    (reaches : Reaches children v x) : rank v ≤ rank x := by
  induction reaches with
  | refl => exact Nat.le_refl _
  | tail _ child ih => exact Nat.le_trans ih (Nat.le_of_lt (down _ _ child))

omit [DecidableEq V] in
/-- The walk goes on with what the walk from a child has visited. -/
theorem Walking.child {v child : V} {before visited flagged more flagged' : List V}
    (walking : Walking children v before visited flagged) (here : child ∈ children v)
    (apart : ∀ x ∈ more, x ≠ v) (walks : Walks children child flagged more flagged') :
    Walking children v before (visited ++ more) (child :: flagged') := by
  constructor
  · exact List.mem_append_left _ walking.start
  · refine List.nodup_append.mpr ⟨walking.nodup, walks.nodup, ?_⟩
    rintro x old _ mem rfl
    exact walks.fresh x mem ((walking.flags x).mpr (Or.inr ⟨old, apart x mem⟩))
  · intro x mem
    rcases List.mem_append.mp mem with old | found
    · exact walking.fresh x old
    · exact fun earlier => walks.fresh x found ((walking.flags x).mpr (Or.inl earlier))
  · intro x
    rw [List.mem_cons, walks.flags, walking.flags, List.mem_append]
    constructor
    · rintro (rfl | (earlier | ⟨old, ne⟩) | ⟨found, _⟩)
      · exact Or.inr ⟨Or.inr walks.start, apart _ walks.start⟩
      · exact Or.inl earlier
      · exact Or.inr ⟨Or.inl old, ne⟩
      · exact Or.inr ⟨Or.inr found, apart x found⟩
    · rintro (earlier | ⟨old | found, ne⟩)
      · exact Or.inr (Or.inl (Or.inl earlier))
      · exact Or.inr (Or.inl (Or.inr ⟨old, ne⟩))
      · by_cases same : x = child
        · exact Or.inl same
        · exact Or.inr (Or.inr ⟨found, same⟩)
  · intro x mem
    rcases List.mem_append.mp mem with old | found
    · exact walking.reached x old
    · exact (walks.reached x found).head here
  · intro x mem
    rcases List.mem_cons.mp mem with rfl | mem
    · exact fun y below => List.mem_cons_of_mem _ (walks.finished below)
    · exact fun y below => List.mem_cons_of_mem _ (walks.closed x mem below)

/-- With fuel for all ranks above that of a vertex, the walk from it ends. -/
theorem walk_eq_some (down : ∀ v, ∀ child ∈ children v, rank v < rank child ∧ rank child ≤ top)
    (fuel : Nat) : ∀ (v : V) (before : List V), v ∉ before → Closed children before →
      top - rank v < fuel →
      ∃ visited after, walk children fuel v before = some (visited, after) ∧
        Walks children v before visited after := by
  induction fuel with
  | zero =>
    intro v before _ _ enough
    omega
  | succ fuel ih =>
    intro v before new closed enough
    have step (left : List V) : left ⊆ children v → ∀ visited flagged,
        Walking children v before visited flagged →
        ∃ visited' after, left.foldlM (fun s child =>
            if child ∈ s.2 then some s
            else (walk children fuel child s.2).map fun below => (s.1 ++ below.1, child :: below.2))
            (visited, flagged) = some (visited', after) ∧
          Walking children v before visited' after ∧ left ⊆ after ∧ flagged ⊆ after := by
      induction left with
      | nil =>
        intro _ visited flagged walking
        exact ⟨visited, flagged, rfl, walking, List.nil_subset _, List.Subset.refl _⟩
      | cons child left later =>
        intro subset visited flagged walking
        obtain ⟨here, rest⟩ := List.cons_subset.mp subset
        obtain ⟨above, below_top⟩ := down v child here
        rw [List.foldlM_cons]
        by_cases known : child ∈ flagged
        · obtain ⟨visited', after, folded, walking', left_after, kept⟩ :=
            later rest visited flagged walking
          refine ⟨visited', after, ?_, walking', List.cons_subset.mpr ⟨kept known, left_after⟩, kept⟩
          simp only [known, ↓reduceIte]
          exact folded
        · obtain ⟨more, flagged', walked, walks⟩ := ih child flagged known walking.closed (by omega)
          have rank_le {x : V} (mem : x ∈ more) : rank child ≤ rank x :=
            (walks.reached x mem).rank_le fun v child mem => (down v child mem).1
          have apart {x : V} (mem : x ∈ more) : x ≠ v := by
            rintro rfl
            have := rank_le mem
            omega
          have next := walking.child here (fun x mem => apart mem) walks
          obtain ⟨visited', after, folded, walking', left_after, kept⟩ := later rest _ _ next
          refine ⟨visited', after, ?_, walking',
            List.cons_subset.mpr ⟨kept List.mem_cons_self, left_after⟩, fun x mem =>
              kept (List.mem_cons_of_mem _ ((walks.flags x).mpr (Or.inl mem)))⟩
          simp only [known, ↓reduceIte, walked, Option.map_some]
          exact folded
    obtain ⟨visited, after, folded, walking, finished, _⟩ :=
      step (children v) (List.Subset.refl _) [v] before
        ⟨List.mem_singleton_self v, List.nodup_singleton v,
          fun x mem => List.mem_singleton.mp mem ▸ new, fun x => by simp,
          fun x mem => List.mem_singleton.mp mem ▸ Relation.ReflTransGen.refl, closed⟩
    exact ⟨visited, after, folded, walking, finished⟩

omit [DecidableEq V] in
/-- A walk without flags visits all that can be reached, each vertex once. -/
theorem Walks.mem_iff {v x : V} {visited after : List V}
    (walks : Walks children v [] visited after) : x ∈ visited ↔ Reaches children v x := by
  refine ⟨walks.reached x, fun reaches => ?_⟩
  have inside : x = v ∨ x ∈ after := by
    induction reaches with
    | refl => exact Or.inl rfl
    | tail _ child ih =>
      rcases ih with rfl | flagged
      · exact Or.inr (walks.finished child)
      · exact Or.inr (walks.closed _ flagged child)
  rcases inside with rfl | flagged
  · exact walks.start
  · rcases (walks.flags x).mp flagged with nowhere | ⟨seen, _⟩
    · cases nowhere
    · exact seen

end FlaggedWalk

end QbbNet
