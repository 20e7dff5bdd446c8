import Mathlib.Data.List.Chain
import Mathlib.Tactic.Common

set_option autoImplicit false

/- A switch with two thresholds: it goes on when a level has risen to the upper
one, and off when it has fallen to the lower one. -/
namespace Hysteresis

/-- Strictly alternating values, `true` first. -/
structure Alternating (flips : List Bool) : Prop where
  first : ∀ b ∈ flips.head?, b = true
  chain : flips.IsChain (· ≠ ·)

theorem Alternating.nil : Alternating [] := ⟨by simp, .nil⟩

theorem Alternating.concat_iff {flips : List Bool} {b : Bool} :
    Alternating (flips ++ [b]) ↔ Alternating flips ∧ b ≠ flips.getLast?.getD false := by
  cases flips with
  | nil =>
    constructor
    · intro alternating
      have first : b = true := alternating.first b rfl
      exact ⟨.nil, by simp [first]⟩
    · intro ⟨_, flips⟩
      exact ⟨by simpa using flips, .singleton b⟩
  | cons a flips =>
    constructor
    · intro ⟨first, chain⟩
      have ⟨before, _, flips⟩ := List.isChain_append.mp chain
      refine ⟨⟨first, before⟩, ?_⟩
      rw [List.getLast?_eq_getLast_of_ne_nil (List.cons_ne_nil _ _)] at flips ⊢
      exact (flips _ rfl b rfl).symm
    · intro ⟨⟨first, chain⟩, flips⟩
      refine ⟨first, List.isChain_append.mpr ⟨chain, .singleton b, ?_⟩⟩
      rw [List.getLast?_eq_getLast_of_ne_nil (List.cons_ne_nil _ _)] at flips ⊢
      intro last is_last b' is_b
      cases is_last
      cases is_b
      exact flips.symm

/-- Of alternating values, one more is `true` than `false` exactly while the last is `true`. -/
theorem Alternating.count {flips : List Bool} (alternating : Alternating flips) :
    flips.count true = flips.count false + (flips.getLast?.getD false).toNat := by
  induction flips using List.reverseRecOn with
  | nil => rfl
  | append_singleton flips b ih =>
    have ⟨before, flipped⟩ := concat_iff.mp alternating
    have counted := ih before
    rw [List.count_append, List.count_append, counted, List.getLast?_concat, Option.getD_some]
    cases last : flips.getLast?.getD false with
    | true =>
      rw [last] at flipped
      have off : b = false := by simpa using flipped
      subst off
      simp
    | false =>
      rw [last] at flipped
      have on : b = true := by simpa using flipped
      subst on
      simp

structure Switch where
  level : Nat
  on : Bool
  flips : List Bool

namespace Switch

def flip (s : Switch) (on : Bool) : Switch := { s with on, flips := s.flips ++ [on] }

def trip (high : Nat) (s : Switch) : Switch :=
  if s.on = false ∧ high ≤ s.level then s.flip true else s

def release (low : Nat) (s : Switch) : Switch :=
  if s.on = true ∧ s.level ≤ low then s.flip false else s

/-- One more, against both thresholds. -/
def rise (high low : Nat) (s : Switch) : Switch :=
  release low (trip high { s with level := s.level + 1 })

/-- One less, against the lower threshold. -/
def fall (low : Nat) (s : Switch) : Switch := release low { s with level := s.level - 1 }

/-- The position of the switch goes with its level and with how it was flipped.
The thresholds may be equal, or the other way round. -/
structure Sound (high low : Nat) (s : Switch) : Prop where
  on_above : s.on = true → low < s.level
  off_below : s.on = false → s.level < high ∨ s.level ≤ low
  alternating : Alternating s.flips
  last : s.on = s.flips.getLast?.getD false

variable {high low : Nat} {s : Switch}

theorem Sound.count (sound : Sound high low s) :
    s.flips.count true = s.flips.count false + s.on.toNat := by
  rw [sound.last]
  exact sound.alternating.count

theorem flip_alternating (alternating : Alternating s.flips) (last : s.on = s.flips.getLast?.getD false)
    {on : Bool} (flips : on ≠ s.on) : Alternating (s.flip on).flips :=
  Alternating.concat_iff.mpr ⟨alternating, last ▸ flips⟩

theorem flip_last (on : Bool) : (s.flip on).on = (s.flip on).flips.getLast?.getD false := by
  simp [flip]

/-- `release` puts the switch right if only the lower threshold is passed. -/
theorem release_sound (alternating : Alternating s.flips) (last : s.on = s.flips.getLast?.getD false)
    (off_below : s.on = false → s.level < high ∨ s.level ≤ low) : Sound high low (release low s) := by
  unfold release
  by_cases below : s.on = true ∧ s.level ≤ low
  · rw [if_pos below]
    constructor
    · intro on
      cases on
    · intro _
      exact .inr below.2
    · exact flip_alternating alternating last (by simp [below.1])
    · exact flip_last false
  · rw [if_neg below]
    constructor
    · intro on
      exact Nat.lt_of_not_le fun reached => below ⟨on, reached⟩
    · exact off_below
    · exact alternating
    · exact last

theorem Sound.rise (sound : Sound high low s) : Sound high low (s.rise high low) := by
  unfold Switch.rise
  by_cases above : s.on = false ∧ high ≤ s.level + 1
  · have tripped : trip high { s with level := s.level + 1 } =
        flip { s with level := s.level + 1 } true := if_pos above
    rw [tripped]
    apply release_sound
    · exact flip_alternating (s := { s with level := s.level + 1 }) sound.alternating sound.last
        (by simp [above.1])
    · exact flip_last true
    · intro off
      cases off
  · have stays : trip high { s with level := s.level + 1 } = { s with level := s.level + 1 } :=
      if_neg above
    rw [stays]
    apply release_sound
    · exact sound.alternating
    · exact sound.last
    · intro off
      exact .inl (Nat.lt_of_not_le fun reached => above ⟨off, reached⟩)

theorem Sound.fall (sound : Sound high low s) : Sound high low (s.fall low) := by
  apply release_sound
  · exact sound.alternating
  · exact sound.last
  · intro off
    have below := sound.off_below off
    show s.level - 1 < high ∨ s.level - 1 ≤ low
    omega

end Switch

end Hysteresis
