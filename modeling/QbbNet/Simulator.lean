import Mathlib.Data.List.Sort
import Mathlib.Tactic.Common

set_option autoImplicit false

/- Discrete-event simulation with cancellable events. Events run in the order
of their timestamps; events of one timestamp run in the order they were scheduled. -/
namespace QbbNet

structure EventKey where
  ts : Nat
  uid : Nat
  deriving DecidableEq

/-- A default-constructed identifier names no event. -/
abbrev EventId := Option EventKey

def EventKey.le (a b : EventKey) : Prop := a.ts < b.ts ∨ a.ts = b.ts ∧ a.uid ≤ b.uid

structure Scheduled (ε : Type) where
  key : EventKey
  impl : ε
  deriving DecidableEq

variable {ε : Type}

def Scheduled.le (a b : Scheduled ε) : Prop := a.key.le b.key

instance : DecidableRel EventKey.le := fun a b =>
  inferInstanceAs (Decidable (a.ts < b.ts ∨ a.ts = b.ts ∧ a.uid ≤ b.uid))

instance : DecidableRel (Scheduled.le (ε := ε)) := fun a b =>
  inferInstanceAs (Decidable (a.key.le b.key))

instance : Std.Total (Scheduled.le (ε := ε)) where
  total a b := by
    simp only [Scheduled.le, EventKey.le]
    omega

instance : IsTrans (Scheduled ε) Scheduled.le where
  trans a b c := by
    simp only [Scheduled.le, EventKey.le]
    omega

/-- The pending events are kept in running order and lie after the event that
is running now; no two of them share an identifier. -/
structure Simulator (ε : Type) where
  currentTs : Nat
  currentUid : Nat
  uid : Nat
  events : List (Scheduled ε)
  cancelled : List Nat
  sorted : events.Pairwise Scheduled.le
  distinct : (events.map (·.key.uid)).Nodup
  future : ∀ e ∈ events, currentTs < e.key.ts ∨ currentTs = e.key.ts ∧ currentUid < e.key.uid
  issued : ∀ e ∈ events, 0 < e.key.uid ∧ e.key.uid < uid
  current_lt : currentUid < uid
  cancelled_lt : ∀ u ∈ cancelled, u < uid

namespace Simulator

/-- Identifiers 0 to 3 are reserved. -/
def init : Simulator ε where
  currentTs := 0
  currentUid := 0
  uid := 4
  events := []
  cancelled := []
  sorted := .nil
  distinct := .nil
  future := by simp
  issued := by simp
  current_lt := by omega
  cancelled_lt := by simp

def isExpired (sim : Simulator ε) : EventId → Bool
  | none => true
  | some key =>
      decide (key.ts < sim.currentTs) ||
        (decide (key.ts = sim.currentTs) && decide (key.uid ≤ sim.currentUid)) ||
        decide (key.uid ∈ sim.cancelled)

def schedule (sim : Simulator ε) (delay : Nat) (impl : ε) : EventId × Simulator ε :=
  (some ⟨sim.currentTs + delay, sim.uid⟩,
    { sim with
      uid := sim.uid + 1
      events := sim.events.orderedInsert Scheduled.le ⟨⟨sim.currentTs + delay, sim.uid⟩, impl⟩
      sorted := sim.sorted.orderedInsert _ _
      distinct := by
        refine ((List.perm_orderedInsert _ _ _).map _).nodup_iff.mpr ?_
        simp only [List.map_cons, List.nodup_cons, List.mem_map, not_exists, not_and]
        refine ⟨fun e member same => ?_, sim.distinct⟩
        have := (sim.issued e member).2
        omega
      future := by
        intro e member
        rcases (List.mem_orderedInsert _).mp member with rfl | member
        · have := sim.current_lt
          dsimp
          omega
        · exact sim.future e member
      issued := by
        intro e member
        rcases (List.mem_orderedInsert _).mp member with rfl | member
        · have := sim.current_lt
          dsimp
          omega
        · have := sim.issued e member
          omega
      current_lt := Nat.lt_succ_of_lt sim.current_lt
      cancelled_lt := fun u member => Nat.lt_succ_of_lt (sim.cancelled_lt u member) })

/-- A cancelled event stays in the calendar and does nothing when its turn comes. -/
def cancel (sim : Simulator ε) : EventId → Simulator ε
  | none => sim
  | some key =>
      if h : sim.isExpired (some key) = false ∧ key.uid < sim.uid then
        { sim with
          cancelled := key.uid :: sim.cancelled
          cancelled_lt := by
            intro u member
            rcases List.mem_cons.mp member with rfl | member
            · exact h.2
            · exact sim.cancelled_lt u member }
      else sim

/-- The next event leaves the calendar and becomes the current one. A
cancelled event has no handler left to run. -/
def processOneEvent (sim : Simulator ε) : Option (Option ε × Simulator ε) :=
  match h : sim.events with
  | [] => none
  | next :: rest =>
      some (if next.key.uid ∈ sim.cancelled then none else some next.impl,
        { sim with
          currentTs := next.key.ts
          currentUid := next.key.uid
          events := rest
          sorted := (h ▸ sim.sorted).of_cons
          distinct := by
            have := sim.distinct
            rw [h, List.map_cons, List.nodup_cons] at this
            exact this.2
          future := by
            intro e member
            have order := List.rel_of_pairwise_cons (h ▸ sim.sorted) member
            have fresh : next.key.uid ≠ e.key.uid := by
              have := sim.distinct
              rw [h, List.map_cons, List.nodup_cons] at this
              exact fun same => this.1 (same ▸ List.mem_map_of_mem member)
            simp only [Scheduled.le, EventKey.le] at order
            omega
          issued := fun e member => sim.issued e (h ▸ List.mem_cons_of_mem _ member)
          current_lt := (sim.issued next (h ▸ List.mem_cons_self)).2 })

/-- Something outside the calendar happens at time `t`, before every pending event of that time. -/
def elapse (sim : Simulator ε) (t : Nat) : Option (Simulator ε) :=
  if h : sim.currentTs < t ∧ ∀ e ∈ sim.events, t ≤ e.key.ts then
    some { sim with
      currentTs := t
      currentUid := 0
      future := by
        intro e member
        have := h.2 e member
        have := (sim.issued e member).1
        omega
      current_lt := by have := sim.current_lt; omega }
  else none

end Simulator

end QbbNet
