import QbbNet.SimulatorSlots

set_option autoImplicit false

/- The pending events of one kind, in the order in which they will run. -/
namespace QbbNet.Simulator

variable {ε β : Type} {kind : ε → Option β}

def flight (kind : ε → Option β) (sim : Simulator ε) : List β :=
  sim.events.filterMap fun e => kind e.impl

theorem filterMap_orderedInsert_none {e : Scheduled ε} (other : kind e.impl = none)
    (events : List (Scheduled ε)) :
    (events.orderedInsert Scheduled.le e).filterMap (fun e => kind e.impl) =
      events.filterMap fun e => kind e.impl := by
  induction events with
  | nil => simp [other]
  | cons first rest ih =>
    rw [List.orderedInsert_cons]
    split
    · exact List.filterMap_cons_none other
    · rw [List.filterMap_cons, List.filterMap_cons, ih]

theorem filterMap_orderedInsert_last {e : Scheduled ε} {b : β} (mine : kind e.impl = some b)
    {events : List (Scheduled ε)} (sorted : events.Pairwise Scheduled.le)
    (last : ∀ other ∈ events, kind other.impl ≠ none → ¬ e.le other) :
    (events.orderedInsert Scheduled.le e).filterMap (fun e => kind e.impl) =
      events.filterMap (fun e => kind e.impl) ++ [b] := by
  induction events with
  | nil => simp [mine]
  | cons first rest ih =>
    obtain ⟨below, sorted⟩ := List.pairwise_cons.mp sorted
    rw [List.orderedInsert_cons]
    split
    · rename_i before
      -- what comes after `first` comes after `e` too, so that none of it is of the kind
      have none_later : ∀ other ∈ first :: rest, kind other.impl = none := by
        intro other member
        by_contra of_kind
        refine last other member of_kind ?_
        rcases List.mem_cons.mp member with rfl | member
        · exact before
        · exact IsTrans.trans _ _ _ before (below other member)
      have empty : (first :: rest).filterMap (fun e => kind e.impl) = [] :=
        List.filterMap_eq_nil_iff.mpr none_later
      have head : (e :: first :: rest).filterMap (fun e => kind e.impl) =
          b :: (first :: rest).filterMap (fun e => kind e.impl) := List.filterMap_cons_some mine
      rw [head, empty]
      rfl
    · rw [List.filterMap_cons, List.filterMap_cons,
        ih sorted fun other member => last other (List.mem_cons_of_mem _ member)]
      cases kind first.impl <;> rfl

theorem flight_schedule_none (sim : Simulator ε) (delay : Nat) {impl : ε} (other : kind impl = none) :
    (sim.schedule delay impl).2.flight kind = sim.flight kind := filterMap_orderedInsert_none other _

/-- An event that is not due earlier than the others of its kind runs after them. -/
theorem flight_schedule_last (sim : Simulator ε) (delay : Nat) {impl : ε} {b : β}
    (mine : kind impl = some b)
    (last : ∀ e ∈ sim.events, kind e.impl ≠ none → e.key.ts ≤ sim.currentTs + delay) :
    (sim.schedule delay impl).2.flight kind = sim.flight kind ++ [b] := by
  refine filterMap_orderedInsert_last mine sim.sorted fun e member of_kind before => ?_
  have earlier := last e member of_kind
  have issued := (sim.issued e member).2
  simp only [Scheduled.le, EventKey.le] at before
  omega

@[simp] theorem cancel_events (sim : Simulator ε) (id : EventId) :
    (sim.cancel id).events = sim.events := by
  unfold cancel
  split
  · rfl
  · split <;> rfl

@[simp] theorem flight_cancel (sim : Simulator ε) (id : EventId) :
    (sim.cancel id).flight kind = sim.flight kind := by rw [flight, cancel_events, flight]

theorem mem_schedule (sim : Simulator ε) (delay : Nat) (impl : ε) {e : Scheduled ε} :
    e ∈ (sim.schedule delay impl).2.events ↔
      e = ⟨⟨sim.currentTs + delay, sim.uid⟩, impl⟩ ∨ e ∈ sim.events := List.mem_orderedInsert _

end QbbNet.Simulator
