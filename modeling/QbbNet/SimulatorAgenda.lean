import QbbNet.SimulatorSlots

set_option autoImplicit false

/- What is due now, in the order in which it will run, and what is due later. -/
namespace QbbNet.Simulator

variable {ε : Type}

/-- What runs when the event's turn comes. -/
def handler (sim : Simulator ε) (e : Scheduled ε) : Option ε :=
  if e.key.uid ∈ sim.cancelled then none else some e.impl

/-- The handlers of the current time, with `none` for cancelled events, and the later events. -/
structure Agenda (sim : Simulator ε) (due : List (Option ε)) (later : List (Scheduled ε)) : Prop where
  events : ∃ now, sim.events = now ++ later ∧ (∀ e ∈ now, e.key.ts = sim.currentTs) ∧
    now.map sim.handler = due
  later : ∀ e ∈ later, sim.currentTs < e.key.ts ∧ sim.Live e

theorem orderedInsert_between (e : Scheduled ε) (front back : List (Scheduled ε))
    (after : ∀ other ∈ front, ¬ e.le other) (before : ∀ other ∈ back, e.le other) :
    (front ++ back).orderedInsert Scheduled.le e = front ++ e :: back := by
  induction front with
  | nil =>
    cases back with
    | nil => rfl
    | cons first back => exact List.orderedInsert_cons_of_le _ _ (before first List.mem_cons_self)
  | cons first front ih =>
    rw [List.cons_append, List.orderedInsert_cons, if_neg (after first List.mem_cons_self),
      ih fun other member => after other (List.mem_cons_of_mem first member)]
    rfl

namespace Agenda

variable {sim after : Simulator ε} {due : List (Option ε)} {later : List (Scheduled ε)}

/-- An event that is pending is due now or later. -/
theorem live (agenda : sim.Agenda due later) {e : Scheduled ε} (live : sim.Live e) :
    some e.impl ∈ due ∨ e ∈ later := by
  obtain ⟨now, events, -, rfl⟩ := agenda.events
  rcases List.mem_append.mp (events ▸ live.1) with member | member
  · exact Or.inl (List.mem_map.mpr ⟨e, member, if_neg live.2⟩)
  · exact Or.inr member

/-- A slot is free when nothing on the agenda is its own. -/
theorem expired (agenda : sim.Agenda due later) {id : EventId} {own : ε → Prop}
    (slot : Slot sim id own) (due_foreign : ∀ impl, some impl ∈ due → ¬ own impl)
    (later_foreign : ∀ e ∈ later, ¬ own e.impl) : sim.isExpired id = true := by
  cases pending : sim.isExpired id with
  | true => rfl
  | false =>
    obtain ⟨e, live, -, mine⟩ := slot.armed pending
    rcases agenda.live live with member | member
    · exact absurd mine (due_foreign e.impl member)
    · exact absurd mine (later_foreign e member)

/-- What is scheduled for now runs after everything else that is due. -/
theorem schedule_now (agenda : sim.Agenda due later) (impl : ε) :
    (sim.schedule 0 impl).2.Agenda (due ++ [some impl]) later := by
  obtain ⟨now, events, ts, rfl⟩ := agenda.events
  refine ⟨⟨now ++ [⟨⟨sim.currentTs, sim.uid⟩, impl⟩], ?_, ?_, ?_⟩, fun e member => ?_⟩
  · have inserted := orderedInsert_between ⟨⟨sim.currentTs, sim.uid⟩, impl⟩ now later
      (fun other member le => ?_) fun other member => Or.inl (agenda.later other member).1
    · rw [List.append_assoc, List.singleton_append, ← inserted, ← events]
      rfl
    · have older := (sim.issued other (events ▸ List.mem_append_left later member)).2
      have same := ts other member
      simp only [Scheduled.le, EventKey.le] at le
      omega
  · intro e member
    rcases List.mem_append.mp member with member | member
    · exact ts e member
    · rw [List.mem_singleton.mp member]
      rfl
  · have fresh : sim.uid ∉ sim.cancelled := fun gone => Nat.lt_irrefl _ (sim.cancelled_lt _ gone)
    rw [List.map_append, List.map_singleton]
    exact congrArg (_ ++ [·]) (if_neg fresh)
  · exact ⟨(agenda.later e member).1,
      (live_schedule sim 0 impl e).mpr (Or.inr (agenda.later e member).2)⟩

theorem schedule_later (agenda : sim.Agenda due []) {delay : Nat} (positive : 0 < delay) (impl : ε) :
    (sim.schedule delay impl).2.Agenda due [⟨⟨sim.currentTs + delay, sim.uid⟩, impl⟩] := by
  obtain ⟨now, events, ts, rfl⟩ := agenda.events
  refine ⟨⟨now, ?_, ts, rfl⟩, fun e member => ?_⟩
  · have inserted := orderedInsert_between ⟨⟨sim.currentTs + delay, sim.uid⟩, impl⟩ now []
      (fun other member le => ?_) fun _ => nofun
    · rw [← inserted, ← events]
      rfl
    · have same := ts other member
      simp only [Scheduled.le, EventKey.le] at le
      omega
  · obtain rfl := List.mem_singleton.mp member
    exact ⟨by simpa using positive, (live_schedule sim delay impl _).mpr (Or.inl rfl)⟩

/-- The only event that is pending is cancelled, and keeps its turn. -/
theorem cancel {impl : ε} (agenda : sim.Agenda [some impl] []) {id : EventId} {own : ε → Prop}
    (slot : Slot sim id own) (mine : own impl) :
    sim.isExpired id = false ∧ (sim.cancel id).Agenda [none] [] := by
  obtain ⟨now, events, ts, handlers⟩ := agenda.events
  obtain ⟨e, rfl, runs⟩ := List.map_eq_singleton_iff.mp handlers
  have live : sim.Live e := by
    refine ⟨by simp [events], fun gone => ?_⟩
    rw [handler, if_pos gone] at runs
    cases runs
  have same : e.impl = impl := by
    rw [handler, if_neg live.2] at runs
    exact Option.some.inj runs
  obtain rfl := slot.unique e live (same ▸ mine)
  obtain ⟨kept, cancelled⟩ := live.cancel_eq
  refine ⟨live.not_expired, ⟨⟨[e], kept.trans events, ?_, ?_⟩, fun _ => nofun⟩⟩
  · rwa [cancel_currentTs]
  · rw [List.map_singleton, handler, cancelled, if_pos List.mem_cons_self]

/-- Nothing is due until the next event's time. -/
theorem elapse {e : Scheduled ε} (agenda : sim.Agenda [] [e]) :
    ∃ after, sim.elapse e.key.ts = some after ∧ after.currentTs = e.key.ts ∧
      after.Agenda [some e.impl] [] := by
  obtain ⟨now, events, -, handlers⟩ := agenda.events
  obtain rfl := List.map_eq_nil_iff.mp handlers
  obtain ⟨later, live⟩ := agenda.later e List.mem_cons_self
  have possible : sim.currentTs < e.key.ts ∧ ∀ other ∈ sim.events, e.key.ts ≤ other.key.ts := by
    refine ⟨later, fun other member => ?_⟩
    rw [events, List.nil_append, List.mem_singleton] at member
    rw [member]
  refine ⟨_, dif_pos possible, rfl, ⟨⟨[e], events, ?_, ?_⟩, fun _ => nofun⟩⟩
  · rintro _ (_ | _)
    · rfl
    · contradiction
  · rw [List.map_singleton]
    exact congrArg ([·]) (if_neg live.2)

/-- The handlers that are due run one by one, at the same time. -/
theorem processOneEvent {impl : Option ε} (agenda : sim.Agenda (impl :: due) later) :
    ∃ after, sim.processOneEvent = some (impl, after) ∧ after.currentTs = sim.currentTs ∧
      after.Agenda due later := by
  obtain ⟨now, events, ts, handlers⟩ := agenda.events
  obtain ⟨e, now, rfl, runs, rest⟩ := List.map_eq_cons_iff.mp handlers
  cases step : sim.processOneEvent with
  | none =>
    unfold Simulator.processOneEvent at step
    split at step
    · rename_i empty
      rw [empty] at events
      cases events
    · cases step
  | some next =>
    obtain ⟨impl', after⟩ := next
    obtain ⟨first, popped, now_ts, -, cancelled, -, ran⟩ := processOneEvent_eq step
    rw [events, List.cons_append, List.cons.injEq] at popped
    obtain ⟨rfl, left⟩ := popped
    have clock : after.currentTs = sim.currentTs := now_ts.trans (ts e List.mem_cons_self)
    have same : after.handler = sim.handler := by
      funext other
      rw [handler, handler, cancelled]
    refine ⟨after, ?_, clock, ⟨⟨now, left.symm, fun other member => ?_, same ▸ rest⟩,
      fun other member => ?_⟩⟩
    · rw [ran, ← runs]
      rfl
    · rw [clock]
      exact ts other (List.mem_cons_of_mem e member)
    · obtain ⟨after_now, live⟩ := agenda.later other member
      rw [clock]
      exact ⟨after_now, left ▸ List.mem_append_right now member, cancelled ▸ live.2⟩

end Agenda

end QbbNet.Simulator
