import QbbNet.Simulator

set_option autoImplicit false

/- An event slot is an identifier that a component re-arms: the only live event
of its kind, while it is not expired. -/
namespace QbbNet.Simulator

variable {ε : Type}

def Live (sim : Simulator ε) (e : Scheduled ε) : Prop :=
  e ∈ sim.events ∧ e.key.uid ∉ sim.cancelled

theorem eq_of_uid {sim : Simulator ε} {a b : Scheduled ε} (ha : a ∈ sim.events)
    (hb : b ∈ sim.events) (same : a.key.uid = b.key.uid) : a = b :=
  List.inj_on_of_nodup_map sim.distinct ha hb same

theorem Live.not_expired {sim : Simulator ε} {e : Scheduled ε} (live : sim.Live e) :
    sim.isExpired (some e.key) = false := by
  have later := sim.future e live.1
  simp only [isExpired, live.2, decide_false, Bool.or_false, Bool.or_eq_false_iff,
    Bool.and_eq_false_iff, decide_eq_false_iff_not]
  omega

@[simp] theorem isExpired_none (sim : Simulator ε) : sim.isExpired none = true := rfl

@[simp] theorem schedule_currentTs (sim : Simulator ε) (delay : Nat) (impl : ε) :
    (sim.schedule delay impl).2.currentTs = sim.currentTs := rfl

@[simp] theorem schedule_fst (sim : Simulator ε) (delay : Nat) (impl : ε) :
    (sim.schedule delay impl).1 = some ⟨sim.currentTs + delay, sim.uid⟩ := rfl

@[simp] theorem isExpired_schedule (sim : Simulator ε) (delay : Nat) (impl : ε) (id : EventId) :
    (sim.schedule delay impl).2.isExpired id = sim.isExpired id := by
  cases id <;> rfl

theorem live_schedule (sim : Simulator ε) (delay : Nat) (impl : ε) (e : Scheduled ε) :
    (sim.schedule delay impl).2.Live e ↔
      e = ⟨⟨sim.currentTs + delay, sim.uid⟩, impl⟩ ∨ sim.Live e := by
  simp only [Live, schedule, List.mem_orderedInsert]
  constructor
  · rintro ⟨rfl | member, kept⟩
    · exact Or.inl rfl
    · exact Or.inr ⟨member, kept⟩
  · rintro (rfl | ⟨member, kept⟩)
    · exact ⟨Or.inl rfl, fun gone => Nat.lt_irrefl _ (sim.cancelled_lt _ gone)⟩
    · exact ⟨Or.inr member, kept⟩

theorem isExpired_scheduled (sim : Simulator ε) (delay : Nat) (impl : ε) :
    (sim.schedule delay impl).2.isExpired (sim.schedule delay impl).1 = false :=
  Live.not_expired ((live_schedule sim delay impl _).mpr (Or.inl rfl))

@[simp] theorem cancel_currentTs (sim : Simulator ε) (id : EventId) :
    (sim.cancel id).currentTs = sim.currentTs := by
  unfold cancel
  split
  · rfl
  · split <;> rfl

theorem live_cancel (sim : Simulator ε) (id : EventId) {e : Scheduled ε}
    (live : (sim.cancel id).Live e) : sim.Live e := by
  unfold cancel at live
  split at live
  · exact live
  · split at live
    · exact ⟨live.1, fun gone => live.2 (List.mem_cons_of_mem _ gone)⟩
    · exact live

theorem isExpired_cancel (sim : Simulator ε) (id other : EventId)
    (expired : sim.isExpired other = true) : (sim.cancel id).isExpired other = true := by
  unfold cancel
  split
  · exact expired
  · split
    · cases other with
      | none => rfl
      | some key =>
        simp only [isExpired, Bool.or_eq_true, decide_eq_true_eq] at expired ⊢
        exact expired.imp_right (List.mem_cons_of_mem _)
    · exact expired

theorem cancel_of_expired {sim : Simulator ε} {id : EventId} (expired : sim.isExpired id = true) :
    sim.cancel id = sim := by
  cases id with
  | none => rfl
  | some key => simp only [cancel, expired, Bool.true_eq_false, false_and, ↓reduceDIte]

theorem Live.cancel_eq {sim : Simulator ε} {e : Scheduled ε} (live : sim.Live e) :
    (sim.cancel (some e.key)).events = sim.events ∧
      (sim.cancel (some e.key)).cancelled = e.key.uid :: sim.cancelled := by
  have pending : sim.isExpired (some e.key) = false ∧ e.key.uid < sim.uid :=
    ⟨live.not_expired, (sim.issued e live.1).2⟩
  simp only [cancel, pending, and_self, ↓reduceDIte]

/-- What taking the next event out of the calendar does. -/
theorem processOneEvent_eq {sim after : Simulator ε} {impl : Option ε}
    (step : sim.processOneEvent = some (impl, after)) :
    ∃ next, sim.events = next :: after.events ∧
      after.currentTs = next.key.ts ∧ after.currentUid = next.key.uid ∧
      after.cancelled = sim.cancelled ∧ after.uid = sim.uid ∧
      impl = if next.key.uid ∈ sim.cancelled then none else some next.impl := by
  unfold processOneEvent at step
  split at step
  · cases step
  · rename_i next rest events
    simp only [Option.some.injEq, Prod.mk.injEq] at step
    obtain ⟨rfl, rfl⟩ := step
    exact ⟨next, events, rfl, rfl, rfl, rfl, rfl⟩

theorem processOneEvent_mono {sim after : Simulator ε} {impl : Option ε}
    (step : sim.processOneEvent = some (impl, after)) : sim.currentTs ≤ after.currentTs := by
  obtain ⟨next, events, ts, -⟩ := processOneEvent_eq step
  have := sim.future next (events ▸ List.mem_cons_self)
  omega

theorem processOneEvent_live {sim after : Simulator ε} {impl : Option ε}
    (step : sim.processOneEvent = some (impl, after)) {e : Scheduled ε} :
    after.Live e ↔ sim.Live e ∧ e.key.uid ≠ after.currentUid := by
  obtain ⟨next, events, -, uid, cancelled, -⟩ := processOneEvent_eq step
  simp only [Live, events, cancelled, List.mem_cons, uid]
  constructor
  · rintro ⟨member, kept⟩
    refine ⟨⟨Or.inr member, kept⟩, fun same => ?_⟩
    have fresh := sim.distinct
    rw [events, List.map_cons, List.nodup_cons] at fresh
    exact fresh.1 (same ▸ List.mem_map_of_mem member)
  · rintro ⟨⟨rfl | member, kept⟩, other⟩
    · exact absurd rfl other
    · exact ⟨member, kept⟩

/-- The event whose handler runs was live. -/
theorem processOneEvent_impl {sim after : Simulator ε} {impl : ε}
    (step : sim.processOneEvent = some (some impl, after)) :
    sim.Live ⟨⟨after.currentTs, after.currentUid⟩, impl⟩ := by
  obtain ⟨next, events, ts, uid, -, -, handler⟩ := processOneEvent_eq step
  split at handler
  · cases handler
  · rename_i kept
    cases handler
    rw [ts, uid]
    exact ⟨events ▸ List.mem_cons_self, kept⟩

/-- What has expired stays so while time passes. -/
theorem isExpired_of_later {sim after : Simulator ε} {id : EventId}
    (later : sim.currentTs < after.currentTs ∨
      sim.currentTs = after.currentTs ∧ sim.currentUid ≤ after.currentUid)
    (cancelled : after.cancelled = sim.cancelled) (expired : sim.isExpired id = true) :
    after.isExpired id = true := by
  cases id with
  | none => rfl
  | some key =>
    simp only [isExpired, Bool.or_eq_true, Bool.and_eq_true, decide_eq_true_eq, cancelled]
      at expired ⊢
    rcases expired with (early | now) | gone
    · exact Or.inl (by omega)
    · exact Or.inl (by omega)
    · exact Or.inr gone

theorem processOneEvent_expired {sim after : Simulator ε} {impl : Option ε}
    (step : sim.processOneEvent = some (impl, after)) {id : EventId}
    (expired : sim.isExpired id = true) : after.isExpired id = true := by
  obtain ⟨next, events, ts, uid, cancelled, -⟩ := processOneEvent_eq step
  have future := sim.future next (events ▸ List.mem_cons_self)
  exact isExpired_of_later (by omega) cancelled expired

theorem elapse_eq {sim after : Simulator ε} {t : Nat} (step : sim.elapse t = some after) :
    sim.currentTs < t ∧ after.currentTs = t ∧ after.events = sim.events ∧
      after.cancelled = sim.cancelled ∧ ∀ e ∈ sim.events, t ≤ e.key.ts := by
  unfold elapse at step
  split at step
  · rename_i h
    cases step
    exact ⟨h.1, rfl, rfl, rfl, h.2⟩
  · cases step

theorem elapse_live {sim after : Simulator ε} {t : Nat} (step : sim.elapse t = some after)
    {e : Scheduled ε} : after.Live e ↔ sim.Live e := by
  obtain ⟨-, -, events, cancelled, -⟩ := elapse_eq step
  simp only [Live, events, cancelled]

theorem elapse_expired {sim after : Simulator ε} {t : Nat} (step : sim.elapse t = some after)
    {id : EventId} (expired : sim.isExpired id = true) : after.isExpired id = true := by
  obtain ⟨later, ts, -, cancelled, -⟩ := elapse_eq step
  exact isExpired_of_later (Or.inl (ts ▸ later)) cancelled expired

/-- `id` names the one live event that satisfies `own`, if it is not expired. -/
structure Slot (sim : Simulator ε) (id : EventId) (own : ε → Prop) : Prop where
  armed : sim.isExpired id = false → ∃ e, sim.Live e ∧ id = some e.key ∧ own e.impl
  unique : ∀ e, sim.Live e → own e.impl → id = some e.key

namespace Slot

variable {sim after : Simulator ε} {id : EventId} {own : ε → Prop}

theorem init (own : ε → Prop) : Slot Simulator.init none own where
  armed := by simp
  unique e live := absurd live.1 List.not_mem_nil

theorem schedule_own (slot : Slot sim id own) (expired : sim.isExpired id = true)
    (delay : Nat) {impl : ε} (mine : own impl) :
    Slot (sim.schedule delay impl).2 (sim.schedule delay impl).1 own where
  armed _ := ⟨_, (live_schedule sim delay impl _).mpr (Or.inl rfl), rfl, mine⟩
  unique e live he := by
    rcases (live_schedule sim delay impl e).mp live with rfl | live
    · rfl
    · have pending := live.not_expired
      rw [← slot.unique e live he, expired] at pending
      cases pending

theorem cancel_expired (slot : Slot sim id own) : (sim.cancel id).isExpired id = true := by
  cases pending : sim.isExpired id with
  | true => exact isExpired_cancel sim id id pending
  | false =>
    obtain ⟨e, live, rfl, -⟩ := slot.armed pending
    simp [isExpired, live.cancel_eq.2]

theorem cancel_own (slot : Slot sim id own) : Slot (sim.cancel id) id own where
  armed pending := by
    rw [slot.cancel_expired] at pending
    cases pending
  unique e live he := slot.unique e (live_cancel sim id live) he

theorem processOneEvent {impl : Option ε} (slot : Slot sim id own)
    (step : sim.processOneEvent = some (impl, after)) : Slot after id own where
  armed pending := by
    have before : sim.isExpired id = false := by
      cases expired : sim.isExpired id with
      | false => rfl
      | true => rw [processOneEvent_expired step expired] at pending; cases pending
    obtain ⟨e, live, rfl, mine⟩ := slot.armed before
    refine ⟨e, (processOneEvent_live step).mpr ⟨live, fun same => ?_⟩, rfl, mine⟩
    obtain ⟨next, events, ts, uid, -⟩ := processOneEvent_eq step
    have popped : e = next :=
      eq_of_uid live.1 (events ▸ List.mem_cons_self) (same.trans uid)
    simp [isExpired, popped, ts, uid] at pending
  unique e live he := slot.unique e ((processOneEvent_live step).mp live).1 he

/-- The running handler's own slot has just expired, at the time it was armed for. -/
theorem processOneEvent_own {impl : ε} (slot : Slot sim id own)
    (step : sim.processOneEvent = some (some impl, after)) (mine : own impl) :
    sim.isExpired id = false ∧ after.isExpired id = true ∧
      id = some ⟨after.currentTs, after.currentUid⟩ := by
  have live := processOneEvent_impl step
  have same := slot.unique _ live mine
  refine ⟨same ▸ live.not_expired, ?_, same⟩
  rw [same]
  simp [isExpired]

theorem processOneEvent_other {impl : Option ε} (slot : Slot sim id own)
    (step : sim.processOneEvent = some (impl, after))
    (foreign : ∀ handler, impl = some handler → ¬ own handler) :
    after.isExpired id = sim.isExpired id := by
  cases expired : sim.isExpired id with
  | true => exact processOneEvent_expired step expired
  | false =>
    obtain ⟨e, live, rfl, mine⟩ := slot.armed expired
    refine Live.not_expired ((processOneEvent_live step).mpr ⟨live, fun same => ?_⟩)
    obtain ⟨next, events, ts, uid, -, -, handler⟩ := processOneEvent_eq step
    have popped : e = next :=
      eq_of_uid live.1 (events ▸ List.mem_cons_self) (same.trans uid)
    subst popped
    rw [if_neg live.2] at handler
    exact foreign _ handler mine

theorem elapse {t : Nat} (slot : Slot sim id own) (step : sim.elapse t = some after) :
    Slot after id own where
  armed pending := by
    have before : sim.isExpired id = false := by
      cases expired : sim.isExpired id with
      | false => rfl
      | true => rw [elapse_expired step expired] at pending; cases pending
    obtain ⟨e, live, he⟩ := slot.armed before
    exact ⟨e, (elapse_live step).mpr live, he⟩
  unique e live he := slot.unique e ((elapse_live step).mp live) he

theorem elapse_isExpired {t : Nat} (slot : Slot sim id own) (step : sim.elapse t = some after) :
    after.isExpired id = sim.isExpired id := by
  cases expired : sim.isExpired id with
  | true => exact elapse_expired step expired
  | false =>
    obtain ⟨e, live, rfl, -⟩ := slot.armed expired
    exact ((elapse_live step).mpr live).not_expired

end Slot

/-- The live events of one kind are the same in both, at the same time. -/
structure SameFor (own : ε → Prop) (sim after : Simulator ε) : Prop where
  currentTs : after.currentTs = sim.currentTs
  live : ∀ e, own e.impl → (after.Live e ↔ sim.Live e)
  expired : ∀ id, sim.isExpired id = true → after.isExpired id = true

namespace SameFor

variable {sim mid after : Simulator ε} {own own' : ε → Prop}

theorem refl (own : ε → Prop) (sim : Simulator ε) : SameFor own sim sim :=
  ⟨rfl, fun _ _ => Iff.rfl, fun _ expired => expired⟩

theorem trans (first : SameFor own sim mid) (second : SameFor own mid after) :
    SameFor own sim after where
  currentTs := second.currentTs.trans first.currentTs
  live e mine := (second.live e mine).trans (first.live e mine)
  expired id expired := second.expired id (first.expired id expired)

theorem mono (same : SameFor own sim after) (narrower : ∀ impl, own' impl → own impl) :
    SameFor own' sim after :=
  ⟨same.currentTs, fun e mine => same.live e (narrower _ mine), same.expired⟩

theorem schedule (sim : Simulator ε) (delay : Nat) {impl : ε} (foreign : ¬ own impl) :
    SameFor own sim (sim.schedule delay impl).2 where
  currentTs := rfl
  live e mine := by
    rw [live_schedule]
    refine or_iff_right fun new => ?_
    rw [new] at mine
    exact foreign mine
  expired id expired := by rwa [isExpired_schedule]

/-- Cancelling an event of another kind. -/
theorem cancel {id : EventId}
    (armed : sim.isExpired id = false → ∃ e, sim.Live e ∧ id = some e.key ∧ own' e.impl)
    (disjoint : ∀ impl, own impl → ¬ own' impl) : SameFor own sim (sim.cancel id) where
  currentTs := cancel_currentTs sim id
  live e mine := by
    refine ⟨live_cancel sim id, fun live => ?_⟩
    cases pending : sim.isExpired id with
    | true => rwa [cancel_of_expired pending]
    | false =>
      obtain ⟨held, heldLive, rfl, foreign⟩ := armed pending
      have other : e.key.uid ≠ held.key.uid := by
        intro same
        rw [eq_of_uid live.1 heldLive.1 same] at mine
        exact disjoint _ mine foreign
      obtain ⟨events, cancelled⟩ := heldLive.cancel_eq
      refine ⟨events ▸ live.1, ?_⟩
      rw [cancelled, List.mem_cons, not_or]
      exact ⟨other, live.2⟩
  expired other expired := isExpired_cancel sim id other expired

theorem isExpired {id : EventId} (same : SameFor own sim after) (slot : Slot sim id own) :
    after.isExpired id = sim.isExpired id := by
  cases pending : sim.isExpired id with
  | true => exact same.expired id pending
  | false =>
    obtain ⟨e, live, rfl, mine⟩ := slot.armed pending
    exact ((same.live e mine).mpr live).not_expired

theorem slot {id : EventId} (same : SameFor own sim after) (slot : Slot sim id own) :
    Slot after id own where
  armed pending := by
    rw [same.isExpired slot] at pending
    obtain ⟨e, live, he, mine⟩ := slot.armed pending
    exact ⟨e, (same.live e mine).mpr live, he, mine⟩
  unique e live mine := slot.unique e ((same.live e mine).mp live) mine

end SameFor

end QbbNet.Simulator
