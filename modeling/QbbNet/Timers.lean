import QbbNet.HandlerEdits

set_option autoImplicit false

/- The timers of a device, and what each of them has to be pending for. -/
namespace QbbNet

open Simulator

variable {ι ν : Type} {cfg : Config ι ν} {i j : ι} {h after : Host ι}

inductive Timer
  | tx
  | refill (prio : Fin 8)
  | drain
  deriving DecidableEq

/-- The events that a timer of device `i` is armed with. -/
def Timer.Runs (i : ι) : Timer → Event ι → Prop
  | .tx, event => event = .tryDequeue i
  | .refill prio, event => event = .resumeFromPause i prio ∨ event = .refillMacQueueFromHold i prio
  | .drain, event => event = .doIngressDrain i

theorem Event.timerOf_iff {event : Event ι} :
    event.TimerOf i ↔ ∃ timer : Timer, timer.Runs i event := by
  constructor
  · intro own
    cases event with
    | tryDequeue => exact ⟨.tx, by rw [Timer.Runs, show _ = i from own]⟩
    | doIngressDrain => exact ⟨.drain, by rw [Timer.Runs, show _ = i from own]⟩
    | resumeFromPause _ prio => exact ⟨.refill prio, Or.inl (by rw [show _ = i from own])⟩
    | refillMacQueueFromHold _ prio => exact ⟨.refill prio, Or.inr (by rw [show _ = i from own])⟩
    | transmitComplete | receive | hookL3Divert => exact False.elim own
  · rintro ⟨timer, runs⟩
    cases timer with
    | tx | drain => subst runs; rfl
    | refill prio => rcases runs with rfl | rfl <;> rfl

theorem Timer.Runs.unique {timer other : Timer} {event : Event ι} (first : timer.Runs i event)
    (second : other.Runs i event) : timer = other := by
  cases timer <;> cases other <;> grind [Timer.Runs]

theorem Event.TimerOf.unique {event : Event ι} (first : event.TimerOf i) (second : event.TimerOf j) :
    i = j := by
  cases event with
  | transmitComplete | receive | hookL3Divert => exact False.elim first
  | tryDequeue | doIngressDrain | resumeFromPause | refillMacQueueFromHold =>
    exact (show _ = i from first).symm.trans second

def QbbNetDevice.timer (d : QbbNetDevice) : Timer → EventId
  | .tx => d.txEvent
  | .refill prio => d.refillEvent prio
  | .drain => d.ingressDrainEv

def Host.Pending (h : Host ι) (timer : Timer) : Prop := h.sim.isExpired (h.dev.timer timer) = false

/-- Every timer of the device names its one live event, if it is pending. -/
def Host.Slots (i : ι) (h : Host ι) : Prop :=
  ∀ timer, Slot h.sim (h.dev.timer timer) (timer.Runs i)

/-- The same packets wait, and the same classes pause until the same times. -/
structure SameWork (d e : QbbNetDevice) : Prop where
  txq : e.txq = d.txq
  macHold : e.macHold = d.macHold
  paused : e.paused = d.paused
  pauseUntil : e.pauseUntil = d.pauseUntil
  ingressQ : e.ingressQ = d.ingressQ

theorem SameWork.trans {d e f : QbbNetDevice} (first : SameWork d e) (second : SameWork e f) :
    SameWork d f where
  txq := second.txq.trans first.txq
  macHold := second.macHold.trans first.macHold
  paused := second.paused.trans first.paused
  pauseUntil := second.pauseUntil.trans first.pauseUntil
  ingressQ := second.ingressQ.trans first.ingressQ

/-- No timer of the device is touched. -/
structure Still (i : ι) (h after : Host ι) : Prop where
  same : SameFor (Event.TimerOf i) h.sim after.sim
  timer : after.dev.timer = h.dev.timer
  work : SameWork h.dev after.dev

namespace Still

theorem refl (h : Host ι) : Still i h h := ⟨.refl _ _, rfl, ⟨rfl, rfl, rfl, rfl, rfl⟩⟩

theorem trans {mid : Host ι} (first : Still i h mid) (second : Still i mid after) :
    Still i h after where
  same := first.same.trans second.same
  timer := second.timer.trans first.timer
  work := first.work.trans second.work

theorem sameFor (still : Still i h after) (timer : Timer) :
    SameFor (timer.Runs i) h.sim after.sim :=
  still.same.mono fun _ runs => Event.timerOf_iff.mpr ⟨timer, runs⟩

theorem slots (still : Still i h after) (slots : h.Slots i) : after.Slots i := by
  intro timer
  rw [still.timer]
  exact (still.sameFor timer).slot (slots timer)

theorem pending (still : Still i h after) (slots : h.Slots i) (timer : Timer) :
    after.Pending timer ↔ h.Pending timer := by
  rw [Host.Pending, Host.Pending, still.timer, (still.sameFor timer).isExpired (slots timer)]

end Still

/-- One timer is armed. -/
structure Arms (i : ι) (timer : Timer) (delay : Time) (h after : Host ι) : Prop where
  scheduled : ∃ event, timer.Runs i event ∧ after.sim = (h.sim.schedule delay event).2
  timers : after.dev.timer =
    Function.update h.dev.timer timer (some ⟨h.sim.currentTs + delay, h.sim.uid⟩)
  work : SameWork h.dev after.dev

namespace Arms

variable {timer : Timer} {delay : Time}

theorem tx (delay : Time) : Arms i .tx delay h (h.scheduleTxEvent i delay) where
  scheduled := ⟨_, rfl, rfl⟩
  timers := by
    funext timer
    cases timer <;> rfl
  work := ⟨rfl, rfl, rfl, rfl, rfl⟩

theorem drain (delay : Time) : Arms i .drain delay h (h.scheduleIngressDrainEv i delay) where
  scheduled := ⟨_, rfl, rfl⟩
  timers := by
    funext timer
    cases timer <;> rfl
  work := ⟨rfl, rfl, rfl, rfl, rfl⟩

theorem refill (prio : Fin 8) (delay : Time) {event : Event ι} (runs : (Timer.refill prio).Runs i event) :
    Arms i (.refill prio) delay h (h.scheduleRefillEvent prio delay event) where
  scheduled := ⟨_, runs, rfl⟩
  timers := by
    funext timer
    cases timer with
    | tx | drain => rfl
    | refill other =>
      rcases eq_or_ne other prio with rfl | different
      · simp [QbbNetDevice.timer, Host.scheduleRefillEvent]
      · simp [QbbNetDevice.timer, Host.scheduleRefillEvent, different]
  work := ⟨rfl, rfl, rfl, rfl, rfl⟩

theorem slots (arms : Arms i timer delay h after) (slots : h.Slots i)
    (expired : ¬ h.Pending timer) : after.Slots i := by
  obtain ⟨event, runs, sim⟩ := arms.scheduled
  intro other
  rw [arms.timers, sim]
  rcases eq_or_ne other timer with rfl | different
  · rw [Function.update_self]
    exact (slots other).schedule_own (by simpa [Host.Pending] using expired) delay runs
  · rw [Function.update_of_ne different]
    exact (SameFor.schedule h.sim delay fun own => different (own.unique runs)).slot (slots other)

theorem pending_self (arms : Arms i timer delay h after) : after.Pending timer := by
  obtain ⟨event, runs, sim⟩ := arms.scheduled
  rw [Host.Pending, arms.timers, sim, Function.update_self]
  exact isExpired_scheduled h.sim delay event

theorem pending_other (arms : Arms i timer delay h after) {other : Timer} (different : other ≠ timer) :
    after.Pending other ↔ h.Pending other := by
  obtain ⟨event, runs, sim⟩ := arms.scheduled
  rw [Host.Pending, Host.Pending, arms.timers, sim, Function.update_of_ne different,
    isExpired_schedule]

end Arms

end QbbNet
