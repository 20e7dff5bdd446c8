import QbbNet.WakeUpRun

set_option autoImplicit false

/- One round of the loop over the classes of a PFC frame: what it does to its class, to
the MAC queue and to the calendar, and what it leaves of the other classes. -/
namespace QbbNet

open ClassedSender Simulator

variable {ι ν : Type} {cfg : Config ι ν} {i : ι} {h mid after : Host ι} {prio other : Fin 8}

/-- What the handling of a frame relies on: a timer names its own event, every
waiting frame has a header, and every held frame waits under its own class. -/
structure Orderly (i : ι) (h : Host ι) : Prop where
  slots : h.Slots i
  framed : Framed h.dev
  lawful : Lawful frameClass (h.dev.sender h.now)

/-- The frames of a class in the MAC queue, in their order. -/
def QbbNetDevice.queued (d : QbbNetDevice) (prio : Fin 8) : List Packet :=
  ClassedSender.ofClass frameClass prio d.queue.packets

/-- The class's timer is armed with an event of this time. -/
def Host.Armed (h : Host ι) (prio : Fin 8) (time : Time) (event : Event ι) : Prop :=
  ∃ uid, h.dev.refillEvent prio = some ⟨time, uid⟩ ∧ h.sim.Live ⟨⟨time, uid⟩, event⟩

/-- Nothing that a device has of the class changes. -/
structure Kept (prio : Fin 8) (d e : QbbNetDevice) : Prop where
  paused : e.paused prio = d.paused prio
  pauseUntil : e.pauseUntil prio = d.pauseUntil prio
  pfcRxXoff : e.pfcRxXoff prio = d.pfcRxXoff prio
  pfcRxXon : e.pfcRxXon prio = d.pfcRxXon prio
  macHold : e.macHold prio = d.macHold prio
  refillEvent : e.refillEvent prio = d.refillEvent prio
  queued : e.queued prio = d.queued prio

/-- Nor do the events of its timer. -/
structure Spared (i : ι) (prio : Fin 8) (h after : Host ι) : Prop
    extends Kept prio h.dev after.dev where
  timer : SameFor ((Timer.refill prio).Runs i) h.sim after.sim

/-- The class may send from now on. As many of its held frames as fit are queued
again, behind those that are, and the others are tried again after five microseconds. -/
structure Resumed (i : ι) (prio : Fin 8) (h after : Host ι) : Prop where
  paused : after.dev.paused prio = false
  pauseUntil : after.dev.pauseUntil prio = h.now
  pfcRxXoff : after.dev.pfcRxXoff prio = h.dev.pfcRxXoff prio
  pfcRxXon : after.dev.pfcRxXon prio = h.dev.pfcRxXon prio + 1
  frames : after.dev.queued prio ++ after.dev.macHold prio =
    h.dev.queued prio ++ h.dev.macHold prio
  idle : after.dev.macHold prio = [] → ¬ after.Pending (.refill prio)
  again : after.dev.macHold prio ≠ [] →
    after.Armed prio (h.now + microSeconds 5) (.refillMacQueueFromHold i prio)

/-- The class stops until the given time, and its queued frames move to its hold. -/
structure PausedUntil (until_ : Time) (i : ι) (prio : Fin 8) (h after : Host ι) : Prop where
  paused : after.dev.paused prio = true
  pauseUntil : after.dev.pauseUntil prio = until_
  pfcRxXoff : after.dev.pfcRxXoff prio = h.dev.pfcRxXoff prio + 1
  pfcRxXon : after.dev.pfcRxXon prio = h.dev.pfcRxXon prio
  queued : after.dev.queued prio = []
  macHold : after.dev.macHold prio = h.dev.macHold prio ++ h.dev.queued prio
  timer : after.Armed prio until_ (.resumeFromPause i prio)

/-- What a PFC header orders for a class is done between two states. -/
structure PfcHeader.Obeyed (ph : PfcHeader) (attr : Attributes) (i : ι) (h after : Host ι)
    (prio : Fin 8) : Prop where
  spared : ph.enables prio = false → Spared i prio h after
  resumed : ph.enables prio = true → ph.quanta prio = 0 → Resumed i prio h after
  paused : ph.enables prio = true → ph.quanta prio ≠ 0 →
    PausedUntil (h.now + attr.quantaTime (ph.quanta prio)) i prio h after

/- Other classes -/

namespace Kept

variable {d e f : QbbNetDevice}

theorem refl (prio : Fin 8) (d : QbbNetDevice) : Kept prio d d := ⟨rfl, rfl, rfl, rfl, rfl, rfl, rfl⟩

theorem trans (first : Kept prio d e) (second : Kept prio e f) : Kept prio d f where
  paused := second.paused.trans first.paused
  pauseUntil := second.pauseUntil.trans first.pauseUntil
  pfcRxXoff := second.pfcRxXoff.trans first.pfcRxXoff
  pfcRxXon := second.pfcRxXon.trans first.pfcRxXon
  macHold := second.macHold.trans first.macHold
  refillEvent := second.refillEvent.trans first.refillEvent
  queued := second.queued.trans first.queued

theorem wakeTxEvent (prio : Fin 8) (h : Host ι) : Kept prio h.dev (h.wakeTxEvent i).dev := by
  unfold Host.wakeTxEvent
  split
  · exact ⟨rfl, rfl, rfl, rfl, rfl, rfl, rfl⟩
  · exact .refl prio h.dev

theorem scheduleRefillEvent (different : other ≠ prio) (delay : Time) (event : Event ι) :
    Kept other h.dev (h.scheduleRefillEvent prio delay event).dev :=
  ⟨rfl, rfl, rfl, rfl, rfl, Function.update_of_ne different .., rfl⟩

theorem refilled {moved rest dropped : List Packet} {q : DropTailQueue} (different : other ≠ prio)
    (own : ∀ p ∈ moved, frameClass p = some prio) (content : q.packets = d.queue.packets ++ moved) :
    Kept other d (d.refilled prio q rest dropped) where
  paused := Function.update_of_ne different ..
  pauseUntil := rfl
  pfcRxXoff := rfl
  pfcRxXon := rfl
  macHold := Function.update_of_ne different ..
  refillEvent := rfl
  queued := by
    change ClassedSender.ofClass frameClass other q.packets = _
    rw [content, ClassedSender.ofClass_append, ClassedSender.ofClass_other different own,
      List.append_nil]
    rfl

theorem refillMacQueueFromHold (different : other ≠ prio)
    (own : ∀ p ∈ h.dev.macHold prio, frameClass p = some prio) :
    Kept other h.dev (QbbNet.refillMacQueueFromHold i prio h).dev := by
  rcases refillMacQueueFromHold_cases i prio h with
    ⟨-, same⟩ | ⟨-, moved, rest, dropped, q, held, content, -, after⟩
  · rw [same]
    exact .refl other h.dev
  · have moved_own : ∀ p ∈ moved, frameClass p = some prio :=
      fun p member => own p (held ▸ List.mem_append_left rest member)
    have refilled : Kept other h.dev (h.dev.refilled prio q rest dropped) :=
      .refilled different moved_own content
    rcases after with ⟨-, same⟩ | ⟨-, same⟩
    · rw [same]
      exact refilled.trans (scheduleRefillEvent
        (h := { h with dev := h.dev.refilled prio q rest dropped }) different _ _)
    · rw [same]
      exact refilled.trans (wakeTxEvent other
        { h with dev := h.dev.refilled prio q rest dropped })

theorem pausedFor (different : other ≠ prio) (framed : Framed d) (until_ : Time) :
    Kept other d (d.pausedFor prio until_) := by
  obtain ⟨q, -, content, purged⟩ := pausedFor_eq d prio until_ framed
  rw [purged]
  constructor
  case queued =>
    rw [QbbNetDevice.queued, content]
    exact ofClass_kept different _
  case paused | pauseUntil | pfcRxXoff | macHold => exact Function.update_of_ne different ..
  case pfcRxXon | refillEvent => rfl

theorem resumedAt (different : other ≠ prio) (now : Time) : Kept other d (d.resumedAt prio now) :=
  ⟨Function.update_of_ne different .., Function.update_of_ne different .., rfl,
    Function.update_of_ne different .., rfl, rfl, rfl⟩

end Kept

/- The calendar -/

section Calendar

variable {own : Event ι → Prop}

theorem cancelRefillEvent_sameFor (slots : h.Slots i)
    (disjoint : ∀ event, own event → ¬ (Timer.refill prio).Runs i event) :
    SameFor own h.sim (h.cancelRefillEvent prio).sim := by
  unfold Host.cancelRefillEvent
  split
  · exact .refl own h.sim
  · exact .cancel (slots (.refill prio)).armed disjoint

theorem cancelRefillEvent_idle (slots : h.Slots i) :
    ¬ (h.cancelRefillEvent prio).Pending (.refill prio) := by
  have cancelled : (h.sim.cancel (h.dev.refillEvent prio)).isExpired (h.dev.refillEvent prio) = true :=
    (slots (.refill prio)).cancel_expired
  unfold Host.cancelRefillEvent Host.Pending
  split
  · rename_i expired
    simp [QbbNetDevice.timer, expired]
  · simp [QbbNetDevice.timer, cancelled]

/-- Nothing is said of the work that is due. -/
theorem Host.Slots.awake (slots : h.Slots i) : Awake i Set.univ h :=
  ⟨slots, by simp, by simp, by simp, by simp⟩

theorem Host.Slots.pausedFor (slots : h.Slots i) (prio : Fin 8) (until_ : Time) :
    (h.update (·.pausedFor prio until_)).Slots i := by
  obtain ⟨queue, dropped, held, rest⟩ := pausedFor_rest h.dev prio until_
  rw [Host.update, rest]
  exact slots

theorem wakeTxEvent_sameFor (foreign : ¬ own (.tryDequeue i)) :
    SameFor own h.sim (h.wakeTxEvent i).sim := by
  unfold Host.wakeTxEvent
  split
  · exact .schedule h.sim 0 foreign
  · exact .refl own h.sim

theorem scheduleRefillEvent_armed (prio : Fin 8) (delay : Time) (event : Event ι) :
    (h.scheduleRefillEvent prio delay event).Armed prio (h.now + delay) event :=
  ⟨h.sim.uid, Function.update_self .., (live_schedule h.sim delay event _).mpr (.inl rfl)⟩

theorem refillMacQueueFromHold_sameFor
    (disjoint : ∀ event, own event → ¬ (Timer.refill prio).Runs i event)
    (foreign : ¬ own (.tryDequeue i)) :
    SameFor own h.sim (refillMacQueueFromHold i prio h).sim := by
  rcases refillMacQueueFromHold_cases i prio h with
    ⟨-, same⟩ | ⟨-, _, rest, dropped, q, -, -, -, ⟨-, same⟩ | ⟨-, same⟩⟩
  · rw [same]
    exact .refl own h.sim
  · rw [same]
    exact .schedule h.sim (microSeconds 5) fun mine => disjoint _ mine (.inr rfl)
  · rw [same]
    exact wakeTxEvent_sameFor (h := { h with dev := h.dev.refilled prio q rest dropped }) foreign

variable (cfg) in
/-- A round touches no events but those of its class's timer and the transmission. -/
theorem handlePfcClass_sameFor (ph : PfcHeader) (slots : h.Slots i)
    (disjoint : ∀ event, own event → ¬ (Timer.refill prio).Runs i event)
    (foreign : ¬ own (.tryDequeue i)) :
    SameFor own h.sim (handlePfcClass cfg i ph h prio).sim := by
  rcases handlePfcClass_cases cfg i ph prio h with ⟨-, same⟩ | ⟨-, -, same⟩ | ⟨-, -, same⟩
  · rw [same]
    exact .refl own h.sim
  · rw [same]
    have cancelled := cancelRefillEvent_sameFor (h := h.update (·.resumedAt prio h.now)) slots disjoint
    exact cancelled.trans (refillMacQueueFromHold_sameFor disjoint foreign)
  · rw [same]
    exact (cancelRefillEvent_sameFor (slots.pausedFor prio _) disjoint).trans
      (.schedule _ _ fun mine => disjoint _ mine (.inl rfl))

theorem refill_disjoint (different : other ≠ prio) (event : Event ι)
    (first : (Timer.refill other).Runs i event) : ¬ (Timer.refill prio).Runs i event :=
  fun second => different (Timer.refill.inj (first.unique second))

theorem refill_foreign (prio : Fin 8) : ¬ (Timer.refill prio).Runs i (.tryDequeue i) :=
  fun runs => nomatch runs.unique (show Timer.tx.Runs i (.tryDequeue i) from rfl)

end Calendar

namespace Spared

theorem refl (i : ι) (prio : Fin 8) (h : Host ι) : Spared i prio h h :=
  ⟨.refl prio h.dev, .refl _ h.sim⟩

theorem trans (first : Spared i prio h mid) (second : Spared i prio mid after) :
    Spared i prio h after :=
  ⟨first.toKept.trans second.toKept, first.timer.trans second.timer⟩

theorem wakeTxEvent (prio : Fin 8) (h : Host ι) : Spared i prio h (h.wakeTxEvent i) :=
  ⟨.wakeTxEvent prio h, wakeTxEvent_sameFor (refill_foreign prio)⟩

theorem armed (spared : Spared i prio mid after) {time : Time} {event : Event ι}
    (runs : (Timer.refill prio).Runs i event) (armed : mid.Armed prio time event) :
    after.Armed prio time event := by
  obtain ⟨uid, same, live⟩ := armed
  exact ⟨uid, spared.refillEvent.trans same, (spared.timer.live _ runs).mpr live⟩

theorem idle (spared : Spared i prio mid after) (idle : ¬ mid.Pending (.refill prio)) :
    ¬ after.Pending (.refill prio) := by
  have expired := spared.timer.expired _ (by simpa [Host.Pending] using idle)
  have same : after.dev.timer (.refill prio) = mid.dev.timer (.refill prio) := spared.refillEvent
  simp [Host.Pending, same, expired]

end Spared

namespace PfcHeader.Obeyed

variable {ph : PfcHeader} {attr : Attributes}

/-- What was done for a class stays as long as the class is spared. -/
theorem andThen (obeyed : ph.Obeyed attr i h mid prio) (kept : Spared i prio mid after) :
    ph.Obeyed attr i h after prio where
  spared disabled := (obeyed.spared disabled).trans kept
  resumed enabled zero := by
    obtain ⟨paused, pauseUntil, pfcRxXoff, pfcRxXon, frames, idle, again⟩ :=
      obeyed.resumed enabled zero
    refine ⟨kept.paused.trans paused, kept.pauseUntil.trans pauseUntil,
      kept.pfcRxXoff.trans pfcRxXoff, kept.pfcRxXon.trans pfcRxXon,
      by rw [kept.queued, kept.macHold, frames], ?_, ?_⟩
    · rw [kept.macHold]
      exact fun empty => kept.idle (idle empty)
    · rw [kept.macHold]
      exact fun left => kept.armed (.inr rfl) (again left)
  paused enabled nonzero := by
    obtain ⟨paused, pauseUntil, pfcRxXoff, pfcRxXon, queued, macHold, timer⟩ :=
      obeyed.paused enabled nonzero
    exact ⟨kept.paused.trans paused, kept.pauseUntil.trans pauseUntil,
      kept.pfcRxXoff.trans pfcRxXoff, kept.pfcRxXon.trans pfcRxXon, kept.queued.trans queued,
      kept.macHold.trans macHold, kept.armed (.inl rfl) timer⟩

/-- What is done for a class is the same after others have been served. -/
theorem precede (kept : Spared i prio h mid) (clock : mid.now = h.now)
    (obeyed : ph.Obeyed attr i mid after prio) : ph.Obeyed attr i h after prio where
  spared disabled := kept.trans (obeyed.spared disabled)
  resumed enabled zero := by
    obtain ⟨paused, pauseUntil, pfcRxXoff, pfcRxXon, frames, idle, again⟩ :=
      obeyed.resumed enabled zero
    exact ⟨paused, pauseUntil.trans clock, by rw [pfcRxXoff, kept.pfcRxXoff],
      by rw [pfcRxXon, kept.pfcRxXon], by rw [frames, kept.queued, kept.macHold], idle,
      clock ▸ again⟩
  paused enabled nonzero := by
    obtain ⟨paused, pauseUntil, pfcRxXoff, pfcRxXon, queued, macHold, timer⟩ :=
      obeyed.paused enabled nonzero
    exact ⟨paused, clock ▸ pauseUntil, by rw [pfcRxXoff, kept.pfcRxXoff],
      by rw [pfcRxXon, kept.pfcRxXon], queued, by rw [macHold, kept.queued, kept.macHold],
      clock ▸ timer⟩

end PfcHeader.Obeyed

/- The class of the round -/

theorem resumedAt_running (d : QbbNetDevice) (prio : Fin 8) (now : Time) :
    (d.resumedAt prio now).pausing now prio = false := by
  simp [QbbNetDevice.resumedAt, QbbNetDevice.pausing]

variable (i) in
/-- A refill outside a pause clears the flag, keeps the frames of the class in order, and
arms the timer if some are left. -/
theorem refillMacQueueFromHold_resumed (own : ∀ p ∈ h.dev.macHold prio, frameClass p = some prio)
    (running : h.dev.pausing h.now prio = false) (idle : ¬ h.Pending (.refill prio)) :
    let after := refillMacQueueFromHold i prio h
    after.dev.paused prio = false ∧ after.dev.pauseUntil = h.dev.pauseUntil ∧
      after.dev.pfcRxXoff = h.dev.pfcRxXoff ∧ after.dev.pfcRxXon = h.dev.pfcRxXon ∧
      after.dev.queued prio ++ after.dev.macHold prio = h.dev.queued prio ++ h.dev.macHold prio ∧
      (after.dev.macHold prio = [] → ¬ after.Pending (.refill prio)) ∧
      (after.dev.macHold prio ≠ [] →
        after.Armed prio (h.now + microSeconds 5) (.refillMacQueueFromHold i prio)) := by
  rcases refillMacQueueFromHold_cases i prio h with
    ⟨pausing, -⟩ | ⟨-, moved, rest, dropped, q, held, content, -, after⟩
  · rw [running] at pausing
    cases pausing
  · let filled : Host ι := { h with dev := h.dev.refilled prio q rest dropped }
    have moved_own : ∀ p ∈ moved, frameClass p = some prio :=
      fun p member => own p (held ▸ List.mem_append_left rest member)
    have left : filled.dev.macHold prio = rest := Function.update_self ..
    have cleared : filled.dev.paused prio = false := Function.update_self ..
    have frames : filled.dev.queued prio ++ filled.dev.macHold prio =
        h.dev.queued prio ++ h.dev.macHold prio := by
      change ClassedSender.ofClass frameClass prio q.packets ++ _ = _
      rw [content, ClassedSender.ofClass_append, ofClass_own moved_own, left, held,
        List.append_assoc]
      rfl
    rcases after with ⟨some_left, same⟩ | ⟨none_left, same⟩
    · have armed := scheduleRefillEvent_armed (h := filled) prio (microSeconds 5)
        (.refillMacQueueFromHold i prio)
      rw [same]
      exact ⟨cleared, rfl, rfl, rfl, frames, fun empty => absurd (left.symm.trans empty) some_left,
        fun _ => armed⟩
    · have woken := Spared.wakeTxEvent (i := i) prio filled
      have flags : (filled.wakeTxEvent i).dev.pauseUntil = h.dev.pauseUntil ∧
          (filled.wakeTxEvent i).dev.pfcRxXoff = h.dev.pfcRxXoff ∧
          (filled.wakeTxEvent i).dev.pfcRxXon = h.dev.pfcRxXon := by
        unfold Host.wakeTxEvent
        split <;> exact ⟨rfl, rfl, rfl⟩
      rw [same]
      refine ⟨woken.paused.trans cleared, flags.1, flags.2.1, flags.2.2,
        by rw [woken.queued, woken.macHold, frames], fun _ => woken.idle idle, fun some_left => ?_⟩
      exact absurd (woken.macHold.trans (left.trans none_left)) some_left

variable (cfg) in
theorem handlePfcClass_obeyed (ph : PfcHeader) (prio : Fin 8) (orderly : Orderly i h) :
    ph.Obeyed (cfg.attr i) i h (handlePfcClass cfg i ph h prio) prio := by
  constructor
  case spared =>
    intro disabled
    rw [handlePfcClass, if_pos disabled]
    exact .refl i prio h
  case resumed =>
    intro enabled zero
    let xon := (h.update (·.resumedAt prio h.now)).cancelRefillEvent prio
    have run : handlePfcClass cfg i ph h prio = refillMacQueueFromHold i prio xon := by
      rw [handlePfcClass, if_neg (by simp [enabled]), if_pos zero]
      rfl
    have dev : xon.dev = h.dev.resumedAt prio h.now := Host.cancelRefillEvent_dev _ prio
    have clock : xon.now = h.now := Host.cancelRefillEvent_now _ prio
    have own : ∀ p ∈ xon.dev.macHold prio, frameClass p = some prio := by
      rw [dev]
      exact orderly.lawful.hold prio
    have running : xon.dev.pausing xon.now prio = false := by
      rw [dev, clock]
      exact resumedAt_running h.dev prio h.now
    have idle : ¬ xon.Pending (.refill prio) :=
      cancelRefillEvent_idle (h := h.update (·.resumedAt prio h.now)) orderly.slots
    obtain ⟨paused, pauseUntil, pfcRxXoff, pfcRxXon, frames, idle, again⟩ :=
      refillMacQueueFromHold_resumed i own running idle
    rw [run]
    refine ⟨paused, ?_, ?_, ?_, ?_, idle, clock ▸ again⟩
    · rw [pauseUntil, dev]
      exact Function.update_self ..
    · rw [pfcRxXoff, dev]
      rfl
    · rw [pfcRxXon, dev]
      exact Function.update_self ..
    · rw [frames, dev]
      rfl
  case paused =>
    intro enabled nonzero
    let until_ := h.now + (cfg.attr i).quantaTime (ph.quanta prio)
    let xoff := (h.update (·.pausedFor prio until_)).cancelRefillEvent prio
    have run : handlePfcClass cfg i ph h prio = xoff.scheduleRefillEvent prio
        ((cfg.attr i).quantaTime (ph.quanta prio)) (.resumeFromPause i prio) := by
      rw [handlePfcClass, if_neg (by simp [enabled]), if_neg nonzero]
      rfl
    have armed := scheduleRefillEvent_armed (h := xoff) prio
      ((cfg.attr i).quantaTime (ph.quanta prio)) (.resumeFromPause i prio)
    have clock : xoff.now = h.now := Host.cancelRefillEvent_now _ prio
    obtain ⟨q, -, content, purged⟩ := pausedFor_eq h.dev prio until_ orderly.framed
    have dev : xoff.dev = _ := (Host.cancelRefillEvent_dev _ prio).trans purged
    rw [clock] at armed
    rw [run]
    refine ⟨?_, ?_, ?_, ?_, ?_, ?_, armed⟩
    · exact (congrArg (·.paused prio) dev).trans (Function.update_self ..)
    · exact (congrArg (·.pauseUntil prio) dev).trans (Function.update_self ..)
    · exact (congrArg (·.pfcRxXoff prio) dev).trans (Function.update_self ..)
    · exact congrArg (·.pfcRxXon prio) dev
    · refine (congrArg (·.queued prio) dev).trans ?_
      rw [QbbNetDevice.queued, content]
      exact ofClass_purged prio _
    · exact (congrArg (·.macHold prio) dev).trans (Function.update_self ..)

variable (cfg) in
theorem handlePfcClass_spared (ph : PfcHeader) (orderly : Orderly i h) (different : other ≠ prio) :
    Spared i other h (handlePfcClass cfg i ph h prio) := by
  refine ⟨?_, handlePfcClass_sameFor cfg ph orderly.slots (refill_disjoint different)
    (refill_foreign other)⟩
  rcases handlePfcClass_cases cfg i ph prio h with ⟨-, same⟩ | ⟨-, -, same⟩ | ⟨-, -, same⟩
  · rw [same]
    exact .refl other h.dev
  · have dev := Host.cancelRefillEvent_dev (h.update (·.resumedAt prio h.now)) prio
    have refilled : Kept other ((h.update (·.resumedAt prio h.now)).cancelRefillEvent prio).dev
        (refillMacQueueFromHold i prio
          ((h.update (·.resumedAt prio h.now)).cancelRefillEvent prio)).dev := by
      refine .refillMacQueueFromHold different ?_
      rw [dev]
      exact orderly.lawful.hold prio
    rw [dev] at refilled
    rw [same]
    exact (Kept.resumedAt different h.now).trans refilled
  · let until_ := h.now + (cfg.attr i).quantaTime (ph.quanta prio)
    have dev := Host.cancelRefillEvent_dev (h.update (·.pausedFor prio until_)) prio
    have armed : Kept other ((h.update (·.pausedFor prio until_)).cancelRefillEvent prio).dev
        (((h.update (·.pausedFor prio until_)).cancelRefillEvent prio).scheduleRefillEvent prio
          ((cfg.attr i).quantaTime (ph.quanta prio)) (.resumeFromPause i prio)).dev :=
      .scheduleRefillEvent different _ _
    rw [dev] at armed
    rw [same]
    exact (Kept.pausedFor different orderly.framed until_).trans armed

variable (cfg i) in
/-- In a round the sender makes moves of its class, and all are allowed. -/
theorem handlePfcClass_moves (ph : PfcHeader) (prio : Fin 8) (framed : Framed h.dev) :
    Steps frameClass (fun move _ => move.Concerns prio ∧ True) (h.dev.sender h.now)
      ((handlePfcClass cfg i ph h prio).dev.sender h.now) :=
  handlePfcClass_steps cfg i ph prio framed fun _ _ _ =>
    ⟨fun _ => ⟨trivial, trivial⟩, fun _ => trivial⟩

variable (cfg) in
theorem Framed.handlePfcClass (framed : Framed h.dev) (ph : PfcHeader) (prio : Fin 8) :
    Framed (QbbNet.handlePfcClass cfg i ph h prio).dev := by
  have moves := handlePfcClass_moves cfg i ph prio framed
  exact .of_sender (moves.everywhere (framed.sender h.now) fun _ _ concerns => concerns.1.brings)

variable (cfg) in
theorem Orderly.handlePfcClass (orderly : Orderly i h) (ph : PfcHeader) (prio : Fin 8) :
    Orderly i (QbbNet.handlePfcClass cfg i ph h prio) where
  slots := (orderly.slots.awake.handlePfcClass ph prio).slots
  framed := orderly.framed.handlePfcClass cfg ph prio
  lawful := by
    have moves := handlePfcClass_moves cfg i ph prio orderly.framed
    rw [handlePfcClass_now]
    exact moves.preserves frameClass (fun _ _ _ _ step => step.lawful) orderly.lawful

/- The MAC queue -/

def PfcHeader.resumes (ph : PfcHeader) (prio : Fin 8) : Bool :=
  ph.enables prio && decide (ph.quanta prio = 0)

/-- The frame is of a class that the header pauses. -/
def PfcHeader.stops (ph : PfcHeader) (prio : Fin 8) (p : Packet) : Bool :=
  ph.enables prio && decide (ph.quanta prio ≠ 0) && decide (frameClass p = some prio)

/-- A round takes the frames of a pausing class out of the queue, and puts the first of
the held frames of a resuming one behind it, until one finds no room and is counted as
a drop. -/
structure PfcHeader.Requeued (ph : PfcHeader) (prio : Fin 8) (moved : List Packet)
    (d e : QbbNetDevice) : Prop where
  packets : e.queue.packets = d.queue.packets.filter (fun p => !ph.stops prio p) ++ moved
  maxSize : e.queue.maxSize = d.queue.maxSize
  queueDrop : e.queueDrop =
    d.queueDrop ++ if ph.resumes prio then (e.macHold prio).head?.toList else []
  resumed : ph.resumes prio = true → d.macHold prio = moved ++ e.macHold prio ∧
    ∀ p ∈ (e.macHold prio).head?, e.queue.hasRoom p = false
  unmoved : ph.resumes prio = false → moved = []

variable (cfg) in
theorem handlePfcClass_requeued (ph : PfcHeader) (prio : Fin 8) (framed : Framed h.dev) :
    ∃ moved, ph.Requeued prio moved h.dev (handlePfcClass cfg i ph h prio).dev := by
  rcases handlePfcClass_cases cfg i ph prio h with
    ⟨disabled, same⟩ | ⟨enabled, zero, same⟩ | ⟨enabled, nonzero, same⟩
  · have resumes : ph.resumes prio = false := by simp [PfcHeader.resumes, disabled]
    rw [same]
    exact ⟨[], by simp [PfcHeader.stops, disabled], rfl, by simp [resumes], by simp [resumes],
      fun _ => rfl⟩
  · have resumes : ph.resumes prio = true := by simp [PfcHeader.resumes, enabled, zero]
    let xon := (h.update (·.resumedAt prio h.now)).cancelRefillEvent prio
    have dev : xon.dev = h.dev.resumedAt prio h.now := Host.cancelRefillEvent_dev _ prio
    have clock : xon.now = h.now := Host.cancelRefillEvent_now _ prio
    have running : xon.dev.pausing xon.now prio = false := by
      rw [dev, clock]
      exact resumedAt_running h.dev prio h.now
    obtain ⟨queueDrop, full⟩ := refillMacQueueFromHold_full i prio running
    rcases refillMacQueueFromHold_cases i prio xon with
      ⟨pausing, -⟩ | ⟨-, moved, rest, dropped, q, held, content, maxSize, after⟩
    · rw [running] at pausing
      cases pausing
    have moves : ∀ e : QbbNetDevice, e.queue = q → e.macHold prio = rest →
        e.queueDrop = xon.dev.queueDrop ++ (e.macHold prio).head?.toList →
        (∀ p ∈ (e.macHold prio).head?, e.queue.hasRoom p = false) →
        ph.Requeued prio moved h.dev e := by
      intro e queue left drops full
      rw [dev] at held content maxSize drops
      refine ⟨?_, queue ▸ maxSize, by rw [drops, if_pos resumes]; rfl,
        fun _ => ⟨left ▸ held, full⟩, by simp [resumes]⟩
      rw [queue, content]
      simp [PfcHeader.stops, zero, QbbNetDevice.resumedAt]
    refine ⟨moved, same ▸ moves _ ?_ ?_ queueDrop full⟩
    all_goals rcases after with ⟨-, run⟩ | ⟨-, run⟩ <;> rw [run]
    · rfl
    · unfold Host.wakeTxEvent
      split <;> rfl
    · exact Function.update_self ..
    · exact (Kept.wakeTxEvent prio _).macHold.trans (Function.update_self ..)
  · have resumes : ph.resumes prio = false := by simp [PfcHeader.resumes, nonzero]
    obtain ⟨q, maxSize, content, purged⟩ := pausedFor_eq h.dev prio
      (h.now + (cfg.attr i).quantaTime (ph.quanta prio)) framed
    have dev := (Host.cancelRefillEvent_dev (h.update (·.pausedFor prio
      (h.now + (cfg.attr i).quantaTime (ph.quanta prio)))) prio).trans purged
    rw [same]
    refine ⟨[], ?_, (congrArg (·.queue.maxSize) dev).trans maxSize, ?_, by simp [resumes],
      fun _ => rfl⟩
    · refine (congrArg (·.queue.packets) dev).trans ?_
      rw [content, List.append_nil]
      simp [PfcHeader.stops, enabled, nonzero]
    · refine (congrArg (·.queueDrop) dev).trans ?_
      simp [resumes]

/- The transmission -/

/-- m_txEvent is left alone. -/
structure TxKept (i : ι) (h after : Host ι) : Prop where
  txEvent : after.dev.txEvent = h.dev.txEvent
  events : SameFor (Timer.tx.Runs i) h.sim after.sim

/-- The queues are looked at once more, at the same time. -/
def TxWoken (i : ι) (h after : Host ι) : Prop :=
  ∃ uid, after.dev.txEvent = some ⟨h.now, uid⟩ ∧ after.sim.Live ⟨⟨h.now, uid⟩, .tryDequeue i⟩

/-- If anything happens to m_txEvent, it was over and is scheduled anew. -/
def MayWake (i : ι) (h after : Host ι) : Prop :=
  TxKept i h after ∨ ¬ h.Pending .tx ∧ TxWoken i h after

theorem TxKept.refl (i : ι) (h : Host ι) : TxKept i h h := ⟨rfl, .refl _ h.sim⟩

theorem TxKept.pending (kept : TxKept i h after) (slots : h.Slots i) :
    after.Pending .tx ↔ h.Pending .tx := by
  have same : after.dev.timer .tx = h.dev.timer .tx := kept.txEvent
  rw [Host.Pending, Host.Pending, same, kept.events.isExpired (slots .tx)]

theorem TxWoken.pending (woken : TxWoken i h after) : after.Pending .tx := by
  obtain ⟨uid, same, live⟩ := woken
  have timer : after.dev.timer .tx = some ⟨h.now, uid⟩ := same
  rw [Host.Pending, timer]
  exact live.not_expired

theorem TxWoken.kept (woken : TxWoken i h mid) (kept : TxKept i mid after) : TxWoken i h after := by
  obtain ⟨uid, same, live⟩ := woken
  exact ⟨uid, kept.txEvent.trans same,
    (kept.events.live ⟨⟨h.now, uid⟩, .tryDequeue i⟩ rfl).mpr live⟩

theorem MayWake.trans (first : MayWake i h mid) (second : MayWake i mid after) (slots : h.Slots i)
    (clock : mid.now = h.now) : MayWake i h after := by
  rcases first with kept | ⟨ended, woken⟩ <;> rcases second with kept' | ⟨ended', woken'⟩
  · exact .inl ⟨kept'.txEvent.trans kept.txEvent, kept.events.trans kept'.events⟩
  · rw [kept.pending slots] at ended'
    rw [TxWoken, clock] at woken'
    exact .inr ⟨ended', woken'⟩
  · exact .inr ⟨ended, woken.kept kept'⟩
  · exact absurd woken.pending ended'

theorem wakeTxEvent_mayWake (i : ι) (h : Host ι) : MayWake i h (h.wakeTxEvent i) := by
  unfold Host.wakeTxEvent
  split
  · rename_i expired
    refine .inr ⟨by simp [Host.Pending, QbbNetDevice.timer, expired], h.sim.uid, rfl, ?_⟩
    exact (live_schedule h.sim 0 (.tryDequeue i) _).mpr (.inl rfl)
  · exact .inl (.refl i h)

theorem wakeTxEvent_pending_tx (i : ι) (h : Host ι) : (h.wakeTxEvent i).Pending .tx := by
  unfold Host.wakeTxEvent
  split
  · exact isExpired_scheduled h.sim 0 _
  · rename_i pending
    simpa [Host.Pending, QbbNetDevice.timer] using pending

theorem tx_disjoint (event : Event ι) (first : Timer.tx.Runs i event) :
    ¬ (Timer.refill prio).Runs i event := fun second => nomatch first.unique second

theorem refillMacQueueFromHold_mayWake (i : ι) (prio : Fin 8) (h : Host ι) :
    MayWake i h (refillMacQueueFromHold i prio h) := by
  rcases refillMacQueueFromHold_cases i prio h with
    ⟨-, same⟩ | ⟨-, _, rest, dropped, q, -, -, -, ⟨-, same⟩ | ⟨-, same⟩⟩
  · rw [same]
    exact .inl (.refl i h)
  · rw [same]
    exact .inl ⟨rfl, .schedule h.sim (microSeconds 5) nofun⟩
  · rw [same]
    rcases wakeTxEvent_mayWake i { h with dev := h.dev.refilled prio q rest dropped } with
      kept | ⟨ended, woken⟩
    · exact .inl ⟨kept.txEvent, kept.events⟩
    · exact .inr ⟨ended, woken⟩

variable (cfg) in
theorem handlePfcClass_mayWake (ph : PfcHeader) (prio : Fin 8) (slots : h.Slots i) :
    MayWake i h (handlePfcClass cfg i ph h prio) := by
  rcases handlePfcClass_cases cfg i ph prio h with ⟨-, same⟩ | ⟨-, -, same⟩ | ⟨-, -, same⟩
  · rw [same]
    exact .inl (.refl i h)
  · let xon := (h.update (·.resumedAt prio h.now)).cancelRefillEvent prio
    have dev : xon.dev = h.dev.resumedAt prio h.now := Host.cancelRefillEvent_dev _ prio
    have clock : xon.now = h.now := Host.cancelRefillEvent_now _ prio
    have cancelled : TxKept i h xon :=
      ⟨congrArg (·.txEvent) dev, cancelRefillEvent_sameFor (h := h.update (·.resumedAt prio h.now))
        slots tx_disjoint⟩
    rw [same]
    exact MayWake.trans (.inl cancelled) (refillMacQueueFromHold_mayWake i prio xon) slots clock
  · let until_ := h.now + (cfg.attr i).quantaTime (ph.quanta prio)
    obtain ⟨queue, dropped, held, rest⟩ := pausedFor_rest h.dev prio until_
    have dev := (Host.cancelRefillEvent_dev (h.update (·.pausedFor prio until_)) prio).trans rest
    rw [same]
    have resume : ¬ Timer.tx.Runs i (.resumeFromPause i prio) := by simp [Timer.Runs]
    exact .inl ⟨congrArg (·.txEvent) dev,
      (cancelRefillEvent_sameFor (slots.pausedFor prio until_) tx_disjoint).trans
        (.schedule _ _ resume)⟩

end QbbNet
