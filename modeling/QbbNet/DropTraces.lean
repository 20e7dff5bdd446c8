import QbbNet.PfcFrames
import QbbNet.SenderQueues
import QbbNet.PfcSignalRun

set_option autoImplicit false

/- What the drop traces of a device tell of the packets that Send accepted. -/
namespace QbbNet

open ClassedSender

variable {ι ν : Type} {cfg : Config ι ν} {i : ι} {h : Host ι} {prio : Fin 8}

/-- MacTxDrop or the queue's Drop has fired for the packet, in its frame or without. -/
def PointToPointNetDevice.Reported (d : PointToPointNetDevice) (dg : Datagram) : Prop :=
  dg.frame ∈ d.queueDrop ∨ dg.frame ∈ d.macTxDrop ∨ dg.packet ∈ d.macTxDrop

/-- The losses that FlowMonitor counts: its probe is told of every drop in the
queue, and only data carries its tag. -/
def PointToPointNetDevice.queueLosses (d : PointToPointNetDevice) : List Packet :=
  d.queueDrop.filter fun p => !isPfcFrame p

def PointToPointNetDevice.transmitted (d : PointToPointNetDevice) : List Packet :=
  (d.phyTxBegin.map (·.2)).filter fun p => !isPfcFrame p

/-- No packet that is reported as dropped in `d` is started between `d` and a
later `e`, and the losses in `e` are packets that have not been started. -/
structure DropsTruthful (d e : QbbNetDevice) : Prop where
  final : ∀ dg ∈ d.accepted, d.Reported dg →
    ∃ later, e.phyTxBegin = d.phyTxBegin ++ later ∧ dg.frame ∉ later.map (·.2)
  losses : e.queueLosses.length + e.transmitted.length ≤ e.accepted.length

/- Where the MAC queue has room for the data that is moved to it -/

def QbbNetDevice.holdFits (d : QbbNetDevice) (prio : Fin 8) : Prop :=
  d.queue.maxSize.unit.measure (d.queue.packets ++ d.macHold prio) ≤ d.queue.maxSize.value

/-- What becomes of the MAC queue's content in the round of a class whose hold is
moved back as a whole, if the frame asks for it. -/
def PfcHeader.served (ph : PfcHeader) (macHold : Fin 8 → List Packet) (queue : List Packet)
    (prio : Fin 8) : List Packet :=
  if ph.enables prio = false then queue
  else if ph.quanta prio = 0 then queue ++ macHold prio
  else queue.filter fun p => decide (frameClass p ≠ some prio)

/-- Whatever data a handler tries to move to the MAC queue fits: the packet that
TryDequeue picks, or the hold that is moved back. -/
def Duty.AdmitsData (now : Time) (d : QbbNetDevice) : Duty → Prop
  | .tryDequeue => d.linkUp = true → ∀ prio ∈ pickNextPrio d now, ∀ item ∈ (d.txq prio).head?,
      d.queue.hasRoom item.frame = true
  | .resumeFromPause prio => d.pauseUntil prio ≤ now → d.holdFits prio
  | .refillMacQueueFromHold prio => d.pausing now prio = false → d.holdFits prio
  | .handleMacRx p => isPfcFrame p = true → ∀ ph ∈ pfcHeader p,
      ∀ content ∈ classes.scanl (ph.served d.macHold) d.queue.packets,
        d.queue.maxSize.unit.measure content ≤ d.queue.maxSize.value
  | .transmitComplete => True
  | .drainPop _ => True

instance decidableHoldFits (d : QbbNetDevice) (prio : Fin 8) : Decidable (d.holdFits prio) :=
  inferInstanceAs (Decidable (_ ≤ _))

instance decidableAdmitsData (now : Time) (d : QbbNetDevice) :
    (duty : Duty) → Decidable (duty.AdmitsData now d)
  | .tryDequeue => inferInstanceAs (Decidable (_ → ∀ prio ∈ pickNextPrio d now,
      ∀ item ∈ (d.txq prio).head?, d.queue.hasRoom item.frame = true))
  | .resumeFromPause prio => inferInstanceAs (Decidable (_ → d.holdFits prio))
  | .refillMacQueueFromHold prio => inferInstanceAs (Decidable (_ → d.holdFits prio))
  | .handleMacRx p => inferInstanceAs (Decidable (_ → ∀ ph ∈ pfcHeader p,
      ∀ content ∈ classes.scanl (ph.served d.macHold) d.queue.packets,
        d.queue.maxSize.unit.measure content ≤ d.queue.maxSize.value))
  | .transmitComplete => .isTrue trivial
  | .drainPop _ => .isTrue trivial

/- What the handlers report -/

/-- Only control frames are dropped, but for what a link that is down refuses. -/
structure ControlDrops (d e : PointToPointNetDevice) : Prop where
  linkUp : e.linkUp = d.linkUp
  queueDrop : ∀ p ∈ e.queueDrop, p ∈ d.queueDrop ∨ isPfcFrame p = true
  macTxDrop : d.linkUp = true → ∀ p ∈ e.macTxDrop, p ∈ d.macTxDrop ∨ isPfcFrame p = true

namespace ControlDrops

variable {d e f : PointToPointNetDevice}

theorem of_eq (linkUp : e.linkUp = d.linkUp) (queueDrop : e.queueDrop = d.queueDrop)
    (macTxDrop : e.macTxDrop = d.macTxDrop) : ControlDrops d e :=
  ⟨linkUp, fun _ member => Or.inl (queueDrop ▸ member),
    fun _ _ member => Or.inl (macTxDrop ▸ member)⟩

theorem trans (first : ControlDrops d e) (second : ControlDrops e f) : ControlDrops d f where
  linkUp := second.linkUp.trans first.linkUp
  queueDrop p member := (second.queueDrop p member).elim (first.queueDrop p) Or.inr
  macTxDrop up p member :=
    (second.macTxDrop (first.linkUp.trans up) p member).elim (first.macTxDrop up p) Or.inr

variable (cfg i) in
theorem ptpSend (p : Packet) (protocol : UInt16) (h : Host ι)
    (taken : isPfcFrame (p.addPpp (etherToPpp protocol)) = true ∨
      (h.dev.linkUp = true → h.dev.queue.hasRoom (p.addPpp (etherToPpp protocol)) = true)) :
    ControlDrops h.dev.toPointToPointNetDevice
      (QbbNet.ptpSend cfg i p protocol h).2.dev.toPointToPointNetDevice := by
  rcases PointToPointNetDevice.send_cases cfg i p protocol h.sim h.dev.toPointToPointNetDevice with
    ⟨down, sent⟩ | ⟨up, full, sent⟩ | ⟨-, q, -, ⟨-, sent⟩ | ⟨-, first, rest, -, sent⟩⟩ <;>
    rw [QbbNet.ptpSend, sent]
  · exact ⟨rfl, fun _ => Or.inl, fun up => absurd up (by simp [down])⟩
  · rcases taken with control | room
    · have new {drops : List Packet} : ∀ r ∈ drops ++ [p.addPpp (etherToPpp protocol)],
          r ∈ drops ∨ isPfcFrame r = true := by
        intro r member
        rcases List.mem_append.mp member with old | last
        · exact Or.inl old
        · exact Or.inr (List.mem_singleton.mp last ▸ control)
      exact ⟨rfl, new, fun _ => new⟩
    · have refused := DropTailQueue.enqueue_eq_none.mp full
      rw [room up] at refused
      cases refused
  · exact .of_eq rfl rfl rfl
  · exact .of_eq rfl rfl rfl

variable (cfg i) in
theorem signals (signals : List PfcSignal) (h : Host ι) :
    ControlDrops h.dev.toPointToPointNetDevice
      (signals.foldl (sendSignal cfg i) h).dev.toPointToPointNetDevice := by
  induction signals generalizing h with
  | nil => exact .of_eq rfl rfl rfl
  | cons signal signals ih =>
    have framed : (pfcPacket signal.prio signal.quanta).addPpp (etherToPpp pfcPppProto) =
        pfcFrame signal.prio signal.quanta := rfl
    have sent := ptpSend cfg i (pfcPacket signal.prio signal.quanta) pfcPppProto
      (h.update (·.noted signal)) (Or.inl (framed ▸ isPfcFrame_pfcFrame signal.prio signal.quanta))
    exact sent.trans (ih (sendSignal cfg i h signal))

theorem tryDequeue (admits : Duty.tryDequeue.AdmitsData h.now h.dev) :
    ControlDrops h.dev.toPointToPointNetDevice
      (QbbNet.tryDequeue cfg i h).dev.toPointToPointNetDevice := by
  rcases tryDequeue_cases cfg i h with
    ⟨-, same⟩ | ⟨prio, item, rest, picked, content, -, ended⟩
  · rw [same]
    exact .of_eq rfl rfl rfl
  · have sent := ptpSend cfg i item.packet item.protocol h
      (Or.inr fun up => admits up prio picked item (by simp [content]))
    rcases ended with ⟨-, same⟩ | ⟨-, same⟩
    · rw [same]
      exact sent
    · rw [same]
      exact sent

theorem transmitComplete :
    ControlDrops h.dev.toPointToPointNetDevice
      (QbbNet.transmitComplete cfg i h).dev.toPointToPointNetDevice := by
  unfold QbbNet.transmitComplete PointToPointNetDevice.transmitComplete
  dsimp only
  split <;> exact .of_eq rfl rfl rfl

/-- Among the traces only the queue's drops could grow, and they do not. -/
theorem of_obeys {after : Host ι} (obeys : Obeys h after)
    (queueDrop : after.dev.queueDrop = h.dev.queueDrop) :
    ControlDrops h.dev.toPointToPointNetDevice after.dev.toPointToPointNetDevice := by
  obtain ⟨queue, dropped, base⟩ := obeys.base
  exact .of_eq (by rw [base]) queueDrop (by rw [base])

end ControlDrops

/-- A refill that finds room for the whole hold leaves nothing in it. -/
theorem refillMacQueueFromHold_whole (running : h.dev.pausing h.now prio = false)
    (fits : h.dev.holdFits prio) :
    ∃ q : DropTailQueue, q.packets = h.dev.queue.packets ++ h.dev.macHold prio ∧
      q.maxSize = h.dev.queue.maxSize ∧ refillMacQueueFromHold i prio h =
        Host.wakeTxEvent i { h with dev := h.dev.refilled prio q [] h.dev.queueDrop } := by
  obtain ⟨q, content, maxSize, moved⟩ := refillLoop_whole (h.dev.macHold prio)
    { h.dev with paused := Function.update h.dev.paused prio false } fits
  refine ⟨q, content, maxSize, ?_⟩
  rw [refillMacQueueFromHold_eq i prio running, moved]
  rfl

theorem wakeTxEvent_base :
    (h.wakeTxEvent i).dev.toPointToPointNetDevice = h.dev.toPointToPointNetDevice := by
  unfold Host.wakeTxEvent
  split <;> rfl

theorem refillMacQueueFromHold_queueDrop
    (fits : h.dev.pausing h.now prio = false → h.dev.holdFits prio) :
    (refillMacQueueFromHold i prio h).dev.queueDrop = h.dev.queueDrop := by
  cases running : h.dev.pausing h.now prio with
  | true => simp [refillMacQueueFromHold, running]
  | false =>
    obtain ⟨q, -, -, same⟩ := refillMacQueueFromHold_whole (i := i) running (fits running)
    rw [same, wakeTxEvent_base]
    rfl

section PfcFrame

variable (cfg i)

/-- A round whose content fits leaves that content in the queue, and touches no
hold but the class's own. -/
theorem handlePfcClass_served (ph : PfcHeader) (prio : Fin 8) (framed : Framed h.dev)
    (fits : h.dev.queue.maxSize.unit.measure
      (ph.served h.dev.macHold h.dev.queue.packets prio) ≤ h.dev.queue.maxSize.value) :
    (handlePfcClass cfg i ph h prio).dev.queue.packets =
        ph.served h.dev.macHold h.dev.queue.packets prio ∧
      (handlePfcClass cfg i ph h prio).dev.queue.maxSize = h.dev.queue.maxSize ∧
      (handlePfcClass cfg i ph h prio).dev.queueDrop = h.dev.queueDrop ∧
      ∀ other ≠ prio, (handlePfcClass cfg i ph h prio).dev.macHold other = h.dev.macHold other := by
  unfold PfcHeader.served at *
  rcases handlePfcClass_cases cfg i ph prio h with
    ⟨disabled, same⟩ | ⟨enabled, zero, same⟩ | ⟨enabled, nonzero, same⟩
  · rw [same, if_pos disabled]
    exact ⟨rfl, rfl, rfl, fun _ _ => rfl⟩
  · rw [if_neg (by simp [enabled]), if_pos zero] at fits ⊢
    let xon := h.update (·.resumedAt prio h.now)
    have dev : (xon.cancelRefillEvent prio).dev = xon.dev := Host.cancelRefillEvent_dev xon prio
    have running : (xon.cancelRefillEvent prio).dev.pausing (xon.cancelRefillEvent prio).now prio =
        false := by
      rw [dev]
      simp [xon, Host.update, QbbNetDevice.resumedAt, QbbNetDevice.pausing]
    have room : (xon.cancelRefillEvent prio).dev.holdFits prio := by
      rw [dev]
      exact fits
    obtain ⟨q, content, maxSize, refilled⟩ := refillMacQueueFromHold_whole (i := i) running room
    rw [dev] at content maxSize
    rw [same, refilled, wakeTxEvent_base]
    refine ⟨content, maxSize, congrArg (·.queueDrop) dev, fun other different => ?_⟩
    have woken := Kept.wakeTxEvent (i := i) other
      { xon.cancelRefillEvent prio with
        dev := (xon.cancelRefillEvent prio).dev.refilled prio q []
          (xon.cancelRefillEvent prio).dev.queueDrop }
    refine woken.macHold.trans ((Function.update_of_ne different ..).trans ?_)
    rw [dev]
    rfl
  · rw [if_neg (by simp [enabled]), if_neg nonzero]
    obtain ⟨q, maxSize, content, purged⟩ := pausedFor_eq h.dev prio
      (h.now + (cfg.attr i).quantaTime (ph.quanta prio)) framed
    rw [same]
    dsimp only [Host.scheduleRefillEvent]
    rw [Host.cancelRefillEvent_dev]
    dsimp only [Host.update]
    rw [purged]
    exact ⟨content, maxSize, rfl, fun other different => Function.update_of_ne different ..⟩

/-- If the content fits after every round, the frame drops nothing. -/
theorem foldl_handlePfcClass_queueDrop (ph : PfcHeader) (macHold : Fin 8 → List Packet)
    (prios : List (Fin 8)) (distinct : prios.Nodup) (framed : Framed h.dev)
    (held : ∀ prio ∈ prios, h.dev.macHold prio = macHold prio)
    (fits : ∀ content ∈ prios.scanl (ph.served macHold) h.dev.queue.packets,
      h.dev.queue.maxSize.unit.measure content ≤ h.dev.queue.maxSize.value) :
    (prios.foldl (handlePfcClass cfg i ph) h).dev.queueDrop = h.dev.queueDrop := by
  induction prios generalizing h with
  | nil => rfl
  | cons prio prios ih =>
    obtain ⟨fresh, distinct⟩ := List.nodup_cons.mp distinct
    have same : ph.served h.dev.macHold h.dev.queue.packets prio =
        ph.served macHold h.dev.queue.packets prio := by
      simp only [PfcHeader.served, held prio List.mem_cons_self]
    rw [List.scanl_cons] at fits
    have own := fits (ph.served macHold h.dev.queue.packets prio) (by cases prios <;> simp)
    obtain ⟨content, maxSize, queueDrop, others⟩ :=
      handlePfcClass_served cfg i ph prio framed (same ▸ own)
    rw [List.foldl_cons, ih distinct (framed.handlePfcClass cfg ph prio) ?_ ?_, queueDrop]
    · intro other member
      have different : other ≠ prio := fun same => fresh (same ▸ member)
      rw [others other different, held other (List.mem_cons_of_mem prio member)]
    · rw [content, maxSize, same]
      exact fun content member => fits content (List.mem_cons_of_mem _ member)

end PfcFrame

theorem handlePfcFrame_queueDrop (p : Packet) (framed : Framed h.dev)
    (fits : ∀ ph ∈ pfcHeader p, ∀ content ∈ classes.scanl (ph.served h.dev.macHold)
      h.dev.queue.packets, h.dev.queue.maxSize.unit.measure content ≤ h.dev.queue.maxSize.value) :
    (handlePfcFrame cfg i p h).dev.queueDrop = h.dev.queueDrop := by
  unfold handlePfcFrame
  split
  · rename_i ph header
    rw [wakeTxEvent_base]
    exact foldl_handlePfcClass_queueDrop cfg i ph h.dev.macHold classes classes_nodup framed
      (fun _ _ => rfl) (fits ph header)
  · rfl

theorem dataQueued_base (d : QbbNetDevice) (attr : Attributes) (now : Time) (p : Packet) :
    (d.dataQueued attr now p).toPointToPointNetDevice = d.toPointToPointNetDevice := by
  unfold QbbNetDevice.dataQueued QbbNetDevice.counted
  split <;> rfl

theorem duty_controlDrops (duty : Duty) (framed : Framed h.dev)
    (admits : duty.AdmitsData h.now h.dev) :
    ControlDrops h.dev.toPointToPointNetDevice
      (duty.run cfg i h).dev.toPointToPointNetDevice := by
  cases duty with
  | tryDequeue => exact .tryDequeue admits
  | transmitComplete => exact .transmitComplete
  | resumeFromPause prio =>
    refine .of_obeys (resumeFromPause_obeys prio) ?_
    change (resumeFromPause i prio h).dev.queueDrop = h.dev.queueDrop
    unfold resumeFromPause
    split
    · rfl
    · rename_i lapsed
      exact refillMacQueueFromHold_queueDrop (h := h.update _) fun _ =>
        admits (Nat.not_lt.mp lapsed)
  | refillMacQueueFromHold prio =>
    exact .of_obeys (refillMacQueueFromHold_obeys prio) (refillMacQueueFromHold_queueDrop admits)
  | handleMacRx p =>
    cases control : isPfcFrame p with
    | true =>
      refine .of_obeys (h := h.update _) (handleMacRx_control cfg i h control) ?_
      rw [handleMacRx, if_pos control]
      exact handlePfcFrame_queueDrop p framed (admits control)
    | false =>
      obtain ⟨start, ingressDrainEv, queued, run⟩ := handleMacRx_data cfg i h control
      have signalled := ControlDrops.signals cfg i ((cfg.attr i).rxSignals (getPrioFromPacket p)
        (h.dev.localCongested (getPrioFromPacket p))
        (h.dev.rxOccPkts (getPrioFromPacket p) + 1)) start
      rw [queued, dataQueued_base] at signalled
      change ControlDrops _ (handleMacRx cfg i p h).dev.toPointToPointNetDevice
      rw [run]
      exact signalled
  | drainPop prio =>
    change ControlDrops _ (drainPop cfg i prio h).dev.toPointToPointNetDevice
    rw [drainPop_eq]
    exact ControlDrops.signals cfg i _ (h.update (·.popped prio))

/- A link that is down -/

/-- No frame waits below the device's own queues, and none can. -/
structure QbbNetDevice.Severed (d : QbbNetDevice) : Prop where
  linkUp : d.linkUp = false
  queue : d.queue.packets = []
  macHold : ∀ prio, d.macHold prio = []

/-- A severed device stays so, and starts nothing. -/
def StaysSevered (d e : QbbNetDevice) : Prop := d.Severed → e.Severed ∧ e.phyTxBegin = d.phyTxBegin

namespace StaysSevered

variable {d e f : QbbNetDevice}

theorem trans (first : StaysSevered d e) (second : StaysSevered e f) : StaysSevered d f := by
  intro severed
  obtain ⟨severed, started⟩ := first severed
  obtain ⟨severed, started'⟩ := second severed
  exact ⟨severed, started'.trans started⟩

theorem of_eq (linkUp : e.linkUp = d.linkUp) (queue : e.queue = d.queue)
    (macHold : e.macHold = d.macHold) (started : e.phyTxBegin = d.phyTxBegin) :
    StaysSevered d e := by
  intro severed
  exact ⟨⟨linkUp.trans severed.linkUp, by rw [queue, severed.queue],
    fun prio => by rw [macHold, severed.macHold]⟩, started⟩

variable (cfg i) in
theorem ptpSend (p : Packet) (protocol : UInt16) (h : Host ι) :
    StaysSevered h.dev (QbbNet.ptpSend cfg i p protocol h).2.dev := by
  intro severed
  have refused : h.dev.toPointToPointNetDevice.send cfg i p protocol h.sim = (false, h.sim,
      { h.dev.toPointToPointNetDevice with macTxDrop := h.dev.macTxDrop ++ [p] }) := by
    rw [PointToPointNetDevice.send, if_pos severed.linkUp]
  rw [QbbNet.ptpSend, refused]
  exact ⟨⟨severed.linkUp, severed.queue, severed.macHold⟩, rfl⟩

variable (cfg i) in
theorem signals (signals : List PfcSignal) (h : Host ι) :
    StaysSevered h.dev (signals.foldl (sendSignal cfg i) h).dev := by
  induction signals generalizing h with
  | nil => exact .of_eq rfl rfl rfl rfl
  | cons signal signals ih =>
    have noted : StaysSevered h.dev (h.update (·.noted signal)).dev := .of_eq rfl rfl rfl rfl
    exact (noted.trans (ptpSend cfg i _ _ (h.update (·.noted signal)))).trans
      (ih (sendSignal cfg i h signal))

/-- Pauses and refills find nothing to move. -/
theorem of_obeys {after : Host ι} {now : Time} (obeys : Obeys h after)
    (steps : Steps frameClass (fun move _ => ∃ prio, move.Concerns prio) (h.dev.sender now)
      (after.dev.sender now)) : StaysSevered h.dev after.dev := by
  intro severed
  obtain ⟨queue, dropped, base⟩ := obeys.base
  have still : (after.dev.sender now).queue = [] ∧
      ∀ prio, (after.dev.sender now).hold prio = [] := by
    refine steps.preserves frameClass (P := fun s => s.queue = [] ∧ ∀ prio, s.hold prio = []) ?_
      ⟨severed.queue, severed.macHold⟩
    rintro move s t ⟨prio, concerns⟩ step ⟨empty, none_held⟩
    cases step with
    | accept | transfer | control | complete => exact False.elim concerns
    | lapse => exact ⟨empty, none_held⟩
    | pause =>
      exact ⟨by simp [empty],
        fun other => by simp [Function.update_apply, empty, none_held]⟩
    | @refill _ c moved rest held =>
      obtain ⟨rfl, rfl⟩ := List.append_eq_nil_iff.mp (held.symm.trans (none_held c))
      exact ⟨by simp [empty], fun other => by simp [Function.update_apply, none_held]⟩
  exact ⟨⟨by rw [base, severed.linkUp], still.1, still.2⟩, by rw [base]⟩

end StaysSevered

theorem duty_staysSevered (duty : Duty) (framed : Framed h.dev)
    (lawful : Lawful frameClass (h.dev.sender h.now)) :
    StaysSevered h.dev (duty.run cfg i h).dev := by
  cases duty with
  | tryDequeue =>
    change StaysSevered h.dev (tryDequeue cfg i h).dev
    rcases tryDequeue_cases cfg i h with ⟨-, same⟩ | ⟨prio, item, rest, -, -, -, ended⟩
    · rw [same]
      exact .of_eq rfl rfl rfl rfl
    · have sent := StaysSevered.ptpSend cfg i item.packet item.protocol h
      rcases ended with ⟨-, same⟩ | ⟨-, same⟩
      · rw [same]
        exact sent.trans (.of_eq rfl rfl rfl rfl)
      · rw [same]
        exact sent.trans (.of_eq rfl rfl rfl rfl)
  | transmitComplete =>
    intro severed
    have nothing := DropTailQueue.dequeue_eq_none.mpr severed.queue
    change (transmitComplete cfg i h).dev.Severed ∧ (transmitComplete cfg i h).dev.phyTxBegin = _
    rw [transmitComplete, PointToPointNetDevice.transmitComplete]
    simp only [nothing]
    exact ⟨⟨severed.linkUp, severed.queue, severed.macHold⟩, rfl⟩
  | resumeFromPause prio =>
    exact .of_obeys (resumeFromPause_obeys prio) (resumeFromPause_steps i prio ⟨prio, rfl⟩)
  | refillMacQueueFromHold prio =>
    exact .of_obeys (refillMacQueueFromHold_obeys prio)
      (refillMacQueueFromHold_steps i prio ⟨prio, rfl⟩)
  | handleMacRx p =>
    cases control : isPfcFrame p with
    | true =>
      let traced := h.update fun d => { d with macRx := d.macRx ++ [(h.now, p)] }
      have steps : Steps frameClass (fun move _ => ∃ prio, move.Concerns prio)
          (traced.dev.sender h.now) ((handlePfcFrame cfg i p traced).dev.sender h.now) :=
        handlePfcFrame_steps (h := traced) p framed lawful fun ph _ prio s _ _ =>
          ⟨fun _ => ⟨⟨prio, trivial⟩, prio, rfl⟩, fun _ => ⟨prio, rfl⟩⟩
      have run : handleMacRx cfg i p h = handlePfcFrame cfg i p traced := by
        rw [handleMacRx, if_pos control]
      have noted : StaysSevered h.dev traced.dev := .of_eq rfl rfl rfl rfl
      have obeys := handleMacRx_control cfg i h control
      change StaysSevered h.dev (handleMacRx cfg i p h).dev
      rw [run] at obeys ⊢
      exact noted.trans (.of_obeys obeys steps)
    | false =>
      obtain ⟨start, ingressDrainEv, queued, run⟩ := handleMacRx_data cfg i h control
      have signalled := StaysSevered.signals cfg i ((cfg.attr i).rxSignals (getPrioFromPacket p)
        (h.dev.localCongested (getPrioFromPacket p))
        (h.dev.rxOccPkts (getPrioFromPacket p) + 1)) start
      have noted : StaysSevered h.dev start.dev := by
        rw [queued]
        unfold QbbNetDevice.dataQueued QbbNetDevice.counted
        split <;> exact .of_eq rfl rfl rfl rfl
      change StaysSevered h.dev (handleMacRx cfg i p h).dev
      rw [run]
      exact (noted.trans signalled).trans (.of_eq rfl rfl rfl rfl)
  | drainPop prio =>
    change StaysSevered h.dev (drainPop cfg i prio h).dev
    rw [drainPop_eq]
    have popped : StaysSevered h.dev (h.update (·.popped prio)).dev := .of_eq rfl rfl rfl rfl
    exact popped.trans (.signals cfg i _ (h.update (·.popped prio)))

/- Runs -/

section Run

variable [DecidableEq ι] [DecidableEq ν] {s t : Net ι ν} {action : Action ι ν}

/-- Whatever data the step moves to the device's MAC queue fits. -/
def Net.AdmitsData (cfg : Config ι ν) (i : ι) (s : Net ι ν) (action : Action ι ν) : Prop :=
  ∀ duty ∈ s.duty cfg i action, duty.AdmitsData (s.stepTime action) (s.dev i)

instance decidableNetAdmitsData (cfg : Config ι ν) (i : ι) (s : Net ι ν) (action : Action ι ν) :
    Decidable (s.AdmitsData cfg i action) :=
  inferInstanceAs (Decidable (∀ duty ∈ s.duty cfg i action,
    duty.AdmitsData (s.stepTime action) (s.dev i)))

omit [DecidableEq ι] [DecidableEq ν] in
theorem Duty.AdmitsData.quiet {now : Time} {d e : QbbNetDevice} {duty : Duty}
    (admits : duty.AdmitsData now d) (quiet : Quiet d e) : duty.AdmitsData now e := by
  cases duty with
  | transmitComplete | drainPop => trivial
  | _ =>
    simpa only [Duty.AdmitsData, QbbNetDevice.holdFits, QbbNetDevice.pausing, pickNextPrio,
      quiet.linkUp, quiet.queue, quiet.sending] using admits

theorem step_controlDrops (reachable : Net.Reachable cfg s) (step : s.step cfg action = some t)
    (admits : s.AdmitsData cfg i action) :
    ControlDrops (s.dev i).toPointToPointNetDevice (t.dev i).toPointToPointNetDevice := by
  obtain ⟨clock, later, -⟩ := Net.step_does cfg step i
  refine Net.step_lift cfg step
    (R := fun d e => ControlDrops d.toPointToPointNetDevice e.toPointToPointNetDevice)
    .trans (fun quiet => .of_eq quiet.linkUp quiet.queueDrop quiet.macTxDrop) (fun dg h _ => ?_)
    fun duty h due now quiet => ?_
  · rw [send_base]
    exact .of_eq rfl rfl rfl
  · obtain ⟨framed, -⟩ := lawful_later reachable (now ▸ later) quiet
    refine duty_controlDrops duty framed ?_
    rw [now, clock]
    exact (admits duty due).quiet quiet

theorem step_staysSevered (reachable : Net.Reachable cfg s) (step : s.step cfg action = some t)
    (i : ι) : StaysSevered (s.dev i) (t.dev i) := by
  obtain ⟨clock, later, -⟩ := Net.step_does cfg step i
  refine Net.step_lift cfg step (R := StaysSevered) .trans
    (fun quiet => .of_eq quiet.linkUp quiet.queue (by rw [quiet.sending]) quiet.phyTxBegin)
    (fun dg h _ => ?_) fun duty h _ now quiet => ?_
  · unfold send Host.wakeTxEvent
    dsimp only
    split <;> exact .of_eq rfl rfl rfl rfl
  · obtain ⟨framed, lawful⟩ := lawful_later reachable (now ▸ later) quiet
    exact duty_staysSevered duty framed lawful

theorem run_controlDrops {actions : List (Action ι ν)} (reachable : Net.Reachable cfg s)
    (run : Net.RunWhere cfg (Net.AdmitsData cfg i) s actions t) :
    ControlDrops (s.dev i).toPointToPointNetDevice (t.dev i).toPointToPointNetDevice := by
  induction run with
  | nil => exact .of_eq rfl rfl rfl
  | snoc before admits step ih =>
    exact ih.trans (step_controlDrops (reachable.run cfg before) step admits)

theorem run_staysSevered {ok : Net ι ν → Action ι ν → Prop} {actions : List (Action ι ν)}
    (reachable : Net.Reachable cfg s) (run : Net.RunWhere cfg ok s actions t) (i : ι) :
    StaysSevered (s.dev i) (t.dev i) := by
  induction run with
  | nil => exact .of_eq rfl rfl rfl rfl
  | snoc before _ step ih => exact ih.trans (step_staysSevered (reachable.run cfg before) step i)

/-- What is transmitted was accepted. -/
theorem transmitted_le (reachable : Net.Reachable cfg s) (i : ι) :
    (s.dev i).transmitted.length ≤ (s.dev i).accepted.length := by
  have placed := (accepted_perm reachable i).length_eq
  have line : (s.dev i).transmitted.length ≤ (s.dev i).dataLine.length := by
    rw [QbbNetDevice.dataLine, List.filter_append, List.length_append]
    exact Nat.le_add_right _ _
  rw [List.length_append, List.length_append, List.length_map] at placed
  omega

theorem Datagram.isPfcFrame_frame (dg : Datagram) : isPfcFrame dg.frame = false :=
  (frameClass_eq_some.mp dg.frameClass_frame).1

/-- Control frames are all that was dropped, so no report is about an accepted packet. -/
theorem not_reported {d : PointToPointNetDevice} (dg : Datagram)
    (queueDrop : ∀ p ∈ d.queueDrop, isPfcFrame p = true)
    (macTxDrop : ∀ p ∈ d.macTxDrop, isPfcFrame p = true) : ¬ d.Reported dg := by
  rintro (framed | framed | bare)
  · exact absurd (queueDrop _ framed) (by simp [dg.isPfcFrame_frame])
  · exact absurd (macTxDrop _ framed) (by simp [dg.isPfcFrame_frame])
  · exact absurd (macTxDrop _ bare) (by simp [dg.isPfcFrame_packet])

/-- In every run in which the MAC queue has room for all data that is moved to
it, the drop traces are truthful at every point and for all that follows. -/
theorem drops_truthful {start : Net ι ν} {actions more : List (Action ι ν)}
    (initial : Net.Initial cfg start)
    (run : Net.RunWhere cfg (Net.AdmitsData cfg i) start actions s)
    (later : Net.RunWhere cfg (Net.AdmitsData cfg i) s more t) :
    DropsTruthful (s.dev i) (t.dev i) := by
  have started : Net.Reachable cfg start := ⟨start, [], initial, .nil⟩
  have reachable := run.reachable cfg initial
  have before := run_controlDrops started run
  have after := before.trans (run_controlDrops reachable later)
  obtain ⟨linkUp, stack, rfl⟩ := initial
  constructor
  case final =>
    intro dg _ reported
    cases up : linkUp i with
    | true =>
      exact absurd reported (not_reported dg
        (fun p member => (before.queueDrop p member).resolve_left List.not_mem_nil)
        fun p member => (before.macTxDrop up p member).resolve_left List.not_mem_nil)
    | false =>
      have severed := (run_staysSevered started run i ⟨up, rfl, fun _ => rfl⟩).1
      have nothing := (run_staysSevered reachable later i severed).2
      exact ⟨[], by rw [nothing, List.append_nil], List.not_mem_nil⟩
  case losses =>
    have none_lost : (t.dev i).queueLosses = [] := by
      refine List.filter_eq_nil_iff.mpr fun p member => ?_
      simp [(after.queueDrop p member).resolve_left List.not_mem_nil]
    rw [none_lost, List.length_nil, Nat.zero_add]
    exact transmitted_le (reachable.run cfg later) i

end Run

/-- One packet is on the wire and one is in the queue, for which there was room. -/
def roomyRun : List (Action (Fin 1) Unit) :=
  [sendClass 0 0x00, .event .sink, sendClass 1 0x00, .event .sink]

theorem drops_truthful_roomy :
    ∃ s t, (Net.started tightQueue).run tightQueue (Net.AdmitsData tightQueue 0) roomyRun = some s ∧
      s.run tightQueue (Net.AdmitsData tightQueue 0) [.event .sink, .event .sink] = some t ∧
      (t.dev 0).transmitted.length = 2 ∧ DropsTruthful (s.dev 0) (t.dev 0) := by
  have ran : ((Net.started tightQueue).run tightQueue (Net.AdmitsData tightQueue 0) roomyRun).any
      (fun s => (s.run tightQueue (Net.AdmitsData tightQueue 0) [.event .sink, .event .sink]).any
        fun t => decide ((t.dev 0).transmitted.length = 2)) = true := by decide +kernel
  simp only [Option.any_eq_true, decide_eq_true_eq] at ran
  obtain ⟨s, ran, t, later, sent⟩ := ran
  exact ⟨s, t, ran, later, sent, drops_truthful (Net.started_initial _) (.of_run _ ran)
    (.of_run _ later)⟩

/-- Three packets, of which the second fills the queue while the third is tried. -/
def refusedRun : List (Action (Fin 1) Unit) :=
  [sendClass 0 0x00, sendClass 1 0x00, sendClass 2 0x00, .event .sink, .event .sink, .event .sink]

abbrev refusedPacket : Datagram := .ipv4 (.host 2) 0x00

/-- Both traces report the third packet, which stays where it was and is sent
after all: one loss is counted, and none has happened. -/
theorem drops_untruthful :
    ∃ s t, Net.Reachable tightQueue s ∧
      s.run tightQueue (fun _ _ => True) [.event .sink, .event .sink, .event .sink] = some t ∧
      refusedPacket ∈ (s.dev 0).accepted ∧
      refusedPacket.frame ∈ (s.dev 0).queueDrop ∧ refusedPacket.frame ∈ (s.dev 0).macTxDrop ∧
      refusedPacket.frame ∉ (s.dev 0).transmitted ∧ refusedPacket.frame ∈ (t.dev 0).transmitted ∧
      (t.dev 0).queueLosses.length = 1 ∧ (t.dev 0).transmitted.length = (t.dev 0).accepted.length ∧
      ¬ DropsTruthful (s.dev 0) (t.dev 0) := by
  have ran : ((Net.started tightQueue).run tightQueue (fun _ _ => True) refusedRun).any (fun s =>
      decide (refusedPacket ∈ (s.dev 0).accepted ∧ refusedPacket.frame ∈ (s.dev 0).queueDrop ∧
        refusedPacket.frame ∈ (s.dev 0).macTxDrop ∧
        refusedPacket.frame ∉ (s.dev 0).transmitted) &&
      (s.run tightQueue (fun _ _ => True) [.event .sink, .event .sink, .event .sink]).any fun t =>
        decide (refusedPacket.frame ∈ (t.dev 0).transmitted ∧ (t.dev 0).queueLosses.length = 1 ∧
          (t.dev 0).transmitted.length = (t.dev 0).accepted.length)) = true := by decide +kernel
  simp only [Option.any_eq_true, Bool.and_eq_true, decide_eq_true_eq] at ran
  obtain ⟨s, ran, ⟨accepted, queueDrop, macTxDrop, before⟩, t, later, sent, lost, all⟩ := ran
  refine ⟨s, t, .of_run _ (Net.started_initial _) ran, later, accepted, queueDrop, macTxDrop,
    before, sent, lost, all, fun truthful => ?_⟩
  have fewer := truthful.losses
  omega

end QbbNet
