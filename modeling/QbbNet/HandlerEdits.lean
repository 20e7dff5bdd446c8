import QbbNet.PauseRefinement
import QbbNet.PfcSignals

set_option autoImplicit false

/- What handlers do to the simulator and to the base device, in single edits. -/
namespace QbbNet

variable {ι ν : Type} (cfg : Config ι ν) (i : ι)

/-- The events that a device keeps identifiers of. -/
def Event.TimerOf (i : ι) : Event ι → Prop
  | .tryDequeue j => j = i
  | .doIngressDrain j => j = i
  | .resumeFromPause j _ => j = i
  | .refillMacQueueFromHold j _ => j = i
  | _ => False

inductive Edit : Simulator (Event ι) × PointToPointNetDevice →
    Simulator (Event ι) × PointToPointNetDevice → Prop
  | schedule {sim : Simulator (Event ι)} {base : PointToPointNetDevice} {event : Event ι}
      (delay : Time) (own : event.TimerOf i ∨ event = .hookL3Divert i) :
      Edit (sim, base) ((sim.schedule delay event).2, base)
  | cancel {sim : Simulator (Event ι)} {base : PointToPointNetDevice} {id : EventId}
      (armed : sim.isExpired id = false →
        ∃ e, sim.Live e ∧ id = some e.key ∧ e.impl.TimerOf i) :
      Edit (sim, base) (sim.cancel id, base)
  | requeue {sim : Simulator (Event ι)} {base : PointToPointNetDevice}
      (queue : DropTailQueue) (queueDrop : List Packet) :
      Edit (sim, base) (sim, { base with queue := queue, queueDrop := queueDrop })
  | note {sim : Simulator (Event ι)} {base : PointToPointNetDevice}
      (rxCallback : RxCallback) (phyRxDrop : List Packet) :
      Edit (sim, base) (sim, { base with rxCallback := rxCallback, phyRxDrop := phyRxDrop })
  | send {sim : Simulator (Event ι)} {base : PointToPointNetDevice}
      (p : Packet) (protocol : UInt16) : Edit (sim, base) (base.send cfg i p protocol sim).2

abbrev Edits : Simulator (Event ι) × PointToPointNetDevice →
    Simulator (Event ι) × PointToPointNetDevice → Prop := Relation.ReflTransGen (Edit cfg i)

def Host.link (h : Host ι) : Simulator (Event ι) × PointToPointNetDevice :=
  (h.sim, h.dev.toPointToPointNetDevice)

variable {cfg i} {before after : Simulator (Event ι) × PointToPointNetDevice} {h : Host ι}

theorem Edit.currentTs (edit : Edit cfg i before after) :
    after.1.currentTs = before.1.currentTs := by
  cases edit with
  | schedule | requeue | note => rfl
  | cancel => exact Simulator.cancel_currentTs ..
  | @send sim base p protocol =>
    rcases PointToPointNetDevice.send_cases cfg i p protocol sim base with
      ⟨-, sent⟩ | ⟨-, -, sent⟩ | ⟨-, _, -, ⟨-, sent⟩ | ⟨-, _, _, -, sent⟩⟩ <;> simp [sent]

theorem Edit.linkUp (edit : Edit cfg i before after) : after.2.linkUp = before.2.linkUp := by
  cases edit with
  | schedule | cancel | requeue | note => rfl
  | @send sim base p protocol =>
    rcases PointToPointNetDevice.send_cases cfg i p protocol sim base with
      ⟨-, sent⟩ | ⟨-, -, sent⟩ | ⟨-, _, -, ⟨-, sent⟩ | ⟨-, _, _, -, sent⟩⟩ <;>
      simp [sent, PointToPointNetDevice.transmitStart]

theorem Edits.currentTs (edits : Edits cfg i before after) :
    after.1.currentTs = before.1.currentTs := by
  induction edits with
  | refl => rfl
  | tail _ edit ih => exact edit.currentTs.trans ih

theorem Edits.now {h after : Host ι} (edits : Edits cfg i h.link after.link) :
    after.now = h.now := edits.currentTs

namespace Edits

variable {start : Simulator (Event ι) × PointToPointNetDevice} (so_far : Edits cfg i start h.link)
include so_far

theorem scheduleTxEvent (delay : Time) : Edits cfg i start (h.scheduleTxEvent i delay).link :=
  so_far.tail (.schedule delay (Or.inl (show (Event.tryDequeue i).TimerOf i from rfl)))

theorem scheduleIngressDrainEv (delay : Time) :
    Edits cfg i start (h.scheduleIngressDrainEv i delay).link :=
  so_far.tail (.schedule delay (Or.inl (show (Event.doIngressDrain i).TimerOf i from rfl)))

theorem scheduleRefillEvent (prio : Fin 8) (delay : Time) {event : Event ι}
    (timer : event.TimerOf i) : Edits cfg i start (h.scheduleRefillEvent prio delay event).link :=
  so_far.tail (.schedule delay (Or.inl timer))

theorem cancelRefillEvent (prio : Fin 8)
    (armed : h.sim.isExpired (h.dev.refillEvent prio) = false →
      ∃ e, h.sim.Live e ∧ h.dev.refillEvent prio = some e.key ∧ e.impl.TimerOf i) :
    Edits cfg i start (h.cancelRefillEvent prio).link := by
  unfold Host.cancelRefillEvent
  split
  · exact so_far
  · exact so_far.tail (.cancel armed)

theorem wakeTxEvent : Edits cfg i start (h.wakeTxEvent i).link := by
  unfold Host.wakeTxEvent
  split
  · exact so_far.scheduleTxEvent 0
  · exact so_far

theorem ptpSend (p : Packet) (protocol : UInt16) :
    Edits cfg i start (QbbNet.ptpSend cfg i p protocol h).2.link := so_far.tail (.send p protocol)

theorem send (dg : Datagram) : Edits cfg i start (QbbNet.send i dg h).link :=
  wakeTxEvent (h := h.update _) so_far

theorem tryDequeue : Edits cfg i start (QbbNet.tryDequeue cfg i h).link := by
  rcases tryDequeue_cases cfg i h with
    ⟨-, same⟩ | ⟨prio, item, rest, -, -, -, ⟨-, same⟩ | ⟨-, same⟩⟩
  · rwa [same]
  · rw [same]
    exact (so_far.ptpSend item.packet item.protocol).scheduleTxEvent _
  · rw [same]
    exact scheduleTxEvent (h := Host.update _ _) (so_far.ptpSend item.packet item.protocol) _

theorem refillMacQueueFromHold (prio : Fin 8) :
    Edits cfg i start (QbbNet.refillMacQueueFromHold i prio h).link := by
  rcases refillMacQueueFromHold_cases i prio h with
    ⟨-, same⟩ | ⟨-, moved, rest, dropped, q, -, -, -, ⟨-, same⟩ | ⟨-, same⟩⟩
  · rwa [same]
  · rw [same]
    exact scheduleRefillEvent (h := { h with dev := h.dev.refilled prio q rest dropped })
      (so_far.tail (.requeue q dropped)) _ _ rfl
  · rw [same]
    exact wakeTxEvent (h := { h with dev := h.dev.refilled prio q rest dropped })
      (so_far.tail (.requeue q dropped))

theorem resumeFromPause (prio : Fin 8) :
    Edits cfg i start (QbbNet.resumeFromPause i prio h).link := by
  unfold QbbNet.resumeFromPause
  split
  · exact so_far
  · exact refillMacQueueFromHold (h := h.update _) so_far prio

theorem signals (signals : List PfcSignal) :
    Edits cfg i start (signals.foldl (sendSignal cfg i) h).link := by
  induction signals generalizing h with
  | nil => exact so_far
  | cons signal signals ih => exact ih (ptpSend (h := h.update _) so_far ..)

theorem onDataRx (prio : Fin 8) : Edits cfg i start (QbbNet.onDataRx cfg i prio h).link := by
  have counted : (h.update (·.counted (cfg.attr i) prio)).link = h.link := by
    simp only [Host.link, Host.update, QbbNetDevice.counted]
    split <;> rfl
  rw [onDataRx_eq]
  exact signals (h := h.update _) (counted ▸ so_far) _

theorem drainPop (prio : Fin 8) : Edits cfg i start (QbbNet.drainPop cfg i prio h).link := by
  rw [drainPop_eq]
  exact signals (h := h.update _) so_far _

theorem drainToken (egressPort : Nat) (prio : Fin 8) :
    Edits cfg i start (QbbNet.drainToken cfg i egressPort prio h).2.link := by
  unfold QbbNet.drainToken
  split
  · exact so_far
  · dsimp only
    split
    · exact scheduleIngressDrainEv (h := { h with mgr := _ }) so_far _
    · split <;> exact so_far

omit so_far in
theorem ensureTokenManager_link : (ensureTokenManager cfg i h).link = h.link := by
  unfold ensureTokenManager
  split <;> rfl

theorem handleDataFrame (p : Packet) :
    Edits cfg i start (QbbNet.handleDataFrame cfg i p h).link := by
  have queued : Edits cfg i start (queueIngress cfg i p h).link := by
    change Edits cfg i start (ensureTokenManager cfg i h).link
    rwa [ensureTokenManager_link]
  have counted := queued.onDataRx (getPrioFromPacket p)
  unfold QbbNet.handleDataFrame
  dsimp only
  split
  · exact scheduleIngressDrainEv counted 0
  · exact counted

end Edits

theorem send_now (dg : Datagram) : (send i dg h).now = h.now := Host.wakeTxEvent_now i _

theorem handlePfcFrame_now (p : Packet) : (handlePfcFrame cfg i p h).now = h.now := by
  unfold handlePfcFrame
  split
  · rw [Host.wakeTxEvent_now, foldl_handlePfcClass_now]
  · rfl

theorem handleMacRx_now (p : Packet) : (handleMacRx cfg i p h).now = h.now := by
  unfold handleMacRx
  dsimp only
  split
  · rw [handlePfcFrame_now]
    rfl
  · exact (Edits.handleDataFrame (h := h.update _) .refl p).now

/- What handlers leave alone -/

section Frames

theorem sendSignal_below (signal : PfcSignal) :
    (sendSignal cfg i h signal).dev.linkUp = h.dev.linkUp ∧
      (sendSignal cfg i h signal).dev.rxCallback = h.dev.rxCallback := by
  rcases PointToPointNetDevice.send_cases cfg i (pfcPacket signal.prio signal.quanta) pfcPppProto
      h.sim h.dev.toPointToPointNetDevice with
    ⟨-, sent⟩ | ⟨-, -, sent⟩ | ⟨-, q, -, ⟨-, sent⟩ | ⟨-, first, rest, -, sent⟩⟩ <;>
    simp [sendSignal, ptpSend, sent, Host.update, QbbNetDevice.noted, Host.withBase,
      PointToPointNetDevice.transmitStart]

theorem signals_sending (signals : List PfcSignal) :
    (signals.foldl (sendSignal cfg i) h).dev.toSendingSide = h.dev.toSendingSide := by
  induction signals generalizing h with
  | nil => rfl
  | cons signal signals ih => exact ih

theorem onDataRx_sending (prio : Fin 8) :
    (onDataRx cfg i prio h).dev.toSendingSide = h.dev.toSendingSide := by
  rw [onDataRx_eq, signals_sending, Host.update, QbbNetDevice.counted]
  split <;> rfl

theorem drainPop_sending (prio : Fin 8) :
    (drainPop cfg i prio h).dev.toSendingSide = h.dev.toSendingSide := by
  rw [drainPop_eq, signals_sending]
  rfl

theorem ensureTokenManager_dev :
    (ensureTokenManager cfg i h).dev = { h.dev with tokenMgr := true } := by
  unfold ensureTokenManager
  split
  · rename_i ensured
    rw [← ensured]
  · rfl

theorem queueIngress_dev (p : Packet) :
    (queueIngress cfg i p h).dev = { h.dev with
      tokenMgr := true
      ingressQ := Function.update h.dev.ingressQ (getPrioFromPacket p)
        (h.dev.ingressQ (getPrioFromPacket p) ++ [p]) } := by
  rw [queueIngress, Host.update, ensureTokenManager_dev]

theorem queueIngress_sending (p : Packet) :
    (queueIngress cfg i p h).dev.toSendingSide = h.dev.toSendingSide := by
  rw [queueIngress_dev]

theorem handleDataFrame_sending (p : Packet) :
    (handleDataFrame cfg i p h).dev.toSendingSide = h.dev.toSendingSide := by
  have counted : (onDataRx cfg i (getPrioFromPacket p) (queueIngress cfg i p h)).dev.toSendingSide =
      h.dev.toSendingSide := (onDataRx_sending _).trans (queueIngress_sending p)
  unfold handleDataFrame
  dsimp only
  split <;> exact counted

/-- The host sends: what was accepted, the receiving side and the token manager stay. -/
structure Sends (h after : Host ι) : Prop where
  accepted : after.dev.accepted = h.dev.accepted
  receiving : after.dev.toReceivingSide = h.dev.toReceivingSide
  mgr : after.mgr = h.mgr

/-- The host obeys PFC frames: its packets wait, and of the device below, only the
queue changes too. -/
structure Obeys (h after : Host ι) : Prop extends Sends h after where
  txq : after.dev.txq = h.dev.txq
  base : ∃ queue queueDrop, after.dev.toPointToPointNetDevice =
    { h.dev.toPointToPointNetDevice with queue, queueDrop }

namespace Obeys

theorem refl (h : Host ι) : Obeys h h where
  accepted := rfl
  receiving := rfl
  mgr := rfl
  txq := rfl
  base := ⟨_, _, rfl⟩

theorem trans {h mid after : Host ι} (first : Obeys h mid) (second : Obeys mid after) :
    Obeys h after where
  accepted := second.accepted.trans first.accepted
  receiving := second.receiving.trans first.receiving
  mgr := second.mgr.trans first.mgr
  txq := second.txq.trans first.txq
  base := by
    obtain ⟨_, _, below⟩ := first.base
    obtain ⟨queue, queueDrop, same⟩ := second.base
    exact ⟨queue, queueDrop, by rw [same, below]⟩

variable {after : Host ι} (obeys : Obeys h after)
include obeys

theorem rxCallback : after.dev.rxCallback = h.dev.rxCallback := by
  obtain ⟨_, _, same⟩ := obeys.base
  rw [same]

theorem phyTxBegin : after.dev.phyTxBegin = h.dev.phyTxBegin := by
  obtain ⟨_, _, same⟩ := obeys.base
  rw [same]

end Obeys

theorem wakeTxEvent_obeys : Obeys h (h.wakeTxEvent i) := by
  unfold Host.wakeTxEvent
  split
  · exact { Obeys.refl h with }
  · exact .refl h

theorem cancelRefillEvent_obeys (prio : Fin 8) : Obeys h (h.cancelRefillEvent prio) := by
  unfold Host.cancelRefillEvent
  split
  · exact .refl h
  · exact { Obeys.refl h with }

theorem refilled_obeys (prio : Fin 8) (q : DropTailQueue) (rest dropped : List Packet) :
    Obeys h { h with dev := h.dev.refilled prio q rest dropped } where
  accepted := rfl
  receiving := rfl
  mgr := rfl
  txq := rfl
  base := ⟨q, dropped, rfl⟩

theorem refillMacQueueFromHold_obeys (prio : Fin 8) :
    Obeys h (refillMacQueueFromHold i prio h) := by
  rcases refillMacQueueFromHold_cases i prio h with
    ⟨-, same⟩ | ⟨-, moved, rest, dropped, q, -, -, -, ⟨-, same⟩ | ⟨-, same⟩⟩
  · rw [same]
    exact .refl h
  · rw [same]
    exact { refilled_obeys prio q rest dropped with }
  · rw [same]
    exact (refilled_obeys prio q rest dropped).trans wakeTxEvent_obeys

theorem resumeFromPause_obeys (prio : Fin 8) : Obeys h (resumeFromPause i prio h) := by
  unfold resumeFromPause
  split
  · exact .refl h
  · exact { refillMacQueueFromHold_obeys (h := h.update _) prio with }

theorem handlePfcClass_obeys (ph : PfcHeader) (prio : Fin 8) :
    Obeys h (handlePfcClass cfg i ph h prio) := by
  rcases handlePfcClass_cases cfg i ph prio h with ⟨-, same⟩ | ⟨-, -, same⟩ | ⟨-, -, same⟩
  · rw [same]
    exact .refl h
  · rw [same]
    have cancelled := cancelRefillEvent_obeys (h := h.update (·.resumedAt prio h.now)) prio
    exact { cancelled.trans (refillMacQueueFromHold_obeys prio) with }
  · rw [same]
    obtain ⟨queue, dropped, held, rest⟩ := pausedFor_rest h.dev prio
      (h.now + (cfg.attr i).quantaTime (ph.quanta prio))
    have paused : Obeys h (h.update (·.pausedFor prio
        (h.now + (cfg.attr i).quantaTime (ph.quanta prio)))) := by
      rw [Host.update, rest]
      exact ⟨⟨rfl, rfl, rfl⟩, rfl, queue, dropped, rfl⟩
    exact { paused.trans (cancelRefillEvent_obeys prio) with }

theorem foldl_handlePfcClass_obeys (ph : PfcHeader) (prios : List (Fin 8)) :
    Obeys h (prios.foldl (handlePfcClass cfg i ph) h) := by
  induction prios generalizing h with
  | nil => exact .refl h
  | cons prio prios ih => exact (handlePfcClass_obeys ph prio).trans ih

theorem handlePfcFrame_obeys (p : Packet) : Obeys h (handlePfcFrame cfg i p h) := by
  unfold handlePfcFrame
  split
  · rename_i ph _
    exact (foldl_handlePfcClass_obeys ph classes).trans wakeTxEvent_obeys
  · exact .refl h

theorem tryDequeue_sends : Sends h (tryDequeue cfg i h) := by
  rcases tryDequeue_cases cfg i h with
    ⟨-, same⟩ | ⟨prio, item, rest, -, -, -, ⟨-, same⟩ | ⟨-, same⟩⟩ <;> rw [same] <;>
      exact ⟨rfl, rfl, rfl⟩

theorem send_receiving (dg : Datagram) :
    (send i dg h).dev.toReceivingSide = h.dev.toReceivingSide :=
  (wakeTxEvent_obeys (h := h.update _)).receiving

theorem send_base (dg : Datagram) :
    (send i dg h).dev.toPointToPointNetDevice = h.dev.toPointToPointNetDevice := by
  unfold send Host.wakeTxEvent
  dsimp only
  split <;> rfl

variable (cfg i) in
theorem signals_receiving (signals : List PfcSignal) :
    (signals.foldl (sendSignal cfg i) h).dev.toReceivingSide =
      signals.foldl ReceivingSide.noted h.dev.toReceivingSide := by
  induction signals generalizing h with
  | nil => rfl
  | cons signal signals ih => exact ih

variable (cfg i h) in
theorem handleMacRx_of_control {p : Packet} (control : isPfcFrame p = true) :
    handleMacRx cfg i p h =
      handlePfcFrame cfg i p (h.update fun d => { d with macRx := d.macRx ++ [(h.now, p)] }) := by
  rw [handleMacRx, if_pos control]

variable (cfg i h) in
theorem handleMacRx_of_data {p : Packet} (data : isPfcFrame p = false) :
    handleMacRx cfg i p h =
      handleDataFrame cfg i p (h.update fun d => { d with macRx := d.macRx ++ [(h.now, p)] }) := by
  rw [handleMacRx, if_neg (by simp [data])]

variable (cfg i h) in
theorem handleMacRx_control {p : Packet} (control : isPfcFrame p = true) :
    Obeys (h.update fun d => { d with macRx := d.macRx ++ [(h.now, p)] }) (handleMacRx cfg i p h) := by
  rw [handleMacRx_of_control cfg i h control]
  exact handlePfcFrame_obeys p

/-- The device after a data frame has been queued and counted. -/
def QbbNetDevice.dataQueued (d : QbbNetDevice) (attr : Attributes) (now : Time) (p : Packet) :
    QbbNetDevice :=
  QbbNetDevice.counted
    { d with
      macRx := d.macRx ++ [(now, p)]
      tokenMgr := true
      ingressQ := Function.update d.ingressQ (getPrioFromPacket p)
        (d.ingressQ (getPrioFromPacket p) ++ [p]) } attr (getPrioFromPacket p)

theorem dataQueued_receiving (d : QbbNetDevice) (attr : Attributes) (now : Time) (p : Packet) :
    ∃ rxOccPkts, (d.dataQueued attr now p).toReceivingSide = { d.toReceivingSide with
      macRx := d.macRx ++ [(now, p)]
      tokenMgr := true
      ingressQ := Function.update d.ingressQ (getPrioFromPacket p)
        (d.ingressQ (getPrioFromPacket p) ++ [p])
      rxOccPkts } := by
  unfold QbbNetDevice.dataQueued QbbNetDevice.counted
  split
  · exact ⟨_, rfl⟩
  · exact ⟨_, rfl⟩

variable (cfg i h) in
/-- A data frame is queued and counted before the signals that it causes are sent. -/
theorem handleMacRx_data {p : Packet} (data : isPfcFrame p = false) :
    ∃ start : Host ι, ∃ ingressDrainEv,
      start.dev = h.dev.dataQueued (cfg.attr i) h.now p ∧
      (handleMacRx cfg i p h).dev =
        { (((cfg.attr i).rxSignals (getPrioFromPacket p) (h.dev.localCongested (getPrioFromPacket p))
          (h.dev.rxOccPkts (getPrioFromPacket p) + 1)).foldl (sendSignal cfg i) start).dev with
          ingressDrainEv } := by
  let traced := h.update fun d => { d with macRx := d.macRx ++ [(h.now, p)] }
  let start := (queueIngress cfg i p traced).update (·.counted (cfg.attr i) (getPrioFromPacket p))
  have queued : (queueIngress cfg i p traced).dev = _ := queueIngress_dev p
  have counted : start.dev = h.dev.dataQueued (cfg.attr i) h.now p := by
    dsimp only [start, Host.update]
    rw [queued]
    rfl
  rw [handleMacRx_of_data cfg i h data, handleDataFrame, onDataRx_eq, queued]
  dsimp only
  split
  · exact ⟨start, _, counted, rfl⟩
  · exact ⟨start, _, counted, rfl⟩

end Frames

end QbbNet
