import QbbNet.PointToPointNetDevice
import QbbNet.EgressTokenManager

set_option autoImplicit false

namespace QbbNet

/-- An IPv4 or IPv6 datagram with the EtherType it is sent under. Nothing else
is handed to Send: any other protocol number fails an assertion in EtherToPpp. -/
structure Datagram where
  packet : Packet
  protocol : UInt16
  valid : protocol = 0x0800 ∧ (∃ first ∈ packet.bytes.head?, first.toNat / 16 = 4) ∧
        20 ≤ packet.bytes.length ∨
      protocol = 0x86DD ∧ (∃ first ∈ packet.bytes.head?, first.toNat / 16 = 6) ∧
        40 ≤ packet.bytes.length
  deriving DecidableEq

/-- The two ways a packet reaches Ipv4L3Protocol::Receive. -/
inductive L3Path
  | doIngressDrain
  | rxCallback
  deriving DecidableEq

/-- A call of SendPfcXoff or SendPfcXon. -/
inductive PfcSignal
  | xoff (prio : Fin 8) (quanta : UInt16)
  | xon (prio : Fin 8)
  deriving DecidableEq

/-- The fields that sending data and obeying PFC frames work on. `accepted` is
what Send was called with; nothing reads it. -/
structure SendingSide where
  txq : Fin 8 → List Datagram
  macHold : Fin 8 → List Packet
  paused : Fin 8 → Bool
  pauseUntil : Fin 8 → Time
  pfcRxXoff : Fin 8 → Nat
  pfcRxXon : Fin 8 → Nat
  txEvent : EventId
  refillEvent : Fin 8 → EventId
  accepted : List Datagram

/-- The fields that receiving data and sending PFC frames work on. Nothing reads
what `macRx`, `pfcSent` and `ipv4Rx` have recorded. The source counts the packets that wait
in a class in 32 bits; 2^32 of them are outside the model. -/
structure ReceivingSide where
  ingressQ : Fin 8 → List Packet
  rxOccPkts : Fin 8 → Nat
  localCongested : Fin 8 → Bool
  pfcTxXoff : Fin 8 → Nat
  pfcTxXon : Fin 8 → Nat
  ingressDrainEv : EventId
  tokenMgr : Bool
  l3DivertInstalled : Bool
  macRx : List (Time × Packet)
  pfcSent : List PfcSignal
  ipv4Rx : List (L3Path × Packet)

structure QbbNetDevice extends PointToPointNetDevice, SendingSide, ReceivingSide

/-- A device as QbbPointToPointHelper::Install leaves it. -/
def QbbNetDevice.install (attr : Attributes) (linkUp : Bool) : QbbNetDevice where
  linkUp := linkUp
  txMachineState := .ready
  currentPkt := none
  queue := .empty attr.maxSize
  rxCallback := .nonPromiscReceiveFromDevice
  phyTxBegin := []
  macTxDrop := []
  queueDrop := []
  phyRxDrop := []
  txq := fun _ => []
  macHold := fun _ => []
  paused := fun _ => false
  pauseUntil := fun _ => 0
  pfcRxXoff := fun _ => 0
  pfcRxXon := fun _ => 0
  txEvent := none
  refillEvent := fun _ => none
  accepted := []
  ingressQ := fun _ => []
  rxOccPkts := fun _ => 0
  localCongested := fun _ => false
  pfcTxXoff := fun _ => 0
  pfcTxXon := fun _ => 0
  ingressDrainEv := none
  tokenMgr := false
  l3DivertInstalled := false
  macRx := []
  pfcSent := []
  ipv4Rx := []

/-- What a handler of a device works on: the simulator, the device's own fields
and the token manager of its node. -/
structure Host (ι : Type) where
  sim : Simulator (Event ι)
  dev : QbbNetDevice
  mgr : EgressTokenManager

variable {ι ν : Type} (cfg : Config ι ν) (i : ι)

namespace Host

def now (h : Host ι) : Time := h.sim.currentTs

def update (h : Host ι) (f : QbbNetDevice → QbbNetDevice) : Host ι := { h with dev := f h.dev }

def scheduleTxEvent (h : Host ι) (delay : Time) : Host ι :=
  let scheduled := h.sim.schedule delay (.tryDequeue i)
  { h with sim := scheduled.2, dev := { h.dev with txEvent := scheduled.1 } }

def scheduleIngressDrainEv (h : Host ι) (delay : Time) : Host ι :=
  let scheduled := h.sim.schedule delay (.doIngressDrain i)
  { h with sim := scheduled.2, dev := { h.dev with ingressDrainEv := scheduled.1 } }

def scheduleRefillEvent (h : Host ι) (prio : Fin 8) (delay : Time) (event : Event ι) : Host ι :=
  let scheduled := h.sim.schedule delay event
  { h with
    sim := scheduled.2
    dev := { h.dev with refillEvent := Function.update h.dev.refillEvent prio scheduled.1 } }

/-- `if (m_refillEvent[pr].IsRunning()) m_refillEvent[pr].Cancel();` -/
def cancelRefillEvent (h : Host ι) (prio : Fin 8) : Host ι :=
  if h.sim.isExpired (h.dev.refillEvent prio) then h
  else { h with sim := h.sim.cancel (h.dev.refillEvent prio) }

/-- `if (m_txEvent.IsExpired()) m_txEvent = Simulator::ScheduleNow(TryDequeue);` -/
def wakeTxEvent (h : Host ι) : Host ι :=
  if h.sim.isExpired h.dev.txEvent then h.scheduleTxEvent i 0 else h

end Host

/- PointToPointNetDevice -/

def Host.withBase (h : Host ι) (base : Simulator (Event ι) × PointToPointNetDevice) : Host ι :=
  { h with sim := base.1, dev := { h.dev with toPointToPointNetDevice := base.2 } }

def transmitComplete (h : Host ι) : Host ι :=
  h.withBase (h.dev.toPointToPointNetDevice.transmitComplete cfg i h.sim)

/-- PointToPointNetDevice::Send, called by its qualified name past the device's own Send. -/
def ptpSend (p : Packet) (protocol : UInt16) (h : Host ι) : Bool × Host ι :=
  let sent := h.dev.toPointToPointNetDevice.send cfg i p protocol h.sim
  (sent.1, h.withBase sent.2)

/- Sending side -/

/-- `m_paused[pr] && Simulator::Now() < m_pauseUntil[pr]` -/
def QbbNetDevice.pausing (d : QbbNetDevice) (now : Time) (prio : Fin 8) : Bool :=
  d.paused prio && decide (now < d.pauseUntil prio)

def send (dg : Datagram) (h : Host ι) : Host ι :=
  let prio := getPrioFromPacket dg.packet
  Host.wakeTxEvent i (h.update fun d =>
    { d with
      txq := Function.update d.txq prio (d.txq prio ++ [dg])
      accepted := d.accepted ++ [dg] })

def pickNextPrio (d : QbbNetDevice) (now : Time) : Option (Fin 8) :=
  classes.reverse.find? fun prio => !(d.txq prio).isEmpty && !d.pausing now prio

def tryDequeue (h : Host ι) : Host ι :=
  match pickNextPrio h.dev h.now with
  | none => h
  | some prio =>
      match h.dev.txq prio with
      | [] => h
      | item :: _ =>
          if h.dev.pausing h.now prio then h.scheduleTxEvent i (microSeconds 10)
          else
            let sent := ptpSend cfg i item.packet item.protocol h
            if sent.1 = false then sent.2.scheduleTxEvent i (microSeconds 10)
            else
              (sent.2.update fun d =>
                { d with txq := Function.update d.txq prio (d.txq prio).tail }).scheduleTxEvent i 0

/- PFC: clearing the MAC queue and filling it again -/

def isPfcFrame (p : Packet) : Bool := p.peekPpp = some pfcPppProto

/-- The loop that empties the MAC queue into `keep` and the class's hold. Every
round takes one packet out, so as many rounds as there are packets are enough. -/
def purgeLoop (prio : Fin 8) : Nat → DropTailQueue → List Packet → List Packet →
    DropTailQueue × List Packet × List Packet
  | 0, macq, keep, hold => (macq, keep, hold)
  | rounds + 1, macq, keep, hold =>
      if 0 < macq.getCurrentSize then
        match macq.dequeue with
        | none => (macq, keep, hold)
        | some (p, macq) =>
            if isPfcFrame p then purgeLoop prio rounds macq (keep ++ [p]) hold
            else if getPrioFromPacket p = prio then purgeLoop prio rounds macq keep (hold ++ [p])
            else purgeLoop prio rounds macq (keep ++ [p]) hold
      else (macq, keep, hold)

/-- `macq->Enqueue(pkt)` with its result. -/
def QbbNetDevice.enqueue (p : Packet) (d : QbbNetDevice) : Bool × QbbNetDevice :=
  match d.queue.enqueue p with
  | some q => (true, { d with queue := q })
  | none => (false, { d with queueDrop := d.queueDrop ++ [p] })

def purgeMacQueueForPrio (prio : Fin 8) (d : QbbNetDevice) : QbbNetDevice :=
  let purged := purgeLoop prio d.queue.packets.length d.queue [] (d.macHold prio)
  purged.2.1.foldl (fun d p => (d.enqueue p).2)
    { d with
      queue := purged.1
      macHold := Function.update d.macHold prio purged.2.2 }

/-- The loop that moves held packets back until one is refused. -/
def refillLoop : List Packet → QbbNetDevice → List Packet × QbbNetDevice
  | [], d => ([], d)
  | p :: hold, d =>
      let queued := d.enqueue p
      if queued.1 then refillLoop hold queued.2 else (p :: hold, queued.2)

def refillMacQueueFromHold (prio : Fin 8) (h : Host ι) : Host ι :=
  if h.dev.pausing h.now prio then h
  else
    let h := if h.dev.paused prio && decide (h.dev.pauseUntil prio ≤ h.now) then
        h.update fun d => { d with paused := Function.update d.paused prio false }
      else h
    let refilled := refillLoop (h.dev.macHold prio) h.dev
    let h := { h with dev :=
      { refilled.2 with macHold := Function.update refilled.2.macHold prio refilled.1 } }
    if refilled.1 ≠ [] then
      h.scheduleRefillEvent prio (microSeconds 5) (.refillMacQueueFromHold i prio)
    else h.wakeTxEvent i

def resumeFromPause (prio : Fin 8) (h : Host ι) : Host ι :=
  if h.now < h.dev.pauseUntil prio then h
  else
    refillMacQueueFromHold i prio
      (h.update fun d => { d with paused := Function.update d.paused prio false })

/- PFC: sending control frames -/

/-- The frame before its PPP header: 20 bytes of header over 20 bytes of payload. -/
def pfcPacket (prio : Fin 8) (quanta : UInt16) : Packet where
  origin := .control
  bytes := PfcHeader.serialize
      { classEnable := UInt8.ofNat (2 ^ prio.val)
        quanta := Function.update (fun _ => 0) prio quanta } ++
    List.replicate 20 0

def sendPfcXoff (prio : Fin 8) (quanta : UInt16) (h : Host ι) : Host ι :=
  (ptpSend cfg i (pfcPacket prio quanta) pfcPppProto (h.update fun d =>
    { d with
      pfcTxXoff := Function.update d.pfcTxXoff prio (d.pfcTxXoff prio + 1)
      pfcSent := d.pfcSent ++ [.xoff prio quanta] })).2

def sendPfcXon (prio : Fin 8) (h : Host ι) : Host ι :=
  (ptpSend cfg i (pfcPacket prio 0) pfcPppProto (h.update fun d =>
    { d with
      pfcTxXon := Function.update d.pfcTxXon prio (d.pfcTxXon prio + 1)
      pfcSent := d.pfcSent ++ [.xon prio] })).2

def QbbNetDevice.setCongested (d : QbbNetDevice) (prio : Fin 8) (congested : Bool) :
    QbbNetDevice :=
  { d with localCongested := Function.update d.localCongested prio congested }

def onDataRx (prio : Fin 8) (h : Host ι) : Host ι :=
  if (cfg.attr i).pfcEnable = false then h
  else
    let h := h.update fun d =>
      { d with rxOccPkts := Function.update d.rxOccPkts prio (d.rxOccPkts prio + 1) }
    let h := if h.dev.localCongested prio = false ∧
          (cfg.attr i).pfcHighPkts ≤ h.dev.rxOccPkts prio then
        sendPfcXoff cfg i prio (cfg.attr i).defaultQuanta (h.update (·.setCongested prio true))
      else h
    if h.dev.localCongested prio = true ∧ h.dev.rxOccPkts prio ≤ (cfg.attr i).pfcLowPkts then
      sendPfcXon cfg i prio (h.update (·.setCongested prio false))
    else h

/- Receiving side -/

/-- One round of the loop over the classes of a received PFC frame. -/
def handlePfcClass (ph : PfcHeader) (h : Host ι) (prio : Fin 8) : Host ι :=
  if ph.enables prio = false then h
  else if ph.quanta prio = 0 then
    let h := h.update fun d =>
      { d with
        pfcRxXon := Function.update d.pfcRxXon prio (d.pfcRxXon prio + 1)
        paused := Function.update d.paused prio false
        pauseUntil := Function.update d.pauseUntil prio h.now }
    refillMacQueueFromHold i prio (h.cancelRefillEvent prio)
  else
    let duration := (cfg.attr i).quantaTime (ph.quanta prio)
    let h := h.update fun d =>
      purgeMacQueueForPrio prio
        { d with
          pfcRxXoff := Function.update d.pfcRxXoff prio (d.pfcRxXoff prio + 1)
          paused := Function.update d.paused prio true
          pauseUntil := Function.update d.pauseUntil prio (h.now + duration) }
    (h.cancelRefillEvent prio).scheduleRefillEvent prio duration (.resumeFromPause i prio)

/-- The first call registers every device the node has by then. -/
def ensureTokenManager (h : Host ι) : Host ι :=
  if h.dev.tokenMgr then h
  else { h with
    dev := { h.dev with tokenMgr := true }
    mgr := (cfg.devices (cfg.node i)).foldl
      (fun m j => m.registerEgressPort h.now (cfg.ifIndex j) (cfg.attr j).dataRate
        (cfg.attr i).avgPktSize) h.mgr }

/-- The header of a PFC frame, if it is complete and enables some class. -/
def pfcHeader (p : Packet) : Option PfcHeader :=
  (PfcHeader.deserialize p.removePpp.bytes).filter fun ph => ph.classEnable ≠ 0

/- HandleMacRx, in its two branches -/

def handlePfcFrame (p : Packet) (h : Host ι) : Host ι :=
  match pfcHeader p with
  | some ph => Host.wakeTxEvent i (classes.foldl (handlePfcClass cfg i ph) h)
  | none => h

def queueIngress (p : Packet) (h : Host ι) : Host ι :=
  let prio := getPrioFromPacket p
  (ensureTokenManager cfg i h).update fun d =>
    { d with ingressQ := Function.update d.ingressQ prio (d.ingressQ prio ++ [p]) }

def handleDataFrame (p : Packet) (h : Host ι) : Host ι :=
  let h := onDataRx cfg i (getPrioFromPacket p) (queueIngress cfg i p h)
  if h.sim.isExpired h.dev.ingressDrainEv then h.scheduleIngressDrainEv i 0 else h

def handleMacRx (p : Packet) (h : Host ι) : Host ι :=
  let h := h.update fun d => { d with macRx := d.macRx ++ [(h.now, p)] }
  if isPfcFrame p then handlePfcFrame cfg i p h else handleDataFrame cfg i p h

/- Ingress drain, in the pieces between which other parts of the node act -/

abbrev kInvalidPortId : Nat := 0xFFFFFFFF

def ingressPick (d : QbbNetDevice) : Option (Fin 8) :=
  classes.reverse.find? fun prio => !(d.ingressQ prio).isEmpty

/-- Asking for a token of the egress port. A refused device tries again later. -/
def drainToken (egressPort : Nat) (prio : Fin 8) (h : Host ι) : Bool × Host ι :=
  if egressPort = kInvalidPortId then (true, h)
  else
    let mgr := h.mgr.registerDemand egressPort (cfg.ifIndex i)
    let taken := mgr.tryConsumeTokenFair h.now egressPort (cfg.ifIndex i) 1
    if taken.1 = false then
      (false, { h with mgr := taken.2 }.scheduleIngressDrainEv i (microSeconds 10))
    else if (h.dev.ingressQ prio).length = 1 then
      (true, { h with mgr := taken.2.unregisterDemand egressPort (cfg.ifIndex i) })
    else (true, { h with mgr := taken.2 })

def drainPop (prio : Fin 8) (h : Host ι) : Host ι :=
  let h := h.update fun d =>
    { d with
      ingressQ := Function.update d.ingressQ prio (d.ingressQ prio).tail
      rxOccPkts := Function.update d.rxOccPkts prio (d.rxOccPkts prio - 1) }
  if (cfg.attr i).pfcEnable = true ∧ h.dev.localCongested prio = true ∧
      h.dev.rxOccPkts prio ≤ (cfg.attr i).pfcLowPkts then
    sendPfcXon cfg i prio (h.update (·.setCongested prio false))
  else h

end QbbNet
