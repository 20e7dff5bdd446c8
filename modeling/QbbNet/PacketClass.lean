import QbbNet.DropTraces
import QbbNet.MacQueuePurge
import QbbNet.Watermarks

set_option autoImplicit false

/- The class of a packet, wherever it is looked up: with and without the PPP
header, at the sender and at the receiver. -/
namespace QbbNet

variable {ι ν : Type} (cfg : Config ι ν) (i : ι)

/-- The class that the IP header of a datagram asks for, which only IPv4 does. -/
def Datagram.headerClass (dg : Datagram) : Fin 8 :=
  (Ipv4Header.deserialize dg.packet.bytes).elim 0 fun ip => Fin.ofNat 8 (ip.tos.toNat / 32)

/-- The first two bytes of a bare datagram are not taken for a PPP header. -/
theorem Datagram.getPrioFromPacket_packet (dg : Datagram) :
    getPrioFromPacket dg.packet = dg.headerClass := by
  have bare : dg.packet.peekPpp ≠ some 0x0021 := by
    rcases dg.valid with ⟨-, ⟨first, head, version⟩, -⟩ | ⟨-, ⟨first, head, version⟩, -⟩
    · exact Packet.peekPpp_of_version head (by omega)
    · exact Packet.peekPpp_of_version head (by omega)
  unfold getPrioFromPacket headerClass
  rw [if_neg bare]
  dsimp only
  cases Ipv4Header.deserialize dg.packet.bytes <;> rfl

theorem Datagram.getPrioFromPacket_frame (dg : Datagram) :
    getPrioFromPacket dg.frame = dg.headerClass :=
  (frameClass_eq_some.mp dg.frameClass_frame).2.trans dg.getPrioFromPacket_packet

/-- A data frame's PPP header is one of the two for IP. -/
theorem Datagram.peekPpp_frame (dg : Datagram) :
    dg.frame.peekPpp = some 0x0021 ∨ dg.frame.peekPpp = some 0x0057 := by
  have peeked : dg.frame.peekPpp = some (etherToPpp dg.protocol) := Packet.peekPpp_addPpp ..
  rcases dg.valid with ⟨protocol, -⟩ | ⟨protocol, -⟩
  · exact Or.inl (by rw [peeked, protocol]; rfl)
  · exact Or.inr (by rw [peeked, protocol]; rfl)

variable {i} {h : Host ι}

theorem send_txq (dg : Datagram) :
    (send i dg h).dev.txq = Function.update h.dev.txq (getPrioFromPacket dg.packet)
      (h.dev.txq (getPrioFromPacket dg.packet) ++ [dg]) := by
  unfold send Host.wakeTxEvent
  dsimp only
  split <;> rfl

variable {cfg}

/-- Nothing leaves the queue of a class that is being paused. -/
theorem tryDequeue_gated {prio : Fin 8} (gated : h.dev.pausing h.now prio = true) :
    (tryDequeue cfg i h).dev.txq prio = h.dev.txq prio := by
  rcases tryDequeue_cases cfg i h with
    ⟨-, same⟩ | ⟨picked, item, rest, -, -, running, ⟨-, same⟩ | ⟨-, same⟩⟩
  · rw [same]
  · rw [same]
    rfl
  · have different : prio ≠ picked := by
      rintro rfl
      rw [gated] at running
      cases running
    rw [same]
    exact Function.update_of_ne different ..

/-- A data frame is queued and counted under its class. -/
theorem handleMacRx_counted {p : Packet} (data : isPfcFrame p = false) :
    (handleMacRx cfg i p h).dev.ingressQ =
        Function.update h.dev.ingressQ (getPrioFromPacket p)
          (h.dev.ingressQ (getPrioFromPacket p) ++ [p]) ∧
      ((cfg.attr i).pfcEnable = true → (handleMacRx cfg i p h).dev.rxOccPkts =
        Function.update h.dev.rxOccPkts (getPrioFromPacket p)
          (h.dev.rxOccPkts (getPrioFromPacket p) + 1)) := by
  constructor
  · have receives : Receives (.handleMacRx p) h.now h.dev (handleMacRx cfg i p h).dev :=
      handleMacRx_receives p
    rw [receives.ingressQ, Duty.queues, data]
    rfl
  · intro enabled
    obtain ⟨start, _, queued, after⟩ := handleMacRx_data cfg i h data
    rw [after]
    dsimp only
    rw [signals_receiving, (ReceivingSide.foldl_noted_queue _).1, queued, QbbNetDevice.dataQueued,
      QbbNetDevice.counted, if_pos enabled]

/-- A purge takes a data frame out of the MAC queue exactly if it is for the frame's class. -/
theorem purgeMacQueueForPrio_mem {p : Packet} {d : QbbNetDevice} (prio : Fin 8)
    (data : isPfcFrame p = false) (member : p ∈ d.queue.packets)
    (counts : ∀ p ∈ d.queue.packets, 0 < d.queue.maxSize.unit.measure [p]) :
    (p ∈ (purgeMacQueueForPrio prio d).queue.packets ↔ getPrioFromPacket p ≠ prio) ∧
      (getPrioFromPacket p = prio → p ∈ (purgeMacQueueForPrio prio d).macHold prio) := by
  obtain ⟨q, -, content, purged⟩ := purgeMacQueueForPrio_eq prio d counts
  rw [purged]
  dsimp only
  rw [content, Function.update_self, List.mem_filter, List.mem_append, List.mem_filter,
    frameClass_ne, frameClass_eq, data]
  constructor
  · simp [member]
  · intro same
    exact Or.inr ⟨member, by simp [same]⟩

variable (cfg i)

/-- A datagram's packet counts for this class wherever it is: under it Send queues the
bare packet, whose pause holds it there; for it alone a purge takes the frame out
of the MAC queue, and under it the receiver queues and counts the frame. -/
structure Datagram.Accounted (dg : Datagram) (prio : Fin 8) : Prop where
  bare : getPrioFromPacket dg.packet = prio
  framed : getPrioFromPacket dg.frame = prio
  queued : ∀ h : Host ι,
    (send i dg h).dev.txq = Function.update h.dev.txq prio (h.dev.txq prio ++ [dg])
  gated : ∀ h : Host ι, h.dev.pausing h.now prio = true →
    (tryDequeue cfg i h).dev.txq prio = h.dev.txq prio
  purged : ∀ (d : QbbNetDevice) (other : Fin 8),
    (∀ p ∈ d.queue.packets, 0 < d.queue.maxSize.unit.measure [p]) → dg.frame ∈ d.queue.packets →
      (dg.frame ∈ (purgeMacQueueForPrio other d).queue.packets ↔ prio ≠ other) ∧
        (prio = other → dg.frame ∈ (purgeMacQueueForPrio other d).macHold other)
  received : ∀ h : Host ι, (handleMacRx cfg i dg.frame h).dev.ingressQ =
    Function.update h.dev.ingressQ prio (h.dev.ingressQ prio ++ [dg.frame])
  occupies : ∀ h : Host ι, (cfg.attr i).pfcEnable = true →
    (handleMacRx cfg i dg.frame h).dev.rxOccPkts =
      Function.update h.dev.rxOccPkts prio (h.dev.rxOccPkts prio + 1)

/-- Each packet is of one class, the one its IP header asks for, and no data frame
is taken for a PFC frame or the other way round. -/
theorem one_packet_one_class (dg : Datagram) :
    dg.Accounted cfg i dg.headerClass ∧
      isPfcFrame dg.packet = false ∧ isPfcFrame dg.frame = false ∧
      ∀ (ph : PfcHeader) (origin : Origin) (payload : List UInt8),
        isPfcFrame (ph.frame origin payload) = true ∧
          (ph.frame origin payload).peekPpp ≠ dg.frame.peekPpp := by
  have data : isPfcFrame dg.frame = false := dg.isPfcFrame_frame
  have bare := dg.getPrioFromPacket_packet
  have framed := dg.getPrioFromPacket_frame
  refine ⟨⟨bare, framed, fun h => ?_, fun h => tryDequeue_gated, fun d other counts member => ?_,
    fun h => ?_, fun h enabled => ?_⟩, dg.isPfcFrame_packet, data, fun ph origin payload => ?_⟩
  · rw [← bare]
    exact send_txq dg
  · rw [← framed]
    exact purgeMacQueueForPrio_mem other data member counts
  · rw [← framed]
    exact (handleMacRx_counted data).1
  · rw [← framed]
    exact (handleMacRx_counted data).2 enabled
  · refine ⟨ph.isPfcFrame_frame origin payload, ?_⟩
    have control : (ph.frame origin payload).peekPpp = some pfcPppProto := Packet.peekPpp_addPpp ..
    rw [control]
    rcases dg.peekPpp_frame with peeked | peeked
    · rw [peeked]
      decide
    · rw [peeked]
      decide

end QbbNet
