import QbbNet.ClassedSender
import QbbNet.SimulatorSlots
import QbbNet.Device

set_option autoImplicit false

/- A device's sending side, with the queue of its base device, is a classed
sender of frames: every handler is a sequence of the sender's moves. -/
namespace QbbNet

open ClassedSender

/-- The class of a frame in the MAC queue; PFC frames have none. -/
def frameClass (p : Packet) : Option (Fin 8) :=
  if isPfcFrame p then none else some (getPrioFromPacket p)

def Datagram.frame (dg : Datagram) : Packet := dg.packet.addPpp (etherToPpp dg.protocol)

/-- The first byte of a packet is the high byte of the protocol that is peeked. -/
theorem Packet.peekPpp_high {p : Packet} {first : UInt8} {protocol : UInt16}
    (head : first ∈ p.bytes.head?) (peeked : p.peekPpp = some protocol) :
    protocol.toNat / 256 = first.toNat := by
  unfold peekPpp at peeked
  cases content : p.bytes with
  | nil => simp [content] at head
  | cons high rest =>
    obtain rfl : high = first := by simpa [content] using head
    rw [content] at peeked
    cases rest with
    | nil => simp [PppHeader.deserialize] at peeked
    | cons low rest =>
      simp only [PppHeader.deserialize, Option.some.injEq] at peeked
      have high_lt := high.toNat_lt
      have low_lt := low.toNat_lt
      rw [← peeked, readNtohU16, UInt16.toNat_ofNat']
      omega

theorem Packet.peekPpp_of_version {p : Packet} {first : UInt8} (head : first ∈ p.bytes.head?)
    (version : 1 ≤ first.toNat / 16) : p.peekPpp ≠ some 0x0021 := by
  intro peeked
  have high := Packet.peekPpp_high head peeked
  change 33 / 256 = _ at high
  omega

/-- No IP version makes a bare packet look like a PFC frame. -/
theorem Datagram.isPfcFrame_packet (dg : Datagram) : isPfcFrame dg.packet = false := by
  obtain ⟨first, head, version⟩ : ∃ first ∈ dg.packet.bytes.head?, first.toNat / 16 ≠ 9 := by
    rcases dg.valid with ⟨-, ⟨first, head, version⟩, -⟩ | ⟨-, ⟨first, head, version⟩, -⟩
    · exact ⟨first, head, by omega⟩
    · exact ⟨first, head, by omega⟩
  refine decide_eq_false fun peeked => ?_
  have high := Packet.peekPpp_high head peeked
  change 36864 / 256 = _ at high
  omega

/-- A datagram in its frame is of the class Send put it under, and not a PFC frame. -/
theorem Datagram.frameClass_frame (dg : Datagram) :
    frameClass dg.frame = some (getPrioFromPacket dg.packet) := by
  have data : isPfcFrame dg.frame = false := by
    rcases dg.valid with ⟨protocol, -⟩ | ⟨protocol, -⟩ <;>
      simp [isPfcFrame, frame, protocol, etherToPpp, pfcPppProto]
  rw [frameClass, data]
  rcases dg.valid with ⟨protocol, ⟨first, head, version⟩, -⟩ | ⟨protocol, ⟨first, head, version⟩, -⟩
  · have bare : dg.packet.peekPpp ≠ some 0x0021 := Packet.peekPpp_of_version head (by omega)
    simp [getPrioFromPacket, frame, protocol, etherToPpp, bare]
  · have bare : dg.packet.peekPpp ≠ some 0x0021 := Packet.peekPpp_of_version head (by omega)
    have unread : Ipv4Header.deserialize dg.packet.bytes = none := by
      cases content : dg.packet.bytes with
      | nil => rfl
      | cons high rest =>
        obtain rfl : high = first := by simpa [content] using head
        exact Ipv4Header.deserialize_of_version (by omega)
    have framed_unread : Ipv4Header.deserialize dg.frame.bytes = none :=
      Ipv4Header.deserialize_of_version (by simp [etherToPpp, protocol])
    have framed : dg.frame.peekPpp ≠ some 0x0021 := by
      simp [frame, protocol, etherToPpp]
    simp [getPrioFromPacket, bare, unread, framed, framed_unread]

def QbbNetDevice.sender (now : Time) (d : QbbNetDevice) : Sender Packet (Fin 8) where
  accepted := d.accepted.map (·.frame)
  backlog prio := (d.txq prio).map (·.frame)
  queue := d.queue.packets
  hold := d.macHold
  started := d.phyTxBegin.map (·.2)
  paused := d.pausing now
  ready := decide (d.txMachineState = .ready)

/-- Every frame that waits has a header, so that its size counts. -/
abbrev Framed (d : QbbNetDevice) : Prop := Everywhere (fun p => 0 < p.getSize) (d.sender 0)

theorem Framed.sender {d : QbbNetDevice} (framed : Framed d) (now : Time) :
    Everywhere (fun p => 0 < p.getSize) (d.sender now) :=
  ⟨framed.backlog, framed.queue, framed.hold⟩

theorem Framed.of_sender {d : QbbNetDevice} {now : Time}
    (everywhere : Everywhere (fun p => 0 < p.getSize) (d.sender now)) : Framed d :=
  ⟨everywhere.backlog, everywhere.queue, everywhere.hold⟩

theorem Packet.addPpp_pos (p : Packet) (protocol : UInt16) : 0 < (p.addPpp protocol).getSize := by
  rw [Packet.addPpp_size]
  omega

namespace PointToPointNetDevice

variable {ι ν : Type} (cfg : Config ι ν) (i : ι)

@[simp] theorem transmitStart_currentTs (p : Packet) (sim : Simulator (Event ι))
    (d : PointToPointNetDevice) : (transmitStart cfg i p sim d).1.currentTs = sim.currentTs := by
  unfold transmitStart
  cases cfg.peer i <;> rfl

/-- The three ways a call of Send ends. -/
theorem send_cases (p : Packet) (protocol : UInt16) (sim : Simulator (Event ι))
    (d : PointToPointNetDevice) :
    (d.linkUp = false ∧ d.send cfg i p protocol sim =
      (false, sim, { d with macTxDrop := d.macTxDrop ++ [p] })) ∨
    (d.linkUp = true ∧ d.queue.enqueue (p.addPpp (etherToPpp protocol)) = none ∧
      d.send cfg i p protocol sim = (false, sim, { d with
        queueDrop := d.queueDrop ++ [p.addPpp (etherToPpp protocol)]
        macTxDrop := d.macTxDrop ++ [p.addPpp (etherToPpp protocol)] })) ∨
    (d.linkUp = true ∧ ∃ q, d.queue.enqueue (p.addPpp (etherToPpp protocol)) = some q ∧
      (d.txMachineState = .busy ∧ d.send cfg i p protocol sim = (true, sim, { d with queue := q }) ∨
        d.txMachineState = .ready ∧ ∃ first rest, q.dequeue = some (first, rest) ∧
          d.send cfg i p protocol sim =
            (true, transmitStart cfg i first sim { d with queue := rest }))) := by
  cases up : d.linkUp with
  | false => exact Or.inl ⟨rfl, by simp [send, up]⟩
  | true =>
    cases queued : d.queue.enqueue (p.addPpp (etherToPpp protocol)) with
    | none => exact Or.inr (Or.inl ⟨rfl, rfl, by simp [send, up, queued]⟩)
    | some q =>
      refine Or.inr (Or.inr ⟨rfl, q, rfl, ?_⟩)
      cases state : d.txMachineState with
      | busy => exact Or.inl ⟨rfl, by simp [send, up, queued, state]⟩
      | ready =>
        have content := (DropTailQueue.enqueue_eq_some.mp queued).2.2
        cases head : q.dequeue with
        | none =>
          rw [DropTailQueue.dequeue_eq_none.mp head] at content
          simp at content
        | some taken => exact Or.inr ⟨rfl, taken.1, taken.2, rfl, by simp [send, up, queued, state, head]⟩

end PointToPointNetDevice

variable {ι ν : Type} (cfg : Config ι ν) (i : ι)

/- Timers are no part of the sender. -/
namespace Host

variable (h : Host ι) (now : Time)

@[simp] theorem scheduleTxEvent_sender (delay : Time) :
    (h.scheduleTxEvent i delay).dev.sender now = h.dev.sender now := rfl

@[simp] theorem scheduleTxEvent_now (delay : Time) : (h.scheduleTxEvent i delay).now = h.now := rfl

@[simp] theorem wakeTxEvent_sender : (h.wakeTxEvent i).dev.sender now = h.dev.sender now := by
  unfold wakeTxEvent
  split <;> rfl

@[simp] theorem wakeTxEvent_now : (h.wakeTxEvent i).now = h.now := by
  unfold wakeTxEvent
  split <;> rfl

@[simp] theorem scheduleRefillEvent_sender (prio : Fin 8) (delay : Time) (event : Event ι) :
    (h.scheduleRefillEvent prio delay event).dev.sender now = h.dev.sender now := rfl

@[simp] theorem scheduleRefillEvent_now (prio : Fin 8) (delay : Time) (event : Event ι) :
    (h.scheduleRefillEvent prio delay event).now = h.now := rfl

@[simp] theorem cancelRefillEvent_dev (prio : Fin 8) : (h.cancelRefillEvent prio).dev = h.dev := by
  unfold cancelRefillEvent
  split <;> rfl

@[simp] theorem cancelRefillEvent_now (prio : Fin 8) : (h.cancelRefillEvent prio).now = h.now := by
  unfold cancelRefillEvent
  split
  · rfl
  · exact Simulator.cancel_currentTs ..

end Host

theorem map_update {α β γ : Type} [DecidableEq γ] (f : α → β) (lists : γ → List α) (c : γ)
    (value : List α) :
    (fun d => (Function.update lists c value d).map f) =
      Function.update (fun d => (lists d).map f) c (value.map f) := by
  funext d
  rcases eq_or_ne d c with rfl | other
  · simp
  · simp [other]

section Moves

variable {ok : Move Packet (Fin 8) → Sender Packet (Fin 8) → Prop} {h : Host ι}

/-- A frame the base device takes is offered to the transmitter; otherwise
nothing changes. -/
theorem ptpSend_sender (p : Packet) (protocol : UInt16) (h : Host ι) :
    ((ptpSend cfg i p protocol h).1 = false ∧
      (ptpSend cfg i p protocol h).2.dev.sender h.now = h.dev.sender h.now) ∨
    ((ptpSend cfg i p protocol h).1 = true ∧
      h.dev.linkUp = true ∧ h.dev.queue.hasRoom (p.addPpp (etherToPpp protocol)) = true ∧
      (ptpSend cfg i p protocol h).2.dev.sender h.now =
        (h.dev.sender h.now).offer (p.addPpp (etherToPpp protocol))) := by
  rcases PointToPointNetDevice.send_cases cfg i p protocol h.sim h.dev.toPointToPointNetDevice with
    ⟨-, sent⟩ | ⟨-, -, sent⟩ | ⟨up, q, queued, ⟨state, sent⟩ | ⟨state, first, rest, head, sent⟩⟩
  · exact Or.inl ⟨by rw [ptpSend, sent], by rw [ptpSend, sent]; rfl⟩
  · exact Or.inl ⟨by rw [ptpSend, sent], by rw [ptpSend, sent]; rfl⟩
  · obtain ⟨room, -, content⟩ := DropTailQueue.enqueue_eq_some.mp queued
    refine Or.inr ⟨by rw [ptpSend, sent], up, room, ?_⟩
    rw [ptpSend, sent]
    simp [QbbNetDevice.sender, Sender.offer, Sender.kick, Host.withBase, state, content]
    rfl
  · obtain ⟨room, -, content⟩ := DropTailQueue.enqueue_eq_some.mp queued
    refine Or.inr ⟨by rw [ptpSend, sent], up, room, ?_⟩
    have taken := (DropTailQueue.dequeue_eq_some.mp head).1
    rw [ptpSend, sent]
    simp [QbbNetDevice.sender, Sender.offer, Sender.kick, Host.withBase, state, ← content, taken,
      PointToPointNetDevice.transmitStart]
    rfl

theorem ptpSend_now (p : Packet) (protocol : UInt16) (h : Host ι) :
    (ptpSend cfg i p protocol h).2.now = h.now := by
  rcases PointToPointNetDevice.send_cases cfg i p protocol h.sim h.dev.toPointToPointNetDevice with
    ⟨-, sent⟩ | ⟨-, -, sent⟩ | ⟨-, q, queued, ⟨state, sent⟩ | ⟨state, first, rest, head, sent⟩⟩ <;>
    simp [ptpSend, sent, Host.now, Host.withBase]

theorem send_steps (dg : Datagram) (allowed : ok (.accept dg.frame) (h.dev.sender h.now)) :
    Steps frameClass ok (h.dev.sender h.now) ((send i dg h).dev.sender h.now) := by
  have accepted : (send i dg h).dev.sender h.now =
      { h.dev.sender h.now with
        accepted := (h.dev.sender h.now).accepted ++ [dg.frame]
        backlog := Function.update (h.dev.sender h.now).backlog (getPrioFromPacket dg.packet)
          ((h.dev.sender h.now).backlog (getPrioFromPacket dg.packet) ++ [dg.frame]) } := by
    rw [send, Host.wakeTxEvent_sender]
    simp only [QbbNetDevice.sender, Host.update, map_update, List.map_append, List.map_cons,
      List.map_nil]
    rfl
  rw [accepted]
  exact Steps.single frameClass (.accept dg.frameClass_frame) allowed

theorem pickNextPrio_some {d : QbbNetDevice} {now : Time} {prio : Fin 8}
    (picked : pickNextPrio d now = some prio) :
    d.txq prio ≠ [] ∧ d.pausing now prio = false := by
  have := List.find?_some picked
  simpa using this

/-- TryDequeue finds no class that may send, or hands the first packet of one to
the base device and tries again after 10 microseconds if that is refused. -/
theorem tryDequeue_cases (h : Host ι) :
    pickNextPrio h.dev h.now = none ∧ tryDequeue cfg i h = h ∨
    ∃ prio item rest, pickNextPrio h.dev h.now = some prio ∧ h.dev.txq prio = item :: rest ∧
      h.dev.pausing h.now prio = false ∧
      ((ptpSend cfg i item.packet item.protocol h).1 = false ∧
          tryDequeue cfg i h =
            (ptpSend cfg i item.packet item.protocol h).2.scheduleTxEvent i (microSeconds 10) ∨
        (ptpSend cfg i item.packet item.protocol h).1 = true ∧
          tryDequeue cfg i h = ((ptpSend cfg i item.packet item.protocol h).2.update fun d =>
            { d with txq := Function.update d.txq prio (d.txq prio).tail }).scheduleTxEvent i 0) := by
  unfold tryDequeue
  cases picked : pickNextPrio h.dev h.now with
  | none => exact Or.inl ⟨rfl, rfl⟩
  | some prio =>
    obtain ⟨waiting, running⟩ := pickNextPrio_some picked
    obtain ⟨item, rest, content⟩ := List.exists_cons_of_ne_nil waiting
    refine Or.inr ⟨prio, item, rest, rfl, content, running, ?_⟩
    cases sent : (ptpSend cfg i item.packet item.protocol h).1 with
    | false => exact Or.inl ⟨rfl, by simp only [content, running, sent, Bool.false_eq_true, ↓reduceIte]⟩
    | true =>
      exact Or.inr ⟨rfl, by
        simp only [content, running, sent, Bool.false_eq_true, Bool.true_eq_false, ↓reduceIte]⟩

/-- The class whose first packet TryDequeue moves to the MAC queue, if that takes it. -/
def QbbNetDevice.transfers (d : QbbNetDevice) (now : Time) : Option (Fin 8) :=
  (pickNextPrio d now).filter fun prio =>
    match d.txq prio with
    | [] => false
    | item :: _ => d.linkUp && d.queue.hasRoom item.frame

theorem tryDequeue_steps
    (allowed : ∀ prio, h.dev.transfers h.now = some prio →
      ok (.transfer prio) (h.dev.sender h.now)) :
    Steps frameClass ok (h.dev.sender h.now) ((tryDequeue cfg i h).dev.sender h.now) := by
  rcases tryDequeue_cases cfg i h with
    ⟨-, same⟩ | ⟨prio, item, rest, picked, content, running, ended⟩
  · rw [same]
  · rcases ptpSend_sender cfg i item.packet item.protocol h with
      ⟨refused, same⟩ | ⟨taken, up, room, offered⟩
    · rcases ended with ⟨-, after⟩ | ⟨sent, -⟩
      · rw [after, Host.scheduleTxEvent_sender, same]
      · rw [refused] at sent
        cases sent
    · rcases ended with ⟨sent, -⟩ | ⟨-, after⟩
      · rw [taken] at sent
        cases sent
      have transferred : ((ptpSend cfg i item.packet item.protocol h).2.update fun d =>
            { d with txq := Function.update d.txq prio (d.txq prio).tail }).dev.sender h.now =
          Sender.offer
            { h.dev.sender h.now with
              backlog := Function.update (h.dev.sender h.now).backlog prio (rest.map (·.frame)) }
            item.frame := by
        have tail : (h.dev.txq prio).tail = rest := by rw [content]; rfl
        rw [Sender.offer_withBacklog, Datagram.frame, ← offered]
        change _ = { (ptpSend cfg i item.packet item.protocol h).2.dev.sender h.now with
          backlog := Function.update (fun d => (h.dev.txq d).map Datagram.frame) prio
            (rest.map Datagram.frame) }
        rw [← map_update, ← tail]
        rfl
      rw [after, Host.scheduleTxEvent_sender, transferred]
      refine Steps.single frameClass (.transfer ?_ running) (allowed prio ?_)
      · simp [QbbNetDevice.sender, content]
      · simp [QbbNetDevice.transfers, picked, content, up, Datagram.frame, room]

theorem transmitComplete_steps (allowed : ok .complete (h.dev.sender h.now)) :
    Steps frameClass ok (h.dev.sender h.now) ((transmitComplete cfg i h).dev.sender h.now) := by
  have completed : (transmitComplete cfg i h).dev.sender h.now =
      { h.dev.sender h.now with ready := true }.kick := by
    unfold transmitComplete PointToPointNetDevice.transmitComplete
    dsimp only
    split
    · rename_i empty
      have content := DropTailQueue.dequeue_eq_none.mp empty
      simp [QbbNetDevice.sender, Sender.kick, Host.withBase, content]
      rfl
    · rename_i first rest head
      have content := (DropTailQueue.dequeue_eq_some.mp head).1
      simp [QbbNetDevice.sender, Sender.kick, Host.withBase, content,
        PointToPointNetDevice.transmitStart]
      rfl
  rw [completed]
  exact Steps.single frameClass .complete allowed

theorem transmitComplete_now : (transmitComplete cfg i h).now = h.now := by
  unfold transmitComplete PointToPointNetDevice.transmitComplete
  dsimp only
  split
  · rfl
  · simp [Host.now, Host.withBase]

/-- A PFC frame takes part in the queue as a control frame. -/
def pfcFrame (prio : Fin 8) (quanta : UInt16) : Packet := (pfcPacket prio quanta).addPpp pfcPppProto

theorem isPfcFrame_pfcFrame (prio : Fin 8) (quanta : UInt16) :
    isPfcFrame (pfcFrame prio quanta) = true := by
  simp [isPfcFrame, pfcFrame]

/-- The header that a frame for one class carries. -/
def PfcHeader.single (prio : Fin 8) (quanta : UInt16) : PfcHeader :=
  { classEnable := UInt8.ofNat (2 ^ prio.val)
    quanta := Function.update (fun _ => 0) prio quanta }

theorem PfcHeader.enables_single (prio other : Fin 8) (quanta : UInt16) :
    (PfcHeader.single prio quanta).enables other = decide (prio = other) := by
  have bits : ∀ sent read : Fin 8,
      (UInt8.ofNat (2 ^ sent.val)).toNat.testBit read.val = decide (sent = read) := by decide
  exact bits prio other

theorem pfcHeader_pfcFrame (prio : Fin 8) (quanta : UInt16) :
    pfcHeader (pfcFrame prio quanta) = some (.single prio quanta) := by
  have some_class : ∀ sent : Fin 8, UInt8.ofNat (2 ^ sent.val) ≠ 0 := by decide
  rw [pfcHeader, pfcFrame, Packet.removePpp_addPpp, pfcPacket, PfcHeader.deserialize_serialize]
  simp [some_class, PfcHeader.single]

theorem ptpSend_pfc_steps (prio : Fin 8) (quanta : UInt16)
    (allowed : ok (.control (pfcFrame prio quanta)) (h.dev.sender h.now)) :
    Steps frameClass ok (h.dev.sender h.now)
      ((ptpSend cfg i (pfcPacket prio quanta) pfcPppProto h).2.dev.sender h.now) := by
  rcases ptpSend_sender cfg i (pfcPacket prio quanta) pfcPppProto h with ⟨-, same⟩ | ⟨-, -, -, offered⟩
  · exact same ▸ .refl
  · have framed : (pfcPacket prio quanta).addPpp (etherToPpp pfcPppProto) = pfcFrame prio quanta := rfl
    rw [offered, framed]
    refine Steps.single frameClass (.control ?_) allowed
    rw [frameClass, isPfcFrame_pfcFrame, if_pos rfl]

end Moves

end QbbNet
