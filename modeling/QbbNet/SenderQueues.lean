import QbbNet.SenderRun
import QbbNet.Topology

set_option autoImplicit false

/- Where the frames of a device wait, in what order they leave, and when the
transmitter leaves them waiting. -/
namespace QbbNet

open ClassedSender

variable {ι ν : Type} [DecidableEq ι] [DecidableEq ν] {cfg : Config ι ν} {s : Net ι ν}

theorem frameClass_eq_none {p : Packet} : frameClass p = none ↔ isPfcFrame p = true := by
  unfold frameClass
  split <;> simp_all

theorem frameClass_eq_some {p : Packet} {prio : Fin 8} :
    frameClass p = some prio ↔ isPfcFrame p = false ∧ getPrioFromPacket p = prio := by
  unfold frameClass
  split <;> simp_all

theorem frameClass_frames (d : QbbNetDevice) (now : Time) :
    ∀ p ∈ (d.sender now).accepted, ∃ prio, frameClass p = some prio := by
  intro p member
  obtain ⟨dg, -, rfl⟩ := List.mem_map.mp member
  exact ⟨_, dg.frameClass_frame⟩

/- Conservation -/

/-- The data frames of a device that have entered the MAC queue for good: those
whose transmission has started, then those that wait in it. -/
def QbbNetDevice.dataLine (d : QbbNetDevice) : List Packet :=
  (d.phyTxBegin.map (·.2) ++ d.queue.packets).filter fun p => !isPfcFrame p

theorem reachable_conserved (reachable : Net.Reachable cfg s) (i : ι) :
    Lawful frameClass ((s.dev i).sender s.sim.currentTs) ∧
      Conserved frameClass ((s.dev i).sender s.sim.currentTs) := by
  obtain ⟨start, actions, initial, run⟩ := reachable
  exact (run_sender (i := i) (P := Conserved frameClass)
    (fun _ => .refl _) (fun _ _ _ _ step lawful => step.conserved lawful)
    (fun _ _ _ _ _ => permits_all _ _ _) initial run).2

/-- Every accepted packet is in one place. -/
theorem accepted_perm (reachable : Net.Reachable cfg s) (i : ι) :
    ((s.dev i).accepted.map (·.frame)).Perm
      ((s.dev i).dataLine ++ classes.flatMap (s.dev i).macHold ++
        (classes.flatMap (s.dev i).txq).map (·.frame)) := by
  have data : (s.dev i).dataLine = ((s.dev i).sender s.sim.currentTs).line.filter
      fun p => decide (frameClass p ≠ none) := by
    refine List.filter_congr fun p _ => ?_
    cases control : isPfcFrame p <;> simp [frameClass, control]
  rw [data, List.map_flatMap]
  exact (reachable_conserved reachable i).2.total classes classes_nodup mem_classes
    (frameClass_frames _ _)

/-- Every accepted packet is in one place, behind one PPP header once it has
left `m_txq`, and under its own class. -/
theorem sender_conserves (reachable : Net.Reachable cfg s) (i : ι) :
    ((s.dev i).accepted.map (·.frame)).Perm
      ((s.dev i).dataLine ++ classes.flatMap (s.dev i).macHold ++
        (classes.flatMap (s.dev i).txq).map (·.frame)) ∧
    (∀ p ∈ (s.dev i).dataLine ++ classes.flatMap (s.dev i).macHold,
      ∃ dg ∈ (s.dev i).accepted, p = dg.packet.addPpp (etherToPpp dg.protocol)) ∧
    (∀ prio, ∀ dg ∈ (s.dev i).txq prio, getPrioFromPacket dg.packet = prio) ∧
    ∀ prio, ∀ p ∈ (s.dev i).macHold prio, isPfcFrame p = false ∧ getPrioFromPacket p = prio := by
  have lawful := (reachable_conserved reachable i).1
  have placed := accepted_perm reachable i
  refine ⟨placed, fun p member => ?_, fun prio dg member => ?_, fun prio p member => ?_⟩
  · have accepted := placed.mem_iff.mpr (List.mem_append_left _ member)
    obtain ⟨dg, inside, rfl⟩ := List.mem_map.mp accepted
    exact ⟨dg, inside, rfl⟩
  · have own := lawful.backlog prio dg.frame (List.mem_map_of_mem member)
    rw [dg.frameClass_frame] at own
    exact Option.some.inj own
  · have own := lawful.hold prio p member
    unfold frameClass at own
    split at own
    · cases own
    · rename_i data
      exact ⟨by simpa using data, Option.some.inj own⟩

/-- The first of three packets is on the wire when the others are purged; a
refill then finds room for one of them behind a packet of class 1. -/
def purgedRun : List (Action (Fin 1) Unit) :=
  [sendClass 0 0x00, sendClass 1 0x00, sendClass 2 0x00, .event .sink, .event .sink, .event .sink,
    receivePfc 1, sendClass 3 0x20, .event .sink, .event .sink, receivePfc 0]

theorem sender_conserves_purged :
    ∃ s, (Net.started shortQueue).run shortQueue (fun _ _ => True) purgedRun = some s ∧
      ((s.dev 0).queue.packets.length = 2 ∧ ((s.dev 0).macHold 0).length = 1) ∧
      ((s.dev 0).accepted.map (·.frame)).Perm
        ((s.dev 0).dataLine ++ classes.flatMap (s.dev 0).macHold ++
          (classes.flatMap (s.dev 0).txq).map (·.frame)) := by
  obtain ⟨s, ran, spread⟩ : ∃ s,
      (Net.started shortQueue).run shortQueue (fun _ _ => True) purgedRun = some s ∧
        (s.dev 0).queue.packets.length = 2 ∧ ((s.dev 0).macHold 0).length = 1 :=
    exists_of_any (by decide +kernel)
  exact ⟨s, ran, spread, (sender_conserves (.of_run _ (Net.started_initial _) ran) 0).1⟩

/- Work conservation -/

/-- No step fills the queue from a hold while the transmitter is ready. -/
def Net.RefillsWhileBusy (cfg : Config ι ν) (i : ι) (s : Net ι ν) (action : Action ι ν) : Prop :=
  ∀ duty ∈ s.duty cfg i action, ∀ prio, duty.Refills prio → (s.dev i).macHold prio ≠ [] →
    (s.dev i).txMachineState = .busy

instance (cfg : Config ι ν) (i : ι) (s : Net ι ν) (action : Action ι ν) :
    Decidable (s.RefillsWhileBusy cfg i action) :=
  inferInstanceAs (Decidable (∀ duty ∈ s.duty cfg i action, ∀ prio, duty.Refills prio →
    (s.dev i).macHold prio ≠ [] → (s.dev i).txMachineState = .busy))

omit [DecidableEq ν] in
theorem Net.RefillsWhileBusy.permits {i : ι} {action : Action ι ν} (now : Time)
    (busy : s.RefillsWhileBusy cfg i action) :
    Permits NoIdleRefill now (s.dev i) (s.duty cfg i action) where
  accept _ _ := trivial
  control _ _ _ := trivial
  complete _ := trivial
  lapse _ := trivial
  transfer _ _ _ := trivial
  refill duty due prio refills sender same waiting := by
    rw [same.hold] at waiting
    rw [same.ready]
    simp [QbbNetDevice.sender, busy duty due prio refills waiting]
  pause _ _ _ _ _ _ := trivial

/-- A ready transmitter has an empty queue, if it was never ready when a hold was emptied. -/
theorem ready_queue_empty {i : ι} {start : Net ι ν} {actions : List (Action ι ν)}
    (initial : Net.Initial cfg start)
    (run : Net.RunWhere cfg (Net.RefillsWhileBusy cfg i) start actions s)
    (ready : (s.dev i).txMachineState = .ready) : (s.dev i).queue.packets = [] := by
  obtain ⟨-, -, working⟩ := run_sender (i := i) (P := Working) (fun _ => rfl)
    (fun _ _ _ no_idle step _ working => step.working working no_idle)
    (fun _ t _ busy _ => Net.RefillsWhileBusy.permits t.sim.currentTs busy) initial run
  exact working (by simp [QbbNetDevice.sender, ready])

/-- A packet is purged and put back while the one before it is on the wire. -/
def refilledWhileBusy : List (Action (Fin 1) Unit) :=
  [sendClass 0 0x00, sendClass 1 0x00, .event .sink, .event .sink, .event .sink,
    receivePfc 1, receivePfc 0, .event .sink, .event .sink, .event .sink]

theorem ready_queue_empty_refilled :
    ∃ s, (Net.started shortQueue).run shortQueue (Net.RefillsWhileBusy shortQueue 0)
        refilledWhileBusy = some s ∧
      (s.dev 0).phyTxBegin.length = 2 ∧ (s.dev 0).queue.packets = [] := by
  obtain ⟨s, ran, ready, sent⟩ : ∃ s, (Net.started shortQueue).run shortQueue
        (Net.RefillsWhileBusy shortQueue 0) refilledWhileBusy = some s ∧
      (s.dev 0).txMachineState = .ready ∧ (s.dev 0).phyTxBegin.length = 2 :=
    exists_of_any (by decide +kernel)
  exact ⟨s, ran, sent, ready_queue_empty (Net.started_initial _) (.of_run _ ran) ready⟩

/-- The transmission ends during the pause, and the pause runs out. -/
def refilledWhileReady : List (Action (Fin 1) Unit) :=
  [sendClass 0 0x00, sendClass 1 0x00, .event .sink, .event .sink, .event .sink,
    receivePfc 1, .event .sink, .event .sink, .event .sink, .event .sink]

/-- A frame is left in the queue of a ready transmitter, and nothing is scheduled. -/
theorem idle_with_queued_frame :
    ∃ s, Net.Reachable shortQueue s ∧ (s.dev 0).txMachineState = .ready ∧
      (s.dev 0).queue.packets ≠ [] ∧ s.sim.events = [] := by
  obtain ⟨s, ran, idle⟩ : ∃ s, (Net.started shortQueue).run shortQueue (fun _ _ => True)
        refilledWhileReady = some s ∧
      (s.dev 0).txMachineState = .ready ∧ (s.dev 0).queue.packets ≠ [] ∧ s.sim.events = [] :=
    exists_of_any (by decide +kernel)
  exact ⟨s, .of_run _ (Net.started_initial _) ran, idle⟩

/- Order -/

/-- No step brings frames of a class into the queue or into the hold past older
ones in the hold. -/
def Net.KeepsOrder (cfg : Config ι ν) (i : ι) (s : Net ι ν) (action : Action ι ν) : Prop :=
  (s.duty cfg i action = some .tryDequeue →
    ∀ prio ∈ (s.dev i).transfers (s.stepTime action), (s.dev i).macHold prio = []) ∧
  ∀ duty ∈ s.duty cfg i action, ∀ prio, duty.Pauses prio →
    (s.dev i).macHold prio = [] ∨ ∀ p ∈ (s.dev i).queue.packets, frameClass p ≠ some prio

instance (cfg : Config ι ν) (i : ι) (s : Net ι ν) (action : Action ι ν) :
    Decidable (s.KeepsOrder cfg i action) :=
  inferInstanceAs (Decidable ((s.duty cfg i action = some .tryDequeue →
      ∀ prio ∈ (s.dev i).transfers (s.stepTime action), (s.dev i).macHold prio = []) ∧
    ∀ duty ∈ s.duty cfg i action, ∀ prio, duty.Pauses prio →
      (s.dev i).macHold prio = [] ∨ ∀ p ∈ (s.dev i).queue.packets, frameClass p ≠ some prio))

omit [DecidableEq ν] in
theorem Net.KeepsOrder.permits {i : ι} {action : Action ι ν} (order : s.KeepsOrder cfg i action) :
    Permits (InOrder frameClass) (s.stepTime action) (s.dev i) (s.duty cfg i action) where
  accept _ _ := trivial
  control _ _ _ := trivial
  complete _ := trivial
  lapse _ := trivial
  transfer due prio picked := order.1 due prio picked
  refill _ _ _ _ _ _ := trivial
  pause duty due prio pauses sender same := by
    refine (order.2 duty due prio pauses).imp (fun empty => same.hold.trans empty) fun absent => ?_
    rw [same.queue]
    exact List.filter_eq_nil_iff.mpr fun p member => by simpa using absent p member

/-- The frames of a class start in the order in which Send accepted their packets,
if no step let younger frames past the hold. -/
theorem class_fifo {i : ι} {start : Net ι ν} {actions : List (Action ι ν)}
    (initial : Net.Initial cfg start)
    (run : Net.RunWhere cfg (Net.KeepsOrder cfg i) start actions s) (prio : Fin 8) :
    (((s.dev i).phyTxBegin.map (·.2)).filter fun p => decide (frameClass p = some prio)) <+:
      ((s.dev i).accepted.filter fun dg => decide (getPrioFromPacket dg.packet = prio)).map
        (·.frame) := by
  obtain ⟨-, lawful, ordered⟩ := run_sender (i := i) (P := Ordered frameClass) (fun _ => rfl)
    (fun _ _ _ in_order step lawful ordered => step.ordered lawful ordered in_order)
    (fun s t action order step => (Net.step_does cfg step i).1 ▸ Net.KeepsOrder.permits order) initial run
  have started := ordered.started_prefix prio
  have accepted : ofClass frameClass prio ((s.dev i).accepted.map (·.frame)) =
      ((s.dev i).accepted.filter fun dg => decide (getPrioFromPacket dg.packet = prio)).map
        (·.frame) := by
    rw [ofClass, List.filter_map]
    refine congrArg _ (List.filter_congr fun dg _ => ?_)
    simp [dg.frameClass_frame]
  exact accepted ▸ started

theorem class_fifo_refilled :
    ∃ s, (Net.started shortQueue).run shortQueue (Net.KeepsOrder shortQueue 0)
        refilledWhileBusy = some s ∧
      (s.dev 0).phyTxBegin.length = 2 ∧
      (((s.dev 0).phyTxBegin.map (·.2)).filter fun p => decide (frameClass p = some 0)) <+:
        ((s.dev 0).accepted.filter fun dg => decide (getPrioFromPacket dg.packet = 0)).map
          (·.frame) := by
  obtain ⟨s, ran, sent⟩ : ∃ s, (Net.started shortQueue).run shortQueue
        (Net.KeepsOrder shortQueue 0) refilledWhileBusy = some s ∧
      (s.dev 0).phyTxBegin.length = 2 :=
    exists_of_any (by decide +kernel)
  exact ⟨s, ran, sent, class_fifo (Net.started_initial _) (.of_run _ ran) 0⟩

/-- The second pause purges packet 1 behind packet 2, which was left in the hold. -/
def overtakenRun : List (Action (Fin 1) Unit) :=
  purgedRun ++ [receivePfc 1, receivePfc 0, .event .sink, .event .sink, .event .sink]

theorem class_overtaken :
    ∃ s, Net.Reachable shortQueue s ∧
      ¬ (((s.dev 0).phyTxBegin.map (·.2)).filter fun p => decide (frameClass p = some 0)) <+:
        ((s.dev 0).accepted.filter fun dg => decide (getPrioFromPacket dg.packet = 0)).map
          (·.frame) := by
  obtain ⟨s, ran, overtaken⟩ : ∃ s, (Net.started shortQueue).run shortQueue (fun _ _ => True)
        overtakenRun = some s ∧
      ¬ (((s.dev 0).phyTxBegin.map (·.2)).filter fun p => decide (frameClass p = some 0)) <+:
        ((s.dev 0).accepted.filter fun dg => decide (getPrioFromPacket dg.packet = 0)).map
          (·.frame) :=
    exists_of_any (by decide +kernel)
  exact ⟨s, .of_run _ (Net.started_initial _) ran, overtaken⟩

end QbbNet
