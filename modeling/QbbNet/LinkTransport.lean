import QbbNet.ControlOrder
import QbbNet.IngressOrder
import QbbNet.SenderQueues

set_option autoImplicit false

/- The data packets of a link, from Send of device `i` to the ingress drain of its peer `j`. -/
namespace QbbNet

variable {ι ν : Type} [DecidableEq ι] [DecidableEq ν] {cfg : Config ι ν} {i j : ι} {s t : Net ι ν}
  {action : Action ι ν} {start : Net ι ν} {actions : List (Action ι ν)}

/-- The data frames of a class. -/
def framesOf (prio : Fin 8) (frames : List Packet) : List Packet :=
  frames.filter fun p => decide (frameClass p = some prio)

theorem framesOf_append (prio : Fin 8) (front back : List Packet) :
    framesOf prio (front ++ back) = framesOf prio front ++ framesOf prio back :=
  List.filter_append ..

/-- The frames of a class that HandleMacRx has queued are those that it has received. -/
theorem ReceivingSide.dataRx_eq (r : ReceivingSide) (prio : Fin 8) :
    r.dataRx prio = framesOf prio (r.macRx.map (·.2)) := by
  refine List.filter_congr fun p _ => ?_
  cases control : isPfcFrame p <;> simp [frameClass, control]

/-- The packets of a class that Send has accepted, behind their PPP headers. -/
def QbbNetDevice.acceptedOf (d : QbbNetDevice) (prio : Fin 8) : List Packet :=
  framesOf prio (d.accepted.map (·.frame))

/-- The frames of a class that wait at the sender, the older ones first. -/
def QbbNetDevice.sendingOf (d : QbbNetDevice) (prio : Fin 8) : List Packet :=
  framesOf prio d.queue.packets ++ d.macHold prio ++ (d.txq prio).map (·.frame)

theorem QbbNetDevice.placed_eq (d : QbbNetDevice) (now : Time) (prio : Fin 8) :
    ClassedSender.placed frameClass prio (d.sender now) =
      framesOf prio (d.phyTxBegin.map (·.2)) ++ d.sendingOf prio := by
  show framesOf prio (d.phyTxBegin.map (·.2) ++ d.queue.packets) ++ d.macHold prio ++
    (d.txq prio).map (·.frame) = _
  rw [framesOf_append, sendingOf, List.append_assoc, List.append_assoc, List.append_assoc]

/- The channel -/

/-- The frame that a step brings to device `j` and the receive error model corrupts. -/
def Net.corrupted (j : ι) (s : Net ι ν) (action : Action ι ν) : List Packet :=
  if action.corrupts then (s.arrival j action).toList else []

/-- What device `j` receives in a step. -/
theorem step_macRx (step : s.step cfg action = some t) (peer : cfg.peer i = some j) :
    (t.dev j).macRx.map (·.2) = (s.dev j).macRx.map (·.2) ++
      (if action.corrupts then none else s.arrival j action).toList := by
  have macRx := (Net.step_received step j).1
  rw [Net.received_eq step (by simp [cfg.peer_symm i j peer])] at macRx
  rw [macRx, List.map_append, List.map_map]
  exact congrArg _ (List.map_id _)

/-- A frame whose transmission has started is received or corrupted, or is on its way. -/
theorem run_carried (peer : cfg.peer i = some j) (initial : Net.Initial cfg start)
    (run : Net.Run cfg start actions s) :
    ((s.dev i).phyTxBegin.map (·.2)).Perm
      ((s.dev j).macRx.map (·.2) ++ (start.collect cfg (Net.corrupted j) actions ++
        s.sim.flight (Event.receivedBy j))) := by
  induction run with
  | nil =>
    obtain ⟨linkUp, stack, rfl⟩ := initial
    exact .refl _
  | @snoc actions mid last action before _ step ih =>
    have reachable := before.reachable cfg initial
    obtain ⟨-, frames, started, flown⟩ :=
      Net.step_channel reachable step peer (Net.reachable_serial reachable peer)
    rw [started, before.collect_snoc cfg step, step_macRx step peer]
    refine (ih.append_right frames).trans ?_
    rw [List.append_assoc, List.append_assoc, flown, List.append_assoc]
    refine List.Perm.append_left _ ?_
    unfold Net.corrupted
    cases action.corrupts with
    | true => simp
    | false => simpa using List.perm_append_comm_assoc ..

/-- Frames that arrive whole arrive in the order in which their transmissions started. -/
theorem run_carried_whole (peer : cfg.peer i = some j) (initial : Net.Initial cfg start)
    (run : Net.RunWhere cfg (Net.ArrivesWhole j) start actions s) :
    (s.dev i).phyTxBegin.map (·.2) =
      (s.dev j).macRx.map (·.2) ++ s.sim.flight (Event.receivedBy j) := by
  induction run with
  | nil =>
    obtain ⟨linkUp, stack, rfl⟩ := initial
    rfl
  | @snoc actions mid last action before whole step ih =>
    have reachable := before.reachable cfg initial
    obtain ⟨-, frames, started, flown⟩ :=
      Net.step_channel reachable step peer (Net.reachable_serial reachable peer)
    have arrived : (if action.corrupts then none else mid.arrival j action) =
        mid.arrival j action := by
      cases brought : mid.arrival j action with
      | none => exact ite_self _
      | some p => rw [whole p brought, if_neg Bool.false_ne_true]
    rw [started, ih, List.append_assoc, flown, step_macRx step peer, arrived, List.append_assoc]

/- The link -/

/-- The frames of a class that wait at device `j` or have been taken out by its ingress drain. -/
theorem run_ingress (initial : Net.Initial cfg start) (run : Net.Run cfg start actions s)
    (prio : Fin 8) : framesOf prio ((s.dev j).macRx.map (·.2)) =
      ofClass prio (start.collect cfg (Net.drained cfg j) actions) ++ (s.dev j).ingressQ prio := by
  rw [← ReceivingSide.dataRx_eq]
  induction run with
  | nil =>
    have ⟨linkUp, stack, same⟩ := initial
    subst same
    rfl
  | snoc before _ step ih =>
    rw [before.collect_snoc cfg step, ofClass_append]
    exact step_ingress step prio ih

/-- In every run each packet of a class that Send of a device has accepted is in exactly one
place: it waits there, is on its way, was corrupted, waits at the peer, or has been taken
out by the peer's ingress drain. -/
theorem link_conserves (peer : cfg.peer i = some j) (initial : Net.Initial cfg start)
    (run : Net.Run cfg start actions s) (prio : Fin 8) :
    ((s.dev i).acceptedOf prio).Perm
      (ofClass prio (start.collect cfg (Net.drained cfg j) actions) ++ (s.dev j).ingressQ prio ++
        framesOf prio (start.collect cfg (Net.corrupted j) actions) ++
        framesOf prio (s.sim.flight (Event.receivedBy j)) ++ (s.dev i).sendingOf prio) := by
  have placed := (reachable_conserved ⟨start, actions, initial, run⟩ i).2 prio
  rw [QbbNetDevice.placed_eq] at placed
  have carried : (framesOf prio ((s.dev i).phyTxBegin.map (·.2))).Perm _ :=
    (run_carried peer initial run).filter _
  refine placed.symm.trans (List.Perm.append_right _ (carried.trans (.of_eq ?_)))
  rw [← run_ingress initial run prio, List.append_assoc, ← framesOf_append, ← framesOf_append]
  rfl

/-- Device 1 has to wait for tokens when device 0 sends it four packets. -/
def fourPackets (events : List (Upcall (Fin 4))) : List (Action (Fin 4) (Fin 2)) :=
  [.deliver 2 (Datagram.ipv4 (.transit 0) 0x00).frame false,
    .deliver 2 (Datagram.ipv4 (.host 1) 0x00).frame false,
    .event (.through 3), .event (.through 3), .event (.through 3),
    .send 0 (.ipv4 (.host 2) 0x00), .send 0 (.ipv4 (.transit 3) 0x00),
    .send 0 (.ipv4 (.host 4) 0x00), .send 0 (.ipv4 (.host 5) 0x00)] ++ events.map .event

/-- The first of the packets is corrupted. -/
def corruptedRun : List (Action (Fin 4) (Fin 2)) :=
  fourPackets (List.replicate 6 (.through 3) ++
    [{ Upcall.through 3 with corrupt := true }, .through 3, .through 3])

theorem link_conserves_corrupted :
    ∃ s, (Net.started stalledSwitch).run stalledSwitch (fun _ _ => True) corruptedRun = some s ∧
      (((s.dev 1).ingressQ 0).length = 1 ∧ ((s.dev 0).sendingOf 0).length = 1) ∧
      ((s.dev 0).acceptedOf 0).Perm
        (ofClass 0 ((Net.started stalledSwitch).collect stalledSwitch (Net.drained stalledSwitch 1)
          corruptedRun) ++ (s.dev 1).ingressQ 0 ++
        framesOf 0 ((Net.started stalledSwitch).collect stalledSwitch (Net.corrupted 1)
          corruptedRun) ++
        framesOf 0 (s.sim.flight (Event.receivedBy 1)) ++ (s.dev 0).sendingOf 0) := by
  obtain ⟨s, ran, spread⟩ : ∃ s,
      (Net.started stalledSwitch).run stalledSwitch (fun _ _ => True) corruptedRun = some s ∧
        ((s.dev 1).ingressQ 0).length = 1 ∧ ((s.dev 0).sendingOf 0).length = 1 :=
    exists_of_any (by decide +kernel)
  exact ⟨s, ran, spread,
    link_conserves (i := 0) (j := 1) rfl (Net.started_initial stalledSwitch) (.of_run _ ran) 0⟩

/-- In every run in which no frame is corrupted and no step lets younger frames past the
hold, the packets of a class are taken out by the peer's ingress drain in the order in
which Send has accepted them, and all others are between, in that order. -/
theorem link_fifo (peer : cfg.peer i = some j) (initial : Net.Initial cfg start)
    (run : Net.RunWhere cfg (fun s action => s.ArrivesWhole j action ∧ s.KeepsOrder cfg i action)
      start actions s) (prio : Fin 8) :
    (s.dev i).acceptedOf prio =
      ofClass prio (start.collect cfg (Net.drained cfg j) actions) ++ (s.dev j).ingressQ prio ++
        framesOf prio (s.sim.flight (Event.receivedBy j)) ++ (s.dev i).sendingOf prio := by
  obtain ⟨-, lawful, ordered⟩ := run_sender (i := i) (P := ClassedSender.Ordered frameClass)
    (fun _ => rfl)
    (fun _ _ _ in_order step lawful ordered => step.ordered lawful ordered in_order)
    (fun s t action ok step => (Net.step_does cfg step i).1 ▸ Net.KeepsOrder.permits ok.2) initial run
  have placed := ordered prio
  rw [QbbNetDevice.placed_eq] at placed
  have carried := run_carried_whole peer initial (run.mono _ fun _ _ ok => ok.1)
  have ingress := run_ingress (j := j) initial (run.mono _ fun _ _ _ => trivial) prio
  rw [carried, framesOf_append, ingress] at placed
  exact placed.symm

/-- The first packet has been taken out, the second waits for a token at device 1, the third is
on its way and the last is held back at device 0. -/
def heldBackRun : List (Action (Fin 4) (Fin 2)) := fourPackets (List.replicate 14 (.through 3))

theorem link_fifo_paused :
    ∃ s, (Net.started stalledSwitch).run stalledSwitch
        (fun s action => s.ArrivesWhole 1 action ∧ s.KeepsOrder stalledSwitch 0 action)
        heldBackRun = some s ∧
      (((s.dev 1).ingressQ 0).length = 1 ∧ ((s.dev 0).macHold 0).length = 1) ∧
      (s.dev 0).acceptedOf 0 =
        ofClass 0 ((Net.started stalledSwitch).collect stalledSwitch (Net.drained stalledSwitch 1)
          heldBackRun) ++ (s.dev 1).ingressQ 0 ++
        framesOf 0 (s.sim.flight (Event.receivedBy 1)) ++ (s.dev 0).sendingOf 0 := by
  obtain ⟨s, ran, spread⟩ : ∃ s, (Net.started stalledSwitch).run stalledSwitch
        (fun s action => s.ArrivesWhole 1 action ∧ s.KeepsOrder stalledSwitch 0 action)
        heldBackRun = some s ∧
      ((s.dev 1).ingressQ 0).length = 1 ∧ ((s.dev 0).macHold 0).length = 1 :=
    exists_of_any (by decide +kernel)
  exact ⟨s, ran, spread,
    link_fifo (i := 0) (j := 1) rfl (Net.started_initial stalledSwitch) (.of_run _ ran) 0⟩

end QbbNet
