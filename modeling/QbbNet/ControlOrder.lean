import QbbNet.PauseMirror

set_option autoImplicit false

/- The PFC frames of one end of a channel on their way to the other. -/
namespace QbbNet

open ClassedSender

variable {ι ν : Type} {cfg : Config ι ν} {i j : ι} {h : Host ι}

/-- The frames that Send queues when it is called for one signal after another. -/
def acceptedFrames (cfg : Config ι ν) (i : ι) :
    Simulator (Event ι) × PointToPointNetDevice → List PfcSignal → List Packet
  | _, [] => []
  | link, signal :: signals =>
      let sent := link.2.send cfg i (pfcPacket signal.prio signal.quanta) pfcPppProto link.1
      (if sent.1 then [signal.frame] else []) ++ acceptedFrames cfg i sent.2 signals

variable (cfg i) in
/-- What Send answers goes by the link, the transmitter and the queue. -/
theorem send_congr {d e : PointToPointNetDevice} (up : e.linkUp = d.linkUp)
    (state : e.txMachineState = d.txMachineState) (queue : e.queue = d.queue) (p : Packet)
    (protocol : UInt16) (sim sim' : Simulator (Event ι)) :
    (e.send cfg i p protocol sim').1 = (d.send cfg i p protocol sim).1 ∧
      (e.send cfg i p protocol sim').2.2.linkUp = (d.send cfg i p protocol sim).2.2.linkUp ∧
      (e.send cfg i p protocol sim').2.2.txMachineState =
        (d.send cfg i p protocol sim).2.2.txMachineState ∧
      (e.send cfg i p protocol sim').2.2.queue = (d.send cfg i p protocol sim).2.2.queue := by
  unfold PointToPointNetDevice.send
  rw [up, state, queue]
  by_cases down : d.linkUp = false
  · rw [if_pos down, if_pos down]
    exact ⟨rfl, rfl, rfl, rfl⟩
  · rw [if_neg down, if_neg down]
    dsimp only
    cases d.queue.enqueue (p.addPpp (etherToPpp protocol)) with
    | none => exact ⟨rfl, rfl, rfl, rfl⟩
    | some q =>
      dsimp only
      cases d.txMachineState with
      | busy => exact ⟨rfl, rfl, rfl, rfl⟩
      | ready =>
        cases q.dequeue with
        | none => exact ⟨rfl, rfl, rfl, rfl⟩
        | some head => exact ⟨rfl, rfl, rfl, rfl⟩

theorem acceptedFrames_congr {link link' : Simulator (Event ι) × PointToPointNetDevice}
    (up : link'.2.linkUp = link.2.linkUp) (state : link'.2.txMachineState = link.2.txMachineState)
    (queue : link'.2.queue = link.2.queue) (signals : List PfcSignal) :
    acceptedFrames cfg i link' signals = acceptedFrames cfg i link signals := by
  induction signals generalizing link link' with
  | nil => rfl
  | cons signal signals ih =>
    have ⟨answer, up, state, queue⟩ := send_congr cfg i up state queue
      (pfcPacket signal.prio signal.quanta) pfcPppProto link.1 link'.1
    rw [acceptedFrames, acceptedFrames, answer, ih up state queue]

/-- The frame of a signal is appended to the line if it is queued. -/
theorem sendSignal_acceptedPfc (signal : PfcSignal) :
    (sendSignal cfg i h signal).dev.pfcLine =
      h.dev.pfcLine ++ acceptedFrames cfg i h.link [signal] := by
  have accepted : acceptedFrames cfg i h.link [signal] =
      if (h.dev.send cfg i (pfcPacket signal.prio signal.quanta) pfcPppProto h.sim).1 then
        [signal.frame] else [] := List.append_nil _
  rw [accepted]
  rcases PointToPointNetDevice.send_cases cfg i (pfcPacket signal.prio signal.quanta) pfcPppProto
      h.sim h.dev.toPointToPointNetDevice with
    ⟨_, sent⟩ | ⟨_, _, sent⟩ | ⟨up, q, queued, answered⟩
  · rw [sent]
    simp [sendSignal, ptpSend, sent, Host.update, QbbNetDevice.noted, QbbNetDevice.pfcLine,
      Host.withBase]
  · rw [sent]
    simp [sendSignal, ptpSend, sent, Host.update, QbbNetDevice.noted, QbbNetDevice.pfcLine,
      Host.withBase]
  · rcases sendSignal_line cfg i up signal with ⟨full, _⟩ | ⟨_, _, line, _⟩
    · have room : h.dev.queue.enqueue signal.frame = some q := queued
      rw [room] at full
      cases full
    · have answer : (h.dev.send cfg i (pfcPacket signal.prio signal.quanta) pfcPppProto h.sim).1 =
          true := by
        rcases answered with ⟨_, sent⟩ | ⟨_, _, _, _, sent⟩
        · rw [sent]
        · rw [sent]
      rw [line, if_pos answer]

/-- Signals that are sent one after another append the frames that are queued. -/
theorem signals_acceptedPfc (signals : List PfcSignal) :
    (signals.foldl (sendSignal cfg i) h).dev.pfcLine =
      h.dev.pfcLine ++ acceptedFrames cfg i h.link signals := by
  induction signals generalizing h with
  | nil => exact (List.append_nil _).symm
  | cons signal signals ih =>
    have rest : acceptedFrames cfg i h.link (signal :: signals) =
        acceptedFrames cfg i h.link [signal] ++
          acceptedFrames cfg i (sendSignal cfg i h signal).link signals := by
      simp only [acceptedFrames, List.append_nil]
      rfl
    rw [List.foldl_cons, ih, sendSignal_acceptedPfc, List.append_assoc, ← rest]

theorem handleMacRx_acceptedPfc (p : Packet) (framed : Framed h.dev)
    (lawful : Lawful frameClass (h.dev.sender h.now)) :
    (handleMacRx cfg i p h).dev.pfcLine =
      h.dev.pfcLine ++ acceptedFrames cfg i h.link ((Duty.handleMacRx p).signals (cfg.attr i) h.dev) := by
  rw [Duty.signals]
  by_cases control : isPfcFrame p = true
  · rw [if_pos control, handleMacRx_pfcLine cfg i control framed lawful]
    exact (List.append_nil _).symm
  · obtain ⟨start, _, queued, after⟩ :=
      handleMacRx_data cfg i h (Bool.eq_false_iff.mpr control)
    have base := (dataQueued_same h.dev (cfg.attr i) h.now p).1
    rw [← queued] at base
    have line : start.dev.pfcLine = h.dev.pfcLine := by
      rw [QbbNetDevice.pfcLine, base, ← QbbNetDevice.pfcLine]
    rw [if_neg control, after, ← line]
    refine (signals_acceptedPfc _).trans ?_
    congr 1
    apply acceptedFrames_congr
    · exact congrArg PointToPointNetDevice.linkUp base
    · exact congrArg PointToPointNetDevice.txMachineState base
    · exact congrArg PointToPointNetDevice.queue base

/-- A handler appends to the line the frames of its signals that are queued. -/
theorem duty_acceptedPfc (duty : Duty) (framed : Framed h.dev)
    (lawful : Lawful frameClass (h.dev.sender h.now)) :
    (duty.run cfg i h).dev.pfcLine =
      h.dev.pfcLine ++ acceptedFrames cfg i h.link (duty.signals (cfg.attr i) h.dev) := by
  have silent (line : (duty.run cfg i h).dev.pfcLine = h.dev.pfcLine)
      (none_due : duty.signals (cfg.attr i) h.dev = []) :
      (duty.run cfg i h).dev.pfcLine =
        h.dev.pfcLine ++ acceptedFrames cfg i h.link (duty.signals (cfg.attr i) h.dev) := by
    rw [line, none_due]
    exact (List.append_nil _).symm
  cases duty with
  | tryDequeue => exact silent (pfcLine_of_steps lawful (tryDequeue_steps cfg i fun _ _ => rfl)) rfl
  | transmitComplete => exact silent (pfcLine_of_steps lawful (transmitComplete_steps cfg i rfl)) rfl
  | resumeFromPause prio =>
    exact silent (pfcLine_of_steps lawful (resumeFromPause_steps i prio rfl)) rfl
  | refillMacQueueFromHold prio =>
    exact silent (pfcLine_of_steps lawful (refillMacQueueFromHold_steps i prio rfl)) rfl
  | handleMacRx p => exact handleMacRx_acceptedPfc p framed lawful
  | drainPop prio =>
    show (drainPop cfg i prio h).dev.pfcLine = _
    rw [drainPop_eq, signals_acceptedPfc]
    rfl

section Net

variable [DecidableEq ι] [DecidableEq ν] {s t : Net ι ν} {action : Action ι ν}

/-- The PFC frames that the MAC queue of device `i` accepts in a step. -/
def Net.acceptedPfc (cfg : Config ι ν) (i : ι) (s : Net ι ν) (action : Action ι ν) : List Packet :=
  acceptedFrames cfg i (s.host cfg i).link (s.signals cfg i action)

theorem step_acceptedPfc (reachable : Net.Reachable cfg s) (step : s.step cfg action = some t) :
    (t.dev i).pfcLine = (s.dev i).pfcLine ++ s.acceptedPfc cfg i action := by
  have ⟨_, later, does⟩ := Net.step_does cfg step i
  unfold Net.acceptedPfc Net.signals
  cases due : s.duty cfg i action with
  | none =>
    rw [due] at does
    rw [(Asides.sameSignals does).line]
    exact (List.append_nil _).symm
  | some duty =>
    rw [due] at does
    have ⟨h, clock, quiet, after⟩ := does
    have ⟨framed, lawful⟩ := lawful_later reachable (clock ▸ later) quiet
    rw [(Asides.sameSignals after).line, duty_acceptedPfc duty framed lawful, quiet.sameSignals.line,
      duty.signals_quiet _ quiet]
    congr 1
    apply acceptedFrames_congr
    · exact quiet.linkUp
    · exact quiet.txMachineState
    · exact quiet.queue

/-- The PFC frames that are queued or have been started are those that were accepted. -/
theorem run_acceptedPfc {start : Net ι ν} {actions : List (Action ι ν)}
    (initial : Net.Initial cfg start) (run : Net.Run cfg start actions s) :
    (s.dev i).pfcLine = start.collect cfg (Net.acceptedPfc cfg i) actions := by
  induction run with
  | nil =>
    have ⟨linkUp, stack, same⟩ := initial
    subst same
    rfl
  | snoc before _ step ih =>
    rw [before.collect_snoc cfg step, ← ih, step_acceptedPfc (before.reachable cfg initial) step]

/-- Device `j` has no receive error model, or it leaves alone what the channel brings. -/
def Net.ArrivesWhole (j : ι) (s : Net ι ν) (action : Action ι ν) : Prop :=
  ∀ p ∈ s.arrival j action, action.corrupts = false

instance (j : ι) (s : Net ι ν) (action : Action ι ν) : Decidable (s.ArrivesWhole j action) :=
  inferInstanceAs (Decidable (∀ p ∈ s.arrival j action, action.corrupts = false))

theorem control_frames_in_order {start : Net ι ν} {actions : List (Action ι ν)}
    (peer : cfg.peer i = some j) (initial : Net.Initial cfg start)
    (run : Net.RunWhere cfg (Net.ArrivesWhole j) start actions s) :
    ((s.dev j).macRx.map (·.2)).filter isPfcFrame <+:
      start.collect cfg (Net.acceptedPfc cfg i) actions := by
  have line := run_acceptedPfc (i := i) initial (run.mono _ fun _ _ _ => trivial)
  have arrivals := run_arrivals peer initial (run.mono _ fun _ _ whole p brought _ => whole p brought)
  rw [← line, QbbNetDevice.pfcLine, List.filter_append, arrivals, List.append_assoc]
  exact List.prefix_append _ _

end Net

theorem control_frames_in_order_stalled :
    ∃ s, (Net.started stalledSwitch).run stalledSwitch (Net.ArrivesWhole 0) (stalledRun 7) = some s ∧
      ((s.dev 0).macRx.map (·.2)).filter isPfcFrame = [pfcFrame 0 1] ∧
      [pfcFrame 0 1] <+: (Net.started stalledSwitch).collect stalledSwitch
        (Net.acceptedPfc stalledSwitch 1) (stalledRun 7) := by
  have ⟨s, ran, processed⟩ : ∃ s,
      (Net.started stalledSwitch).run stalledSwitch (Net.ArrivesWhole 0) (stalledRun 7) = some s ∧
        ((s.dev 0).macRx.map (·.2)).filter isPfcFrame = [pfcFrame 0 1] :=
    exists_of_any (by decide +kernel)
  have in_order := control_frames_in_order (i := 1) (j := 0) rfl (Net.started_initial stalledSwitch)
    (.of_run _ ran)
  rw [processed] at in_order
  exact ⟨s, ran, processed, in_order⟩

end QbbNet
