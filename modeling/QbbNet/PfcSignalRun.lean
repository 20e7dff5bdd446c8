import QbbNet.WakeUpRun

set_option autoImplicit false

/- The signals of a device against the PFC frames that reach its MAC queue. -/
namespace QbbNet

open ClassedSender

variable {ι ν : Type} {cfg : Config ι ν} {i : ι} {h : Host ι}

/-- The PFC frames that have entered the MAC queue for good, those whose
transmission has started first. -/
def QbbNetDevice.pfcLine (d : QbbNetDevice) : List Packet :=
  (d.phyTxBegin.map (·.2) ++ d.queue.packets).filter isPfcFrame

/-- Whether frames are accepted one after another. The first one that an idle
transmitter is given lets the head of the queue start. -/
def admits : TxMachineState → DropTailQueue → List Packet → Bool
  | _, _, [] => true
  | .busy, q, p :: frames =>
      match q.enqueue p with
      | none => false
      | some q => admits .busy q frames
  | .ready, q, p :: frames =>
      match (q.enqueue p).bind (·.dequeue) with
      | none => false
      | some (_, q) => admits .busy q frames

theorem pfcLine_eq_controls (d : QbbNetDevice) (now : Time) :
    d.pfcLine = controls frameClass (d.sender now) := by
  refine List.filter_congr fun p _ => ?_
  cases control : isPfcFrame p <;> simp [frameClass, control]

/-- Handlers whose moves bring no control frame keep the PFC frames that are in line. -/
theorem pfcLine_of_steps {after : Host ι} (lawful : Lawful frameClass (h.dev.sender h.now))
    (steps : Steps frameClass (fun move _ => move.controls = []) (h.dev.sender h.now)
      (after.dev.sender h.now)) : after.dev.pfcLine = h.dev.pfcLine := by
  rw [pfcLine_eq_controls _ h.now, pfcLine_eq_controls _ h.now]
  have both := steps.preserves frameClass
    (P := fun s => Lawful frameClass s ∧ controls frameClass s = controls frameClass (h.dev.sender h.now))
    (fun move s t free step holds => ⟨step.lawful holds.1, by
      rw [step.controls_eq holds.1, free, List.append_nil, holds.2]⟩) ⟨lawful, rfl⟩
  exact both.2

variable (cfg i) in
/-- A signal's frame is appended to the line, or is dropped and changes nothing. -/
theorem sendSignal_line (up : h.dev.linkUp = true) (signal : PfcSignal) :
    (h.dev.queue.enqueue signal.frame = none ∧
      (sendSignal cfg i h signal).dev.pfcLine = h.dev.pfcLine) ∨
    ∃ q, h.dev.queue.enqueue signal.frame = some q ∧
      (sendSignal cfg i h signal).dev.pfcLine = h.dev.pfcLine ++ [signal.frame] ∧
      (sendSignal cfg i h signal).dev.txMachineState = .busy ∧
      (h.dev.txMachineState = .busy ∧ (sendSignal cfg i h signal).dev.queue = q ∨
        h.dev.txMachineState = .ready ∧ ∃ first,
          q.dequeue = some (first, (sendSignal cfg i h signal).dev.queue)) := by
  have framed : isPfcFrame signal.frame = true := isPfcFrame_pfcFrame _ _
  rcases PointToPointNetDevice.send_cases cfg i (pfcPacket signal.prio signal.quanta) pfcPppProto
      h.sim h.dev.toPointToPointNetDevice with
    ⟨down, -⟩ | ⟨-, full, sent⟩ | ⟨-, q, queued, ⟨state, sent⟩ | ⟨state, first, rest, head, sent⟩⟩
  · rw [up] at down
    cases down
  · refine Or.inl ⟨full, ?_⟩
    simp [sendSignal, ptpSend, sent, Host.update, QbbNetDevice.noted, QbbNetDevice.pfcLine, Host.withBase]
  · obtain ⟨-, -, content⟩ := DropTailQueue.enqueue_eq_some.mp queued
    refine Or.inr ⟨q, queued, ?_, ?_, Or.inl ⟨state, ?_⟩⟩
    · have line : (sendSignal cfg i h signal).dev.pfcLine =
          (h.dev.phyTxBegin.map (·.2) ++ q.packets).filter isPfcFrame := by
        simp [sendSignal, ptpSend, sent, Host.update, QbbNetDevice.noted, QbbNetDevice.pfcLine,
          Host.withBase]
      rw [line, content, ← List.append_assoc, List.filter_append, ← QbbNetDevice.pfcLine]
      exact congrArg _ (List.filter_cons_of_pos framed)
    · simp [sendSignal, ptpSend, sent, Host.update, QbbNetDevice.noted, Host.withBase, state]
    · simp [sendSignal, ptpSend, sent, Host.update, QbbNetDevice.noted, Host.withBase]
  · obtain ⟨-, -, content⟩ := DropTailQueue.enqueue_eq_some.mp queued
    have started := (DropTailQueue.dequeue_eq_some.mp head).1
    refine Or.inr ⟨q, queued, ?_, ?_, Or.inr ⟨state, first, ?_⟩⟩
    · have line : (sendSignal cfg i h signal).dev.pfcLine =
          (h.dev.phyTxBegin.map (·.2) ++ q.packets).filter isPfcFrame := by
        simp [sendSignal, ptpSend, sent, Host.update, QbbNetDevice.noted, QbbNetDevice.pfcLine,
          Host.withBase, PointToPointNetDevice.transmitStart, started]
      rw [line, content, ← List.append_assoc, List.filter_append, ← QbbNetDevice.pfcLine]
      exact congrArg _ (List.filter_cons_of_pos framed)
    · simp [sendSignal, ptpSend, sent, Host.update, QbbNetDevice.noted, Host.withBase,
        PointToPointNetDevice.transmitStart]
    · simpa [sendSignal, ptpSend, sent, Host.update, QbbNetDevice.noted, Host.withBase,
        PointToPointNetDevice.transmitStart] using head

variable (cfg i) in
/-- The frames of signals that are sent one after another are all accepted, in
order, exactly if the queue admits them. -/
theorem signals_line (up : h.dev.linkUp = true) (signals : List PfcSignal) :
    ∃ sent, sent.Sublist (signals.map PfcSignal.frame) ∧
      (signals.foldl (sendSignal cfg i) h).dev.pfcLine = h.dev.pfcLine ++ sent ∧
      (sent = signals.map PfcSignal.frame ↔
        admits h.dev.txMachineState h.dev.queue (signals.map PfcSignal.frame) = true) := by
  induction signals generalizing h with
  | nil => exact ⟨[], .refl _, (List.append_nil _).symm, by simp [admits]⟩
  | cons signal signals ih =>
    obtain ⟨rest, sub, line, all⟩ := ih (h := sendSignal cfg i h signal) ((sendSignal_below signal).1.trans up)
    rcases sendSignal_line cfg i up signal with
      ⟨full, dropped⟩ | ⟨q, queued, accepted, busy, state⟩
    · refine ⟨rest, sub.cons _, by rw [List.foldl_cons, line, dropped], ?_⟩
      have fewer : rest.length < (signal.frame :: signals.map PfcSignal.frame).length :=
        Nat.lt_succ_of_le sub.length_le
      have refused : admits h.dev.txMachineState h.dev.queue
          (signal.frame :: signals.map PfcSignal.frame) = false := by
        cases h.dev.txMachineState <;> simp [admits, full]
      rw [List.map_cons, refused]
      simp only [Bool.false_eq_true, iff_false]
      exact fun same => Nat.ne_of_lt fewer (congrArg List.length same)
    · refine ⟨signal.frame :: rest, sub.cons_cons _, ?_, ?_⟩
      · rw [List.foldl_cons, line, accepted, List.append_assoc, List.singleton_append]
      · have admitted : admits h.dev.txMachineState h.dev.queue
            (signal.frame :: signals.map PfcSignal.frame) =
            admits .busy (sendSignal cfg i h signal).dev.queue (signals.map PfcSignal.frame) := by
          rcases state with ⟨state, same⟩ | ⟨state, first, head⟩
          · rw [state, same]
            simp [admits, queued]
          · rw [state]
            simp [admits, queued, head]
        rw [List.map_cons, admitted, ← busy, ← all]
        simp

/-- The signals that a handler has to send. -/
def Duty.signals (attr : Attributes) (d : QbbNetDevice) : Duty → List PfcSignal
  | .handleMacRx p =>
      if isPfcFrame p then []
      else attr.rxSignals (getPrioFromPacket p) (d.localCongested (getPrioFromPacket p))
        (d.rxOccPkts (getPrioFromPacket p) + 1)
  | .drainPop prio => attr.drainSignals prio (d.localCongested prio) (d.rxOccPkts prio - 1)
  | _ => []

/-- A handler notes its signals, and appends to the line the frames of those that fit. -/
structure Signals (signals : List PfcSignal) (d e : QbbNetDevice) : Prop where
  pfcSent : e.pfcSent = d.pfcSent ++ signals
  noted : d.Noted → e.Noted
  line : ∃ sent, sent.Sublist (signals.map PfcSignal.frame) ∧ e.pfcLine = d.pfcLine ++ sent ∧
    (sent = signals.map PfcSignal.frame ↔
      admits d.txMachineState d.queue (signals.map PfcSignal.frame) = true)

/-- A handler that neither reads nor writes the receiving side. -/
theorem Signals.of_receiving {d e : QbbNetDevice} (receiving : e.toReceivingSide = d.toReceivingSide)
    (line : e.pfcLine = d.pfcLine) : Signals [] d e where
  pfcSent := by rw [receiving, List.append_nil]
  noted noted := receiving.symm ▸ noted
  line := ⟨[], .refl _, by rw [line, List.append_nil], by simp [admits]⟩

variable (cfg i) in
theorem signals_signals {start : Host ι} (signals : List PfcSignal) (up : h.dev.linkUp = true)
    (base : start.dev.toPointToPointNetDevice = h.dev.toPointToPointNetDevice)
    (pfcSent : start.dev.pfcSent = h.dev.pfcSent) (noted : h.dev.Noted → start.dev.Noted) :
    Signals signals h.dev (signals.foldl (sendSignal cfg i) start).dev where
  pfcSent := by rw [signals_receiving, foldl_noted_pfcSent, pfcSent]
  noted before := by
    rw [signals_receiving]
    exact (noted before).foldl signals
  line := by
    obtain ⟨sent, sub, line, all⟩ := signals_line cfg i (h := start)
      (by rw [base]; exact up) signals
    refine ⟨sent, sub, ?_, by rw [all, base]⟩
    rw [line, QbbNetDevice.pfcLine, QbbNetDevice.pfcLine, base]

variable (cfg i) in
/-- A PFC frame that is obeyed starts and queues no other. -/
theorem handleMacRx_pfcLine {p : Packet} (control : isPfcFrame p = true) (framed : Framed h.dev)
    (lawful : Lawful frameClass (h.dev.sender h.now)) :
    (handleMacRx cfg i p h).dev.pfcLine = h.dev.pfcLine := by
  unfold handleMacRx
  rw [if_pos control]
  let traced := h.update fun d => { d with macRx := d.macRx ++ [(h.now, p)] }
  exact pfcLine_of_steps (h := traced) lawful (handlePfcFrame_steps p framed lawful
    fun _ _ _ _ _ _ => ⟨fun _ => ⟨rfl, rfl⟩, fun _ => rfl⟩)

theorem dataQueued_same (d : QbbNetDevice) (attr : Attributes) (now : Time) (p : Packet) :
    (d.dataQueued attr now p).toPointToPointNetDevice = d.toPointToPointNetDevice ∧
      (d.dataQueued attr now p).pfcSent = d.pfcSent ∧
      (d.Noted → (d.dataQueued attr now p).Noted) := by
  unfold QbbNetDevice.dataQueued QbbNetDevice.counted
  split
  · exact ⟨rfl, rfl, fun noted => ⟨noted.1, noted.2, noted.3⟩⟩
  · exact ⟨rfl, rfl, fun noted => ⟨noted.1, noted.2, noted.3⟩⟩

theorem handleMacRx_signals (p : Packet) (framed : Framed h.dev)
    (lawful : Lawful frameClass (h.dev.sender h.now)) (up : h.dev.linkUp = true) :
    Signals ((Duty.handleMacRx p).signals (cfg.attr i) h.dev) h.dev (handleMacRx cfg i p h).dev := by
  rw [Duty.signals]
  cases control : isPfcFrame p with
  | true =>
    have obeys := handleMacRx_control cfg i h control
    have line := handleMacRx_pfcLine cfg i control framed lawful
    rw [if_pos rfl]
    refine ⟨?_, fun noted => ?_, [], .refl _, line.trans (List.append_nil _).symm, by simp [admits]⟩
    · rw [obeys.receiving]
      exact (List.append_nil _).symm
    · rw [obeys.receiving]
      exact ⟨noted.1, noted.2, noted.3⟩
  | false =>
    obtain ⟨start, drain, queued, after⟩ := handleMacRx_data cfg i h control
    obtain ⟨base, pfcSent, noted⟩ := dataQueued_same h.dev (cfg.attr i) h.now p
    rw [← queued] at base pfcSent noted
    have ran := signals_signals cfg i ((cfg.attr i).rxSignals (getPrioFromPacket p)
      (h.dev.localCongested (getPrioFromPacket p)) (h.dev.rxOccPkts (getPrioFromPacket p) + 1))
      up base pfcSent noted
    rw [if_neg (by simp), after]
    refine ⟨ran.pfcSent, fun before => ?_, ran.line⟩
    have noted := ran.noted before
    exact ⟨noted.1, noted.2, noted.3⟩

theorem duty_signals (duty : Duty) (framed : Framed h.dev)
    (lawful : Lawful frameClass (h.dev.sender h.now)) (up : h.dev.linkUp = true) :
    Signals (duty.signals (cfg.attr i) h.dev) h.dev (duty.run cfg i h).dev := by
  cases duty with
  | tryDequeue =>
    exact .of_receiving tryDequeue_sends.receiving
      (pfcLine_of_steps lawful (tryDequeue_steps cfg i fun _ _ => rfl))
  | transmitComplete =>
    exact .of_receiving rfl (pfcLine_of_steps lawful (transmitComplete_steps cfg i rfl))
  | resumeFromPause prio =>
    exact .of_receiving (resumeFromPause_obeys prio).receiving
      (pfcLine_of_steps lawful (resumeFromPause_steps i prio rfl))
  | refillMacQueueFromHold prio =>
    exact .of_receiving (refillMacQueueFromHold_obeys prio).receiving
      (pfcLine_of_steps lawful (refillMacQueueFromHold_steps i prio rfl))
  | handleMacRx p => exact handleMacRx_signals p framed lawful up
  | drainPop prio =>
    change Signals _ h.dev (drainPop cfg i prio h).dev
    rw [drainPop_eq]
    exact signals_signals cfg i _ up rfl rfl fun noted => ⟨noted.1, noted.2, noted.3⟩

theorem Duty.signals_quiet (duty : Duty) (attr : Attributes) {d e : QbbNetDevice}
    (quiet : Quiet d e) : duty.signals attr e = duty.signals attr d := by
  cases duty <;> simp only [Duty.signals, quiet.localCongested, quiet.rxOccPkts]

/-- What is said of the signals stays as it is. -/
structure SameSignals (d e : QbbNetDevice) : Prop where
  pfcSent : e.pfcSent = d.pfcSent
  noted : d.Noted → e.Noted
  line : e.pfcLine = d.pfcLine

theorem Quiet.sameSignals {d e : QbbNetDevice} (quiet : Quiet d e) : SameSignals d e where
  pfcSent := quiet.pfcSent
  noted noted :=
    ⟨by rw [quiet.localCongested, quiet.pfcSent]; exact noted.1,
      by rw [quiet.pfcTxXoff, quiet.pfcSent]; exact noted.2,
      by rw [quiet.pfcTxXon, quiet.pfcSent]; exact noted.3⟩
  line := by rw [QbbNetDevice.pfcLine, quiet.phyTxBegin, quiet.queue, ← QbbNetDevice.pfcLine]

theorem Asides.sameSignals {now : Time} {d e : QbbNetDevice} (asides : Asides i now d e) :
    SameSignals d e := by
  induction asides with
  | refl => exact (Quiet.refl _).sameSignals
  | @tail mid after _ aside ih =>
    have last : SameSignals mid after := by
      cases aside with
      | quiet quiet => exact quiet.sameSignals
      | send dg h clock dev =>
        subst dev
        refine ⟨by rw [send_receiving], fun noted => by rw [send_receiving]; exact noted, ?_⟩
        rw [QbbNetDevice.pfcLine, send_base, ← QbbNetDevice.pfcLine]
    exact ⟨last.pfcSent.trans ih.pfcSent, last.noted ∘ ih.noted, last.line.trans ih.line⟩

section Net

variable [DecidableEq ι] [DecidableEq ν] {s t : Net ι ν} {action : Action ι ν}

/-- The signals that a step has device `i` send. -/
def Net.signals (cfg : Config ι ν) (i : ι) (s : Net ι ν) (action : Action ι ν) : List PfcSignal :=
  match s.duty cfg i action with
  | none => []
  | some duty => duty.signals (cfg.attr i) (s.dev i)

/-- The MAC queue has room for the frame of every watermark that a step crosses. -/
def Net.AdmitsSignals (cfg : Config ι ν) (i : ι) (s : Net ι ν) (action : Action ι ν) : Prop :=
  admits (s.dev i).txMachineState (s.dev i).queue
    ((s.signals cfg i action).map PfcSignal.frame) = true

instance (cfg : Config ι ν) (i : ι) (s : Net ι ν) (action : Action ι ν) :
    Decidable (s.AdmitsSignals cfg i action) := inferInstanceAs (Decidable (_ = true))

theorem step_signals (reachable : Net.Reachable cfg s) (step : s.step cfg action = some t)
    (up : (s.dev i).linkUp = true) :
    Signals (s.signals cfg i action) (s.dev i) (t.dev i) := by
  obtain ⟨-, later, does⟩ := Net.step_does cfg step i
  unfold Net.signals
  cases due : s.duty cfg i action with
  | none =>
    rw [due] at does
    have same := Asides.sameSignals does
    exact ⟨by rw [same.pfcSent, List.append_nil], same.noted,
      [], .refl _, by rw [same.line, List.append_nil], by simp [admits]⟩
  | some duty =>
    rw [due] at does
    obtain ⟨h, clock, quiet, after⟩ := does
    obtain ⟨framed, lawful⟩ := lawful_later reachable (clock ▸ later) quiet
    have ran : Signals (duty.signals (cfg.attr i) h.dev) h.dev (duty.run cfg i h).dev :=
      duty_signals duty framed lawful (quiet.linkUp.trans up)
    have first := quiet.sameSignals
    have last := Asides.sameSignals after
    rw [duty.signals_quiet _ quiet] at ran
    obtain ⟨sent, sub, line, all⟩ := ran.line
    refine ⟨by rw [last.pfcSent, ran.pfcSent, first.pfcSent], last.noted ∘ ran.noted ∘ first.noted,
      sent, sub, by rw [last.line, line, first.line], ?_⟩
    rw [all, quiet.txMachineState, quiet.queue]

omit [DecidableEq ι] [DecidableEq ν] in
theorem transmitComplete_linkUp : (transmitComplete cfg i h).dev.linkUp = h.dev.linkUp := by
  unfold transmitComplete PointToPointNetDevice.transmitComplete
  dsimp only
  split <;> rfl

omit [DecidableEq ν] in
theorem LinkEdits.linkUp {before after : Links ι} (edits : LinkEdits cfg before after) :
    (after.2 i).linkUp = (before.2 i).linkUp := by
  induction edits with
  | refl => rfl
  | tail _ last ih =>
    refine Eq.trans ?_ ih
    cases last with
    | @device j after edit =>
      rcases eq_or_ne i j with rfl | other
      · dsimp only
        rw [Function.update_self]
        exact edit.linkUp
      · dsimp only
        rw [Function.update_of_ne other]

/-- Nothing takes a link down. -/
theorem step_linkUp (reachable : Net.Reachable cfg s) (step : s.step cfg action = some t) (i : ι) :
    (t.dev i).linkUp = (s.dev i).linkUp := by
  have stepped := reachable.stepped step
  cases completes : s.completes action with
  | none =>
    have edited := (stepped.edits completes).linkUp (i := i)
    simpa only [Net.links, Net.begun_dev] using edited
  | some j =>
    rw [stepped.completed j completes]
    rcases eq_or_ne i j with rfl | other
    · rw [Net.on_dev_self, transmitComplete_linkUp, Net.host_dev, Net.begun_dev]
    · rw [Net.on_dev_ne other, Net.begun_dev]

theorem run_linkUp {ok : Net ι ν → Action ι ν → Prop} {start : Net ι ν} {actions : List (Action ι ν)}
    (initial : Net.Initial cfg start) (run : Net.RunWhere cfg ok start actions s) (i : ι) :
    (s.dev i).linkUp = (start.dev i).linkUp := by
  induction run with
  | nil => rfl
  | snoc before _ step ih => exact (step_linkUp (before.reachable cfg initial) step i).trans ih

theorem install_noted (attr : Attributes) (linkUp : Bool) : (QbbNetDevice.install attr linkUp).Noted :=
  ⟨fun _ => rfl, fun _ => rfl, fun _ => rfl⟩

/-- No frame is in line that was not signalled, and the flags and the counters
tell of the signals. -/
theorem run_signals {start : Net ι ν} {actions : List (Action ι ν)} (initial : Net.Initial cfg start)
    (run : Net.Run cfg start actions s) (up : (start.dev i).linkUp = true) :
    (s.dev i).pfcLine.Sublist ((s.dev i).pfcSent.map PfcSignal.frame) ∧ (s.dev i).Noted := by
  induction run with
  | nil =>
    obtain ⟨linkUp, stack, rfl⟩ := initial
    exact ⟨.refl _, install_noted _ _⟩
  | snoc before _ step ih =>
    obtain ⟨pfcSent, noted, sent, sub, line, -⟩ :=
      step_signals (before.reachable cfg initial) step ((run_linkUp initial before i).trans up)
    rw [line, pfcSent, List.map_append]
    exact ⟨ih.1.append sub, noted ih.2⟩

theorem run_admits {start : Net ι ν} {actions : List (Action ι ν)} (initial : Net.Initial cfg start)
    (run : Net.RunWhere cfg (Net.AdmitsSignals cfg i) start actions s)
    (up : (start.dev i).linkUp = true) :
    (s.dev i).pfcLine = (s.dev i).pfcSent.map PfcSignal.frame := by
  induction run with
  | nil =>
    obtain ⟨linkUp, stack, rfl⟩ := initial
    rfl
  | snoc before admitted step ih =>
    obtain ⟨pfcSent, -, sent, -, line, all⟩ :=
      step_signals (before.reachable cfg initial) step ((run_linkUp initial before i).trans up)
    rw [line, pfcSent, List.map_append, ih, all.mpr admitted]

/-- The MAC queue gets the frame of every signal, in the order of the signals,
exactly in the runs in which it had room at every watermark crossed. The flags
and the counters tell of the signals in either case. -/
theorem no_signal_lost {start : Net ι ν} {actions : List (Action ι ν)}
    (initial : Net.Initial cfg start) (run : Net.Run cfg start actions s)
    (up : (start.dev i).linkUp = true) :
    ((s.dev i).pfcLine = (s.dev i).pfcSent.map PfcSignal.frame ↔
      Net.RunWhere cfg (Net.AdmitsSignals cfg i) start actions s) ∧ (s.dev i).Noted := by
  refine ⟨⟨fun all_sent => ?_, fun admitted => run_admits initial admitted up⟩,
    (run_signals initial run up).2⟩
  induction run with
  | nil => exact .nil
  | snoc before _ step ih =>
    obtain ⟨pfcSent, -, sent, sub, line, all⟩ :=
      step_signals (before.reachable cfg initial) step ((run_linkUp initial before i).trans up)
    have earlier := (run_signals initial before up).1
    rw [line, pfcSent, List.map_append] at all_sent
    -- a frame that was lost earlier leaves the line too short for ever
    have same_length : (_ : List Packet).length = _ := congrArg List.length all_sent
    have fewer := earlier.length_le
    have fewer' := sub.length_le
    rw [List.length_append, List.length_append] at same_length
    have whole := earlier.eq_of_length (by omega)
    refine (ih whole).snoc (all.mp ?_) step
    rw [whole] at all_sent
    exact List.append_cancel_left all_sent

end Net

/-- A packet arrives while the transmitter is idle, and is drained at once. -/
def signalledRun : List (Action (Fin 1) Unit) := [receiveData 0 0 0x00, .event .sink]

theorem no_signal_lost_idle :
    ∃ s, (Net.started tightQueue).run tightQueue (Net.AdmitsSignals tightQueue 0) signalledRun = some s ∧
      (s.dev 0).pfcSent = [.xoff 0 65535, .xon 0] ∧
      (s.dev 0).pfcLine = [pfcFrame 0 65535, pfcFrame 0 0] := by
  obtain ⟨s, ran, sent⟩ : ∃ s,
      (Net.started tightQueue).run tightQueue (Net.AdmitsSignals tightQueue 0) signalledRun = some s ∧
        (s.dev 0).pfcSent = [.xoff 0 65535, .xon 0] :=
    exists_of_any (by decide +kernel)
  have admitted := Net.RunWhere.of_run _ ran
  have all := (no_signal_lost (Net.started_initial _) (admitted.mono _ fun _ _ _ => trivial)
    (i := 0) rfl).1.mpr admitted
  exact ⟨s, ran, sent, by rw [all, sent]; rfl⟩

/-- Two packets of the device's own are on the wire and in the queue when one arrives. -/
def saturatedRun : List (Action (Fin 1) Unit) :=
  [sendClass 0 0x00, sendClass 1 0x00, .event .sink, .event .sink]

/-- The watermark is crossed, the flag and the counter say so, and no frame does. -/
theorem signal_lost :
    ∃ s t, Net.Reachable tightQueue s ∧ (s.dev 0).linkUp = true ∧
      (tightQueue.attr 0).pfcEnable = true ∧
      s.step tightQueue (receiveData 0 2 0x00) = some t ∧
      (s.dev 0).localCongested 0 = false ∧ (t.dev 0).localCongested 0 = true ∧
      (t.dev 0).pfcTxXoff 0 = (s.dev 0).pfcTxXoff 0 + 1 ∧ (t.dev 0).pfcLine = [] := by
  have ran : ((Net.started tightQueue).run tightQueue (fun _ _ => True) saturatedRun).any (fun s =>
      (s.dev 0).linkUp && !(s.dev 0).localCongested 0 &&
        (s.step tightQueue (receiveData 0 2 0x00)).any fun t =>
          (t.dev 0).localCongested 0 &&
            decide ((t.dev 0).pfcTxXoff 0 = (s.dev 0).pfcTxXoff 0 + 1 ∧ (t.dev 0).pfcLine = [])) =
      true := by decide +kernel
  simp only [Option.any_eq_true, Bool.and_eq_true, decide_eq_true_eq, Bool.not_eq_true'] at ran
  obtain ⟨s, ran, ⟨up, clear⟩, t, step, congested, counted, lost⟩ := ran
  exact ⟨s, t, .of_run _ (Net.started_initial _) ran, up, rfl, step, clear, congested, counted, lost⟩

end QbbNet
