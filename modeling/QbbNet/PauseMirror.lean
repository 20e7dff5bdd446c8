import QbbNet.Channel
import QbbNet.Receiving
import QbbNet.PfcSignalRun

set_option autoImplicit false

/- How the pauses at one end of a channel follow the congestion at the other. -/
namespace QbbNet

open Simulator

variable {ι ν : Type} {cfg : Config ι ν} {i j : ι} {h : Host ι}

/- What the frames say -/

/-- The frame of a signal is read as it was meant. -/
theorem pfcQuanta_frame (signal : PfcSignal) (prio : Fin 8) :
    pfcQuanta prio signal.frame = if signal.prio = prio then some signal.quanta else none := by
  have control : isPfcFrame signal.frame = true := isPfcFrame_pfcFrame _ _
  have header : pfcHeader signal.frame = some (.single signal.prio signal.quanta) :=
    pfcHeader_pfcFrame _ _
  simp only [pfcQuanta, control, ↓reduceIte, header, Option.bind_some, PfcHeader.enables_single,
    decide_eq_true_eq]
  split
  · rename_i same
    simp [← same, PfcHeader.single]
  · rfl

theorem pfcQuanta_data {p : Packet} (data : isPfcFrame p = false) (prio : Fin 8) :
    pfcQuanta prio p = none := by simp [pfcQuanta, data]

theorem filterMap_pfcQuanta (prio : Fin 8) (frames : List Packet) :
    (frames.filter isPfcFrame).filterMap (pfcQuanta prio) = frames.filterMap (pfcQuanta prio) := by
  induction frames with
  | nil => rfl
  | cons p frames ih =>
    cases control : isPfcFrame p with
    | true => rw [List.filter_cons_of_pos control, List.filterMap_cons, List.filterMap_cons, ih]
    | false =>
      rw [List.filter_cons_of_neg (by simp [control]), ih,
        List.filterMap_cons_none (pfcQuanta_data control prio)]

/-- The signals of a handler carry the default quanta, or none. -/
theorem duty_quanta (duty : Duty) (attr : Attributes) (d : QbbNetDevice) :
    ∀ signal ∈ duty.signals attr d, signal.congests = true → signal.quanta = attr.defaultQuanta := by
  have drained (prio : Fin 8) (congested : Bool) (occ : Nat) :
      ∀ signal ∈ attr.drainSignals prio congested occ, signal.congests = true →
        signal.quanta = attr.defaultQuanta := by
    intro signal member xoff
    unfold Attributes.drainSignals at member
    split at member
    · obtain rfl := List.mem_singleton.mp member
      cases xoff
    · cases member
  have arrived (prio : Fin 8) (congested : Bool) (occ : Nat) :
      ∀ signal ∈ attr.rxSignals prio congested occ, signal.congests = true →
        signal.quanta = attr.defaultQuanta := by
    intro signal member xoff
    unfold Attributes.rxSignals at member
    split at member
    · rcases List.mem_append.mp member with member | member <;> split at member
      · obtain rfl := List.mem_singleton.mp member
        rfl
      · cases member
      · obtain rfl := List.mem_singleton.mp member
        cases xoff
      · cases member
    · cases member
  cases duty with
  | handleMacRx p =>
    simp only [Duty.signals]
    split
    · exact List.forall_mem_nil _
    · exact arrived _ _ _
  | drainPop prio => exact drained prio _ _
  | _ => exact List.forall_mem_nil _

/- What a device has received -/

theorem Duty.pfcQuanta_received (duty : Duty) (prio : Fin 8) :
    duty.pfcQuanta prio = duty.received.bind (QbbNet.pfcQuanta prio) := by
  cases duty <;> rfl

/-- The pause times that a device has received for a class, with the times of their arrival. -/
def QbbNetDevice.readings (d : QbbNetDevice) (prio : Fin 8) : List (Time × UInt16) :=
  d.macRx.filterMap fun arrival => (pfcQuanta prio arrival.2).map (arrival.1, ·)

/-- When the last PFC frame that enables the class arrived. -/
def QbbNetDevice.lastPfcRx (d : QbbNetDevice) (prio : Fin 8) : Option Time :=
  (d.readings prio).getLast?.map (·.1)

theorem readings_quanta (d : QbbNetDevice) (prio : Fin 8) :
    (d.readings prio).map (·.2) = (d.macRx.map (·.2)).filterMap (pfcQuanta prio) := by
  rw [QbbNetDevice.readings, List.map_filterMap, List.filterMap_map]
  exact List.filterMap_congr fun arrival _ => by simp [Function.comp_def]

section Net

variable [DecidableEq ι] [DecidableEq ν] {s t : Net ι ν} {action : Action ι ν}

/-- What has been read for a class last is its pause. -/
theorem pauseUntil_readings (reachable : Net.Reachable cfg s) (j : ι) (prio : Fin 8) :
    match ((s.dev j).readings prio).getLast? with
    | none => (s.dev j).pauseUntil prio = 0
    | some (arrived, quanta) => arrived ≤ s.sim.currentTs ∧
        (s.dev j).pauseUntil prio = arrived + (cfg.attr j).quantaTime quanta := by
  obtain ⟨start, actions, initial, run⟩ := reachable
  induction run with
  | nil =>
    obtain ⟨linkUp, stack, rfl⟩ := initial
    rfl
  | @snoc actions mid last action before _ step ih =>
    have later := (Net.step_does cfg step j).2.1
    have macRx := (Net.step_received step j).1
    have pause := step_pause step j prio
    have reads : mid.readsQuanta cfg j prio action =
        ((mid.duty cfg j action).bind Duty.received).bind (pfcQuanta prio) := by
      unfold Net.readsQuanta
      cases mid.duty cfg j action with
      | none => rfl
      | some duty => exact duty.pfcQuanta_received prio
    have readings : (last.dev j).readings prio = (mid.dev j).readings prio ++
        (mid.readsQuanta cfg j prio action).toList.map (last.sim.currentTs, ·) := by
      rw [QbbNetDevice.readings, macRx, List.filterMap_append, ← QbbNetDevice.readings, reads]
      refine congrArg _ ?_
      cases (mid.duty cfg j action).bind Duty.received with
      | none => rfl
      | some p => cases read : pfcQuanta prio p <;> simp [read]
    rw [readings]
    cases read : mid.readsQuanta cfg j prio action with
    | some quanta =>
      rw [read] at pause
      simp only [Option.toList_some, List.map_cons, List.map_nil, List.getLast?_append,
        List.getLast?_singleton, Option.some_or]
      exact ⟨Nat.le_refl _, congrArg Prod.snd pause⟩
    | none =>
      rw [read] at pause
      have same : (last.dev j).pauseUntil prio = (mid.dev j).pauseUntil prio :=
        pause.elim (congrArg Prod.snd) fun both => congrArg Prod.snd both.2
      simp only [Option.toList_none, List.map_nil, List.append_nil, same]
      cases recent : ((mid.dev j).readings prio).getLast? with
      | none => simpa only [recent] using ih
      | some reading =>
        simp only [recent] at ih ⊢
        exact ⟨Nat.le_trans ih.1 later, ih.2⟩

/-- No PFC frame of device `i` is dropped in a step: neither by its own MAC queue
nor by the error model of its peer `j`. -/
def Net.KeepsPfc (cfg : Config ι ν) (i j : ι) (s : Net ι ν) (action : Action ι ν) : Prop :=
  s.AdmitsSignals cfg i action ∧
    ∀ p ∈ s.arrival j action, isPfcFrame p = true → action.corrupts = false

instance (cfg : Config ι ν) (i j : ι) (s : Net ι ν) (action : Action ι ν) :
    Decidable (s.KeepsPfc cfg i j action) :=
  inferInstanceAs (Decidable (_ ∧ ∀ p ∈ s.arrival j action, isPfcFrame p = true →
    action.corrupts = false))

omit [DecidableEq ν] in
theorem Net.eventDuty_received (up : Upcall ι) (event : Event ι) :
    (s.eventDuty cfg j up event).bind Duty.received =
      if up.corrupt then none else event.receivedBy j := by
  cases event with
  | receive k p =>
    simp only [Net.eventDuty, Event.receivedBy]
    by_cases own : k = j
    · cases corrupt : up.corrupt <;> simp [own, Duty.received]
    · simp [own]
  | doIngressDrain k =>
    simp only [Net.eventDuty, Event.receivedBy, ite_self]
    split
    · cases s.drains cfg j up <;> rfl
    · rfl
  | hookL3Divert => simp [Net.eventDuty, Event.receivedBy]
  | _ =>
    simp only [Net.eventDuty, Event.receivedBy, ite_self]
    split <;> rfl

/-- A device with a peer receives what the channel brings, unless it is corrupted. -/
theorem Net.received_eq (step : s.step cfg action = some t) (peer : cfg.peer j ≠ none) :
    (s.duty cfg j action).bind Duty.received =
      if action.corrupts then none else s.arrival j action := by
  cases action with
  | event up =>
    unfold Net.duty Net.arrival Action.corrupts
    dsimp only
    cases s.sim.processOneEvent with
    | none => simp
    | some next =>
      obtain ⟨impl, sim⟩ := next
      cases impl with
      | none => simp
      | some event => exact Net.eventDuty_received up event
  | deliver k p corrupt =>
    have other : k ≠ j := by
      rintro rfl
      simp [Net.step, peer] at step
    simp [Net.duty, Net.arrival, other]
  | _ => simp [Net.duty, Net.arrival]

/-- The PFC frames whose transmission has started have arrived or are on their way. -/
theorem run_arrivals {start : Net ι ν} {actions : List (Action ι ν)} (peer : cfg.peer i = some j)
    (initial : Net.Initial cfg start)
    (run : Net.RunWhere cfg (fun s action => ∀ p ∈ s.arrival j action, isPfcFrame p = true →
      action.corrupts = false) start actions s) :
    ((s.dev i).phyTxBegin.map (·.2)).filter isPfcFrame =
      ((s.dev j).macRx.map (·.2)).filter isPfcFrame ++
        (s.sim.flight (Event.receivedBy j)).filter isPfcFrame := by
  induction run with
  | nil =>
    obtain ⟨linkUp, stack, rfl⟩ := initial
    rfl
  | @snoc actions mid last action before uncorrupted step ih =>
    have reachable := before.reachable cfg initial
    obtain ⟨-, frames, started, flown⟩ :=
      Net.step_channel reachable step peer (Net.reachable_serial reachable peer)
    have macRx := (Net.step_received step j).1
    rw [Net.received_eq step (by simp [cfg.peer_symm i j peer])] at macRx
    have arrived : (((last.dev j).macRx.map (·.2)).filter isPfcFrame) =
        ((mid.dev j).macRx.map (·.2)).filter isPfcFrame ++
          (mid.arrival j action).toList.filter isPfcFrame := by
      rw [macRx, List.map_append, List.filter_append]
      refine congrArg _ ?_
      cases brought : mid.arrival j action with
      | none => simp
      | some p =>
        cases control : isPfcFrame p with
        | true =>
          have clean := uncorrupted p brought control
          simp [clean, control]
        | false => cases action.corrupts <;> simp [control]
    rw [started, List.filter_append, ih, arrived, List.append_assoc, List.append_assoc,
      ← List.filter_append, flown, List.filter_append]

/-- The signals that a device has sent carry the default quanta, or none. -/
theorem run_quanta {start : Net ι ν} {actions : List (Action ι ν)} (initial : Net.Initial cfg start)
    (run : Net.Run cfg start actions s) (up : (start.dev i).linkUp = true) :
    ∀ signal ∈ (s.dev i).pfcSent, signal.congests = true →
      signal.quanta = (cfg.attr i).defaultQuanta := by
  induction run with
  | nil =>
    obtain ⟨linkUp, stack, rfl⟩ := initial
    exact List.forall_mem_nil _
  | snoc before _ step ih =>
    have sent := (step_signals (before.reachable cfg initial) step
      ((run_linkUp initial before i).trans up)).pfcSent
    intro signal member
    rw [sent] at member
    rcases List.mem_append.mp member with old | new
    · exact ih signal old
    · unfold Net.signals at new
      split at new
      · cases new
      · exact duty_quanta _ _ _ signal new

/-- No PFC frame of device `i` that enables the class is queued or on its way. -/
def Net.Settled (i j : ι) (prio : Fin 8) (s : Net ι ν) : Prop :=
  ∀ p ∈ (s.dev i).queue.packets ++ s.sim.flight (Event.receivedBy j), pfcQuanta prio p = none

instance (i j : ι) (prio : Fin 8) (s : Net ι ν) : Decidable (s.Settled i j prio) :=
  inferInstanceAs (Decidable (∀ p ∈ (s.dev i).queue.packets ++ s.sim.flight (Event.receivedBy j),
    pfcQuanta prio p = none))

/-- In a settled state the readings of a class at one end are the signals of the other. -/
theorem run_readings {start : Net ι ν} {actions : List (Action ι ν)} (peer : cfg.peer i = some j)
    (initial : Net.Initial cfg start) (run : Net.RunWhere cfg (Net.KeepsPfc cfg i j) start actions s)
    (up : (start.dev i).linkUp = true) {prio : Fin 8} (settled : s.Settled i j prio) :
    ((s.dev j).readings prio).map (·.2) =
      ((s.dev i).pfcSent.filter fun signal => decide (signal.prio = prio)).map PfcSignal.quanta := by
  have line := run_admits initial (run.mono _ fun _ _ keeps => keeps.1) up
  have arrivals := run_arrivals peer initial (run.mono _ fun _ _ keeps => keeps.2)
  have none_waits : ∀ {frames : List Packet},
      (∀ p ∈ frames, p ∈ (s.dev i).queue.packets ++ s.sim.flight (Event.receivedBy j)) →
        frames.filterMap (pfcQuanta prio) = [] :=
    fun sub => List.filterMap_eq_nil_iff.mpr fun p member => settled p (sub p member)
  have sent : (s.dev i).pfcLine.filterMap (pfcQuanta prio) =
      ((s.dev i).pfcSent.filter fun signal => decide (signal.prio = prio)).map PfcSignal.quanta := by
    rw [line, List.filterMap_map, ← List.filterMap_eq_map, List.filterMap_filter]
    refine List.filterMap_congr fun signal _ => ?_
    rw [Function.comp_apply, pfcQuanta_frame]
    simp
  rw [readings_quanta, ← sent, QbbNetDevice.pfcLine, filterMap_pfcQuanta, List.filterMap_append,
    none_waits fun p => List.mem_append_left _, List.append_nil, ← filterMap_pfcQuanta prio
      ((s.dev i).phyTxBegin.map (·.2)), arrivals, List.filterMap_append, filterMap_pfcQuanta,
    filterMap_pfcQuanta, none_waits fun p => List.mem_append_right _, List.append_nil]

/-- One end pauses a class just as long as the other is congested and the pause
time of its last XOFF has not run out. -/
theorem pause_mirrors_congestion {start : Net ι ν} {actions : List (Action ι ν)}
    (peer : cfg.peer i = some j) (initial : Net.Initial cfg start)
    (run : Net.RunWhere cfg (Net.KeepsPfc cfg i j) start actions s)
    (up : (start.dev i).linkUp = true) (prio : Fin 8) (settled : s.Settled i j prio) :
    (s.dev j).pausing s.sim.currentTs prio = true ↔
      (s.dev i).localCongested prio = true ∧ ∃ arrived ∈ (s.dev j).lastPfcRx prio,
        s.sim.currentTs < arrived + (cfg.attr j).quantaTime (cfg.attr i).defaultQuanta := by
  have reachable := run.reachable cfg initial
  have any_run : Net.Run cfg start actions s := run.mono _ fun _ _ _ => trivial
  have readings := run_readings peer initial run up settled
  have noted := (run_signals initial any_run up).2.localCongested prio
  have quanta := run_quanta initial any_run up
  have paused := pauseUntil_readings reachable j prio
  rw [pausing_eq reachable, decide_eq_true_eq, noted, QbbNetDevice.lastPfcRx]
  have last := congrArg List.getLast? readings
  rw [List.getLast?_map, List.getLast?_map] at last
  cases recent : ((s.dev j).readings prio).getLast? with
  | none =>
    rw [recent] at last
    have silent := (Option.map_eq_none_iff.mp last.symm)
    simp only [recent] at paused
    simp [silent, paused]
  | some reading =>
    obtain ⟨arrived, value⟩ := reading
    simp only [recent] at paused
    rw [recent, Option.map_some] at last
    obtain ⟨signal, final, same⟩ := Option.map_eq_some_iff.mp last.symm
    obtain rfl : signal.quanta = value := same
    have member := (List.mem_filter.mp (List.mem_of_getLast? final)).1
    rw [paused.2, final]
    cases xoff : signal.congests with
    | true =>
      have default := quanta signal member xoff
      simp [xoff, default]
    | false =>
      have zero : signal.quanta = 0 := by
        cases signal with
        | xoff => cases xoff
        | xon => rfl
      simp only [zero, (cfg.attr j).quantaTime_zero, Option.any_some, xoff, Bool.false_eq_true,
        false_and, iff_false]
      exact Nat.not_lt.mpr paused.1

end Net

/-- While the packet waits, the pause runs out. -/
theorem pause_lapsed :
    ∃ s, (Net.started stalledSwitch).run stalledSwitch (Net.KeepsPfc stalledSwitch 1 0)
        (stalledRun 9) = some s ∧
      stalledSwitch.peer 1 = some 0 ∧ s.Settled 1 0 0 ∧ (s.dev 1).localCongested 0 = true ∧
      (s.dev 0).pausing s.sim.currentTs 0 = false :=
  exists_of_any (by decide +kernel)

theorem pause_mirrors_congestion_stalled :
    ∃ s, (Net.started stalledSwitch).run stalledSwitch (Net.KeepsPfc stalledSwitch 1 0)
        (stalledRun 7) = some s ∧
      (s.dev 1).localCongested 0 = true ∧ (s.dev 0).pausing s.sim.currentTs 0 = true := by
  obtain ⟨s, ran, settled, congested, arrived, paused⟩ : ∃ s,
      (Net.started stalledSwitch).run stalledSwitch (Net.KeepsPfc stalledSwitch 1 0)
          (stalledRun 7) = some s ∧
        s.Settled 1 0 0 ∧ (s.dev 1).localCongested 0 = true ∧
          ∃ arrived ∈ (s.dev 0).lastPfcRx 0, s.sim.currentTs < arrived +
            (stalledSwitch.attr 0).quantaTime (stalledSwitch.attr 1).defaultQuanta :=
    exists_of_any (by decide +kernel)
  exact ⟨s, ran, congested, (pause_mirrors_congestion rfl (Net.started_initial _) (.of_run _ ran) rfl
    0 settled).mpr ⟨congested, arrived, paused⟩⟩

end QbbNet
