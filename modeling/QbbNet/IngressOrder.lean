import QbbNet.Delivery

set_option autoImplicit false

/- The ingress queues as the data frames that were received and not yet drained. -/
namespace QbbNet

open Simulator

/-- The data frames of a class that HandleMacRx has queued. -/
def ReceivingSide.dataRx (r : ReceivingSide) (prio : Fin 8) : List Packet :=
  (r.macRx.map (·.2)).filter fun p => !isPfcFrame p && decide (getPrioFromPacket p = prio)

/-- The packets of a class among packets with their classes. -/
def ofClass (prio : Fin 8) (packets : List (Fin 8 × Packet)) : List Packet :=
  (packets.filter fun packet => decide (packet.1 = prio)).map (·.2)

theorem ofClass_append (prio : Fin 8) (first second : List (Fin 8 × Packet)) :
    ofClass prio (first ++ second) = ofClass prio first ++ ofClass prio second := by
  simp [ofClass]

theorem ofClass_self (prio : Fin 8) (packets : List Packet) :
    ofClass prio (packets.map (prio, ·)) = packets := by
  simp [ofClass, List.filter_map, Function.comp_def]

theorem ofClass_other {prio other : Fin 8} (different : other ≠ prio) (packets : List Packet) :
    ofClass prio (packets.map (other, ·)) = [] := by
  simp [ofClass, List.filter_map, Function.comp_def, different]

section Net

variable {ι ν : Type} [DecidableEq ι] [DecidableEq ν] {cfg : Config ι ν} {i : ι} {s t : Net ι ν}
  {action : Action ι ν}

/-- The frame that DoIngressDrain takes out of an ingress queue, with its class. -/
def Net.drained (cfg : Config ι ν) (i : ι) (s : Net ι ν) (action : Action ι ν) :
    List (Fin 8 × Packet) :=
  match s.duty cfg i action with
  | some (.drainPop prio) => ((s.dev i).ingressQ prio).head?.toList.map (prio, ·)
  | _ => []

/-- What DoIngressDrain then calls Ipv4L3Protocol::Receive with. -/
def Net.handed (cfg : Config ι ν) (i : ι) (s : Net ι ν) (action : Action ι ν) :
    List (Fin 8 × Packet) :=
  match s.duty cfg i action with
  | some (.drainPop prio) => (s.hands cfg i (some (.drainPop prio))).map fun call => (prio, call.2)
  | _ => []

/-- Ipv4L3Protocol is aggregated to the node when a frame is taken out. -/
def Net.DrainsToIpv4 (cfg : Config ι ν) (i : ι) (s : Net ι ν) (action : Action ι ν) : Prop :=
  s.drained cfg i action ≠ [] → (s.node (cfg.node i)).ipv4 = true

instance (cfg : Config ι ν) (i : ι) (s : Net ι ν) (action : Action ι ν) :
    Decidable (s.DrainsToIpv4 cfg i action) := inferInstanceAs (Decidable (_ → _ = true))

/-- A step appends the frame that it receives and takes the one that it drains from the front. -/
theorem step_ingress (step : s.step cfg action = some t) (prio : Fin 8) {gone : List Packet}
    (before : (s.dev i).dataRx prio = gone ++ (s.dev i).ingressQ prio) :
    (t.dev i).dataRx prio =
      gone ++ ofClass prio (s.drained cfg i action) ++ (t.dev i).ingressQ prio := by
  have ⟨macRx, ingressQ, _⟩ := Net.step_received step i
  unfold Net.drained
  cases due : s.duty cfg i action with
  | none =>
    rw [due] at macRx ingressQ
    have same : (t.dev i).dataRx prio = (s.dev i).dataRx prio := by
      simp [ReceivingSide.dataRx, macRx]
    rw [same, before, ingressQ]
    simp [ofClass]
  | some duty =>
    rw [due] at macRx ingressQ
    cases duty with
    | tryDequeue | transmitComplete | resumeFromPause | refillMacQueueFromHold =>
      have same : (t.dev i).dataRx prio = (s.dev i).dataRx prio := by
        simp [ReceivingSide.dataRx, macRx, Duty.received]
      rw [same, before, ingressQ]
      simp [ofClass, Duty.queues]
    | handleMacRx p =>
      have more : (t.dev i).dataRx prio = (s.dev i).dataRx prio ++
          [p].filter fun p => !isPfcFrame p && decide (getPrioFromPacket p = prio) := by
        simp [ReceivingSide.dataRx, macRx, Duty.received]
      rw [more, before, ingressQ]
      by_cases control : isPfcFrame p = true
      · simp [ofClass, Duty.queues, control]
      · by_cases own : getPrioFromPacket p = prio
        · subst own
          simp [ofClass, Duty.queues, control]
        · simp [ofClass, Duty.queues, control, own, Ne.symm own]
    | drainPop other =>
      have same : (t.dev i).dataRx prio = (s.dev i).dataRx prio := by
        simp [ReceivingSide.dataRx, macRx, Duty.received]
      rw [same, before, ingressQ, List.append_assoc]
      congr 1
      by_cases own : other = prio
      · subst own
        simp only [ofClass_self, Option.elim_some, Duty.queues, Function.update_self]
        cases (s.dev i).ingressQ other with
        | nil => rfl
        | cons p rest => rfl
      · simp only [ofClass_other own, Option.elim_some, Duty.queues, Function.update_of_ne (Ne.symm own),
          List.nil_append]

omit [DecidableEq ν] in
/-- What the drain hands up is what it takes out, if there is an IPv4 layer. -/
theorem handed_eq (ipv4 : s.DrainsToIpv4 cfg i action) :
    s.handed cfg i action =
      (s.drained cfg i action).map fun packet => (packet.1, packet.2.handedUp) := by
  unfold Net.DrainsToIpv4 at ipv4
  unfold Net.handed Net.drained at *
  cases due : s.duty cfg i action with
  | none => rfl
  | some duty =>
    rw [due] at ipv4
    cases duty with
    | drainPop prio =>
      cases content : (s.dev i).ingressQ prio with
      | nil => simp [Net.hands, content]
      | cons p rest =>
        have there := ipv4 (by simp [content])
        simp [Net.hands, content, there]
    | _ => rfl

omit [DecidableEq ν] in
/-- The calls that the drain makes are the ones of its path. -/
theorem handed_path (s : Net ι ν) (action : Action ι ν) :
    ((s.hands cfg i (s.duty cfg i action)).filter (·.1 = .doIngressDrain)).map (·.2) =
      (s.handed cfg i action).map (·.2) := by
  unfold Net.handed
  cases s.duty cfg i action with
  | none => rfl
  | some duty =>
    cases duty with
    | drainPop prio =>
      simp only [Net.hands]
      cases (s.node (cfg.node i)).ipv4 with
      | true => simp [List.filter_map, Function.comp_def]
      | false => rfl
    | handleMacRx p =>
      simp only [Net.hands]
      cases (s.dev i).rxCallback with
      | l3Swallow => rfl
      | nonPromiscReceiveFromDevice => simp
    | _ => rfl

/-- In every run the frames of a class are drained in the order in which they were
received, and the others wait; what is drained is handed up while there is an
IPv4 layer. The one drain event is pending while anything waits. -/
theorem ingress_in_order {start : Net ι ν} {actions : List (Action ι ν)}
    (initial : Net.Initial cfg start) (run : Net.Run cfg start actions s) :
    (∀ prio, (s.dev i).dataRx prio =
      ofClass prio (start.collect cfg (Net.drained cfg i) actions) ++ (s.dev i).ingressQ prio) ∧
    ((s.dev i).ipv4Rx.filter (·.1 = .doIngressDrain)).map (·.2) =
      (start.collect cfg (Net.handed cfg i) actions).map (·.2) ∧
    (Net.RunWhere cfg (Net.DrainsToIpv4 cfg i) start actions s →
      ∀ prio, ofClass prio (start.collect cfg (Net.handed cfg i) actions) =
        (ofClass prio (start.collect cfg (Net.drained cfg i) actions)).map Packet.handedUp) ∧
    ((∃ prio, (s.dev i).ingressQ prio ≠ []) → s.sim.isExpired (s.dev i).ingressDrainEv = false) ∧
    ∀ e f, s.sim.Live e → s.sim.Live f → e.impl = .doIngressDrain i → f.impl = .doIngressDrain i →
      e = f := by
  have awake := Net.reachable_awake ⟨start, actions, initial, run⟩ i
  refine ⟨?_, ?_, ?_, ?_, ?_⟩
  · intro prio
    induction run with
    | nil =>
      have ⟨linkUp, stack, same⟩ := initial
      subst same
      rfl
    | snoc before _ step ih =>
      rw [before.collect_snoc cfg step, ofClass_append]
      exact step_ingress step prio (ih (Net.reachable_awake (before.reachable cfg initial) i))
  · clear awake
    induction run with
    | nil =>
      have ⟨linkUp, stack, same⟩ := initial
      subst same
      rfl
    | snoc before _ step ih =>
      rw [before.collect_snoc cfg step, step_ipv4Rx step, List.filter_append, List.map_append,
        List.map_append, ih, handed_path]
  · intro with_ipv4 prio
    clear awake run
    induction with_ipv4 with
    | nil => rfl
    | snoc before ipv4 step ih =>
      rw [before.collect_snoc cfg step, before.collect_snoc cfg step, ofClass_append, ofClass_append,
        ih, handed_eq ipv4, List.map_append]
      simp [ofClass, List.filter_map, Function.comp_def]
  · intro held
    obtain ⟨prio, waiting⟩ := held
    exact awake.ingress (by simp) prio waiting
  · intro e f live live' own own'
    have key : some e.key = some f.key :=
      ((awake.slots .drain).unique e live own).symm.trans ((awake.slots .drain).unique f live' own')
    exact eq_of_uid live.1 live'.1 (congrArg EventKey.uid (Option.some.inj key))

end Net

/-- Two packets of one class and one of another arrive, and two are drained. -/
def busyIngress : List (Action (Fin 1) Unit) :=
  [.installStack (), receiveData 0 0 0x00, receiveData 0 1 0x20, receiveData 0 2 0x00,
    .event .sink, .event .sink]

theorem ingress_in_order_busy :
    ∃ s, (Net.started shortQueue).run shortQueue (Net.DrainsToIpv4 shortQueue 0) busyIngress = some s ∧
      (∃ taken, (s.dev 0).dataRx 0 = taken ++ (s.dev 0).ingressQ 0 ∧
        ofClass 0 ((Net.started shortQueue).collect shortQueue (Net.handed shortQueue 0)
          busyIngress) = taken.map Packet.handedUp) ∧
      (s.dev 0).ingressQ 0 = [(Datagram.ipv4 (.transit 2) 0x00).frame] ∧
      s.sim.isExpired (s.dev 0).ingressDrainEv = false := by
  have ⟨s, ran, waiting⟩ : ∃ s,
      (Net.started shortQueue).run shortQueue (Net.DrainsToIpv4 shortQueue 0) busyIngress = some s ∧
        (s.dev 0).ingressQ 0 = [(Datagram.ipv4 (.transit 2) 0x00).frame] :=
    exists_of_any (by decide +kernel)
  have with_ipv4 := Net.RunWhere.of_run _ ran
  have ⟨received, _, handed, pending, _⟩ := ingress_in_order (i := 0)
    (Net.started_initial shortQueue) (with_ipv4.mono _ fun _ _ _ => trivial)
  refine ⟨s, ran, ⟨_, received 0, handed with_ipv4 0⟩, waiting, pending ⟨0, ?_⟩⟩
  rw [waiting]
  exact List.cons_ne_nil _ _

/-- A packet arrives at a node without the Internet stack. -/
def stacklessRun : List (Action (Fin 1) Unit) := [receiveData 0 0 0x00, .event .sink]

/-- It is taken out and is handed to nobody. -/
theorem ingress_lost :
    ∃ s, Net.Run shortQueue (.started shortQueue) stacklessRun s ∧
      ¬∃ taken, (s.dev 0).dataRx 0 = taken ++ (s.dev 0).ingressQ 0 ∧
        ofClass 0 ((Net.started shortQueue).collect shortQueue (Net.handed shortQueue 0)
          stacklessRun) = taken.map Packet.handedUp := by
  have ⟨s, ran, received, empty⟩ : ∃ s,
      (Net.started shortQueue).run shortQueue (fun _ _ => True) stacklessRun = some s ∧
        (s.dev 0).dataRx 0 = [(Datagram.ipv4 (.transit 0) 0x00).frame] ∧
        (s.dev 0).ingressQ 0 = [] := exists_of_any (by decide +kernel)
  have silent : (Net.started shortQueue).collect shortQueue (Net.handed shortQueue 0) stacklessRun =
      [] := by decide +kernel
  refine ⟨s, .of_run _ ran, ?_⟩
  intro ⟨taken, all, handed⟩
  rw [received, empty, List.append_nil] at all
  rw [silent, ← all] at handed
  cases handed

end QbbNet
