import QbbNet.ArbiterProgress

set_option autoImplicit false

/- Which devices are registered for an egress port, and which have packets for it. -/
namespace QbbNet

variable {ι ν : Type} [DecidableEq ι] [DecidableEq ν]

section Definitions

variable (cfg : Config ι ν) (route : ν → Packet → Nat)

/-- The device has a packet for the port in its ingress queues. -/
def Net.Offers (s : Net ι ν) (i : ι) (port : Nat) : Prop :=
  ∃ prio, ∃ p ∈ (s.dev i).ingressQ prio, route (cfg.node i) p = port

/-- Every device that is registered for a port has a packet for it. -/
def Net.Accurate (s : Net ι ν) : Prop :=
  ∀ v port ingress, ingress ∈ ((s.mgr v).arbiters port).activeIngressPorts →
    ∃ i, cfg.node i = v ∧ cfg.ifIndex i = ingress ∧ s.Offers cfg route i port

/-- A device that drains is told the port that its node's routes have for the packet. -/
def Net.Routed (s : Net ι ν) : Action ι ν → Prop
  | .event up => ∀ i sim, s.sim.processOneEvent = some (some (.doIngressDrain i), sim) →
      up.egressPort = route (cfg.node i)
  | _ => True

/-- The branch of DoIngressDrain that leaves a registration behind: a token is granted
for a packet that is not alone in its class queue, and what is left in all the
queues is for other ports. -/
def Net.Strands (s : Net ι ν) (action : Action ι ν) : Prop :=
  ∃ poll ∈ s.poll action, poll.2 ≠ kInvalidPortId ∧
    ∃ prio, s.duty cfg poll.1 action = some (.drainPop prio) ∧
      ((s.dev poll.1).ingressQ prio).length ≠ 1 ∧
      ∀ other, ∀ q ∈ (Duty.drainPop prio).queues (s.dev poll.1).ingressQ other,
        route (cfg.node poll.1) q ≠ poll.2

instance (s : Net ι ν) (action : Action ι ν) : Decidable (s.Strands cfg route action) :=
  inferInstanceAs (Decidable (∃ poll ∈ s.poll action, _ ∧ _))

end Definitions

variable {cfg : Config ι ν} {route : ν → Packet → Nat} {s t : Net ι ν} {action : Action ι ν}
  {i : ι} {port : Nat}

omit [DecidableEq ι] [DecidableEq ν] in
theorem askedMgr_active {h : Host ι} (prio : Fin 8) :
    ((askedMgr cfg i port prio h).arbiters port).activeIngressPorts =
      if (h.mgr.ask h.now port (cfg.ifIndex i)).1 = true ∧ (h.dev.ingressQ prio).length = 1 then
        (h.mgr.asking port (cfg.ifIndex i)).erase (cfg.ifIndex i)
      else h.mgr.asking port (cfg.ifIndex i) := by
  unfold askedMgr
  simp only [Bool.and_eq_true, decide_eq_true_eq]
  split
  · rw [EgressTokenManager.unregisterDemand_active, EgressTokenManager.ask_active]
  · rw [EgressTokenManager.ask_active]

/-- Nothing but a poll for the port changes who is registered for it. -/
theorem step_arbiters (step : s.step cfg action = some t) {v : ν}
    (unasked : ∀ i, s.poll action = some (i, port) → cfg.node i = v → port = kInvalidPortId) :
    (t.mgr v).arbiters port = (s.mgr v).arbiters port := by
  cases step_managed step v with
  | asked i egress asks own valid _ _ _ others _ =>
    refine others port ?_
    rintro rfl
    exact valid (unasked i asks own)
  | ensured i p _ _ _ _ registers => rw [registers, (registerPorts_registers cfg i _ _).1.arbiters]
  | idle _ _ same => rw [same]

/-- Device `i` asks for a token of the port for the first packet of a class. It stays
registered, unless it is granted one and the packet is alone in its class queue. -/
structure Demanded (cfg : Config ι ν) (i : ι) (port : Nat) (s t : Net ι ν)
    (duty : ι → Option Duty) (prio : Fin 8) (p : Packet) (rest : List Packet) (granted : Bool) :
    Prop where
  content : (s.dev i).ingressQ prio = p :: rest
  duty : ∀ j, duty j = if i = j ∧ granted = true then some (.drainPop prio) else none
  active : port ≠ kInvalidPortId → ((t.mgr (cfg.node i)).arbiters port).activeIngressPorts =
    if granted = true ∧ rest = [] then
      ((s.mgr (cfg.node i)).asking port (cfg.ifIndex i)).erase (cfg.ifIndex i)
    else (s.mgr (cfg.node i)).asking port (cfg.ifIndex i)

variable (cfg s) in
theorem doIngressDrain_demanded {j : ι} {up : Upcall ι}
    (asks : s.eventPoll up (.doIngressDrain j) = some (i, port)) :
    j = i ∧ ∃ prio p rest granted, up.egressPort p = port ∧
      Demanded cfg i port s (s.doIngressDrain cfg j up)
        (fun k => s.eventDuty cfg k up (.doIngressDrain j)) prio p rest granted := by
  have answered {prio : Fin 8} {p : Packet} {rest : List Packet} {granted : Bool}
      (picked : ingressPick (s.dev j) = some prio) (content : (s.dev j).ingressQ prio = p :: rest)
      (answer : (drainToken cfg j (up.egressPort p) prio (s.host cfg j)).1 = granted)
      (due : s.drains cfg j up = if granted = true then some prio else none) :
      j = i ∧ up.egressPort p = port ∧ Demanded cfg i port s (s.doIngressDrain cfg j up)
        (fun k => s.eventDuty cfg k up (.doIngressDrain j)) prio p rest granted := by
    obtain ⟨rfl, rfl⟩ : j = i ∧ up.egressPort p = port := by
      simpa [Net.eventPoll, picked, content] using asks
    refine ⟨rfl, rfl, content, fun k => ?_, fun valid => ?_⟩
    · rw [Net.eventDuty]
      by_cases same : j = k
      · subst same
        rw [if_pos rfl, due]
        cases granted <;> simp
      · rw [if_neg same, if_neg fun both => same both.1]
    · obtain ⟨asked, left⟩ := drainToken_ask cfg j (s.host cfg j) valid prio
      have alone : ((s.host cfg j).dev.ingressQ prio).length = 1 ↔ rest = [] := by
        rw [Net.host_dev, content]
        simp
      rw [doIngressDrain_mgr up picked content]
      change ((Function.update s.mgr (cfg.node j) _ (cfg.node j)).arbiters _).activeIngressPorts = _
      rw [Function.update_self, left, askedMgr_active, ← asked, answer]
      simp only [alone]
      rfl
  rcases s.doIngressDrain_cases cfg j up with
    ⟨idle, -, -⟩ | ⟨prio, p, rest, picked, content, ⟨refused, due, -⟩ | ⟨granted, due, -⟩⟩
  · simp [Net.eventPoll, idle] at asks
  · obtain ⟨own, egress, demanded⟩ := answered picked content refused due
    exact ⟨own, prio, p, rest, false, egress, demanded⟩
  · obtain ⟨own, egress, demanded⟩ := answered picked content granted due
    exact ⟨own, prio, p, rest, true, egress, demanded⟩

theorem step_demanded (step : s.step cfg action = some t) (routed : s.Routed cfg route action)
    (asks : s.poll action = some (i, port)) :
    ∃ prio p rest granted, route (cfg.node i) p = port ∧
      Demanded cfg i port s t (fun j => s.duty cfg j action) prio p rest granted := by
  cases Net.step_to cfg step with
  | skip up popped => simp [Net.poll, popped] at asks
  | elapse | send | deliver | installStack | addInterface | aggregate => cases asks
  | @event up event sim popped =>
    simp only [Net.poll, popped] at asks
    cases event with
    | tryDequeue | resumeFromPause | refillMacQueueFromHold | transmitComplete | receive
      | hookL3Divert => cases asks
    | doIngressDrain j =>
      obtain ⟨rfl, prio, p, rest, granted, egress, demanded⟩ :=
        doIngressDrain_demanded cfg { s with sim } asks
      refine ⟨prio, p, rest, granted, ?_, demanded.content, fun k => ?_, demanded.active⟩
      · rw [← routed j sim popped, egress]
      · simpa only [Net.duty, popped] using demanded.duty k

variable (route) in
/-- A device's packets change with its duty alone. -/
theorem step_offers (step : s.step cfg action = some t) (i : ι) (port : Nat) :
    t.Offers cfg route i port ↔ ∃ prio, ∃ p ∈ (s.duty cfg i action).elim (s.dev i).ingressQ
      (fun duty => duty.queues (s.dev i).ingressQ) prio, route (cfg.node i) p = port := by
  unfold Net.Offers
  rw [(Net.step_received step i).2.1]

/-- Without a drain a device keeps the packets it has. -/
theorem Net.Offers.kept (offers : s.Offers cfg route i port) (step : s.step cfg action = some t)
    (undrained : ∀ prio, s.duty cfg i action ≠ some (.drainPop prio)) :
    t.Offers cfg route i port := by
  obtain ⟨prio, p, member, routed⟩ := offers
  refine (step_offers route step i port).mpr ⟨prio, p, ?_, routed⟩
  cases due : s.duty cfg i action with
  | none => exact member
  | some duty =>
    cases duty with
    | drainPop drained => exact absurd due (undrained drained)
    | handleMacRx q =>
      rw [Option.elim_some, Duty.queues]
      split
      · exact member
      · by_cases same : prio = getPrioFromPacket q
        · subst same
          rw [Function.update_self]
          exact List.mem_append_left _ member
        · rwa [Function.update_of_ne same]
    | tryDequeue | transmitComplete | resumeFromPause | refillMacQueueFromHold => exact member

omit [DecidableEq ν] in
/-- A device that drains has polled. -/
theorem poll_of_drainPop {prio : Fin 8} (due : s.duty cfg i action = some (.drainPop prio)) :
    ∃ port, s.poll action = some (i, port) := by
  cases action with
  | event up =>
    simp only [Net.duty] at due
    split at due
    · rename_i event sim popped
      cases event with
      | doIngressDrain j =>
        rw [Net.eventDuty] at due
        split at due
        · rename_i same
          subst same
          obtain ⟨drained, drains, -⟩ := Option.map_eq_some_iff.mp due
          obtain ⟨picked, -⟩ := Option.filter_eq_some_iff.mp drains
          obtain ⟨p, rest, content⟩ := ingressPick_some picked
          have first : ingressPick (s.dev j) = some drained := picked
          have head : (s.dev j).ingressQ drained = p :: rest := content
          exact ⟨up.egressPort p, by simp [Net.poll, popped, Net.eventPoll, first, head]⟩
        · cases due
      | hookL3Divert => cases due
      | tryDequeue | resumeFromPause | refillMacQueueFromHold | transmitComplete | receive =>
        rw [Net.eventDuty] at due
        split at due
        · cases due
        · cases due
    · cases due
  | deliver j p corrupt =>
    rw [Net.duty] at due
    split at due
    · cases due
    · cases due
  | elapse | send | installStack | addInterface | aggregate => cases due

section Step

variable {prio : Fin 8} {p : Packet} {rest : List Packet} {granted : Bool}

/-- What a device has for a port, it keeps, unless it has just taken out a packet for it. -/
theorem Demanded.offers_kept
    (demanded : Demanded cfg i port s t (fun j => s.duty cfg j action) prio p rest granted)
    (step : s.step cfg action = some t) (routes : route (cfg.node i) p = port) {j : ι}
    {other : Nat} (offers : s.Offers cfg route j other)
    (spared : j = i → granted = true → other ≠ port) : t.Offers cfg route j other := by
  by_cases drained : i = j ∧ granted = true
  · obtain ⟨rfl, taken⟩ := drained
    obtain ⟨waiting, q, member, routed⟩ := offers
    refine (step_offers route step i other).mpr ⟨waiting, q, ?_, routed⟩
    rw [demanded.duty, if_pos ⟨rfl, taken⟩, Option.elim_some, Duty.queues]
    by_cases same : waiting = prio
    · subst same
      rw [Function.update_self, demanded.content, List.tail_cons]
      rw [demanded.content] at member
      rcases List.mem_cons.mp member with rfl | left
      · exact absurd (routed.symm.trans routes) (spared rfl taken)
      · exact left
    · rwa [Function.update_of_ne same]
  · refine offers.kept step fun other_prio due => ?_
    rw [demanded.duty, if_neg drained] at due
    cases due

/-- A step strands a demand if a granted packet was not alone and none for its port is left. -/
theorem Demanded.strands_iff
    (demanded : Demanded cfg i port s t (fun j => s.duty cfg j action) prio p rest granted)
    (step : s.step cfg action = some t) (asks : s.poll action = some (i, port)) :
    s.Strands cfg route action ↔ (port ≠ kInvalidPortId ∧ granted = true ∧ rest ≠ []) ∧
      ¬ t.Offers cfg route i port := by
  have alone : ((s.dev i).ingressQ prio).length ≠ 1 ↔ rest ≠ [] := by
    rw [demanded.content]
    simp
  have offers := step_offers route step i port
  rw [demanded.duty] at offers
  unfold Net.Strands
  rw [asks]
  constructor
  · rintro ⟨poll, same, valid, drained, due, more, others⟩
    obtain rfl : (i, port) = poll := Option.some.inj same
    rw [demanded.duty] at due
    split at due
    · rename_i both
      obtain rfl : prio = drained := by simpa using due
      rw [if_pos both, Option.elim_some] at offers
      refine ⟨⟨valid, both.2, alone.mp more⟩, fun offering => ?_⟩
      obtain ⟨other, q, member, routed⟩ := offers.mp offering
      exact others other q member routed
    · cases due
  · rintro ⟨⟨valid, taken, more⟩, unoffered⟩
    rw [if_pos ⟨rfl, taken⟩, Option.elim_some] at offers
    refine ⟨(i, port), rfl, valid, prio, ?_, alone.mpr more, fun other q member routed => ?_⟩
    · rw [demanded.duty, if_pos ⟨rfl, taken⟩]
    · exact unoffered (offers.mpr ⟨other, q, member, routed⟩)

end Step

/-- Nobody registers for the port that stands for none. -/
def Net.Valid (s : Net ι ν) : Prop :=
  ∀ v, ((s.mgr v).arbiters kInvalidPortId).activeIngressPorts = ∅

theorem Net.Valid.step (valid : s.Valid) (step : s.step cfg action = some t) : t.Valid := by
  intro v
  rw [step_arbiters step fun _ _ _ => rfl]
  exact valid v

theorem Net.reachable_valid (reachable : Net.Reachable cfg s) : s.Valid := by
  obtain ⟨start, actions, initial, run⟩ := reachable
  induction run with
  | nil =>
    obtain ⟨linkUp, stack, rfl⟩ := initial
    exact fun v => rfl
  | snoc _ _ step ih => exact ih.step step

/-- Without a poll nothing is registered and nothing is taken out. -/
theorem Net.Accurate.unpolled (accurate : s.Accurate cfg route)
    (step : s.step cfg action = some t) (unasked : s.poll action = none) :
    t.Accurate cfg route := by
  intro v port ingress registered
  rw [step_arbiters step (by simp [unasked])] at registered
  obtain ⟨i, own, index, offers⟩ := accurate v port ingress registered
  refine ⟨i, own, index, offers.kept step fun prio due => ?_⟩
  obtain ⟨polled, poll⟩ := poll_of_drainPop due
  rw [unasked] at poll
  cases poll

/-- After a poll the registrations are accurate if the device that stays registered with
its packet gone has another one for the port. -/
theorem Demanded.accurate {prio : Fin 8} {p : Packet} {rest : List Packet} {granted : Bool}
    (demanded : Demanded cfg i port s t (fun j => s.duty cfg j action) prio p rest granted)
    (accurate : s.Accurate cfg route) (valid : s.Valid) (step : s.step cfg action = some t)
    (asks : s.poll action = some (i, port)) (routes : route (cfg.node i) p = port)
    (left : port ≠ kInvalidPortId → granted = true → rest ≠ [] → t.Offers cfg route i port) :
    t.Accurate cfg route := by
  intro v other ingress registered
  by_cases here : cfg.node i = v ∧ other = port ∧ port ≠ kInvalidPortId
  · obtain ⟨rfl, rfl, real⟩ := here
    rw [demanded.active real] at registered
    by_cases own : ingress = cfg.ifIndex i
    · -- the device that has polled is still registered
      subst own
      refine ⟨i, rfl, rfl, ?_⟩
      by_cases taken : granted = true
      · refine left real taken fun alone => ?_
        rw [if_pos ⟨taken, alone⟩] at registered
        exact absurd rfl (Finset.mem_erase.mp registered).1
      · have offered : s.Offers cfg route i other := ⟨prio, p, by simp [demanded.content], routes⟩
        exact demanded.offers_kept step routes offered fun _ granted => absurd granted taken
    · have before : ingress ∈ ((s.mgr (cfg.node i)).arbiters other).activeIngressPorts := by
        split at registered
        · exact Finset.mem_of_mem_insert_of_ne (Finset.mem_erase.mp registered).2 own
        · exact Finset.mem_of_mem_insert_of_ne registered own
      obtain ⟨j, same, index, offers⟩ := accurate _ _ _ before
      refine ⟨j, same, index, demanded.offers_kept step routes offers ?_⟩
      rintro rfl
      exact absurd index.symm own
  · have untouched : (t.mgr v).arbiters other = (s.mgr v).arbiters other := by
      refine step_arbiters step fun j polled own => ?_
      obtain ⟨rfl, rfl⟩ : i = j ∧ port = other := by simpa [asks] using polled
      by_contra invalid
      exact here ⟨own, rfl, invalid⟩
    rw [untouched] at registered
    obtain ⟨j, own, index, offers⟩ := accurate _ _ _ registered
    refine ⟨j, own, index, demanded.offers_kept step routes offers ?_⟩
    rintro rfl - rfl
    -- a packet for no port was taken out
    obtain rfl : other = kInvalidPortId := by
      by_contra real
      exact here ⟨own, rfl, real⟩
    rw [valid v] at registered
    exact absurd registered (Finset.notMem_empty _)

/-- A step keeps the registrations accurate exactly if it strands none. -/
theorem Net.Accurate.step (accurate : s.Accurate cfg route) (valid : s.Valid)
    (routed : s.Routed cfg route action) (step : s.step cfg action = some t) :
    t.Accurate cfg route ↔ ¬ s.Strands cfg route action := by
  cases asks : s.poll action with
  | none =>
    refine iff_of_true (accurate.unpolled step asks) ?_
    rintro ⟨poll, same, -⟩
    rw [asks] at same
    cases same
  | some poll =>
    obtain ⟨i, port⟩ := poll
    obtain ⟨prio, p, rest, granted, routes, demanded⟩ := step_demanded step routed asks
    rw [demanded.strands_iff step asks, not_and_not_right]
    constructor
    · rintro accurate' ⟨real, taken, more⟩
      have registered : cfg.ifIndex i ∈
          ((t.mgr (cfg.node i)).arbiters port).activeIngressPorts := by
        rw [demanded.active real, if_neg fun both => more both.2]
        exact Finset.mem_insert_self ..
      obtain ⟨j, own, index, offers⟩ := accurate' _ _ _ registered
      exact cfg.ifIndex_injective j i own index ▸ offers
    · intro left
      exact demanded.accurate accurate valid step asks routes fun real taken more =>
        left ⟨real, taken, more⟩

omit [DecidableEq ι] [DecidableEq ν] in
/-- At the start nobody is registered. -/
theorem Net.Initial.accurate (initial : Net.Initial cfg s) : s.Accurate cfg route := by
  obtain ⟨linkUp, stack, rfl⟩ := initial
  intro v port ingress registered
  exact absurd registered (Finset.notMem_empty _)

/-- A run goes through states with accurate registrations only, if and only if no
step of it strands one. -/
theorem demands_accurate {start last : Net ι ν} {actions : List (Action ι ν)}
    (initial : Net.Initial cfg start) :
    (Net.RunWhere cfg (fun s action => s.Routed cfg route action ∧ s.Accurate cfg route)
        start actions last ∧ last.Accurate cfg route) ↔
      Net.RunWhere cfg (fun s action => s.Routed cfg route action ∧ ¬ s.Strands cfg route action)
        start actions last := by
  constructor
  · rintro ⟨run, final⟩
    induction run with
    | nil => exact .nil
    | snoc before allowed step ih =>
      have valid := Net.reachable_valid (before.reachable cfg initial)
      exact (ih allowed.2).snoc ⟨allowed.1, (allowed.2.step valid allowed.1 step).mp final⟩ step
  · intro run
    induction run with
    | nil => exact ⟨.nil, initial.accurate⟩
    | snoc before allowed step ih =>
      obtain ⟨accurate, mid⟩ := ih
      have valid := Net.reachable_valid (before.reachable cfg initial)
      exact ⟨accurate.snoc ⟨allowed.1, mid⟩ step, (mid.step valid allowed.1 step).mpr allowed.2⟩

/-- Packets in transit leave the switch through port 3. -/
def transitRoute (_ : Fin 2) : Packet → Nat := (Upcall.through 3 : Upcall (Fin 4)).egressPort

/-- Two packets in transit arrive, and one of them is drained. -/
def pairedRun : List (Action (Fin 4) (Fin 2)) :=
  [.deliver 2 (Datagram.ipv4 (.transit 0) 0x00).frame false,
    .deliver 2 (Datagram.ipv4 (.transit 1) 0x00).frame false, .event (.through 3)]

theorem demands_accurate_paired :
    ∃ s, (Net.started stalledSwitch).run stalledSwitch
        (fun s action => ¬ s.Strands stalledSwitch transitRoute action) pairedRun = some s ∧
      ((s.mgr 1).arbiters 3).activeIngressPorts = {1} ∧ s.Accurate stalledSwitch transitRoute := by
  obtain ⟨s, ran, registered⟩ : ∃ s, (Net.started stalledSwitch).run stalledSwitch
      (fun s action => ¬ s.Strands stalledSwitch transitRoute action) pairedRun = some s ∧
        ((s.mgr 1).arbiters 3).activeIngressPorts = {1} :=
    exists_of_any (by decide +kernel)
  have arrivals : ∀ action ∈ pairedRun, ∀ s : Net (Fin 4) (Fin 2),
      s.Routed stalledSwitch transitRoute action := by
    intro action member s
    rw [pairedRun, List.mem_cons, List.mem_cons, List.mem_singleton] at member
    rcases member with rfl | rfl | rfl
    · exact True.intro
    · exact True.intro
    · exact fun i sim _ => rfl
  have run := (Net.RunWhere.of_run _ ran).and_forall _ arrivals
  exact ⟨s, ran, registered, ((demands_accurate (Net.started_initial _)).mpr run).2⟩

/-- A packet in transit arrives, then one of the same class for the switch itself,
and both are drained. -/
def staleRun : List (Action (Fin 4) (Fin 2)) :=
  [.deliver 2 (Datagram.ipv4 (.transit 0) 0x00).frame false,
    .deliver 2 (Datagram.ipv4 (.host 1) 0x00).frame false,
    .event (.through 3), .event (.through 3)]

/-- Device 2 is registered for port 3 and has no packet at all. -/
theorem demands_stale :
    ∃ s, Net.RunWhere stalledSwitch (fun s action => s.Routed stalledSwitch transitRoute action)
        (Net.started stalledSwitch) staleRun s ∧
      stalledSwitch.ifIndex 2 ∈ ((s.mgr 1).arbiters 3).activeIngressPorts ∧
      (∀ prio, (s.dev 2).ingressQ prio = []) ∧ ¬ s.Accurate stalledSwitch transitRoute := by
  obtain ⟨s, ran, registered, empty⟩ : ∃ s, (Net.started stalledSwitch).run stalledSwitch
      (fun _ _ => True) staleRun = some s ∧
        stalledSwitch.ifIndex 2 ∈ ((s.mgr 1).arbiters 3).activeIngressPorts ∧
        ∀ prio, (s.dev 2).ingressQ prio = [] :=
    exists_of_any (by decide +kernel)
  have arrivals : ∀ action ∈ staleRun, ∀ s : Net (Fin 4) (Fin 2),
      s.Routed stalledSwitch transitRoute action := by
    intro action member s
    rw [staleRun, List.mem_cons, List.mem_cons, List.mem_cons, List.mem_singleton] at member
    rcases member with rfl | rfl | rfl | rfl
    · exact True.intro
    · exact True.intro
    · exact fun i sim _ => rfl
    · exact fun i sim _ => rfl
  have run := (Net.RunWhere.of_run _ ran).and_forall _ arrivals
  refine ⟨s, run.mono _ fun _ _ both => both.1, registered, empty, fun accurate => ?_⟩
  obtain ⟨i, own, index, prio, p, waiting, -⟩ := accurate 1 3 _ registered
  obtain rfl : i = 2 := stalledSwitch.ifIndex_injective i 2 own index
  rw [empty prio] at waiting
  exact absurd waiting List.not_mem_nil

end QbbNet
