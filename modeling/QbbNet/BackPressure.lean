import QbbNet.PortBudget
import QbbNet.SimulatorAgenda

set_option autoImplicit false

/- How far packets in transit can pile up in the device they leave through. -/
namespace QbbNet

open Simulator

/-- If device `e` is only handed what an ingress drain of its node forwards, one Send for
each poll, the packets in transit that wait in a class of it are within the burst and the
rate of its bucket, whose level is in exact rationals. A datagram that is longer than the
device's MTU takes several Sends for one token and is not such a forward. -/
theorem back_pressure {ι ν : Type} [DecidableEq ι] [DecidableEq ν] {cfg : Config ι ν} {e : ι}
    {start s : Net ι ν} {actions : List (Action ι ν)} (initial : Net.Initial cfg start)
    (valid : cfg.ifIndex e ≠ kInvalidPortId)
    (run : Net.RunWhere cfg (Net.ForwardsDrained cfg e) start actions s) (prio : Fin 8) :
    match (s.mgr (cfg.node e)).buckets (cfg.ifIndex e) with
    | none => (s.dev e).forwardedWaiting prio = 0
    | some b => ((s.dev e).forwardedWaiting prio : ℚ) ≤
        b.capacity + max b.pps 0 * TokenBucket.elapsedSeconds 0 s.sim.currentTs := by
  have reachable := run.reachable cfg initial
  have budget := run_budget initial valid run
  have waiting := forwardedWaiting_le reachable e prio
  unfold Net.InBudget at budget
  split
  · rename_i absent
    rw [absent] at budget
    exact Nat.le_zero.mp (budget ▸ waiting)
  · rename_i b bucket
    rw [bucket] at budget
    have level : 0 ≤ b.level s.sim.currentTs :=
      ((Net.reachable_tokens reachable).sound _ _ b bucket).refill.nonneg
    have waiting' : ((s.dev e).forwardedWaiting prio : ℚ) ≤ (s.dev e).entered := by
      exact_mod_cast waiting
    dsimp only at budget
    linarith

/-- Two devices of one node, with the defaults of the source at 100 Mb/s. -/
def forwarder : Config (Fin 2) Unit := .switch 2 fun _ => .default 100000000

/-- The packet that was drained leaves through device 1. -/
def Upcall.forwards (uid : Nat) : Upcall (Fin 2) :=
  { (Upcall.through 1 : Upcall (Fin 2)) with sends := [(1, .ipv4 (.transit uid) 0x00)] }

/-- The stack is installed, with an address on both devices; what an aggregated
object brings about leaves device 0's packets to its ingress drain. -/
def hookedRun : List (Action (Fin 2) Unit) :=
  [.installStack (), .addInterface 0, .addInterface 1, .aggregate 0, .aggregate 1,
    .event .sink, .event .sink, .event .sink, .event .sink]

/-- Device 1 is told to pause class 0 after the ports have been registered. -/
def pausedRun : List (Action (Fin 2) Unit) :=
  hookedRun ++ [.deliver 0 (Datagram.ipv4 (.host 0) 0x00).frame false, .event .sink, .event .sink,
    .deliver 1 (pfcFrame 0 65535) false, .event .sink]

/-- A run from the start, in which packets in transit enter device 1 as they are drained. -/
def Net.Ran (s : Net (Fin 2) Unit) : Prop :=
  ∃ actions, Net.RunWhere forwarder (Net.ForwardsDrained forwarder 1) (.started forwarder) actions s

theorem Net.Ran.unsent {s t : Net (Fin 2) Unit} {action : Action (Fin 2) Unit} (ran : s.Ran)
    (unsent : s.sent forwarder 1 action = []) (step : s.step forwarder action = some t) : t.Ran := by
  obtain ⟨actions, ran⟩ := ran
  have allowed : s.ForwardsDrained forwarder 1 action := by simp [Net.ForwardsDrained, unsent]
  exact ⟨_, ran.snoc allowed step⟩

theorem back_pressure_paused :
    ∃ s, (Net.started forwarder).run forwarder (Net.ForwardsDrained forwarder 1) (pausedRun ++
        [.deliver 0 (Datagram.ipv4 (.transit 1) 0x00).frame false, .event (.forwards 1)]) = some s ∧
      (s.dev 1).forwardedWaiting 0 = 1 ∧ ∃ b ∈ (s.mgr ()).buckets 1, ((1 : Nat) : ℚ) ≤
        b.capacity + max b.pps 0 * TokenBucket.elapsedSeconds 0 s.sim.currentTs := by
  obtain ⟨s, ran, waiting, b, bucket⟩ : ∃ s,
      (Net.started forwarder).run forwarder (Net.ForwardsDrained forwarder 1) (pausedRun ++
          [.deliver 0 (Datagram.ipv4 (.transit 1) 0x00).frame false, .event (.forwards 1)]) = some s ∧
        (s.dev 1).forwardedWaiting 0 = 1 ∧ ∃ b, (s.mgr ()).buckets 1 = some b := by
    have computed : ((Net.started forwarder).run forwarder (Net.ForwardsDrained forwarder 1) (pausedRun ++
        [.deliver 0 (Datagram.ipv4 (.transit 1) 0x00).frame false, .event (.forwards 1)])).any (fun s =>
          decide ((s.dev 1).forwardedWaiting 0 = 1 ∧ ((s.mgr ()).buckets 1).isSome = true)) = true := by
      decide +kernel
    obtain ⟨s, ran, waiting, present⟩ := exists_of_any computed
    exact ⟨s, ran, waiting, Option.isSome_iff_exists.mp present⟩
  have bound := back_pressure (e := 1) (Net.started_initial forwarder) (by decide) (.of_run _ ran) 0
  rw [show (s.mgr (forwarder.node 1)).buckets (forwarder.ifIndex 1) = some b from bucket, waiting] at bound
  exact ⟨s, ran, waiting, b, bucket, bound⟩

/-- In the course of a round: device 1 pauses class 0 until its one timer ends
the pause, at least `n` packets in transit wait in its class queue, `waiting` is
to be drained at device 0, and port 1 has `tokens`. -/
structure Net.Backed (n : Nat) (waiting : List Packet) (tokens : ℚ)
    (due : List (Option (Event (Fin 2)))) (s : Net (Fin 2) Unit) : Prop where
  ran : s.Ran
  ipv4 : (s.node ()).ipv4 = true
  rxCallback : ∀ i, (s.dev i).rxCallback = .l3Swallow
  tokenMgr : (s.dev 0).tokenMgr = true
  ingressQ : (s.dev 0).ingressQ = Function.update (fun _ => []) 0 waiting
  rxOccPkts : (s.dev 0).rxOccPkts 0 = waiting.length
  localCongested : (s.dev 0).localCongested 0 = false
  backlog : n ≤ ((s.dev 1).txq 0).countP (·.packet.forwarded)
  others : ∀ prio ≠ 0, (s.dev 1).txq prio = []
  queue : (s.dev 1).queue.packets = []
  paused : (s.dev 1).paused 0 = true
  until_ : (s.dev 1).pauseUntil 0 = s.sim.currentTs + 335539200
  agenda : ∃ uid, s.sim.Agenda due [⟨⟨(s.dev 1).pauseUntil 0, uid⟩, .resumeFromPause 1 0⟩]
  bucket : ∃ b, (s.mgr ()).buckets 1 = some b ∧ b.pps = 25000 / 3 ∧ b.capacity = 8 ∧
    tokens ≤ b.level s.sim.currentTs
  arbiter : ((s.mgr ()).arbiters 1).activeIngressPorts ⊆ {0}

/-- A received packet that the callback swallows. -/
theorem receive_swallowed {ι ν : Type} [DecidableEq ι] [DecidableEq ν] {cfg : Config ι ν} {s : Net ι ν}
    {i : ι} (swallows : (s.dev i).rxCallback = .l3Swallow) (p : Packet) :
    s.receive cfg i p false = s.on cfg i (handleMacRx cfg i p) := by
  have kept : ((s.on cfg i (handleMacRx cfg i p)).dev i).rxCallback = .l3Swallow := by
    rw [Net.on_dev_self, handleMacRx_rxCallback, Net.host_dev, swallows]
  simp [Net.receive, kept]

/-- A pause of class 0 that finds the MAC queue empty, its timer running and nothing to send. -/
theorem handleMacRx_xoff {ι ν : Type} (cfg : Config ι ν) (i : ι) {quanta : UInt16} (nonzero : quanta ≠ 0)
    {h : Host ι} (empty : h.dev.queue.packets = [])
    (running : h.sim.isExpired (h.dev.refillEvent 0) = false)
    (free : h.sim.isExpired h.dev.txEvent = true) :
    let armed := (h.sim.cancel (h.dev.refillEvent 0)).schedule ((cfg.attr i).quantaTime quanta)
      (.resumeFromPause i 0)
    let woken := armed.2.schedule 0 (.tryDequeue i)
    ∃ q held, q.packets = [] ∧ handleMacRx cfg i (pfcFrame 0 quanta) h =
      { h with
        sim := woken.2
        dev := { h.dev with
          macRx := h.dev.macRx ++ [(h.now, pfcFrame 0 quanta)]
          queue := q
          macHold := held
          pfcRxXoff := Function.update h.dev.pfcRxXoff 0 (h.dev.pfcRxXoff 0 + 1)
          paused := Function.update h.dev.paused 0 true
          pauseUntil := Function.update h.dev.pauseUntil 0 (h.now + (cfg.attr i).quantaTime quanta)
          refillEvent := Function.update h.dev.refillEvent 0 armed.1
          txEvent := woken.1 } } := by
  have others (h : Host ι) (prio : Fin 8) (other : prio ≠ 0) :
      handlePfcClass cfg i (.single 0 quanta) h prio = h :=
    if_pos (by simp [PfcHeader.enables_single, other.symm])
  have only (h : Host ι) : classes.foldl (handlePfcClass cfg i (.single 0 quanta)) h =
      handlePfcClass cfg i (.single 0 quanta) h 0 := by
    simp [classes, others]
  obtain ⟨q, -, kept, purged⟩ := purgeMacQueueForPrio_eq 0
    { h.dev with
      macRx := h.dev.macRx ++ [(h.now, pfcFrame 0 quanta)]
      pfcRxXoff := Function.update h.dev.pfcRxXoff 0 (h.dev.pfcRxXoff 0 + 1)
      paused := Function.update h.dev.paused 0 true
      pauseUntil := Function.update h.dev.pauseUntil 0 (h.now + (cfg.attr i).quantaTime quanta) }
    (by simp [empty])
  refine ⟨q, Function.update h.dev.macHold 0 (h.dev.macHold 0 ++
    h.dev.queue.packets.filter fun p => decide (frameClass p = some 0)), by simpa [empty] using kept, ?_⟩
  rw [handleMacRx, if_pos (isPfcFrame_pfcFrame 0 quanta), handlePfcFrame, pfcHeader_pfcFrame]
  dsimp only
  rw [only, handlePfcClass, if_neg (by simp [PfcHeader.enables_single])]
  have time : (PfcHeader.single 0 quanta).quanta 0 = quanta := by simp [PfcHeader.single]
  have still_free := isExpired_cancel h.sim (h.dev.refillEvent 0) h.dev.txEvent free
  rw [time, if_neg nonzero]
  simp only [Host.update, Host.now] at purged ⊢
  rw [purged]
  simp only [Host.wakeTxEvent, Host.cancelRefillEvent, running, Bool.false_eq_true, ↓reduceIte,
    Host.scheduleRefillEvent, isExpired_schedule, still_free, Host.scheduleTxEvent]

/-- A data frame that crosses no watermark, at a device with nothing to drain yet. -/
theorem handleMacRx_uncongested {ι ν : Type} (cfg : Config ι ν) (i : ι) {p : Packet} {h : Host ι}
    (data : isPfcFrame p = false) (ensured : h.dev.tokenMgr = true)
    (enabled : (cfg.attr i).pfcEnable = true)
    (uncrossed : (cfg.attr i).rxSignals (getPrioFromPacket p)
      (h.dev.localCongested (getPrioFromPacket p)) (h.dev.rxOccPkts (getPrioFromPacket p) + 1) = [])
    (free : h.sim.isExpired h.dev.ingressDrainEv = true) :
    let armed := h.sim.schedule 0 (.doIngressDrain i)
    let prio := getPrioFromPacket p
    handleMacRx cfg i p h =
      { h with
        sim := armed.2
        dev := { h.dev with
          macRx := h.dev.macRx ++ [(h.now, p)]
          ingressQ := Function.update h.dev.ingressQ prio (h.dev.ingressQ prio ++ [p])
          rxOccPkts := Function.update h.dev.rxOccPkts prio (h.dev.rxOccPkts prio + 1)
          ingressDrainEv := armed.1 } } := by
  have queued (h : Host ι) (ensured : h.dev.tokenMgr = true) : queueIngress cfg i p h =
      h.update fun d => { d with
        ingressQ := Function.update d.ingressQ (getPrioFromPacket p)
          (d.ingressQ (getPrioFromPacket p) ++ [p]) } := by
    rw [queueIngress, ensureTokenManager, if_pos ensured]
  unfold handleMacRx handleDataFrame
  rw [if_neg (by simp [data]), queued, onDataRx_eq]
  · simp only [Host.update, uncrossed, List.foldl_nil, QbbNetDevice.counted, enabled, ↓reduceIte, free,
      Host.scheduleIngressDrainEv]
  · exact ensured

/-- A granted token for the last packet of its class. -/
theorem drainToken_last {ι ν : Type} (cfg : Config ι ν) (i : ι) {port : Nat} (prio : Fin 8) {h : Host ι}
    (valid : port ≠ kInvalidPortId) (granted : (h.mgr.ask h.now port (cfg.ifIndex i)).1 = true)
    (last : (h.dev.ingressQ prio).length = 1) :
    drainToken cfg i port prio h = (true, { h with
      mgr := (h.mgr.ask h.now port (cfg.ifIndex i)).2.unregisterDemand port (cfg.ifIndex i) }) := by
  have granted' : ((h.mgr.registerDemand port (cfg.ifIndex i)).tryConsumeTokenFair h.now port
      (cfg.ifIndex i) 1).1 = true := granted
  simp [drainToken, valid, granted', last, EgressTokenManager.ask]

theorem frameClass_transit (uid : Nat) : frameClass (Datagram.ipv4 (.transit uid) 0x00).frame = some 0 := by
  rw [Datagram.frameClass_frame]
  simp [Datagram.ipv4, getPrioFromPacket, Packet.peekPpp, PppHeader.deserialize, readNtohU16,
    Ipv4Header.deserialize]

namespace Net.Backed

variable {n : Nat} {waiting : List Packet} {tokens : ℚ} {due : List (Option (Event (Fin 2)))}
  {s t : Net (Fin 2) Unit} {action : Action (Fin 2) Unit}

theorem reachable (backed : s.Backed n waiting tokens due) : Net.Reachable forwarder s := by
  obtain ⟨actions, ran⟩ := backed.ran
  exact ran.reachable forwarder (Net.started_initial _)

/-- A timer whose event is not on the agenda is free. -/
theorem expired (backed : s.Backed n waiting tokens due) (i : Fin 2) (timer : Timer)
    (due_foreign : ∀ event, some event ∈ due → ¬ timer.Runs i event)
    (later_foreign : ¬ timer.Runs i (.resumeFromPause 1 0)) :
    s.sim.isExpired ((s.dev i).timer timer) = true := by
  obtain ⟨uid, agenda⟩ := backed.agenda
  refine agenda.expired ((Net.reachable_awake backed.reachable i).slots timer) due_foreign ?_
  intro e member
  rw [List.mem_singleton.mp member]
  exact later_foreign

/-- What is due next does nothing. -/
theorem idle {next : Option (Event (Fin 2))} (backed : s.Backed n waiting tokens (next :: due))
    (idles : ∀ sim : Simulator (Event (Fin 2)), sim.currentTs = s.sim.currentTs → ∀ event ∈ next,
      Net.handle forwarder { s with sim } .sink event = { s with sim }) :
    ∃ t : Net (Fin 2) Unit, t.Backed n waiting tokens due := by
  obtain ⟨uid, agenda⟩ := backed.agenda
  obtain ⟨sim, popped, clock, rest⟩ := agenda.processOneEvent
  have step : s.step forwarder (.event .sink) = some { s with sim } := by
    cases next with
    | none => simp [Net.step, popped]
    | some event => simp [Net.step, popped, idles sim clock event rfl]
  have unsent : s.sent forwarder 1 (.event .sink) = [] := by
    cases next with
    | none => simp [Net.sent, popped]
    | some event => cases event <;> simp [Net.sent, popped, Net.eventSent, Upcall.sink]
  refine ⟨{ s with sim }, { backed with
    ran := backed.ran.unsent unsent step
    until_ := ?_
    agenda := ⟨uid, rest⟩
    bucket := ?_ }⟩
  · rw [clock]
    exact backed.until_
  · rw [clock]
    exact backed.bucket

theorem tryDequeue (backed : s.Backed n waiting tokens (some (.tryDequeue 1) :: due)) :
    ∃ t : Net (Fin 2) Unit, t.Backed n waiting tokens due := by
  refine backed.idle fun sim clock event member => ?_
  obtain rfl := Option.some.inj member
  have none_picked : pickNextPrio (s.dev 1) sim.currentTs = none := by
    refine List.find?_eq_none.mpr fun prio _ => ?_
    rcases eq_or_ne prio 0 with rfl | other
    · simp [QbbNetDevice.pausing, backed.paused, backed.until_, clock]
    · simp [backed.others prio other]
  have nothing : QbbNet.tryDequeue forwarder 1 (Net.host forwarder { s with sim } 1) =
      Net.host forwarder { s with sim } 1 := by
    unfold QbbNet.tryDequeue
    rw [show pickNextPrio (Net.host forwarder { s with sim } 1).dev
      (Net.host forwarder { s with sim } 1).now = none from none_picked]
  change Net.on forwarder _ 1 (QbbNet.tryDequeue forwarder 1) = _
  rw [Net.on, nothing, Net.put_host_self]

theorem doIngressDrain (backed : s.Backed n [] tokens (some (.doIngressDrain 0) :: due)) :
    ∃ t : Net (Fin 2) Unit, t.Backed n [] tokens due := by
  refine backed.idle fun sim clock event member => ?_
  obtain rfl := Option.some.inj member
  have none_picked : ingressPick (s.dev 0) = none := by
    refine List.find?_eq_none.mpr fun prio _ => ?_
    rw [backed.ingressQ]
    rcases eq_or_ne prio 0 with rfl | other
    · simp
    · simp [other]
  change Net.doIngressDrain forwarder { s with sim } 0 .sink = _
  unfold Net.doIngressDrain
  rw [show ingressPick ((⟨sim, s.dev, s.mgr, s.node⟩ : Net (Fin 2) Unit).dev 0) = none from none_picked]

/-- When the pause ends, device 1 is told to pause again: the timer is cancelled and armed anew. -/
theorem pause (backed : s.Backed n [] tokens []) :
    ∃ t : Net (Fin 2) Unit, t.Backed n [] 1 [none, some (.tryDequeue 1)] := by
  obtain ⟨uid, agenda⟩ := backed.agenda
  obtain ⟨sim, elapsed, clock, due⟩ := agenda.elapse
  have step : s.step forwarder (.elapse ((s.dev 1).pauseUntil 0)) = some { s with sim } := by
    simp [Net.step, elapsed]
  have reachable := backed.reachable.step forwarder step
  have slots := (Net.reachable_awake reachable 1).slots
  -- the pending timer is the one that ends the pause
  obtain ⟨running, cancelled⟩ : sim.isExpired ((s.dev 1).refillEvent 0) = false ∧
      (sim.cancel ((s.dev 1).refillEvent 0)).Agenda [none] [] :=
    due.cancel (slots (.refill 0)) (Or.inl rfl)
  have free : sim.isExpired (s.dev 1).txEvent = true :=
    due.expired (slots .tx) (by simp [Timer.Runs]) (List.forall_mem_nil _)
  have time : (forwarder.attr 1).quantaTime 65535 = 335539200 := by decide +kernel
  obtain ⟨q, held, kept, received⟩ := handleMacRx_xoff forwarder 1 (by decide : (65535 : UInt16) ≠ 0)
    (h := Net.host forwarder { s with sim } 1) backed.queue running free
  rw [time] at received
  have swallowed : Net.receive forwarder { s with sim } 1 (pfcFrame 0 65535) false =
      Net.on forwarder { s with sim } 1 (handleMacRx forwarder 1 (pfcFrame 0 65535)) :=
    receive_swallowed (s := { s with sim }) (backed.rxCallback 1) (pfcFrame 0 65535)
  have step' : Net.step forwarder { s with sim } (.deliver 1 (pfcFrame 0 65535) false) =
      some (Net.on forwarder { s with sim } 1 (handleMacRx forwarder 1 (pfcFrame 0 65535))) := by
    simp only [Net.step, swallowed]
    rfl
  rw [Net.on, received] at step'
  have ran := (backed.ran.unsent rfl step).unsent rfl step'
  obtain ⟨b, bucket, pps, capacity, -⟩ := backed.bucket
  have same_time := cancel_currentTs sim ((s.dev 1).refillEvent 0)
  have woken := (cancelled.schedule_later (by decide : 0 < 335539200)
    (.resumeFromPause 1 0)).schedule_now (.tryDequeue 1)
  rw [same_time] at woken
  have now : sim.currentTs = s.sim.currentTs + 335539200 := clock.trans backed.until_
  have token : 1 ≤ b.level sim.currentTs := by
    have sound := (Net.reachable_tokens backed.reachable).sound () 1 b bucket
    have earned := sound.level_earned (now ▸ Nat.le_add_right _ _ : s.sim.currentTs ≤ sim.currentTs)
    refine le_trans ?_ earned
    rw [pps, capacity, now, TokenBucket.elapsedSeconds]
    push_cast
    rw [add_sub_cancel_left]
    norm_num
  refine ⟨_, ran, backed.ipv4, ?_, backed.tokenMgr, backed.ingressQ, backed.rxOccPkts,
    backed.localCongested, backed.backlog, backed.others, kept, rfl,
    congrArg (· + 335539200) same_time.symm, ⟨_, woken⟩, ⟨b, bucket, pps, capacity, ?_⟩, backed.arbiter⟩
  · intro i
    fin_cases i
    · exact backed.rxCallback 0
    · exact backed.rxCallback 1
  · exact same_time.symm ▸ token

/-- A packet in transit arrives at device 0. -/
theorem arrive (backed : s.Backed n [] tokens []) (uid : Nat) : ∃ t : Net (Fin 2) Unit,
    t.Backed n [(Datagram.ipv4 (.transit uid) 0x00).frame] tokens [some (.doIngressDrain 0)] := by
  obtain ⟨timer, agenda⟩ := backed.agenda
  have of_class := frameClass_transit uid
  generalize (Datagram.ipv4 (.transit uid) 0x00).frame = p at of_class ⊢
  obtain ⟨data, prio⟩ := frameClass_eq_some.mp of_class
  have free : s.sim.isExpired (s.dev 0).ingressDrainEv = true :=
    backed.expired 0 .drain (fun _ => nofun) nofun
  have received := handleMacRx_uncongested forwarder 0 (h := Net.host forwarder s 0) data
    backed.tokenMgr rfl (by
      rw [prio, show (Net.host forwarder s 0).dev.rxOccPkts 0 = 0 from backed.rxOccPkts,
        show (Net.host forwarder s 0).dev.localCongested 0 = false from backed.localCongested]
      rfl) free
  dsimp only at received
  have step : s.step forwarder (.deliver 0 p false) =
      some (Net.on forwarder s 0 (handleMacRx forwarder 0 p)) := by
    rw [← receive_swallowed (backed.rxCallback 0) p]
    rfl
  rw [Net.on, received, prio] at step
  have ran := backed.ran.unsent rfl step
  refine ⟨_, ran, backed.ipv4, ?_, backed.tokenMgr, ?_, ?_, backed.localCongested, backed.backlog,
    backed.others, backed.queue, backed.paused, backed.until_,
    ⟨timer, agenda.schedule_now (.doIngressDrain 0)⟩, backed.bucket, backed.arbiter⟩
  · intro i
    fin_cases i
    · exact backed.rxCallback 0
    · exact backed.rxCallback 1
  · change Function.update (s.dev 0).ingressQ 0 ((s.dev 0).ingressQ 0 ++ [p]) = _
    rw [backed.ingressQ]
    simp
  · change Function.update (s.dev 0).rxOccPkts 0 ((s.dev 0).rxOccPkts 0 + 1) 0 = 1
    rw [Function.update_self, backed.rxOccPkts]
    rfl

/-- Device 0 is the only one that asks, and its token is there. -/
theorem asks (backed : s.Backed n waiting 1 due) :
    (s.mgr ()).asking 1 0 = {0} ∧ ((s.mgr ()).ask s.sim.currentTs 1 0).1 = true := by
  obtain ⟨b, bucket, pps, capacity, token⟩ := backed.bucket
  have asking : (s.mgr ()).asking 1 0 = {0} :=
    Finset.Subset.antisymm (Finset.insert_subset (by simp) backed.arbiter)
      (by simp [EgressTokenManager.asking])
  refine ⟨asking, ?_⟩
  rw [EgressTokenManager.ask_granted _ _ bucket, asking]
  exact ⟨token, EgressTokenManager.next_of_card_le_one (by simp) (by simp)⟩

/-- What device 0 has to drain, and that it may. -/
theorem draining {p : Packet} (backed : s.Backed n [p] 1 due)
    {sim : Simulator (Event (Fin 2))} (clock : sim.currentTs = s.sim.currentTs) :
    ingressPick (s.dev 0) = some 0 ∧ (s.dev 0).ingressQ 0 = [p] ∧
      drainToken forwarder 0 1 0 (Net.host forwarder { s with sim } 0) =
        (true, { Net.host forwarder { s with sim } 0 with
          mgr := ((s.mgr ()).ask sim.currentTs 1 0).2.unregisterDemand 1 0 }) := by
  have content : (s.dev 0).ingressQ 0 = [p] := by rw [backed.ingressQ, Function.update_self]
  have granted : ((Net.host forwarder { s with sim } 0).mgr.ask
      (Net.host forwarder { s with sim } 0).now 1 (forwarder.ifIndex 0)).1 = true := by
    change ((s.mgr ()).ask sim.currentTs 1 0).1 = true
    rw [clock]
    exact backed.asks.2
  refine ⟨by simp [ingressPick, classes, backed.ingressQ], content, ?_⟩
  exact drainToken_last forwarder 0 0 (by decide) granted (congrArg List.length content)

/-- Device 0's packet has been drained and has entered device 1. -/
def handedOver (s : Net (Fin 2) Unit) (sim : Simulator (Event (Fin 2))) (uid : Nat)
    (p : Packet) : Net (Fin 2) Unit :=
  { s with
    sim := ((sim.schedule 0 (.tryDequeue 1)).2.schedule 0 (.doIngressDrain 0)).2
    dev := ![
      { s.dev 0 with
        ingressQ := Function.update (s.dev 0).ingressQ 0 []
        rxOccPkts := Function.update (s.dev 0).rxOccPkts 0 0
        ipv4Rx := (s.dev 0).ipv4Rx ++ [(.doIngressDrain,
          if p.peekPpp = some 0x0021 then p.removePpp else p)]
        ingressDrainEv := ((sim.schedule 0 (.tryDequeue 1)).2.schedule 0 (.doIngressDrain 0)).1 },
      { s.dev 1 with
        txq := Function.update (s.dev 1).txq 0 ((s.dev 1).txq 0 ++ [.ipv4 (.transit uid) 0x00])
        accepted := (s.dev 1).accepted ++ [.ipv4 (.transit uid) 0x00]
        txEvent := (sim.schedule 0 (.tryDequeue 1)).1 }]
    mgr := fun _ => ((s.mgr ()).ask sim.currentTs 1 0).2.unregisterDemand 1 0 }

theorem doIngressDrain_forwards {uid : Nat} {p : Packet} (backed : s.Backed n [p] 1 due)
    (frame : (Datagram.ipv4 (.transit uid) 0x00).frame = p) {sim : Simulator (Event (Fin 2))}
    (clock : sim.currentTs = s.sim.currentTs) (free : sim.isExpired (s.dev 1).txEvent = true) :
    Net.doIngressDrain forwarder { s with sim } 0 (.forwards uid) = handedOver s sim uid p := by
  have egress : (Upcall.forwards uid).egressPort p = 1 := by rw [← frame]; rfl
  obtain ⟨picked, content, passed⟩ := backed.draining clock
  have pops (h : Host (Fin 2)) (same : h.dev = s.dev 0) :
      drainPop forwarder 0 0 h = h.update (·.popped 0) := by
    rw [drainPop_eq, same, backed.localCongested]
    rfl
  have last : (s.dev 0).rxOccPkts 0 - 1 = 0 := by rw [backed.rxOccPkts]; rfl
  have prio : getPrioFromPacket (Datagram.ipv4 (.transit uid) 0x00).packet = 0 :=
    Option.some.inj ((Datagram.frameClass_frame _).symm.trans (frameClass_transit uid))
  unfold Net.doIngressDrain handedOver
  simp only [picked, content, egress, passed, Bool.true_eq_false, ↓reduceIte, Net.put_node, Net.on_node]
  simp [Net.on, Net.put, Net.host, pops, Host.update, Net.sendAll, Upcall.forwards, Upcall.through,
    QbbNet.send, Host.wakeTxEvent, free, Host.scheduleTxEvent, Host.scheduleIngressDrainEv,
    QbbNetDevice.popped, backed.ipv4, content, last, prio]
  constructor
  · funext i
    fin_cases i <;> rfl
  · funext v
    rfl

/-- The packet enters device 1 while its port is polled. -/
theorem forwards {uid : Nat} {p : Packet} (backed : s.Backed n [p] 1 due)
    (frame : (Datagram.ipv4 (.transit uid) 0x00).frame = p) {sim : Simulator (Event (Fin 2))}
    (clock : sim.currentTs = s.sim.currentTs)
    (popped : s.sim.processOneEvent = some (some (.doIngressDrain 0), sim)) :
    s.ForwardsDrained forwarder 1 (.event (.forwards uid)) := by
  have egress : (Upcall.forwards uid).egressPort p = 1 := by rw [← frame]; rfl
  obtain ⟨picked, content, passed⟩ := backed.draining clock
  have sent : s.sent forwarder 1 (.event (.forwards uid)) = [.ipv4 (.transit uid) 0x00] := by
    have drains : (Net.drains forwarder { s with sim } 0 (.forwards uid)).isSome = true := by
      simp [Net.drains, picked, content, egress, passed]
    simp only [Net.sent, popped, Net.eventSent, drains, Bool.true_and]
    rw [if_pos backed.ipv4]
    rfl
  have polled : s.polled forwarder () 1 (.event (.forwards uid)) =
      some (0, (s.duty forwarder 0 (.event (.forwards uid))).isSome) := by
    simp only [Net.polled, Net.poll, popped, Net.eventPoll, picked, Option.bind_some, content,
      List.head?_cons, Option.map_some, egress]
    rfl
  unfold Net.ForwardsDrained
  rw [sent, show s.polled forwarder (forwarder.node 1) (forwarder.ifIndex 1) _ = _ from polled]
  exact List.countP_le_length

/-- The drain takes the token, and the packet enters device 1. -/
theorem drain {uid : Nat} (backed : s.Backed n [(Datagram.ipv4 (.transit uid) 0x00).frame] 1
      [some (.doIngressDrain 0)]) : ∃ t : Net (Fin 2) Unit,
    t.Backed (n + 1) [] 0 [some (.tryDequeue 1), some (.doIngressDrain 0)] := by
  obtain ⟨timer, agenda⟩ := backed.agenda
  obtain ⟨sim, popped, clock, rest⟩ := agenda.processOneEvent
  obtain ⟨b, bucket, pps, capacity, token⟩ := backed.bucket
  have free : sim.isExpired (s.dev 1).txEvent = true :=
    processOneEvent_expired popped (backed.expired 1 .tx (by simp [Timer.Runs]) nofun)
  generalize frame : (Datagram.ipv4 (.transit uid) 0x00).frame = p at backed
  have step : s.step forwarder (.event (.forwards uid)) = some (handedOver s sim uid p) := by
    rw [← backed.doIngressDrain_forwards frame clock free]
    simp [Net.step, popped, Net.handle]
  obtain ⟨actions, ran⟩ := backed.ran
  have woken := (rest.schedule_now (.tryDequeue 1)).schedule_now (.doIngressDrain 0)
  refine ⟨_, ⟨_, ran.snoc (backed.forwards frame clock popped) step⟩, backed.ipv4, ?_,
    backed.tokenMgr, ?_, ?_, backed.localCongested, ?_, ?_, backed.queue, backed.paused, ?_,
    ⟨timer, woken⟩, ?_, ?_⟩
  · intro i
    fin_cases i
    · exact backed.rxCallback 0
    · exact backed.rxCallback 1
  · change Function.update (s.dev 0).ingressQ 0 [] = _
    rw [backed.ingressQ]
    simp
  · change Function.update (s.dev 0).rxOccPkts 0 0 0 = 0
    rw [Function.update_self]
  · have grown : (Function.update (s.dev 1).txq 0 ((s.dev 1).txq 0 ++
        [.ipv4 (.transit uid) 0x00]) 0).countP (·.packet.forwarded) =
          ((s.dev 1).txq 0).countP (·.packet.forwarded) + 1 := by
      rw [Function.update_self, List.countP_append]
      rfl
    exact (Nat.add_le_add_right backed.backlog 1).trans grown.ge
  · intro other different
    exact (Function.update_of_ne different ..).trans (backed.others other different)
  · exact backed.until_.trans (congrArg (· + 335539200) clock.symm)
  · have sound := ((Net.reachable_tokens backed.reachable).sound () 1 b bucket).mono clock.ge
    obtain ⟨after, filled, asked⟩ := EgressTokenManager.ask_bucket 0 bucket sound
    refine ⟨after, ?_, asked.pps.trans pps, asked.capacity.trans capacity, ?_⟩
    · change ((s.mgr ()).ask sim.currentTs 1 0).2.buckets 1 = _
      rw [filled, Function.update_self]
    · exact asked.sound.refill.nonneg
  · change ((((s.mgr ()).ask sim.currentTs 1 0).2.unregisterDemand 1 0).arbiters 1).activeIngressPorts ⊆ {0}
    rw [EgressTokenManager.unregisterDemand_active, EgressTokenManager.ask_active, backed.asks.1]
    exact Finset.erase_subset ..

theorem start : ∃ s : Net (Fin 2) Unit, s.Backed 0 [] 0 [] := by
  obtain ⟨s, ran, ipv4, callbacks, ensured, ingress, ⟨occupancy, calm⟩, backlog, empty, ⟨paused, until_⟩,
      ⟨events, live⟩, bucket, arbiter⟩ : ∃ s,
      (Net.started forwarder).run forwarder (Net.ForwardsDrained forwarder 1) pausedRun = some s ∧
        (s.node ()).ipv4 = true ∧ (∀ i, (s.dev i).rxCallback = .l3Swallow) ∧
        (s.dev 0).tokenMgr = true ∧ (∀ prio, (s.dev 0).ingressQ prio = []) ∧
        ((s.dev 0).rxOccPkts 0 = 0 ∧ (s.dev 0).localCongested 0 = false) ∧
        (∀ prio, (s.dev 1).txq prio = []) ∧ (s.dev 1).queue.packets = [] ∧
        ((s.dev 1).paused 0 = true ∧ (s.dev 1).pauseUntil 0 = s.sim.currentTs + 335539200) ∧
        (s.sim.events = [⟨⟨(s.dev 1).pauseUntil 0, 10⟩, .resumeFromPause 1 0⟩] ∧ s.sim.cancelled = []) ∧
        (∃ b ∈ (s.mgr ()).buckets 1, b.pps = 25000 / 3 ∧ b.capacity = 8 ∧ 0 ≤ b.level s.sim.currentTs) ∧
        ((s.mgr ()).arbiters 1).activeIngressPorts = ∅ :=
    exists_of_any (by decide +kernel)
  refine ⟨s, ⟨_, .of_run _ ran⟩, ipv4, callbacks, ensured, ?_, occupancy, calm, Nat.zero_le _,
    fun prio _ => backlog prio, empty, paused, until_, ⟨10, ⟨[], events, nofun, rfl⟩, ?_⟩, bucket,
    arbiter ▸ Finset.empty_subset _⟩
  · funext prio
    rw [ingress prio, Function.update_eq_self]
  · intro e member
    obtain rfl := List.mem_singleton.mp member
    exact ⟨by simp [until_], by simp [events], by simp [live]⟩

theorem round (backed : s.Backed n [] 0 []) : ∃ t : Net (Fin 2) Unit, t.Backed (n + 1) [] 0 [] := by
  obtain ⟨s, paused⟩ := backed.pause
  obtain ⟨s, skipped⟩ := paused.idle fun _ _ _ => nofun
  obtain ⟨s, settled⟩ := skipped.tryDequeue
  obtain ⟨s, arrived⟩ := settled.arrive n
  obtain ⟨s, drained⟩ := arrived.drain
  obtain ⟨s, woken⟩ := drained.tryDequeue
  exact woken.doIngressDrain

theorem reached (n : Nat) : ∃ s : Net (Fin 2) Unit, s.Backed n [] 0 [] := by
  induction n with
  | zero => exact start
  | succ n ih =>
    obtain ⟨s, backed⟩ := ih
    exact backed.round

end Net.Backed

/-- A device that is told to pause again and again takes in more packets than
any bound that depends on its bucket's capacity and its MAC queue limit. -/
theorem back_pressure_unbounded :
    ¬ ∃ bound : Nat → QueueSize → Nat, ∀ actions s b,
      Net.RunWhere forwarder (Net.ForwardsDrained forwarder 1) (.started forwarder) actions s →
      (∀ i, (s.dev i).rxCallback = .l3Swallow) → (s.dev 1).pausing s.sim.currentTs 0 = true →
      (s.mgr ()).buckets 1 = some b →
      (s.dev 1).forwardedWaiting 0 ≤ bound b.capacity (forwarder.attr 1).maxSize := by
  rintro ⟨bound, bounded⟩
  obtain ⟨s, backed⟩ := Net.Backed.reached (bound 8 (forwarder.attr 1).maxSize + 1)
  obtain ⟨actions, ran⟩ := backed.ran
  obtain ⟨b, bucket, -, capacity, -⟩ := backed.bucket
  have pausing : (s.dev 1).pausing s.sim.currentTs 0 = true := by
    simp [QbbNetDevice.pausing, backed.paused, backed.until_]
  have at_most := bounded actions s b ran backed.rxCallback pausing bucket
  have waiting := backed.backlog
  rw [capacity] at at_most
  unfold QbbNetDevice.forwardedWaiting at at_most
  omega

end QbbNet
