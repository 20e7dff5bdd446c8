import QbbNet.Device

set_option autoImplicit false

namespace QbbNet

inductive Handler
  | pfcL3Stub
  | trafficControlLayer
  | ipv4L3Protocol
  | arpL3Protocol
  deriving DecidableEq

/-- An entry without a device or with protocol 0 matches every device or protocol. -/
structure ProtocolHandlerEntry (ι : Type) where
  handler : Handler
  protocol : UInt16
  device : Option ι

/-- What a node has above its devices: whether Ipv4L3Protocol is aggregated to
it, the devices that have an IPv4 interface, and the handlers registered with
the node and with its traffic control layer. -/
structure NodeState (ι : Type) where
  ipv4 : Bool
  interfaces : List ι
  handlers : List (ProtocolHandlerEntry ι)
  tcHandlers : List (ProtocolHandlerEntry ι)

structure Net (ι ν : Type) where
  sim : Simulator (Event ι)
  dev : ι → QbbNetDevice
  mgr : ν → EgressTokenManager
  node : ν → NodeState ι

/-- What the rest of the node answers while one event is handled: whether the
receive error model corrupts the frame, the egress port GetEgressPortOrInvalid
finds for a packet, and the packets the IP layer sends while it receives one. -/
structure Upcall (ι : Type) where
  corrupt : Bool
  egressPort : Packet → Nat
  sends : List (ι × Datagram)

/-- One step of a run. Besides the modelled devices' own events, other parts of
the simulation send packets, deliver frames and aggregate objects at any time. -/
inductive Action (ι ν : Type)
  | event (up : Upcall ι)
  | elapse (t : Time)
  | send (i : ι) (dg : Datagram)
  | deliver (i : ι) (p : Packet) (corrupt : Bool)
  | installStack (v : ν)
  | addInterface (i : ι)
  | aggregate (i : ι)

variable {ι ν : Type} [DecidableEq ι] [DecidableEq ν] (cfg : Config ι ν)

def ProtocolHandlerEntry.accepts (entry : ProtocolHandlerEntry ι) (i : ι) (protocol : UInt16) :
    Bool :=
  (entry.device.isNone || decide (entry.device = some i)) &&
    (decide (entry.protocol = 0) || decide (entry.protocol = protocol))

/-- Node::ReceiveFromDevice: the handlers that are called, with those called by
TrafficControlLayer::Receive in its place. -/
def NodeState.receiveFromDevice (n : NodeState ι) (i : ι) (protocol : UInt16) : List Handler :=
  (n.handlers.filter (·.accepts i protocol)).flatMap fun entry =>
    match entry.handler with
    | .trafficControlLayer => (n.tcHandlers.filter (·.accepts i protocol)).map (·.handler)
    | handler => [handler]

/-- Ipv4L3Protocol::AddInterface, which Ipv4AddressHelper::Assign calls for a
device without an interface. -/
def NodeState.addInterface (n : NodeState ι) (i : ι) : NodeState ι :=
  { n with
    interfaces := n.interfaces ++ [i]
    handlers := n.handlers ++
      [⟨.trafficControlLayer, 0x0800, some i⟩, ⟨.trafficControlLayer, 0x0806, some i⟩]
    tcHandlers := n.tcHandlers ++
      [⟨.ipv4L3Protocol, 0x0800, some i⟩, ⟨.arpL3Protocol, 0x0806, some i⟩] }

namespace Net

def host (s : Net ι ν) (i : ι) : Host ι := ⟨s.sim, s.dev i, s.mgr (cfg.node i)⟩

def put (s : Net ι ν) (i : ι) (h : Host ι) : Net ι ν :=
  { s with
    sim := h.sim
    dev := Function.update s.dev i h.dev
    mgr := Function.update s.mgr (cfg.node i) h.mgr }

/-- A handler of one device runs. -/
def on (s : Net ι ν) (i : ι) (f : Host ι → Host ι) : Net ι ν := s.put cfg i (f (s.host cfg i))

def sendAll (s : Net ι ν) (sends : List (ι × Datagram)) : Net ι ν :=
  sends.foldl (fun s call => s.on cfg call.1 (QbbNet.send call.1 call.2)) s

/-- PointToPointNetDevice::Receive: the MacRx trace, then the receive callback. -/
def receive (s : Net ι ν) (i : ι) (p : Packet) (corrupt : Bool) : Net ι ν :=
  if corrupt then s.on cfg i (·.update fun d => { d with phyRxDrop := d.phyRxDrop ++ [p] })
  else
    let s := s.on cfg i (handleMacRx cfg i p)
    match (s.dev i).rxCallback with
    | .l3Swallow => s
    | .nonPromiscReceiveFromDevice =>
        let called := (s.node (cfg.node i)).receiveFromDevice i (pppToEther (p.peekPpp.getD 0))
        s.on cfg i (·.update fun d =>
          { d with ipv4Rx := d.ipv4Rx ++
              (called.filter (· = .ipv4L3Protocol)).map fun _ => (.rxCallback, p.removePpp) })

/-- QbbNetDevice::DoIngressDrain -/
def doIngressDrain (s : Net ι ν) (i : ι) (up : Upcall ι) : Net ι ν :=
  match ingressPick (s.dev i) with
  | none => s
  | some prio =>
      match (s.dev i).ingressQ prio with
      | [] => s
      | p :: _ =>
          let granted := drainToken cfg i (up.egressPort p) prio (s.host cfg i)
          let s := s.put cfg i granted.2
          if granted.1 = false then s
          else
            let s := s.on cfg i (drainPop cfg i prio)
            let s := if (s.node (cfg.node i)).ipv4 then
                (s.on cfg i (·.update fun d =>
                  { d with ipv4Rx := d.ipv4Rx ++ [(.doIngressDrain,
                      if p.peekPpp = some 0x0021 then p.removePpp else p)] })).sendAll cfg up.sends
              else s
            s.on cfg i (·.scheduleIngressDrainEv i 0)

def hookL3Divert (d : QbbNetDevice) : QbbNetDevice :=
  { d with rxCallback := .l3Swallow, l3DivertInstalled := true }

/-- QbbNetDevice::NotifyNewAggregate, after an object was aggregated to the device. -/
def notifyNewAggregate (s : Net ι ν) (i : ι) : Net ι ν :=
  if (s.node (cfg.node i)).ipv4 ∧ (s.dev i).l3DivertInstalled = false then
    let once := s.sim.schedule 0 (.hookL3Divert i)
    { s with sim := (once.2.schedule (microSeconds 1) (.hookL3Divert i)).2 }
  else s

def handle (s : Net ι ν) (up : Upcall ι) : Event ι → Net ι ν
  | .tryDequeue i => s.on cfg i (tryDequeue cfg i)
  | .doIngressDrain i => s.doIngressDrain cfg i up
  | .resumeFromPause i prio => s.on cfg i (resumeFromPause i prio)
  | .refillMacQueueFromHold i prio => s.on cfg i (refillMacQueueFromHold i prio)
  | .transmitComplete i => s.on cfg i (transmitComplete cfg i)
  | .receive i p => s.receive cfg i p up.corrupt
  | .hookL3Divert i => s.on cfg i (·.update hookL3Divert)

def setNode (s : Net ι ν) (v : ν) (n : NodeState ι) : Net ι ν :=
  { s with node := Function.update s.node v n }

/-- `none` when the step is not possible in the state. -/
def step (s : Net ι ν) : Action ι ν → Option (Net ι ν)
  | .event up =>
      match s.sim.processOneEvent with
      | none => none
      | some (none, sim) => some { s with sim }
      | some (some event, sim) => some (handle cfg { s with sim } up event)
  | .elapse t => (s.sim.elapse t).map fun sim => { s with sim }
  | .send i dg => some (s.on cfg i (QbbNet.send i dg))
  | .deliver i p corrupt =>
      if cfg.peer i = none then some (s.receive cfg i p corrupt) else none
  | .installStack v =>
      if (s.node v).ipv4 then none else some (s.setNode v { s.node v with ipv4 := true })
  | .addInterface i =>
      let n := s.node (cfg.node i)
      if n.ipv4 ∧ i ∉ n.interfaces then some (s.setNode (cfg.node i) (n.addInterface i)) else none
  | .aggregate i => some (s.notifyNewAggregate cfg i)

/-- The steps that are possible, one by one. -/
inductive StepTo (s : Net ι ν) : Action ι ν → Net ι ν → Prop
  | event (up : Upcall ι) {event : Event ι} {sim : Simulator (Event ι)}
      (popped : s.sim.processOneEvent = some (some event, sim)) :
      StepTo s (.event up) (handle cfg { s with sim } up event)
  | skip (up : Upcall ι) {sim : Simulator (Event ι)}
      (popped : s.sim.processOneEvent = some (none, sim)) : StepTo s (.event up) { s with sim }
  | elapse (t : Time) {sim : Simulator (Event ι)} (elapsed : s.sim.elapse t = some sim) :
      StepTo s (.elapse t) { s with sim }
  | send (i : ι) (dg : Datagram) : StepTo s (.send i dg) (s.on cfg i (QbbNet.send i dg))
  | deliver (i : ι) (p : Packet) (corrupt : Bool) (peer : cfg.peer i = none) :
      StepTo s (.deliver i p corrupt) (s.receive cfg i p corrupt)
  | installStack (v : ν) (absent : (s.node v).ipv4 = false) :
      StepTo s (.installStack v) (s.setNode v { s.node v with ipv4 := true })
  | addInterface (i : ι) (ipv4 : (s.node (cfg.node i)).ipv4 = true)
      (new : i ∉ (s.node (cfg.node i)).interfaces) :
      StepTo s (.addInterface i) (s.setNode (cfg.node i) ((s.node (cfg.node i)).addInterface i))
  | aggregate (i : ι) : StepTo s (.aggregate i) (s.notifyNewAggregate cfg i)

theorem step_to {s t : Net ι ν} {action : Action ι ν} (step : s.step cfg action = some t) :
    StepTo cfg s action t := by
  cases action with
  | event up =>
    simp only [Net.step] at step
    split at step
    · cases step
    · rename_i sim popped
      cases step
      exact .skip up popped
    · rename_i event sim popped
      cases step
      exact .event up popped
  | elapse ts =>
    obtain ⟨sim, elapsed, rfl⟩ := Option.map_eq_some_iff.mp step
    exact .elapse ts elapsed
  | send i dg =>
    cases step
    exact .send i dg
  | deliver i p corrupt =>
    simp only [Net.step] at step
    split at step
    · cases step
      exact .deliver i p corrupt ‹_›
    · cases step
  | installStack v =>
    simp only [Net.step] at step
    split at step
    · cases step
    · rename_i absent
      cases step
      exact .installStack v (Bool.eq_false_iff.mpr absent)
  | addInterface i =>
    simp only [Net.step] at step
    split at step
    · rename_i both
      cases step
      exact .addInterface i both.1 both.2
    · cases step
  | aggregate i =>
    cases step
    exact .aggregate i

/-- Every device as Install leaves it: attached or not, on nodes that may
already have the Internet stack. -/
def init (linkUp : ι → Bool) (stack : ν → Bool) : Net ι ν where
  sim := .init
  dev i := .install (cfg.attr i) (linkUp i)
  mgr _ := .new
  node v :=
    { ipv4 := stack v
      interfaces := []
      handlers := (cfg.devices v).map fun _ => ⟨.pfcL3Stub, pfcPppProto, none⟩
      tcHandlers := [] }

/-- Runs actions one after another, as long as each satisfies `ok` and is possible. -/
def run (ok : Net ι ν → Action ι ν → Prop) [∀ s action, Decidable (ok s action)] (s : Net ι ν) :
    List (Action ι ν) → Option (Net ι ν)
  | [] => some s
  | action :: actions =>
      if ok s action then (s.step cfg action).bind fun next => next.run ok actions else none

/-- A run whose steps all satisfy `ok`, as the relation between its ends. -/
inductive RunWhere (ok : Net ι ν → Action ι ν → Prop) (s : Net ι ν) :
    List (Action ι ν) → Net ι ν → Prop
  | nil : RunWhere ok s [] s
  | snoc {actions : List (Action ι ν)} {mid last : Net ι ν} {action : Action ι ν}
      (before : RunWhere ok s actions mid) (allowed : ok mid action)
      (step : mid.step cfg action = some last) :
      RunWhere ok s (actions ++ [action]) last

abbrev Run : Net ι ν → List (Action ι ν) → Net ι ν → Prop := RunWhere cfg fun _ _ => True

theorem RunWhere.cons {ok : Net ι ν → Action ι ν → Prop} {s mid last : Net ι ν}
    {action : Action ι ν} {actions : List (Action ι ν)} (allowed : ok s action)
    (step : s.step cfg action = some mid) (after : RunWhere cfg ok mid actions last) :
    RunWhere cfg ok s (action :: actions) last := by
  induction after with
  | nil => exact .snoc .nil allowed step
  | snoc _ allowed step ih => exact ih.snoc allowed step

theorem RunWhere.of_run {ok : Net ι ν → Action ι ν → Prop} [∀ s action, Decidable (ok s action)]
    {s last : Net ι ν} {actions : List (Action ι ν)} (ran : s.run cfg ok actions = some last) :
    RunWhere cfg ok s actions last := by
  induction actions generalizing s with
  | nil =>
    cases ran
    exact .nil
  | cons action actions ih =>
    rw [run] at ran
    split at ran
    · rename_i allowed
      obtain ⟨mid, step, after⟩ := Option.bind_eq_some_iff.mp ran
      exact (ih after).cons cfg allowed step
    · cases ran

/-- What the steps of a run note, one after another, for as long as it goes. -/
def collect {α : Type} (notes : Net ι ν → Action ι ν → List α) (s : Net ι ν) :
    List (Action ι ν) → List α
  | [] => []
  | action :: actions =>
      match s.step cfg action with
      | some t => notes s action ++ t.collect notes actions
      | none => []

theorem RunWhere.collect_append {α : Type} {ok : Net ι ν → Action ι ν → Prop} {s last : Net ι ν}
    {actions : List (Action ι ν)} (run : RunWhere cfg ok s actions last)
    (notes : Net ι ν → Action ι ν → List α) (more : List (Action ι ν)) :
    s.collect cfg notes (actions ++ more) =
      s.collect cfg notes actions ++ last.collect cfg notes more := by
  induction run generalizing more with
  | nil => rfl
  | @snoc actions mid last action before _ step ih =>
    rw [List.append_assoc, ih, ih, List.append_assoc]
    simp [collect, step]

theorem RunWhere.collect_snoc {α : Type} {ok : Net ι ν → Action ι ν → Prop} {s mid last : Net ι ν}
    {actions : List (Action ι ν)} {action : Action ι ν} (run : RunWhere cfg ok s actions mid)
    (step : mid.step cfg action = some last) (notes : Net ι ν → Action ι ν → List α) :
    s.collect cfg notes (actions ++ [action]) = s.collect cfg notes actions ++ notes mid action := by
  rw [run.collect_append]
  simp [collect, step]

theorem RunWhere.mono {ok ok' : Net ι ν → Action ι ν → Prop}
    (weaker : ∀ s action, ok s action → ok' s action) {s last : Net ι ν}
    {actions : List (Action ι ν)} (run : RunWhere cfg ok s actions last) :
    RunWhere cfg ok' s actions last := by
  induction run with
  | nil => exact .nil
  | snoc _ allowed step ih => exact ih.snoc (weaker _ _ allowed) step

/-- What holds of the actions whatever the state may be asked of the steps as well. -/
theorem RunWhere.and_forall {ok ok' : Net ι ν → Action ι ν → Prop} {s last : Net ι ν}
    {actions : List (Action ι ν)} (run : RunWhere cfg ok s actions last)
    (all : ∀ action ∈ actions, ∀ s, ok' s action) :
    RunWhere cfg (fun s action => ok' s action ∧ ok s action) s actions last := by
  induction run with
  | nil => exact .nil
  | snoc _ allowed step ih =>
    rw [List.forall_mem_append] at all
    exact (ih all.1).snoc ⟨all.2 _ (List.mem_singleton_self _) _, allowed⟩ step

def Initial (s : Net ι ν) : Prop := ∃ linkUp stack, s = init cfg linkUp stack

def Reachable (s : Net ι ν) : Prop := ∃ start actions, Initial cfg start ∧ Run cfg start actions s

theorem Reachable.of_run {start s : Net ι ν} {actions : List (Action ι ν)}
    (initial : Initial cfg start) (ran : start.run cfg (fun _ _ => True) actions = some s) :
    Reachable cfg s := ⟨start, actions, initial, .of_run cfg ran⟩

theorem Reachable.step {s t : Net ι ν} {action : Action ι ν} (reachable : Reachable cfg s)
    (step : s.step cfg action = some t) : Reachable cfg t := by
  obtain ⟨start, actions, initial, run⟩ := reachable
  exact ⟨start, _, initial, run.snoc trivial step⟩

theorem Reachable.run {ok : Net ι ν → Action ι ν → Prop} {s t : Net ι ν}
    {actions : List (Action ι ν)} (reachable : Reachable cfg s)
    (run : RunWhere cfg ok s actions t) : Reachable cfg t := by
  induction run with
  | nil => exact reachable
  | snoc _ _ step ih => exact ih.step cfg step

theorem RunWhere.reachable {ok : Net ι ν → Action ι ν → Prop} {start s : Net ι ν}
    {actions : List (Action ι ν)} (initial : Initial cfg start)
    (run : RunWhere cfg ok start actions s) : Reachable cfg s :=
  ⟨start, actions, initial, run.mono cfg fun _ _ _ => trivial⟩

end Net

end QbbNet
