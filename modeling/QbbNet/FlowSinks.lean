import QbbNet.FlowPairs
import QbbNet.SocketDemux

set_option autoImplicit false

/- The sinks that GetStatus installs for its flows, what they receive during the
simulation, and what it adds up of that. -/
namespace QbbNet

/- Installing the flows -/

def basePort : UInt32 := 10000

/-- `(uint16_t)(basePort + (uint32_t)i)` -/
def flowPort (i : Nat) : UInt16 := (basePort + UInt32.ofNat i).toUInt16

structure FlowPlan where
  srcId : UInt32
  dstId : UInt32
  port : UInt16
  bytesPlanned : UInt32
  deriving DecidableEq

/-- The plans of the flows, one after another, given the size that was sampled for each. -/
def flowPlans (sampledSizes : Nat → UInt32) (pairs : List (UInt32 × UInt32)) : List FlowPlan :=
  pairs.zipIdx.map fun (pair, i) =>
    { srcId := pair.1
      dstId := pair.2
      port := flowPort i
      bytesPlanned := if sampledSizes i = 0 then 1 else sampledSizes i }

/-- What a sink listens at. -/
def FlowPlan.key (plan : FlowPlan) : UInt32 × UInt16 := (plan.dstId, plan.port)

/- The sockets during the simulation -/

/-- A packet of a flow whose payload a sink has been given. -/
structure Delivery where
  sink : Nat
  flow : Nat
  bytes : Nat

/-- The sockets of each node, and `m_totalRx` of each sink. Nothing reads what
`deliveries` has recorded. -/
structure Sockets where
  demux : UInt32 → Ipv4EndPointDemux
  totalRx : Nat → Nat
  deliveries : List Delivery

/-- PacketSink::StartApplication of the flows from the `i`th on, which all start at
time 0. A socket that cannot be bound ends the program. -/
def startSinks (demux : UInt32 → Ipv4EndPointDemux) :
    Nat → List FlowPlan → Option (UInt32 → Ipv4EndPointDemux)
  | _, [] => some demux
  | i, plan :: plans =>
      match (demux plan.dstId).bind plan.port (.packetSink i) with
      | none => none
      | some bound => startSinks (Function.update demux plan.dstId bound) (i + 1) plans

/-- What happens to the sockets once the sinks have started. -/
inductive SocketEvent
  /-- OnOffApplication::StartApplication. TCP connects the socket, at the address it sends from. -/
  | startClient (i : Nat) (connected : Option (UInt32 × InetSocketAddress))
  /-- A connection that flow `i` asks for is accepted. -/
  | accept (i : Nat) (daddr : UInt32) (peer : InetSocketAddress)
  /-- A packet of flow `i` arrives, of which so many bytes are passed on. -/
  | receive (i : Nat) (daddr : UInt32) (peer : InetSocketAddress) (bytes : Nat)
  /-- A socket of a node is closed. -/
  | close (node : UInt32) (endPoint : Ipv4EndPoint)

namespace Sockets

def setDemux (s : Sockets) (node : UInt32) (demux : Ipv4EndPointDemux) : Sockets :=
  { s with demux := Function.update s.demux node demux }

/-- PacketSink::HandleRead of the socket's owner. A sender has shut its socket down
for reading. -/
def handleRead (s : Sockets) (endPoint : Ipv4EndPoint) (flow bytes : Nat) : Sockets :=
  match endPoint.owner with
  | .packetSink sink =>
      { s with
        totalRx := Function.update s.totalRx sink (s.totalRx sink + bytes)
        deliveries := s.deliveries ++ [⟨sink, flow, bytes⟩] }
  | .onOff _ => s

/-- `none` when the program ends: a sender finds no port, or several sockets match. -/
def step (plans : List FlowPlan) (s : Sockets) : SocketEvent → Option Sockets
  | .startClient i connected =>
      match plans[i]? with
      | none => some s
      | some plan =>
          ((s.demux plan.srcId).allocate (connected.map (·.1)) (connected.map (·.2))
            (.onOff i)).map (s.setDemux plan.srcId)
  | .accept i daddr peer =>
      match plans[i]? with
      | none => some s
      | some plan =>
          let local_ : InetSocketAddress := ⟨daddr, plan.port⟩
          match (s.demux plan.dstId).lookup local_ peer with
          | [] => some s
          | [endPoint] =>
              match endPoint.owner with
              | .packetSink sink =>
                  some (s.setDemux plan.dstId
                    ((s.demux plan.dstId).fork local_ peer (.packetSink sink)))
              | .onOff _ => some s
          | _ => none
  | .receive i daddr peer bytes =>
      match plans[i]? with
      | none => some s
      | some plan =>
          match (s.demux plan.dstId).lookup ⟨daddr, plan.port⟩ peer with
          | [] => some s
          | [endPoint] => some (s.handleRead endPoint i bytes)
          | _ => none
  | .close node endPoint => some (s.setDemux node ((s.demux node).deAllocate endPoint))

def run (plans : List FlowPlan) (s : Sockets) : List SocketEvent → Option Sockets
  | [] => some s
  | event :: events => (s.step plans event).bind fun next => next.run plans events

/-- The bytes of a flow that some sink has been given. -/
def delivered (s : Sockets) (flow : Nat) : Nat :=
  ((s.deliveries.filter fun delivery => delivery.flow = flow).map (·.bytes)).sum

/-- The loop that adds up what the sinks have received. -/
def totalReceivedBytes (s : Sockets) (plans : List FlowPlan) : Nat :=
  plans.zipIdx.foldl (fun total (plan, i) =>
    total + min (s.totalRx i) plan.bytesPlanned.toNat) 0

end Sockets

/- The ports -/

theorem flowPort_toNat (i : Nat) : (flowPort i).toNat = (10000 + i) % 65536 := by
  unfold flowPort basePort
  rw [UInt32.toNat_toUInt16, UInt32.toNat_add, UInt32.toNat_ofNat']
  have base : (10000 : UInt32).toNat = 10000 := rfl
  omega

theorem choosePairs_length {edgeNodes : List UInt32} {flows : Nat} {draws : List Nat}
    {pairs : List (UInt32 × UInt32)} (drawn : choosePairs edgeNodes flows draws = some pairs) :
    pairs.length = flows := by
  induction flows generalizing draws pairs with
  | zero =>
    cases drawn
    rfl
  | succ flows ih =>
    cases draws with
    | nil => cases drawn
    | cons draw draws =>
      rw [choosePairs] at drawn
      split at drawn
      · cases drawn
      · obtain ⟨rest, others, rfl⟩ := Option.map_eq_some_iff.mp drawn
        rw [List.length_cons, ih others]

section Plans

variable {sampledSizes : Nat → UInt32} {pairs : List (UInt32 × UInt32)}

theorem flowPlans_ports : (flowPlans sampledSizes pairs).map FlowPlan.port =
    (List.range' 0 pairs.length).map flowPort := by
  rw [flowPlans, List.map_map, ← List.zipIdx_map_snd, List.map_map]
  rfl

/-- As long as the ports do not wrap round, each flow has one of its own. -/
theorem flowPlans_keys (few : pairs.length ≤ 55536) :
    ((flowPlans sampledSizes pairs).map FlowPlan.key).Nodup := by
  have ports : ((flowPlans sampledSizes pairs).map FlowPlan.port).Nodup := by
    rw [flowPlans_ports]
    refine List.Nodup.map_on (fun i first j second same => ?_) List.nodup_range'
    have wrapped := congrArg UInt16.toNat same
    rw [flowPort_toNat, flowPort_toNat] at wrapped
    rw [List.mem_range'_1] at first second
    omega
  refine List.Nodup.of_map Prod.snd ?_
  rw [List.map_map]
  exact ports

theorem flowPlans_real (few : pairs.length ≤ 55536) :
    ∀ plan ∈ flowPlans sampledSizes pairs, plan.port ≠ 0 := by
  intro plan member zero
  have listed : plan.port ∈ (flowPlans sampledSizes pairs).map FlowPlan.port :=
    List.mem_map_of_mem member
  rw [flowPlans_ports, List.mem_map] at listed
  obtain ⟨i, inside, port⟩ := listed
  have wrapped := congrArg UInt16.toNat (port.trans zero)
  rw [flowPort_toNat] at wrapped
  rw [List.mem_range'_1] at inside
  change (10000 + i) % 65536 = 0 at wrapped
  omega

/-- The port after the last one is 0. -/
theorem flowPlans_void (many : 55536 < pairs.length) :
    ∃ plan ∈ flowPlans sampledSizes pairs, plan.port = 0 := by
  have inside : (flowPort 55536) ∈ (flowPlans sampledSizes pairs).map FlowPlan.port := by
    rw [flowPlans_ports]
    exact List.mem_map_of_mem (List.mem_range'_1.mpr (by omega))
  obtain ⟨plan, member, port⟩ := List.mem_map.mp inside
  refine ⟨plan, member, port.trans ?_⟩
  decide

end Plans

/- Starting the sinks -/

/-- While the sinks start, the sockets of a node are those of the flows to it. -/
structure Listening (plans : List FlowPlan) (demux : UInt32 → Ipv4EndPointDemux) : Prop where
  sinks : ∀ node, ∀ endPoint ∈ (demux node).endPoints, ∃ i plan, endPoint.owner = .packetSink i ∧
    plans[i]? = some plan ∧ plan.key = (node, endPoint.localPort)
  distinct : ∀ node, (demux node).Distinct

theorem Listening.new : Listening [] fun _ => .new :=
  ⟨fun _ _ member => absurd member List.not_mem_nil, fun _ => List.nodup_nil⟩

/-- Where no flow has its sink yet, there is no socket. -/
theorem Listening.free {plans : List FlowPlan} {demux : UInt32 → Ipv4EndPointDemux}
    (listening : Listening plans demux) {plan : FlowPlan}
    (fresh : plan.key ∉ plans.map FlowPlan.key) :
    ∀ endPoint ∈ (demux plan.dstId).endPoints, endPoint.localPort ≠ plan.port := by
  intro endPoint member same
  obtain ⟨i, other, -, listed, key⟩ := listening.sinks plan.dstId endPoint member
  refine fresh (List.mem_map.mpr ⟨other, List.mem_of_getElem? listed, ?_⟩)
  rw [key, same]
  rfl

theorem Listening.snoc {plans : List FlowPlan} {demux : UInt32 → Ipv4EndPointDemux}
    (listening : Listening plans demux) {plan : FlowPlan}
    (fresh : plan.key ∉ plans.map FlowPlan.key) :
    Listening (plans ++ [plan]) (Function.update demux plan.dstId
      ((demux plan.dstId).add ⟨none, plan.port, none, .packetSink plans.length⟩)) := by
  have before : ∀ node, ∀ endPoint ∈ (demux node).endPoints, ∃ i other,
      endPoint.owner = .packetSink i ∧ (plans ++ [plan])[i]? = some other ∧
        other.key = (node, endPoint.localPort) := by
    intro node endPoint member
    obtain ⟨i, other, owner, listed, key⟩ := listening.sinks node endPoint member
    refine ⟨i, other, owner, ?_, key⟩
    have inside := (List.getElem?_eq_some_iff.mp listed).1
    rw [List.getElem?_append_left inside, listed]
  constructor
  · intro node endPoint member
    by_cases same : node = plan.dstId
    · subst same
      rw [Function.update_self, Ipv4EndPointDemux.mem_add] at member
      rcases member with earlier | rfl
      · exact before plan.dstId endPoint earlier
      · exact ⟨plans.length, plan, rfl, by simp, rfl⟩
    · rw [Function.update_of_ne same] at member
      exact before node endPoint member
  · intro node
    by_cases same : node = plan.dstId
    · subst same
      rw [Function.update_self]
      exact (listening.distinct plan.dstId).add fun endPoint member tuple =>
        listening.free fresh endPoint member (Ipv4EndPoint.fourTuple_eq.mp tuple).1
    · rw [Function.update_of_ne same]
      exact listening.distinct node

/-- Sinks at real ports, no two of them at the same, all start. -/
theorem startSinks_listening {before plans : List FlowPlan}
    {demux : UInt32 → Ipv4EndPointDemux} (listening : Listening before demux)
    (keys : ((before ++ plans).map FlowPlan.key).Nodup) (real : ∀ plan ∈ plans, plan.port ≠ 0) :
    ∃ started, startSinks demux before.length plans = some started ∧
      Listening (before ++ plans) started := by
  induction plans generalizing before demux with
  | nil =>
    refine ⟨demux, rfl, ?_⟩
    rw [List.append_nil]
    exact listening
  | cons plan plans ih =>
    have fresh : plan.key ∉ before.map FlowPlan.key := by
      rw [List.map_append, List.map_cons] at keys
      intro taken
      exact (List.nodup_append.mp keys).2.2 plan.key taken plan.key List.mem_cons_self rfl
    have bound := Ipv4EndPointDemux.bind_free (.packetSink before.length)
      (real plan List.mem_cons_self) (listening.free fresh)
    rw [List.append_cons] at keys ⊢
    obtain ⟨started, installed, all⟩ := ih (listening.snoc fresh) keys fun other member =>
      real other (List.mem_cons_of_mem _ member)
    refine ⟨started, ?_, all⟩
    rw [List.length_append, List.length_singleton] at installed
    rw [startSinks, bound]
    exact installed

/- What the sinks receive -/

/-- The sockets of a sink are all at the port of its flow, and what the sink has counted
is what its flow has brought. -/
structure Sockets.Apart (plans : List FlowPlan) (s : Sockets) : Prop where
  owned : ∀ node, ∀ endPoint ∈ (s.demux node).endPoints, ∀ i, endPoint.owner = .packetSink i →
    ∃ plan, plans[i]? = some plan ∧ plan.key = (node, endPoint.localPort)
  distinct : ∀ node, (s.demux node).Distinct
  own : ∀ delivery ∈ s.deliveries, delivery.sink = delivery.flow
  counted : ∀ i, s.totalRx i = s.delivered i

/-- Nothing has been received when the sinks have started. -/
theorem Listening.apart {plans : List FlowPlan} {demux : UInt32 → Ipv4EndPointDemux}
    (listening : Listening plans demux) : Sockets.Apart plans ⟨demux, fun _ => 0, []⟩ := by
  refine ⟨?_, listening.distinct, fun _ member => absurd member List.not_mem_nil, fun _ => rfl⟩
  intro node endPoint member i sink
  obtain ⟨j, plan, owner, listed, key⟩ := listening.sinks node endPoint member
  rw [owner] at sink
  obtain rfl := Application.packetSink.inj sink
  exact ⟨plan, listed, key⟩

namespace Sockets

variable {plans : List FlowPlan} {s next : Sockets}

@[simp] theorem demux_setDemux (node : UInt32) (demux : Ipv4EndPointDemux) :
    (s.setDemux node demux).demux = Function.update s.demux node demux := rfl

theorem Apart.setDemux (apart : s.Apart plans) {node : UInt32} {demux : Ipv4EndPointDemux}
    (owned : ∀ endPoint ∈ demux.endPoints, ∀ i, endPoint.owner = .packetSink i →
      ∃ plan, plans[i]? = some plan ∧ plan.key = (node, endPoint.localPort))
    (distinct : demux.Distinct) : (s.setDemux node demux).Apart plans := by
  refine ⟨?_, ?_, apart.own, apart.counted⟩
  · intro other
    by_cases same : other = node
    · subst same
      rw [demux_setDemux, Function.update_self]
      exact owned
    · rw [demux_setDemux, Function.update_of_ne same]
      exact apart.owned other
  · intro other
    by_cases same : other = node
    · subst same
      rw [demux_setDemux, Function.update_self]
      exact distinct
    · rw [demux_setDemux, Function.update_of_ne same]
      exact apart.distinct other

/-- At a node, the sink at the port of a flow is the sink of the flow. -/
theorem Apart.sink_eq (apart : s.Apart plans) (keys : (plans.map FlowPlan.key).Nodup)
    {i sink : Nat} {plan : FlowPlan} (listed : plans[i]? = some plan) {endPoint : Ipv4EndPoint}
    (member : endPoint ∈ (s.demux plan.dstId).endPoints)
    (port : endPoint.localPort = plan.port) (owner : endPoint.owner = .packetSink sink) :
    sink = i := by
  obtain ⟨other, installed, key⟩ := apart.owned plan.dstId endPoint member sink owner
  have inside : i < (plans.map FlowPlan.key).length := by
    rw [List.length_map]
    exact (List.getElem?_eq_some_iff.mp listed).1
  have same : (plans.map FlowPlan.key)[i]? = (plans.map FlowPlan.key)[sink]? := by
    rw [List.getElem?_map, List.getElem?_map, listed, installed, Option.map_some, Option.map_some,
      key, port]
    rfl
  exact ((List.getElem?_inj inside keys).mp same).symm

theorem Apart.handleRead (apart : s.Apart plans) {endPoint : Ipv4EndPoint} {flow bytes : Nat}
    (mine : ∀ sink, endPoint.owner = .packetSink sink → sink = flow) :
    (s.handleRead endPoint flow bytes).Apart plans := by
  unfold Sockets.handleRead
  split
  · rename_i sink owner
    obtain rfl := mine sink owner
    refine ⟨apart.owned, apart.distinct, ?_, ?_⟩
    · intro delivery member
      rcases List.mem_append.mp member with earlier | now
      · exact apart.own delivery earlier
      · rw [List.mem_singleton.mp now]
    · intro i
      have before := apart.counted i
      unfold delivered at before ⊢
      rw [List.filter_append, List.map_append, List.sum_append, ← before]
      by_cases same : sink = i
      · subst same
        simp
      · simp [same, Function.update_of_ne (Ne.symm same)]
  · exact apart

/-- What one event can do to the sockets. -/
inductive Stepped (plans : List FlowPlan) (s : Sockets) : Sockets → Prop
  | idle : Stepped plans s s
  | started {i : Nat} {plan : FlowPlan} {address : Option UInt32}
      {peer : Option InetSocketAddress} {demux : Ipv4EndPointDemux}
      (allocated : (s.demux plan.srcId).allocate address peer (.onOff i) = some demux) :
      Stepped plans s (s.setDemux plan.srcId demux)
  | accepted {plan : FlowPlan} {endPoint : Ipv4EndPoint} {sink : Nat} (daddr : UInt32)
      (peer : InetSocketAddress) (listens : endPoint ∈ (s.demux plan.dstId).endPoints)
      (port : endPoint.localPort = plan.port) (owner : endPoint.owner = .packetSink sink) :
      Stepped plans s (s.setDemux plan.dstId
        ((s.demux plan.dstId).fork ⟨daddr, plan.port⟩ peer (.packetSink sink)))
  | received {i : Nat} {plan : FlowPlan} {endPoint : Ipv4EndPoint} (bytes : Nat)
      (listed : plans[i]? = some plan) (listens : endPoint ∈ (s.demux plan.dstId).endPoints)
      (port : endPoint.localPort = plan.port) : Stepped plans s (s.handleRead endPoint i bytes)
  | closed (node : UInt32) (endPoint : Ipv4EndPoint) :
      Stepped plans s (s.setDemux node ((s.demux node).deAllocate endPoint))

theorem step_stepped {event : SocketEvent} (stepped : s.step plans event = some next) :
    Stepped plans s next := by
  cases event with
  | startClient i connected =>
    rw [step] at stepped
    split at stepped
    · obtain rfl := Option.some.inj stepped
      exact .idle
    · obtain ⟨demux, allocated, rfl⟩ := Option.map_eq_some_iff.mp stepped
      exact .started allocated
  | accept i daddr peer =>
    rw [step] at stepped
    split at stepped
    · obtain rfl := Option.some.inj stepped
      exact .idle
    · dsimp only at stepped
      split at stepped
      · obtain rfl := Option.some.inj stepped
        exact .idle
      · rename_i endPoint found
        have ⟨listens, port⟩ := Ipv4EndPointDemux.mem_lookup
          (found ▸ List.mem_singleton_self endPoint)
        split at stepped
        · rename_i owner
          obtain rfl := Option.some.inj stepped
          exact .accepted daddr peer listens port owner
        · obtain rfl := Option.some.inj stepped
          exact .idle
      · cases stepped
  | receive i daddr peer bytes =>
    rw [step] at stepped
    split at stepped
    · obtain rfl := Option.some.inj stepped
      exact .idle
    · rename_i listed
      split at stepped
      · obtain rfl := Option.some.inj stepped
        exact .idle
      · rename_i endPoint found
        have ⟨listens, port⟩ := Ipv4EndPointDemux.mem_lookup
          (found ▸ List.mem_singleton_self endPoint)
        obtain rfl := Option.some.inj stepped
        exact .received bytes listed listens port
      · cases stepped
  | close node endPoint =>
    obtain rfl := Option.some.inj stepped
    exact .closed node endPoint

theorem Apart.step (apart : s.Apart plans) (keys : (plans.map FlowPlan.key).Nodup)
    (stepped : Stepped plans s next) : next.Apart plans := by
  cases stepped with
  | idle => exact apart
  | @started i plan address peer demux allocated =>
    refine apart.setDemux ?_ ((apart.distinct plan.srcId).allocate allocated)
    obtain ⟨port, -, placed⟩ := Ipv4EndPointDemux.allocate_spec allocated
    intro endPoint member j owner
    rw [placed, List.mem_append, List.mem_singleton] at member
    rcases member with earlier | rfl
    · exact apart.owned plan.srcId endPoint earlier j owner
    · cases owner
  | @accepted plan endPoint sink daddr peer listens port owner =>
    refine apart.setDemux ?_ ((apart.distinct plan.dstId).fork _ _ _)
    rcases Ipv4EndPointDemux.fork_spec (s.demux plan.dstId) ⟨daddr, plan.port⟩ peer
      (.packetSink sink) with unchanged | ⟨-, added⟩
    · rw [unchanged]
      exact apart.owned plan.dstId
    · rw [added]
      intro other member j sinks
      rcases Ipv4EndPointDemux.mem_add.mp member with earlier | rfl
      · exact apart.owned plan.dstId other earlier j sinks
      · obtain rfl := Application.packetSink.inj sinks
        -- the socket of the connection is at the port of the one that listens
        have ⟨known, installed, key⟩ := apart.owned plan.dstId endPoint listens sink owner
        exact ⟨known, installed, port ▸ key⟩
  | received bytes listed listens port =>
    exact apart.handleRead fun sink owner => apart.sink_eq keys listed listens port owner
  | closed node endPoint =>
    refine apart.setDemux ?_ ((apart.distinct node).deAllocate endPoint)
    intro other member
    exact apart.owned node other (Ipv4EndPointDemux.mem_deAllocate member)

theorem Apart.run (apart : s.Apart plans) (keys : (plans.map FlowPlan.key).Nodup)
    {events : List SocketEvent} (ran : s.run plans events = some next) : next.Apart plans := by
  induction events generalizing s with
  | nil =>
    obtain rfl := Option.some.inj ran
    exact apart
  | cons event events ih =>
    obtain ⟨middle, stepped, rest⟩ := Option.bind_eq_some_iff.mp ran
    exact ih (apart.step keys (step_stepped stepped)) rest

/-- Nothing but a sender that finds no port can end the program. -/
theorem Apart.step_eq_none (apart : s.Apart plans) {event : SocketEvent}
    (ended : s.step plans event = none) : ∃ i connected, event = .startClient i connected := by
  cases event with
  | startClient i connected => exact ⟨i, connected, rfl⟩
  | accept i daddr peer =>
    exfalso
    rw [Sockets.step] at ended
    split at ended
    · cases ended
    · rename_i plan listed
      dsimp only at ended
      rcases (apart.distinct plan.dstId).lookup ⟨daddr, plan.port⟩ peer with
        void | ⟨endPoint, found⟩
      · simp [void] at ended
      · rw [found] at ended
        dsimp only at ended
        split at ended
        · cases ended
        · cases ended
  | receive i daddr peer bytes =>
    exfalso
    rw [Sockets.step] at ended
    split at ended
    · cases ended
    · rename_i plan listed
      rcases (apart.distinct plan.dstId).lookup ⟨daddr, plan.port⟩ peer with
        void | ⟨endPoint, found⟩
      · simp [void] at ended
      · simp [found] at ended
  | close node endPoint => cases ended

theorem Apart.totalReceivedBytes (apart : s.Apart plans) :
    s.totalReceivedBytes plans = (plans.zipIdx.map fun (plan, i) =>
      min (s.delivered i) plan.bytesPlanned.toNat).sum := by
  rw [Sockets.totalReceivedBytes, List.sum_eq_foldl, List.foldl_map]
  simp only [apart.counted]

end Sockets

/- A sink for each flow -/

/-- The sinks are at different places, none of them at port 0. They all start, and whatever
happens then, each counts the bytes of its own flow, and the sum has each of them once, up
to what was planned. -/
structure OwnSinks (plans : List FlowPlan) : Prop where
  keys : (plans.map FlowPlan.key).Nodup
  real : ∀ plan ∈ plans, plan.port ≠ 0
  received : ∃ demux, startSinks (fun _ => .new) 0 plans = some demux ∧
    ∀ events s, Sockets.run plans ⟨demux, fun _ => 0, []⟩ events = some s →
      (∀ delivery ∈ s.deliveries, delivery.sink = delivery.flow) ∧
      (∀ i, s.totalRx i = s.delivered i) ∧
      s.totalReceivedBytes plans = (plans.zipIdx.map fun (plan, i) =>
        min (s.delivered i) plan.bytesPlanned.toNat).sum ∧
      ∀ event, s.step plans event = none → ∃ i connected, event = .startClient i connected

theorem OwnSinks.of_keys {plans : List FlowPlan} (keys : (plans.map FlowPlan.key).Nodup)
    (real : ∀ plan ∈ plans, plan.port ≠ 0) : OwnSinks plans := by
  obtain ⟨demux, started, listening⟩ := startSinks_listening .new keys real
  refine ⟨keys, real, demux, started, fun events s ran => ?_⟩
  have apart := listening.apart.run keys ran
  exact ⟨apart.own, apart.counted, apart.totalReceivedBytes, fun event => apart.step_eq_none⟩

/-- Whatever is drawn, each flow has a sink of its own exactly when the ports from 10000
on suffice. Only the first of them is checked. -/
theorem own_sinks {edgeNodes : List UInt32} {flows : UInt32} {draws : List Nat}
    {pairs : List (UInt32 × UInt32)}
    (drawn : choosePairs edgeNodes flows.toNat draws = some pairs)
    (sampledSizes : Nat → UInt32) :
    OwnSinks (flowPlans sampledSizes pairs) ↔ flows.toNat ≤ 55536 := by
  have length := choosePairs_length drawn
  constructor
  · intro own
    by_contra many
    have wrapped : ∃ plan ∈ flowPlans sampledSizes pairs, plan.port = 0 :=
      flowPlans_void (by omega)
    obtain ⟨plan, member, zero⟩ := wrapped
    exact own.real plan member zero
  · intro few
    exact .of_keys (flowPlans_keys (by omega)) (flowPlans_real (by omega))

/-- Two flows between two nodes, one each way. -/
theorem own_sinks_pair : OwnSinks (flowPlans (fun _ => 100) [(0, 1), (1, 0)]) := by
  have drawn : choosePairs [0, 1] (2 : UInt32).toNat [0, 1, 1, 0] = some [(0, 1), (1, 0)] := rfl
  exact (own_sinks drawn fun _ => 100).mpr (by decide)

/-- Draws of 0 and 1 in turn make every flow one from the first of two nodes to the second. -/
theorem choosePairs_turns (flows : Nat) :
    choosePairs [0, 1] flows (List.replicate flows [0, 1]).flatten =
      some (List.replicate flows (0, 1)) := by
  induction flows with
  | zero => rfl
  | succ flows ih =>
    have first : selectDst [0, 1] (pickFrom [0, 1] 0)
        (1 :: (List.replicate flows [0, 1]).flatten) =
        some (1, (List.replicate flows [0, 1]).flatten) := by
      rw [selectDst]
      exact if_neg (by decide)
    rw [List.replicate_succ, List.flatten_cons]
    change choosePairs [0, 1] (flows + 1) (0 :: 1 :: (List.replicate flows [0, 1]).flatten) = _
    rw [choosePairs, first]
    dsimp only
    rw [ih]
    rfl

/-- The last of 55537 flows is to port 0. -/
theorem own_sinks_wrapped :
    choosePairs [0, 1] (55537 : UInt32).toNat (List.replicate 55537 [0, 1]).flatten =
        some (List.replicate 55537 (0, 1)) ∧
      ¬ OwnSinks (flowPlans (fun _ => 100) (List.replicate 55537 (0, 1))) := by
  refine ⟨choosePairs_turns 55537, fun own => ?_⟩
  have wrapped : ∃ plan ∈ flowPlans (fun _ => 100) (List.replicate 55537 (0, 1)), plan.port = 0 :=
    flowPlans_void (by rw [List.length_replicate]; omega)
  obtain ⟨plan, member, zero⟩ := wrapped
  exact own.real plan member zero

end QbbNet
