import QbbNet.FlowClassifier
import QbbNet.RouteDelivery

set_option autoImplicit false

/- The packets that are counted as one flow take one path where routes are chosen by the
flow. -/
namespace QbbNet

variable {ι : Type}

/-- The words of a flow as LookupGlobal reads them. -/
def FiveTuple.key (tuple : FiveTuple) : FlowKey :=
  ⟨tuple.sourceAddress, tuple.destinationAddress, tuple.sourcePort, tuple.destinationPort,
    tuple.protocol⟩

/-- The words that RouteInput reads of a packet. -/
def keyOf (behind : Nat → UInt8) (packet : FlowHeader × List UInt8) : Option FlowKey :=
  flowKey behind (some packet.1.toIpHeader) (some packet.2)

/-- A packet that has a tuple holds its ports, and LookupGlobal hashes the tuple. -/
theorem keyOf_fiveTuple {packet : FlowHeader × List UInt8} {tuple : FiveTuple}
    (read : fiveTuple packet.1 packet.2 = some tuple) (behind : Nat → UInt8) :
    keyOf behind packet = some tuple.key := by
  obtain ⟨header, payload⟩ := packet
  unfold fiveTuple at read
  split at read
  · cases read
  split at read
  · cases read
  split at read
  case h_2 => cases read
  case h_1 other s0 s1 d0 d1 rest bytes =>
    cases read
    dsimp only at bytes
    subst bytes
    have transport : header.protocol = 6 ∨ header.protocol = 17 := by tauto
    unfold keyOf flowKey
    dsimp only
    rw [if_pos transport, peekPorts_cons]
    rfl

theorem destination_fiveTuple {packet : FlowHeader × List UInt8} {tuple : FiveTuple}
    (read : fiveTuple packet.1 packet.2 = some tuple) :
    packet.1.destination = tuple.destinationAddress := by
  unfold fiveTuple at read
  split at read
  · cases read
  split at read
  · cases read
  split at read
  · cases read
    rfl
  · cases read

/-- The tuple of a packet that has been counted. -/
theorem Ipv4FlowClassifier.exists_tuple {packets : List (FlowHeader × List UInt8)}
    (few : packets.length < 2 ^ 32) {i : Nat} {packet : FlowHeader × List UInt8} {flowId : FlowId}
    {packetId : FlowPacketId} (there : packets[i]? = some packet)
    (counted : (new.classifyAll packets).1[i]? = some (some (flowId, packetId))) :
    ∃ tuple ∈ tuplesOf packets, fiveTuple packet.1 packet.2 = some tuple ∧
      flowId = numberOf (tuplesOf packets) tuple := by
  have start : new.Knows (tuplesOf []) (classified []) := .new
  obtain ⟨_, numbered⟩ := start.classifyAll packets few
  have found := (numbered i packet there).symm.trans counted
  obtain ⟨tuple, read, number⟩ := Option.map_eq_some_iff.mp (Option.some.inj found)
  exact ⟨tuple, List.mem_filterMap.mpr ⟨packet, List.mem_of_getElem? there, read⟩, read,
    (congrArg Prod.fst number).symm⟩

variable [DecidableEq ι]

/-- The hops of a packet from where it has arrived. -/
inductive Internet.Takes (net : Internet ι) (packet : FlowHeader × List UInt8) (a : Arrival ι) :
    Nat → Arrival ι → Prop
  | here : Internet.Takes net packet a 0 a
  | hop {n : Nat} {r next : Router ι} {iif iif' ttl : Nat} {draw : UInt32} {behind : Nat → UInt8}
      {entry : Ipv4RoutingTableEntry} : Internet.Takes net packet a n ⟨r, iif, ttl⟩ → 1 < ttl →
      r.routeInput draw packet.1.destination (keyOf behind packet) iif = .forward entry →
      net.across r entry.interface = some (next, iif') →
      Internet.Takes net packet a (n + 1) ⟨next, iif', ttl - 1⟩

/-- By whichever interface the packets come in, and whatever is drawn and is in the memory
behind them, RouteInput decides alike on them. -/
def Router.DecidesAlike (router : Router ι) (first second : FlowHeader × List UInt8) : Prop :=
  ∀ (draw draw' : UInt32) (behind behind' : Nat → UInt8) (iif : Nat),
    router.routeInput draw first.1.destination (keyOf behind first) iif =
      router.routeInput draw' second.1.destination (keyOf behind' second) iif

section Alike

variable {router : Router ι} {first second : FlowHeader × List UInt8} {tuple : FiveTuple}

/-- What is drawn does not matter where the route is chosen by the flow. -/
theorem Router.route_perflow (perflow : router.routing.perflowEcmpRouting = true)
    (draw draw' : UInt32) (dest : UInt32) (key : Option FlowKey) :
    router.route draw dest key = router.route draw' dest key := by
  unfold Router.route Ipv4GlobalRouting.selectRoute Ipv4GlobalRouting.selectIndex
  rw [perflow]
  rfl

theorem Router.decidesAlike (perflow : router.routing.perflowEcmpRouting = true)
    (read : fiveTuple first.1 first.2 = some tuple)
    (read' : fiveTuple second.1 second.2 = some tuple) : router.DecidesAlike first second := by
  intro draw draw' behind behind' iif
  have dest := (destination_fiveTuple read).trans (destination_fiveTuple read').symm
  rw [keyOf_fiveTuple read, keyOf_fiveTuple read', dest]
  unfold Router.routeInput
  rw [Router.route_perflow perflow draw draw']

/-- The entry that a packet is forwarded by does not hang on the interface that it came by. -/
theorem Router.routeInput_forward {draw dest : UInt32} {key : Option FlowKey} {iif : Nat}
    {entry : Ipv4RoutingTableEntry} (forwarded : router.routeInput draw dest key iif = .forward entry) :
    router.route draw dest key = some entry := by
  unfold Router.routeInput at forwarded
  split at forwarded
  · cases forwarded
  split at forwarded
  · cases forwarded
  split at forwarded
  case h_2 => cases forwarded
  case h_1 route => rw [route, Router.Fate.forward.inj forwarded]

end Alike

theorem Internet.mem_of_across {net : Internet ι} {r next : Router ι} {i iif : Nat}
    (across : net.across r i = some (next, iif)) : next ∈ net.nodes := by
  unfold Internet.across at across
  simp only [Option.bind_eq_bind, Option.bind_eq_some_iff, Option.some.injEq,
    Prod.mk.injEq] at across
  obtain ⟨device, _, ndRemote, _, node, found, interface, _, rfl, _⟩ := across
  exact List.mem_of_find?_eq_some found

/-- Packets with the same words that are at one router take the same hops. -/
theorem Internet.Takes.same {net : Internet ι}
    (perflow : ∀ r ∈ net.nodes, r.routing.perflowEcmpRouting = true)
    {first second : FlowHeader × List UInt8} {tuple : FiveTuple}
    (read : fiveTuple first.1 first.2 = some tuple)
    (read' : fiveTuple second.1 second.2 = some tuple) {a a' : Arrival ι}
    (here : a.router ∈ net.nodes) (together : a.router = a'.router) {n : Nat} {b : Arrival ι}
    (takes : net.Takes first a n b) :
    b.router ∈ net.nodes ∧ ∀ c, net.Takes second a' n c → b.router = c.router ∧
      (a.iif = a'.iif ∨ 0 < n → b.iif = c.iif) ∧ (a.ttl = a'.ttl → b.ttl = c.ttl) := by
  induction takes with
  | here =>
    refine ⟨here, fun c takes' => ?_⟩
    cases takes'
    exact ⟨together, fun start => start.resolve_right (Nat.lt_irrefl 0), id⟩
  | @hop n r next iif iif' ttl draw behind entry takes alive routed across ih =>
    obtain ⟨listed, only⟩ := ih
    refine ⟨Internet.mem_of_across across, fun c takes' => ?_⟩
    cases takes' with
    | @hop _ r' next' iif₁ iif₂ ttl' draw' behind' entry' takes' alive' routed' across' =>
      obtain ⟨rfl, _, lives⟩ := only _ takes'
      -- the first packet would be forwarded by the interface of the second
      have route := Router.routeInput_forward routed
      have route' := Router.routeInput_forward routed'
      have dest := (destination_fiveTuple read).trans (destination_fiveTuple read').symm
      rw [keyOf_fiveTuple read, dest, Router.route_perflow (perflow r listed) draw draw'] at route
      rw [keyOf_fiveTuple read', route, Option.some.injEq] at route'
      rw [← route', across, Option.some.injEq, Prod.mk.injEq] at across'
      refine ⟨across'.1, fun _ => across'.2, fun same => ?_⟩
      have left := lives same
      dsimp only at left ⊢
      rw [left]

/-- Where the routes are chosen by the flow, the packets that the classifier counts as one
flow take the same hops from any router that both have come to, and are decided alike
wherever they come, whatever is drawn and whichever weights are loaded. -/
theorem one_flow_one_path (packets : List (FlowHeader × List UInt8)) (few : packets.length < 2 ^ 32)
    {net : Internet ι} (perflow : ∀ r ∈ net.nodes, r.routing.perflowEcmpRouting = true)
    {i j : Nat} {first second : FlowHeader × List UInt8} {flowId : FlowId}
    {packetId packetId' : FlowPacketId} (at_i : packets[i]? = some first)
    (at_j : packets[j]? = some second)
    (counted : (Ipv4FlowClassifier.new.classifyAll packets).1[i]? = some (some (flowId, packetId)))
    (counted' :
      (Ipv4FlowClassifier.new.classifyAll packets).1[j]? = some (some (flowId, packetId')))
    {a a' : Arrival ι} (here : a.router ∈ net.nodes) (together : a.router = a'.router)
    (n : Nat) (b c : Arrival ι) (takes : net.Takes first a n b) (takes' : net.Takes second a' n c) :
    b.router = c.router ∧ (a.iif = a'.iif ∨ 0 < n → b.iif = c.iif) ∧
      (a.ttl = a'.ttl → b.ttl = c.ttl) ∧ b.router.DecidesAlike first second := by
  obtain ⟨tuple, seen, read, number⟩ := Ipv4FlowClassifier.exists_tuple few at_i counted
  obtain ⟨tuple', seen', read', number'⟩ := Ipv4FlowClassifier.exists_tuple few at_j counted'
  have short := lt_of_le_of_lt (Ipv4FlowClassifier.length_tuplesOf_le packets) few
  obtain rfl := (numberOf_inj short seen seen').mp (number.symm.trans number')
  obtain ⟨listed, same⟩ := takes.same perflow read read' here together
  obtain ⟨router, iif, ttl⟩ := same c takes'
  exact ⟨router, iif, ttl, Router.decidesAlike (perflow _ listed) read read'⟩

/- Two links side by side, and two packets of a flow over them -/

def parallelAddress (host : UInt32) : Ipv4InterfaceAddress := ⟨host, 0xffffff00, host ||| 0xff⟩

def parallelRouter (id : UInt32) (first second : Nat) (addresses : UInt32 × UInt32)
    (hostRoutes : List Ipv4RoutingTableEntry) (hosts : ∀ route ∈ hostRoutes, route.isHost) :
    Router Nat where
  routerId := id
  node :=
    { nodeId := id
      devices := [first, second]
      interfaces := [⟨first, [parallelAddress addresses.1], true, true⟩,
        ⟨second, [parallelAddress addresses.2], true, true⟩]
      strongEndSystemModel := false
      checksumEnabled := false }
  metrics := [1, 1]
  static := ⟨[]⟩
  routing := { Ipv4GlobalRouting.new true false (.load fun _ => none) with hostRoutes, hosts }

def parallelFar : Router Nat :=
  parallelRouter 1 2 3 (0x0a000002, 0x0a000102) [] (List.forall_mem_nil _)

def parallelNear : Router Nat :=
  parallelRouter 0 0 1 (0x0a000001, 0x0a000101)
    [⟨0x0a000909, 0xffffffff, 0x0a000002, 0⟩, ⟨0x0a000909, 0xffffffff, 0x0a000102, 1⟩]
    (by simp [Ipv4RoutingTableEntry.isHost])

def parallelLinks : Internet Nat where
  nodes := [parallelNear, parallelFar]
  peer := fun d => if d < 2 then some (d + 2) else some (d - 2)
  loopback := fun _ => false

def parallelPacket (data : UInt8) : FlowHeader × List UInt8 :=
  (⟨⟨⟨0⟩, 20, 9, 17, 0x0a000005, 0x0a000909⟩, 0, true⟩, [0, 7, 0, 80, 0, 9, 0, 0, data])

/-- Where a packet arrives for what is drawn. -/
def parallelArrival (draw : UInt32) (data : UInt8) : Arrival Nat :=
  match parallelNear.route draw 0x0a000909 (keyOf (fun _ => 0) (parallelPacket data)) with
  | some entry => ⟨parallelFar, entry.interface, 63⟩
  | none => ⟨parallelNear, 0, 64⟩

theorem parallelArrival_takes {draw : UInt32} {data : UInt8} {entry : Ipv4RoutingTableEntry}
    (route : parallelNear.route draw 0x0a000909 (keyOf (fun _ => 0) (parallelPacket data)) = some entry)
    (across : parallelLinks.across parallelNear entry.interface = some (parallelFar, entry.interface)) :
    parallelLinks.Takes (parallelPacket data) ⟨parallelNear, 0, 64⟩ 1 (parallelArrival draw data) := by
  have routed : parallelNear.routeInput draw (parallelPacket data).1.destination
      (keyOf (fun _ => 0) (parallelPacket data)) 0 = .forward entry := by
    show parallelNear.routeInput draw 0x0a000909 _ 0 = _
    unfold Router.routeInput
    rw [if_neg (by decide), if_neg (by decide)]
    show (match parallelNear.route draw 0x0a000909 (keyOf (fun _ => 0) (parallelPacket data)) with
      | some entry => Router.Fate.forward entry
      | none => .noRoute) = _
    rw [route]
  unfold parallelArrival
  rw [route]
  exact .hop .here (by decide) routed across

theorem one_flow_one_path_parallel :
    (parallelArrival 0 3).router = (parallelArrival 1 5).router ∧
      (parallelArrival 0 3).iif = (parallelArrival 1 5).iif ∧
      (parallelArrival 0 3).router.DecidesAlike (parallelPacket 3) (parallelPacket 5) := by
  have perflow : ∀ r ∈ parallelLinks.nodes, r.routing.perflowEcmpRouting = true := by
    intro r mem
    rcases List.mem_pair.mp mem with rfl | rfl <;> rfl
  have counted (i : Fin 2) : (Ipv4FlowClassifier.new.classifyAll
      [parallelPacket 3, parallelPacket 5]).1[i.val]? = some (some (1, UInt32.ofNat i.val)) := by
    revert i
    decide +kernel
  have first : parallelNear.route 0 0x0a000909 (keyOf (fun _ => 0) (parallelPacket 3)) =
      some ⟨0x0a000909, 0xffffffff, 0x0a000002, 0⟩ := by
    decide +kernel
  have second : parallelNear.route 1 0x0a000909 (keyOf (fun _ => 0) (parallelPacket 5)) =
      some ⟨0x0a000909, 0xffffffff, 0x0a000002, 0⟩ := by
    decide +kernel
  obtain ⟨router, iif, _, alike⟩ := one_flow_one_path [parallelPacket 3, parallelPacket 5]
    (by decide) perflow rfl rfl (counted 0) (counted 1) List.mem_cons_self rfl 1 _ _
    (parallelArrival_takes first rfl) (parallelArrival_takes second rfl)
  exact ⟨router, iif (Or.inl rfl), alike⟩

end QbbNet
