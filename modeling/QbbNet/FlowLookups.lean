import QbbNet.EcmpSteering

set_option autoImplicit false

/- The lookups that a node makes for the packets of a TCP or UDP flow. -/
namespace QbbNet

open Ipv4GlobalRouting (usable)

variable {ι : Type}

/-- The arguments of a call of LookupGlobal, and the memory behind the payload. -/
structure GlobalLookup (ι : Type) where
  dest : UInt32
  oif : Option ι
  hdr : IpHeader
  payload : List UInt8
  behind : Nat → UInt8

/-- What a default Ipv4Address holds. -/
abbrev uninitialized : UInt32 := 0x66666666

/-- An Ipv4Header of which no more is set than the addresses and the protocol. -/
def sendHeader (source destination : UInt32) (protocol : UInt8) : IpHeader where
  tos := 0
  headerSize := 20
  payloadSize := 0
  protocol := protocol
  source := source
  destination := destination

/-- Ipv4GlobalRouting::RouteInput -/
def GlobalLookup.routeInput (p : List UInt8) (header : IpHeader) (behind : Nat → UInt8) :
    GlobalLookup ι :=
  ⟨header.destination, none, header, p, behind⟩

/-- TcpL4Protocol::SendPacketV4 -/
def GlobalLookup.sendPacketV4 (packet outgoingHeader : List UInt8) (saddr daddr : UInt32)
    (oif : Option ι) (behind : Nat → UInt8) : GlobalLookup ι :=
  ⟨daddr, oif, sendHeader saddr daddr 6, outgoingHeader ++ packet, behind⟩

/-- UdpSocketImpl::DoSendTo. With a local address the packet gets its header in
UdpL4Protocol::Send, and is routed in Ipv4L3Protocol::Send. -/
def GlobalLookup.doSendTo (p udpHeader : List UInt8) (localAddress dest : UInt32)
    (boundnetdevice : Option ι) (behind : Nat → UInt8) : GlobalLookup ι :=
  if localAddress ≠ 0 then
    ⟨dest, none,
      { sendHeader localAddress dest 17 with
        payloadSize := UInt16.ofNat (udpHeader ++ p).length }, udpHeader ++ p, behind⟩
  else ⟨dest, boundnetdevice, sendHeader uninitialized dest 17, p, behind⟩

/-- The transport header and the data of a packet of a flow. The ports come first,
and what follows them is at least as long as the protocol has it. -/
structure Segment (flow : FlowKey) where
  rest : List UInt8
  data : List UInt8
  transport : flow.protocol = 6 ∧ 16 ≤ rest.length ∨ flow.protocol = 17 ∧ rest.length = 4

namespace Segment

variable {flow : FlowKey}

def header (segment : Segment flow) : List UInt8 :=
  writeHtonU16 flow.sourcePort ++ writeHtonU16 flow.destinationPort ++ segment.rest

def bytes (segment : Segment flow) : List UInt8 := segment.header ++ segment.data

theorem protocol (segment : Segment flow) : flow.protocol = 6 ∨ flow.protocol = 17 :=
  segment.transport.imp And.left And.left

end Segment

/-- A lookup that reads the flow's own words, and may use any device. -/
def GlobalLookup.Own (flow : FlowKey) (lookup : GlobalLookup ι) : Prop :=
  lookup.oif = none ∧ flowKey lookup.behind (some lookup.hdr) (some lookup.payload) = some flow

/-- The hash that a packet is sent by, if its words are looked for. -/
def GlobalLookup.hash32 (node : Ipv4Node ι) (lookup : GlobalLookup ι) : Option UInt32 :=
  (flowKey lookup.behind (some lookup.hdr) (some lookup.payload)).map (·.hash node.heavySalt)

variable {flow : FlowKey}

theorem peekPorts_ports (behind : Nat → UInt8) (sport dport : UInt16) (tail : List UInt8) :
    peekPorts behind (writeHtonU16 sport ++ writeHtonU16 dport ++ tail) = (sport, dport) := by
  show peekPorts behind (_ :: _ :: _ :: _ :: tail) = _
  rw [peekPorts_cons, readNtohU16_writeHtonU16, readNtohU16_writeHtonU16]

/-- A header for the flow before its ports gives the flow's words. -/
theorem flowKey_own (behind : Nat → UInt8) {hdr : IpHeader} (tail : List UInt8)
    (segment : Segment flow)
    (addressed : hdr.source = flow.source ∧ hdr.destination = flow.destination ∧
      hdr.protocol = flow.protocol) :
    flowKey behind (some hdr)
      (some (writeHtonU16 flow.sourcePort ++ writeHtonU16 flow.destinationPort ++ tail)) =
        some flow := by
  have ⟨source, destination, protocol⟩ := addressed
  unfold flowKey
  dsimp only
  rw [source, destination, protocol, if_pos segment.protocol, peekPorts_ports]

/-- Forwarded whole, or as a first fragment that holds the ports. -/
theorem own_forwarded (segment : Segment flow) {length : Nat} {header : IpHeader}
    (addressed : header.source = flow.source ∧ header.destination = flow.destination ∧
      header.protocol = flow.protocol) (ports : 4 ≤ length) (behind : Nat → UInt8) :
    (GlobalLookup.routeInput ((segment.bytes.drop 0).take length) header behind :
      GlobalLookup ι).Own flow := by
  refine ⟨rfl, ?_⟩
  obtain ⟨more, rfl⟩ := Nat.exists_eq_add_of_le' ports
  have taken : (segment.bytes.drop 0).take (more + 4) =
      writeHtonU16 flow.sourcePort ++ writeHtonU16 flow.destinationPort ++
        (segment.rest ++ segment.data).take more := by
    simp [Segment.bytes, Segment.header, writeHtonU16]
  show flowKey behind (some header) (some ((segment.bytes.drop 0).take (more + 4))) = some flow
  rw [taken]
  exact flowKey_own behind _ segment addressed

/-- Sent by TCP, from a socket that is not bound to a device. -/
theorem own_sendPacketV4 (segment : Segment flow) (tcp : flow.protocol = 6)
    (behind : Nat → UInt8) :
    (GlobalLookup.sendPacketV4 segment.data segment.header flow.source flow.destination none
      behind : GlobalLookup ι).Own flow := by
  refine ⟨rfl, ?_⟩
  show flowKey behind (some (sendHeader flow.source flow.destination 6))
    (some (segment.header ++ segment.data)) = some flow
  rw [Segment.header, List.append_assoc]
  exact flowKey_own behind _ segment ⟨rfl, rfl, tcp.symm⟩

/-- Sent by UDP, from a socket with a local address. -/
theorem own_doSendTo (segment : Segment flow) (boundnetdevice : Option ι) (udp : flow.protocol = 17)
    (bound : flow.source ≠ 0) (behind : Nat → UInt8) :
    (GlobalLookup.doSendTo segment.data segment.header flow.source flow.destination
      boundnetdevice behind).Own flow := by
  unfold GlobalLookup.doSendTo
  rw [if_pos bound]
  refine ⟨rfl, ?_⟩
  dsimp only
  rw [Segment.header, List.append_assoc]
  exact flowKey_own behind _ segment ⟨rfl, rfl, udp.symm⟩

/-- Whole packets, and fragments that begin with the ports, that are forwarded, and what
is sent over any device with the flow's source. -/
inductive GlobalLookup.Plain (flow : FlowKey) : GlobalLookup ι → Prop
  | forwarded (segment : Segment flow) (length : Nat) (header : IpHeader) (behind : Nat → UInt8)
      (addressed : header.source = flow.source ∧ header.destination = flow.destination ∧
        header.protocol = flow.protocol) (ports : 4 ≤ length) :
      Plain flow (.routeInput ((segment.bytes.drop 0).take length) header behind)
  | sendPacketV4 (segment : Segment flow) (behind : Nat → UInt8) (tcp : flow.protocol = 6) :
      Plain flow
        (.sendPacketV4 segment.data segment.header flow.source flow.destination none behind)
  | sendBound (segment : Segment flow) (boundnetdevice : Option ι) (behind : Nat → UInt8)
      (udp : flow.protocol = 17) (bound : flow.source ≠ 0) :
      Plain flow
        (.doSendTo segment.data segment.header flow.source flow.destination boundnetdevice behind)

theorem GlobalLookup.Plain.own {lookup : GlobalLookup ι} (plain : lookup.Plain flow) :
    lookup.Own flow := by
  cases plain with
  | forwarded segment length header behind addressed ports =>
    exact own_forwarded segment addressed ports behind
  | sendPacketV4 segment behind tcp => exact own_sendPacketV4 segment tcp behind
  | sendBound segment boundnetdevice behind udp bound =>
    exact own_doSendTo segment boundnetdevice udp bound behind

variable [DecidableEq ι] {node : Ipv4Node ι}

namespace Ipv4GlobalRouting

/-- The entry that LookupGlobal selects. -/
def selects (routing : Ipv4GlobalRouting) (node : Ipv4Node ι) (draw : UInt32)
    (lookup : GlobalLookup ι) : Option Ipv4RoutingTableEntry :=
  routing.selectRoute node draw lookup.dest lookup.oif
    (flowKey lookup.behind (some lookup.hdr) (some lookup.payload))

/-- The lookups that a node makes for the packets of a flow: those that it
forwards, whole or in fragments, and those that its sockets send. A UDP socket
without a local address sends from that of the route it gets. -/
inductive Routes (routing : Ipv4GlobalRouting) (node : Ipv4Node ι) (flow : FlowKey) :
    GlobalLookup ι → Prop
  | forwarded (segment : Segment flow) (offset length : Nat) (header : IpHeader)
      (behind : Nat → UInt8)
      (addressed : header.source = flow.source ∧ header.destination = flow.destination ∧
        header.protocol = flow.protocol) :
      Routes routing node flow
        (.routeInput ((segment.bytes.drop offset).take length) header behind)
  | sendPacketV4 (segment : Segment flow) (oif : Option ι) (behind : Nat → UInt8)
      (tcp : flow.protocol = 6) :
      Routes routing node flow
        (.sendPacketV4 segment.data segment.header flow.source flow.destination oif behind)
  | sendBound (segment : Segment flow) (boundnetdevice : Option ι) (behind : Nat → UInt8)
      (udp : flow.protocol = 17) (bound : flow.source ≠ 0) :
      Routes routing node flow
        (.doSendTo segment.data segment.header flow.source flow.destination boundnetdevice behind)
  | sendUnbound (segment : Segment flow) (boundnetdevice : Option ι) (behind : Nat → UInt8)
      (udp : flow.protocol = 17) (route : Ipv4RoutingTableEntry)
      (selected : routing.selects node 0
        (.doSendTo segment.data segment.header 0 flow.destination boundnetdevice behind) = some route)
      (sourced : (node.addresses route.interface).head?.map (·.localAddress) = some flow.source) :
      Routes routing node flow
        (.doSendTo segment.data segment.header 0 flow.destination boundnetdevice behind)

variable {routing : Ipv4GlobalRouting} {lookup : GlobalLookup ι}

theorem Routes.dest (routes : routing.Routes node flow lookup) : lookup.dest = flow.destination := by
  cases routes with
  | forwarded segment offset length header behind addressed => exact addressed.2.1
  | sendPacketV4 segment oif behind tcp => rfl
  | sendBound segment boundnetdevice behind udp bound =>
    unfold GlobalLookup.doSendTo
    rw [if_pos bound]
  | sendUnbound segment boundnetdevice behind udp route selected sourced => rfl

theorem selects_pick (perflow : routing.perflowEcmpRouting = true) (node : Ipv4Node ι) (draw : UInt32)
    (lookup : GlobalLookup ι) :
    routing.selects node draw lookup =
      (routing.allRoutes node lookup.dest lookup.oif)[routing.weights.pick node.nodeId
        (routing.allRoutes node lookup.dest lookup.oif).length (lookup.hash32 node)]? := by
  unfold selects selectRoute
  dsimp only
  generalize routing.allRoutes node lookup.dest lookup.oif = routes
  rw [selectIndex_place routing node routes.length (Or.inl perflow)]
  by_cases several : 1 < routes.length
  · rw [place, if_pos ⟨several, perflow⟩]
    rfl
  · by_cases empty : routes = []
    · subst empty
      rfl
    · have some_route := List.length_pos_iff.mpr empty
      have first (place : Option UInt32) : routing.weights.pick node.nodeId routes.length place = 0 := by
        have inside := (routing.weights.pick_lt node.nodeId place some_route).1
        omega
      rw [first, first]

end Ipv4GlobalRouting

namespace GlobalLookup

/-- The node makes the lookup for the flow whatever its routes are, unlike that of
a UDP socket without a local address. -/
def Steady (lookup : GlobalLookup ι) (node : Ipv4Node ι) (flow : FlowKey) : Prop :=
  ∀ routing : Ipv4GlobalRouting, routing.Routes node flow lookup

end GlobalLookup

section Routed

variable {routing : Ipv4GlobalRouting} {lookup : GlobalLookup ι} {route : Ipv4RoutingTableEntry}

theorem Ipv4GlobalRouting.usable_of_mem {dest : UInt32} {oif : Option ι}
    (member : route ∈ routing.allRoutes node dest oif) : usable node oif route = true := by
  unfold allRoutes at member
  dsimp only at member
  split at member
  · have ⟨_, held⟩ := List.mem_filter.mp member
    simp only [Bool.and_eq_true] at held
    exact held.2
  · split at member
    · have ⟨_, held⟩ := List.mem_filter.mp member
      simp only [Bool.and_eq_true] at held
      exact held.2
    · have held := List.find?_some (Option.mem_toList.mp member)
      simp only [Bool.and_eq_true] at held
      exact held.2

end Routed

end QbbNet
