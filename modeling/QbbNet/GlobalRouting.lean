import QbbNet.EcmpWeights
import QbbNet.FlowHash

set_option autoImplicit false

/- Ipv4GlobalRouting on a node, and the routes it selects. -/
namespace QbbNet

variable {ι : Type} [DecidableEq ι]

structure Ipv4Interface (ι : Type) where
  device : ι
  addresses : List Ipv4InterfaceAddress
  up : Bool
  forwarding : Bool

/-- A node with Ipv4L3Protocol, its devices and their interfaces. -/
structure Ipv4Node (ι : Type) where
  nodeId : UInt32
  devices : List ι
  interfaces : List (Ipv4Interface ι)
  strongEndSystemModel : Bool
  checksumEnabled : Bool

structure Ipv4RoutingTableEntry where
  dest : UInt32
  destNetworkMask : UInt32
  gateway : UInt32
  interface : Nat
  deriving DecidableEq

def Ipv4RoutingTableEntry.isHost (route : Ipv4RoutingTableEntry) : Prop :=
  route.destNetworkMask = 0xffffffff

structure Ipv4GlobalRouting where
  hostRoutes : List Ipv4RoutingTableEntry
  networkRoutes : List Ipv4RoutingTableEntry
  asExternalRoutes : List Ipv4RoutingTableEntry
  hosts : ∀ route ∈ hostRoutes, route.isHost
  perflowEcmpRouting : Bool
  randomEcmpRouting : Bool
  weights : EcmpWeights

/-- An output device of `none` is a null pointer. -/
structure Ipv4Route (ι : Type) where
  destination : UInt32
  source : Option UInt32
  gateway : UInt32
  outputDevice : Option ι
  deriving DecidableEq

def isBroadcast (address : UInt32) : Bool := address == 0xffffffff

def isMulticast (address : UInt32) : Bool := 0xe0000000 ≤ address && address ≤ 0xefffffff

/-- Ipv4Mask::IsMatch -/
def isMatch (mask a b : UInt32) : Bool := (a &&& mask) == (b &&& mask)

namespace Ipv4Node

variable (node : Ipv4Node ι)

def netDevice (i : Nat) : Option ι := (node.interfaces[i]?).map (·.device)

/-- The last interface that was added for the device. -/
def interfaceForDevice (device : ι) : Option Nat :=
  ((node.interfaces.zipIdx.filter (·.1.device = device)).getLast?).map (·.2)

def addresses (i : Nat) : List Ipv4InterfaceAddress :=
  ((node.interfaces[i]?).map (·.addresses)).getD []

def heavySalt : UInt64 := getNodeHeavySalt node.nodeId (node.interfaces.map (·.addresses))

end Ipv4Node

def Ipv4InterfaceAddress.isFor (ifa : Ipv4InterfaceAddress) (address : UInt32) : Bool :=
  address == ifa.localAddress || address == ifa.broadcast

/-- The ports that TcpHeader and UdpHeader read. Nothing checks that the payload is as
long: the bytes that it lacks are read from the memory behind it, and where assertions
are enabled a header that is not whole ends the run. -/
def peekPorts (behind : Nat → UInt8) (payload : List UInt8) : UInt16 × UInt16 :=
  let byte (i : Nat) : UInt8 := payload.getD i (behind i)
  (readNtohU16 (byte 0) (byte 1), readNtohU16 (byte 2) (byte 3))

/-- Nothing behind the payload is read if it holds the ports. -/
theorem peekPorts_cons (behind : Nat → UInt8) (s0 s1 d0 d1 : UInt8) (rest : List UInt8) :
    peekPorts behind (s0 :: s1 :: d0 :: d1 :: rest) = (readNtohU16 s0 s1, readNtohU16 d0 d1) := rfl

/-- The words that a flow is told by, if LookupGlobal looks for them. -/
def flowKey (behind : Nat → UInt8) (hdr : Option IpHeader) (payload : Option (List UInt8)) :
    Option FlowKey :=
  match hdr, payload with
  | some hdr, some payload =>
      if hdr.protocol = 6 ∨ hdr.protocol = 17 then
        let ports := peekPorts behind payload
        some ⟨hdr.source, hdr.destination, ports.1, ports.2, hdr.protocol⟩
      else none
  | _, _ => none

/-- The index of a hash among `n` routes. -/
def hashIndex (weights : Option (List UInt32)) (n : Nat) (h32 : UInt32) : UInt32 :=
  match weights with
  | some weights => weightedIndex weights h32
  | none => equalIndex n h32

namespace Ipv4GlobalRouting

/- `draw` is what the random variable draws, if it is asked, and `behind` the memory
behind the packet. -/

variable (routing : Ipv4GlobalRouting) (node : Ipv4Node ι) (draw : UInt32) (behind : Nat → UInt8)

def usable (oif : Option ι) (route : Ipv4RoutingTableEntry) : Bool :=
  match oif with
  | none => true
  | some device => decide (node.netDevice route.interface = some device)

/-- Routes to the host, or else to its network, or else the first external one. -/
def allRoutes (dest : UInt32) (oif : Option ι) : List Ipv4RoutingTableEntry :=
  let toNetwork (route : Ipv4RoutingTableEntry) :=
    isMatch route.destNetworkMask dest route.dest && usable node oif route
  let host := routing.hostRoutes.filter fun route => route.dest == dest && usable node oif route
  if host ≠ [] then host
  else
    let network := routing.networkRoutes.filter toNetwork
    if network ≠ [] then network else (routing.asExternalRoutes.find? toNetwork).toList

/-- The index among `n` routes, for a packet whose flow has the key. -/
def selectIndex (n : Nat) (key : Option FlowKey) : UInt32 :=
  if 1 < n then
    if routing.perflowEcmpRouting then
      match key with
      | some key =>
          hashIndex (routing.weights.getNodeWeights node.nodeId n).1 n (key.hash node.heavySalt)
      | none => 0
    else if routing.randomEcmpRouting then draw
    else 0
  else 0

/-- The entry that is selected for a packet whose flow has the key. -/
def selectRoute (dest : UInt32) (oif : Option ι) (key : Option FlowKey) :
    Option Ipv4RoutingTableEntry :=
  let routes := routing.allRoutes node dest oif
  routes[(routing.selectIndex node draw routes.length key).toNat]?

def lookupGlobal (dest : UInt32) (oif : Option ι) (hdr : Option IpHeader)
    (payload : Option (List UInt8)) : Option (Ipv4Route ι) :=
  (routing.selectRoute node draw dest oif (flowKey behind hdr payload)).map fun route =>
    { destination := route.dest
      source := (node.addresses route.interface).head?.map (·.localAddress)
      gateway := route.gateway
      outputDevice := node.netDevice route.interface }

end Ipv4GlobalRouting

/-- Ipv4L3Protocol::IsDestinationAddress -/
def Ipv4Node.isDestinationAddress (node : Ipv4Node ι) (address : UInt32) (iif : Nat) : Bool :=
  (node.addresses iif).any (·.isFor address) || isMulticast address || isBroadcast address ||
    (!node.strongEndSystemModel &&
      (List.range node.interfaces.length).any fun j =>
        j != iif && (node.addresses j).any (·.isFor address))

/-- What becomes of a packet that Ipv4L3Protocol receives. -/
inductive Verdict (ι : Type)
  | interfaceDown
  | badChecksum
  | localDeliver
  | noForwarding
  | unicastForward (route : Ipv4Route ι)
  | noRoute
  deriving DecidableEq

namespace Ipv4GlobalRouting

variable (routing : Ipv4GlobalRouting) (node : Ipv4Node ι) (draw : UInt32) (behind : Nat → UInt8)

def routeInput (p : List UInt8) (header : IpHeader) (iif : Nat) : Verdict ι :=
  if node.isDestinationAddress header.destination iif then .localDeliver
  else if ((node.interfaces[iif]?).map (·.forwarding)).getD false = false then .noForwarding
  else
    match routing.lookupGlobal node draw behind header.destination none (some header) (some p) with
    | some rtentry => .unicastForward rtentry
    | none => .noRoute

/-- Ipv4L3Protocol::Receive, for a packet that begins with its IPv4 header. It is
an assertion that the device has an interface. -/
def receive (device : ι) (packet : List UInt8) (ipHeader : IpHeader) : Option (Verdict ι) :=
  (node.interfaceForDevice device).map fun interface =>
    if ((node.interfaces[interface]?).map (·.up)).getD false = false then .interfaceDown
    else if node.checksumEnabled ∧ calculateIpChecksum (packet.take ipHeader.headerSize) ≠ 0 then
      .badChecksum
    else
      -- residual padding is trimmed
      let payload := (packet.drop ipHeader.headerSize).take ipHeader.payloadSize.toNat
      routing.routeInput node draw behind payload ipHeader interface

end Ipv4GlobalRouting

def Packet.withoutPpp (p : Packet) : Packet := if p.peekPpp = some 0x0021 then p.removePpp else p

/-- QbbNetDevice::IsLocalDelivery -/
def Ipv4Node.isLocalDelivery (node : Ipv4Node ι) (pkt : Packet) : Bool :=
  match IpHeader.deserialize pkt.withoutPpp.bytes with
  | none => true
  | some ip =>
      isBroadcast ip.destination || isMulticast ip.destination ||
        node.interfaces.any fun interface => interface.addresses.any (·.isFor ip.destination)

end QbbNet
