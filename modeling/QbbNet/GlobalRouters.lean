import QbbNet.SpfCalculation

set_option autoImplicit false

/- The routers of a network: what they advertise, the tables that are calculated for
them, and how they send a packet on by their static and their global routes. -/
namespace QbbNet

variable {ι : Type} [DecidableEq ι]

/-- Ipv4L3Protocol::GetInterfaceForPrefix -/
def Ipv4Node.getInterfaceForPrefix (node : Ipv4Node ι) (address mask : UInt32) : Int :=
  let holds (interface : Ipv4Interface ι) : Bool :=
    interface.addresses.any fun ifa => isMatch mask ifa.localAddress address
  match node.interfaces.findIdx? holds with
  | some interface => interface
  | none => -1

def Ipv4Node.isUp (node : Ipv4Node ι) (i : Nat) : Bool :=
  ((node.interfaces[i]?).map (·.up)).getD false

def Ipv4Node.isForwarding (node : Ipv4Node ι) (i : Nat) : Bool :=
  ((node.interfaces[i]?).map (·.forwarding)).getD false

/- Static routes -/

/-- Each route has a metric. -/
structure Ipv4StaticRouting where
  networkRoutes : List (Ipv4RoutingTableEntry × UInt32)

/-- The loop of GetPrefixLength: how often the mask is shifted until it is zero. -/
def shiftsToZero : Nat → UInt32 → Nat
  | 0, _ => 0
  | fuel + 1, mask => if mask = 0 then 0 else shiftsToZero fuel (mask <<< 1) + 1

/-- Ipv4Mask::GetPrefixLength -/
def prefixLength (mask : UInt32) : Nat := shiftsToZero 32 mask

namespace Ipv4StaticRouting

/-- AddNetworkRouteTo, without a next hop and with the default metric. -/
def addNetworkRouteTo (static : Ipv4StaticRouting) (network networkMask : UInt32) (interface : Nat) :
    Ipv4StaticRouting :=
  let route : Ipv4RoutingTableEntry := ⟨network, networkMask, 0, interface⟩
  if (route, 0) ∈ static.networkRoutes then static
  else ⟨static.networkRoutes ++ [(route, 0)]⟩

/-- The value of an address or a mask that has not been set. -/
def uninitialized : UInt32 := 0x66666666

def notifyInterfaceUp (node : Ipv4Node ι) (static : Ipv4StaticRouting) (i : Nat) : Ipv4StaticRouting :=
  (node.addresses i).foldl (fun static ifa =>
    if ifa.localAddress ≠ uninitialized ∧ ifa.mask ≠ uninitialized ∧ ifa.mask ≠ 0xffffffff then
      static.addNetworkRouteTo (ifa.localAddress &&& ifa.mask) ifa.mask i
    else static) static

/-- SetIpv4, of a protocol without routes. -/
def setIpv4 (node : Ipv4Node ι) : Ipv4StaticRouting :=
  ((List.range node.interfaces.length).filter node.isUp).foldl (notifyInterfaceUp node) ⟨[]⟩

/-- The loop of LookupStatic, which ends at a host route. Routes over other devices than
the requested one are skipped. -/
def lookupLoop (node : Ipv4Node ι) (oif : Option ι) (dest : UInt32) :
    List (Ipv4RoutingTableEntry × UInt32) → Nat → UInt32 → Option Ipv4RoutingTableEntry →
      Option Ipv4RoutingTableEntry
  | [], _, _, rtentry => rtentry
  | (j, metric) :: routes, longestMask, shortestMetric, rtentry =>
      let masklen := prefixLength j.destNetworkMask
      if isMatch j.destNetworkMask dest j.dest = false then
        lookupLoop node oif dest routes longestMask shortestMetric rtentry
      else if Ipv4GlobalRouting.usable node oif j = false then
        lookupLoop node oif dest routes longestMask shortestMetric rtentry
      else if masklen < longestMask then
        lookupLoop node oif dest routes longestMask shortestMetric rtentry
      else
        let shortestMetric := if longestMask < masklen then 0xffffffff else shortestMetric
        if shortestMetric < metric then
          lookupLoop node oif dest routes masklen shortestMetric rtentry
        else if masklen = 32 then some j
        else lookupLoop node oif dest routes masklen metric (some j)

/-- LookupStatic, of a destination that is not a link-local multicast address. -/
def lookupStatic (static : Ipv4StaticRouting) (node : Ipv4Node ι) (dest : UInt32)
    (oif : Option ι) : Option Ipv4RoutingTableEntry :=
  lookupLoop node oif dest static.networkRoutes 0 0xffffffff none

end Ipv4StaticRouting

/-- A node with a GlobalRouter and the two routing protocols that InternetStackHelper
installs. Each interface has a metric. -/
structure Router (ι : Type) where
  routerId : UInt32
  node : Ipv4Node ι
  metrics : List UInt16
  static : Ipv4StaticRouting
  routing : Ipv4GlobalRouting

/-- NodeList, and the channels that join two devices. -/
structure Internet (ι : Type) where
  nodes : List (Router ι)
  peer : ι → Option ι
  loopback : ι → Bool

namespace Internet

variable (net : Internet ι)

/-- The node of a device. -/
def nodeOf (device : ι) : Option (Router ι) := net.nodes.find? fun r => r.node.devices.contains device

/-- The records that ProcessPointToPointLink adds. -/
def processPointToPointLink (router : Router ι) (ndLocal : ι) (interfaceLocal : Nat) :
    Option (List GlobalRoutingLinkRecord) := do
  let addrLocal ← (router.node.addresses interfaceLocal).head?
  let metricLocal ← router.metrics[interfaceLocal]?
  let ndRemote ← net.peer ndLocal
  let nodeRemote ← net.nodeOf ndRemote
  let interfaceRemote ← nodeRemote.node.interfaceForDevice ndRemote
  let addrRemote ← (nodeRemote.node.addresses interfaceRemote).head?
  let link : GlobalRoutingLinkRecord :=
    ⟨nodeRemote.routerId, addrLocal.localAddress, .pointToPoint, metricLocal⟩
  let stub : GlobalRoutingLinkRecord :=
    ⟨addrRemote.localAddress, addrRemote.mask, .stubNetwork, metricLocal⟩
  some (if nodeRemote.node.isUp interfaceRemote then [link, stub] else [stub])

/-- What DiscoverLSAs does with one device. -/
def discoverDevice (router : Router ι) (ndLocal : ι) : Option (List GlobalRoutingLinkRecord) :=
  if net.loopback ndLocal then some []
  else
    match router.node.interfaceForDevice ndLocal with
    | none => some []
    | some interfaceNumber =>
        if router.node.isUp interfaceNumber ∧ router.node.isForwarding interfaceNumber then
          net.processPointToPointLink router ndLocal interfaceNumber
        else some []

/-- DiscoverLSAs: the Router-LSA, which is the only one. -/
def discoverLSAs (router : Router ι) : Option GlobalRoutingLSA :=
  (router.node.devices.mapM (net.discoverDevice router)).map fun records =>
    ⟨router.routerId, records.flatten⟩

def buildGlobalRoutingDatabase : Option GlobalRouteManagerLSDB :=
  net.nodes.foldlM (fun lsdb router => (net.discoverLSAs router).map lsdb.insert)
    GlobalRouteManagerLSDB.empty

/-- FindOutgoingInterfaceId, whose mask is that of a host. -/
def findOutgoingInterfaceId (routerId a : UInt32) : Int :=
  match net.nodes.find? (·.routerId == routerId) with
  | some router => router.node.getInterfaceForPrefix a 0xffffffff
  | none => -1

/-- Every node gets the routes that are calculated with it as the root. -/
def initializeRoutes (lsdb : GlobalRouteManagerLSDB) : Option (Internet ι) :=
  (net.nodes.mapM fun router =>
    (spfCalculate lsdb router.routerId (net.findOutgoingInterfaceId router.routerId)
      router.routing).map fun routing => { router with routing := routing }).map
        fun nodes => { net with nodes := nodes }

/-- Ipv4GlobalRoutingHelper::PopulateRoutingTables -/
def populateRoutingTables : Option (Internet ι) :=
  net.buildGlobalRoutingDatabase.bind net.initializeRoutes

end Internet

/- Ipv4ListRouting, with the static routes before the global ones -/

namespace Router

variable (router : Router ι) (draw : UInt32)

/-- The entry of the first protocol that has a route over any device. -/
def route (dest : UInt32) (key : Option FlowKey) : Option Ipv4RoutingTableEntry :=
  match router.static.lookupStatic router.node dest none with
  | some entry => some entry
  | none => router.routing.selectRoute router.node draw dest none key

/-- What becomes of a unicast packet that came in by an interface: the entry that it is
forwarded by. -/
inductive Fate
  | localDeliver
  | noForwarding
  | forward (entry : Ipv4RoutingTableEntry)
  | noRoute

def routeInput (dest : UInt32) (key : Option FlowKey) (iif : Nat) : Fate :=
  if router.node.isDestinationAddress dest iif then .localDeliver
  else if router.node.isForwarding iif = false then .noForwarding
  else
    match router.route draw dest key with
    | some entry => .forward entry
    | none => .noRoute

end Router

end QbbNet
