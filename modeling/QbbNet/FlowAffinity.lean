import QbbNet.FlowLookups
import QbbNet.EgressPrediction

set_option autoImplicit false

/- Whether the packets of a flow are kept on one route. -/
namespace QbbNet

open Ipv4GlobalRouting (usable)

variable {ι : Type} [DecidableEq ι] {node : Ipv4Node ι} {flow : FlowKey}

/-- The devices of two lookups leave them the same routes, and they hash alike. -/
def HashAlike (node : Ipv4Node ι) (first second : GlobalLookup ι) : Prop :=
  (∀ route, usable node first.oif route = usable node second.oif route) ∧
    ((∃ route, usable node first.oif route = true) → first.hash32 node = second.hash32 node)

section Kept

variable {routing : Ipv4GlobalRouting} {first second : GlobalLookup ι}

theorem HashAlike.selects (alike : HashAlike node first second) (dest : first.dest = second.dest)
    (perflow : routing.perflowEcmpRouting = true) (draw draw' : UInt32) :
    routing.selects node draw first = routing.selects node draw' second := by
  have same : usable node first.oif = usable node second.oif := funext alike.1
  have routes : routing.allRoutes node first.dest first.oif =
      routing.allRoutes node second.dest second.oif := by
    unfold Ipv4GlobalRouting.allRoutes
    rw [dest, same]
  rw [Ipv4GlobalRouting.selects_pick perflow, Ipv4GlobalRouting.selects_pick perflow, ← routes]
  cases listed : routing.allRoutes node first.dest first.oif with
  | nil => rfl
  | cons route others =>
    have member : route ∈ routing.allRoutes node first.dest first.oif := by
      rw [listed]
      exact List.mem_cons_self
    rw [alike.2 ⟨route, Ipv4GlobalRouting.usable_of_mem member⟩]

end Kept

def Ipv4RoutingTableEntry.toHost (route : Ipv4RoutingTableEntry) (dest : UInt32) :
    Ipv4RoutingTableEntry :=
  { route with dest, destNetworkMask := 0xffffffff }

/-- Routes to one host, in per-flow mode. -/
def Ipv4GlobalRouting.ofHost (dest : UInt32) (routes : List Ipv4RoutingTableEntry)
    (weights : EcmpWeights) : Ipv4GlobalRouting where
  hostRoutes := routes.map (·.toHost dest)
  networkRoutes := []
  asExternalRoutes := []
  hosts route member := by
    have ⟨_, _, made⟩ := List.mem_map.mp member
    rw [← made]
    rfl
  perflowEcmpRouting := true
  randomEcmpRouting := false
  weights := weights

/-- Some routes and weights part the two lookups. -/
def Parted (node : Ipv4Node ι) (flow : FlowKey) (first second : GlobalLookup ι) : Prop :=
  ∃ routing : Ipv4GlobalRouting, routing.perflowEcmpRouting = true ∧
    routing.Routes node flow first ∧ routing.Routes node flow second ∧
    routing.selects node 0 first ≠ routing.selects node 0 second

section Part

variable {first second lookup : GlobalLookup ι} {route other : Ipv4RoutingTableEntry}

theorem Parted.symm (parted : Parted node flow first second) : Parted node flow second first := by
  have ⟨routing, perflow, routes, also, different⟩ := parted
  exact ⟨routing, perflow, also, routes, different.symm⟩

/-- What a lookup picks of the routes to its host. -/
def GlobalLookup.picks (lookup : GlobalLookup ι) (node : Ipv4Node ι) (weights : EcmpWeights)
    (routes : List Ipv4RoutingTableEntry) : Option Ipv4RoutingTableEntry :=
  (routes.filter (usable node lookup.oif))[weights.pick node.nodeId
    (routes.filter (usable node lookup.oif)).length (lookup.hash32 node)]?

section Routed

variable {routing routing' : Ipv4GlobalRouting} {weights : EcmpWeights}
  {routes : List Ipv4RoutingTableEntry}

/-- A route through the same interface. -/
def Ipv4RoutingTableEntry.via (route : Ipv4RoutingTableEntry) (gateway : UInt32) :
    Ipv4RoutingTableEntry :=
  { route with gateway }

end Routed

/-- A device binds only a TCP socket, or a UDP one without a local address. -/
theorem GlobalLookup.Steady.oif (steady : lookup.Steady node flow) (udp : flow.protocol = 17) :
    lookup.oif = none := by
  cases steady (.ofHost 0 [] (.load fun _ => none)) with
  | forwarded segment offset length header behind addressed => rfl
  | sendPacketV4 segment oif behind tcp =>
    rw [tcp] at udp
    exact absurd udp (by decide)
  | sendBound segment boundnetdevice behind udp bound =>
    unfold GlobalLookup.doSendTo
    rw [if_pos bound]
  | sendUnbound segment boundnetdevice behind udp route selected sourced => cases selected

variable {routing routing' : Ipv4GlobalRouting}

end Part

/-- Packets that show the flow's own words are sent alike. -/
theorem GlobalLookup.Own.alike {first second : GlobalLookup ι} (own : first.Own flow)
    (own' : second.Own flow) : HashAlike node first second := by
  constructor
  · intro route
    rw [own.1, own'.1]
  · intro _
    rw [hash32, hash32, own.2, own'.2]

end QbbNet
