import QbbNet.EcmpSteering

set_option autoImplicit false

/- Whether the port that a packet is charged to is the one that it is forwarded
through. -/
namespace QbbNet

variable {ι : Type} [DecidableEq ι]

/-- The egress port is the device that the packet is forwarded through, and there
is none exactly if the packet is delivered locally or finds no route. -/
structure PredictsEgress (node : Ipv4Node ι) (egressPort : Option Nat)
    (verdict : Option (Verdict ι)) : Prop where
  forwarded : ∀ port, egressPort = some port → ∃ route device,
    verdict = some (.unicastForward route) ∧ route.outputDevice = some device ∧
      node.devices[port]? = some device
  invalid : egressPort = none ↔ verdict = some .localDeliver ∨ verdict = some .noRoute

namespace Ipv4GlobalRouting

variable {routing : Ipv4GlobalRouting} {node : Ipv4Node ι} {dest : UInt32} {draw : UInt32}

end Ipv4GlobalRouting

variable {routing : Ipv4GlobalRouting} {node : Ipv4Node ι} {device : ι} {pkt : Packet} {ip : IpHeader}

/-- The payload that Receive hands to RouteInput. -/
def IpHeader.payload (ip : IpHeader) (packet : List UInt8) : List UInt8 :=
  (packet.drop ip.headerSize).take ip.payloadSize.toNat

omit [DecidableEq ι] in
/-- The port is right only if something becomes of the packet. -/
theorem PredictsEgress.settled {egressPort : Option Nat} {verdict : Option (Verdict ι)}
    (predicts : PredictsEgress node egressPort verdict) :
    verdict = some .localDeliver ∨ verdict = some .noRoute ∨
      ∃ route, verdict = some (.unicastForward route) := by
  cases port : egressPort with
  | none =>
    rcases predicts.invalid.mp port with delivered | lost
    · exact Or.inl delivered
    · exact Or.inr (Or.inl lost)
  | some index =>
    have ⟨route, _, forwarded, _⟩ := predicts.forwarded index port
    exact Or.inr (Or.inr ⟨route, forwarded⟩)

/-- The packet is received, and either it is for the receiving interface, or it is
forwarded, and there is no route for it, or it is for none and leaves rightly. -/
def Ipv4GlobalRouting.Passes (routing : Ipv4GlobalRouting) (node : Ipv4Node ι) (pkt : Packet)
    (ip : IpHeader) (iif : Nat) (interface : Ipv4Interface ι) (leaves : Prop) : Prop :=
  interface.up = true ∧
  (node.checksumEnabled = true →
    calculateIpChecksum (pkt.withoutPpp.bytes.take ip.headerSize) = 0) ∧
  (node.isDestinationAddress ip.destination iif = true ∨
    interface.forwarding = true ∧
      (routing.allRoutes node ip.destination none = [] ∨
        node.isLocalDelivery pkt = false ∧ leaves))

section Choices

variable {routes : List Ipv4RoutingTableEntry} {place : Option UInt32}

end Choices

theorem Ipv4GlobalRouting.Passes.imp {iif : Nat} {interface : Ipv4Interface ι} {leaves other : Prop}
    (passes : routing.Passes node pkt ip iif interface leaves)
    (imp : routing.allRoutes node ip.destination none ≠ [] → leaves → other) :
    routing.Passes node pkt ip iif interface other := by
  have ⟨up, sum, rest⟩ := passes
  refine ⟨up, sum, rest.imp_right fun forwarded => ⟨forwarded.1, ?_⟩⟩
  by_cases empty : routing.allRoutes node ip.destination none = []
  · exact Or.inl empty
  · have remote := forwarded.2.resolve_left empty
    exact Or.inr ⟨remote.1, imp empty remote.2⟩

end QbbNet
