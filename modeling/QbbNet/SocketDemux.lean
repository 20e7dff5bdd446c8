import Mathlib.Data.List.Nodup
import Mathlib.Tactic.Common

set_option autoImplicit false

/- The sockets that are open on a node, and the one that a packet reaches. -/
namespace QbbNet

/-- The applications that open sockets: the sink and the sender of each flow. -/
inductive Application
  | packetSink (flow : Nat)
  | onOff (flow : Nat)
  deriving DecidableEq

structure InetSocketAddress where
  ipv4 : UInt32
  port : UInt16
  deriving DecidableEq

/-- What a socket is bound to. Without a local address it is bound to any, and without
a peer it takes packets from everybody. -/
structure Ipv4EndPoint where
  localAddress : Option UInt32
  localPort : UInt16
  peer : Option InetSocketAddress
  owner : Application
  deriving DecidableEq

/-- What a packet is compared with. -/
def Ipv4EndPoint.fourTuple (endPoint : Ipv4EndPoint) :
    UInt16 × Option UInt32 × Option InetSocketAddress :=
  (endPoint.localPort, endPoint.localAddress, endPoint.peer)

theorem Ipv4EndPoint.fourTuple_eq {endPoint : Ipv4EndPoint} {port : UInt16}
    {address : Option UInt32} {peer : Option InetSocketAddress} :
    endPoint.fourTuple = (port, address, peer) ↔
      endPoint.localPort = port ∧ endPoint.localAddress = address ∧ endPoint.peer = peer := by
  rw [fourTuple, Prod.mk.injEq, Prod.mk.injEq]

structure Ipv4EndPointDemux where
  ephemeral : UInt16
  endPoints : List Ipv4EndPoint

namespace Ipv4EndPointDemux

def portFirst : UInt16 := 49152

def new : Ipv4EndPointDemux := ⟨portFirst, []⟩

def lookupPortLocal (demux : Ipv4EndPointDemux) (port : UInt16) : Bool :=
  demux.endPoints.any fun endPoint => endPoint.localPort = port

def lookupLocal (demux : Ipv4EndPointDemux) (address : Option UInt32) (port : UInt16) : Bool :=
  demux.endPoints.any fun endPoint =>
    endPoint.localPort = port && endPoint.localAddress = address

def add (demux : Ipv4EndPointDemux) (endPoint : Ipv4EndPoint) : Ipv4EndPointDemux :=
  { demux with endPoints := demux.endPoints ++ [endPoint] }

/-- `++port`, going back to the first ephemeral port at the end of the range. -/
def nextEphemeral (port : UInt16) : UInt16 := if port + 1 < portFirst then portFirst else port + 1

/-- The loop over the ephemeral ports, of as many rounds as there are such ports. -/
def allocateEphemeralPort (demux : Ipv4EndPointDemux) : Nat → UInt16 → Option UInt16
  | 0, _ => none
  | count + 1, port =>
      let port := nextEphemeral port
      if demux.lookupPortLocal port then demux.allocateEphemeralPort count port else some port

/-- A socket is bound to no port in particular. -/
def allocate (demux : Ipv4EndPointDemux) (localAddress : Option UInt32)
    (peer : Option InetSocketAddress) (owner : Application) : Option Ipv4EndPointDemux :=
  (demux.allocateEphemeralPort 16384 demux.ephemeral).map fun port =>
    { demux with ephemeral := port }.add ⟨localAddress, port, peer, owner⟩

/-- A socket is bound to a port at any address. -/
def bind (demux : Ipv4EndPointDemux) (port : UInt16) (owner : Application) :
    Option Ipv4EndPointDemux :=
  if port = 0 then demux.allocate none none owner
  else if demux.lookupLocal none port then none
  else some (demux.add ⟨none, port, none, owner⟩)

/-- The socket of a connection that a listening one has accepted. -/
def fork (demux : Ipv4EndPointDemux) (local_ peer : InetSocketAddress) (owner : Application) :
    Ipv4EndPointDemux :=
  let taken := demux.endPoints.any fun endPoint =>
    endPoint.localPort = local_.port && endPoint.localAddress = some local_.ipv4 &&
      endPoint.peer = some peer
  if taken then demux else demux.add ⟨some local_.ipv4, local_.port, some peer, owner⟩

/-- Ipv4EndPointDemux::Lookup. A socket that is connected to the sender is preferred, and
among equals one at the very address. -/
def lookup (demux : Ipv4EndPointDemux) (local_ peer : InetSocketAddress) : List Ipv4EndPoint :=
  let matching (address : Option UInt32) (from_ : Option InetSocketAddress) :=
    demux.endPoints.filter fun endPoint => endPoint.localPort = local_.port &&
      endPoint.localAddress = address && endPoint.peer = from_
  let retval4 := matching (some local_.ipv4) (some peer)
  let retval3 := matching none (some peer)
  let retval2 := matching (some local_.ipv4) none
  let retval1 := matching none none
  if retval4 ≠ [] then retval4
  else if retval3 ≠ [] then retval3
  else if retval2 ≠ [] then retval2
  else retval1

def deAllocate (demux : Ipv4EndPointDemux) (endPoint : Ipv4EndPoint) : Ipv4EndPointDemux :=
  { demux with endPoints := demux.endPoints.erase endPoint }

variable {demux after : Ipv4EndPointDemux} {endPoint : Ipv4EndPoint}

theorem mem_add {added : Ipv4EndPoint} :
    endPoint ∈ (demux.add added).endPoints ↔ endPoint ∈ demux.endPoints ∨ endPoint = added := by
  simp [add]

theorem allocateEphemeralPort_free {count : Nat} {start port : UInt16}
    (found : demux.allocateEphemeralPort count start = some port) :
    ∀ endPoint ∈ demux.endPoints, endPoint.localPort ≠ port := by
  induction count generalizing start with
  | zero => cases found
  | succ count ih =>
    rw [allocateEphemeralPort] at found
    split at found
    · exact ih found
    · rename_i free
      obtain rfl := Option.some.inj found
      rw [lookupPortLocal, List.any_eq_true] at free
      intro endPoint member same
      exact free ⟨endPoint, member, by simp [same]⟩

/-- A socket that is bound to no port in particular gets one at which there is none. -/
theorem allocate_spec {localAddress : Option UInt32} {peer : Option InetSocketAddress}
    {owner : Application} (allocated : demux.allocate localAddress peer owner = some after) :
    ∃ port, (∀ endPoint ∈ demux.endPoints, endPoint.localPort ≠ port) ∧
      after.endPoints = demux.endPoints ++ [⟨localAddress, port, peer, owner⟩] := by
  obtain ⟨port, found, rfl⟩ := Option.map_eq_some_iff.mp allocated
  exact ⟨port, allocateEphemeralPort_free found, rfl⟩

/-- A port at which no socket is bound is free to be bound. -/
theorem bind_free {port : UInt16} (owner : Application) (real : port ≠ 0)
    (free : ∀ endPoint ∈ demux.endPoints, endPoint.localPort ≠ port) :
    demux.bind port owner = some (demux.add ⟨none, port, none, owner⟩) := by
  have absent : demux.lookupLocal none port = false := by
    rw [lookupLocal, List.any_eq_false]
    intro endPoint member
    simp [free endPoint member]
  rw [bind, if_neg real, if_neg (by simp [absent])]

/-- The socket of a connection is at the port of the one that listens, which may have
accepted the same connection before. -/
theorem fork_spec (demux : Ipv4EndPointDemux) (local_ peer : InetSocketAddress)
    (owner : Application) :
    demux.fork local_ peer owner = demux ∨
      (∀ endPoint ∈ demux.endPoints,
        endPoint.fourTuple ≠ (local_.port, some local_.ipv4, some peer)) ∧
      demux.fork local_ peer owner =
        demux.add ⟨some local_.ipv4, local_.port, some peer, owner⟩ := by
  unfold fork
  dsimp only
  split
  · exact Or.inl rfl
  · rename_i fresh
    rw [List.any_eq_true] at fresh
    refine Or.inr ⟨fun endPoint member same => fresh ⟨endPoint, member, ?_⟩, rfl⟩
    obtain ⟨port, address, from_⟩ := Ipv4EndPoint.fourTuple_eq.mp same
    simp [port, address, from_]

/-- A packet reaches no socket but one of its port. -/
theorem mem_lookup {local_ peer : InetSocketAddress}
    (member : endPoint ∈ demux.lookup local_ peer) :
    endPoint ∈ demux.endPoints ∧ endPoint.localPort = local_.port := by
  have matching {address : Option UInt32} {from_ : Option InetSocketAddress}
      (inside : endPoint ∈ demux.endPoints.filter fun endPoint =>
        endPoint.localPort = local_.port && endPoint.localAddress = address &&
          endPoint.peer = from_) :
      endPoint ∈ demux.endPoints ∧ endPoint.localPort = local_.port := by
    simp only [List.mem_filter, Bool.and_eq_true, decide_eq_true_eq] at inside
    exact ⟨inside.1, inside.2.1.1⟩
  unfold lookup at member
  dsimp only at member
  split at member
  · exact matching member
  · split at member
    · exact matching member
    · split at member
      · exact matching member
      · exact matching member

theorem mem_deAllocate {closed : Ipv4EndPoint}
    (member : endPoint ∈ (demux.deAllocate closed).endPoints) : endPoint ∈ demux.endPoints :=
  List.mem_of_mem_erase member

/- At most one socket for each packet -/

/-- No two sockets are compared with the same. -/
def Distinct (demux : Ipv4EndPointDemux) : Prop :=
  (demux.endPoints.map Ipv4EndPoint.fourTuple).Nodup

theorem Distinct.add {added : Ipv4EndPoint} (distinct : demux.Distinct)
    (fresh : ∀ endPoint ∈ demux.endPoints, endPoint.fourTuple ≠ added.fourTuple) :
    (demux.add added).Distinct := by
  unfold Distinct Ipv4EndPointDemux.add
  rw [List.map_append, List.nodup_append]
  refine ⟨distinct, List.nodup_singleton _, ?_⟩
  intro key present other single
  obtain ⟨endPoint, member, rfl⟩ := List.mem_map.mp present
  rw [List.map_singleton, List.mem_singleton] at single
  rw [single]
  exact fresh endPoint member

theorem Distinct.allocate {localAddress : Option UInt32} {peer : Option InetSocketAddress}
    {owner : Application} (distinct : demux.Distinct)
    (allocated : demux.allocate localAddress peer owner = some after) : after.Distinct := by
  obtain ⟨port, free, placed⟩ := allocate_spec allocated
  have added : (demux.add ⟨localAddress, port, peer, owner⟩).Distinct :=
    distinct.add fun endPoint member same =>
      free endPoint member (Ipv4EndPoint.fourTuple_eq.mp same).1
  rw [Distinct, placed]
  exact added

theorem Distinct.fork (distinct : demux.Distinct) (local_ peer : InetSocketAddress)
    (owner : Application) : (demux.fork local_ peer owner).Distinct := by
  rcases fork_spec demux local_ peer owner with unchanged | ⟨fresh, added⟩
  · rw [unchanged]
    exact distinct
  · rw [added]
    exact distinct.add fresh

theorem Distinct.deAllocate (distinct : demux.Distinct) (closed : Ipv4EndPoint) :
    (demux.deAllocate closed).Distinct := by
  have fewer : (demux.endPoints.erase closed).Sublist demux.endPoints := List.erase_sublist
  exact List.Nodup.sublist (fewer.map _) distinct

/-- A packet never matches two sockets equally well. -/
theorem Distinct.lookup (distinct : demux.Distinct) (local_ peer : InetSocketAddress) :
    demux.lookup local_ peer = [] ∨ ∃ endPoint, demux.lookup local_ peer = [endPoint] := by
  rw [← List.length_eq_zero_iff, ← List.length_eq_one_iff, ← Nat.le_one_iff_eq_zero_or_eq_one]
  have matching (address : Option UInt32) (from_ : Option InetSocketAddress) :
      (demux.endPoints.filter fun endPoint => endPoint.localPort = local_.port &&
        endPoint.localAddress = address && endPoint.peer = from_).length ≤ 1 := by
    have once := List.nodup_iff_count_le_one.mp distinct (local_.port, address, from_)
    rw [List.count, List.countP_map, List.countP_eq_length_filter] at once
    refine Nat.le_trans (Nat.le_of_eq (congrArg List.length (List.filter_congr ?_))) once
    intro endPoint _
    rw [Function.comp_apply, Bool.eq_iff_iff, beq_iff_eq, Ipv4EndPoint.fourTuple_eq]
    simp [and_assoc]
  unfold Ipv4EndPointDemux.lookup
  dsimp only
  split
  · exact matching _ _
  · split
    · exact matching _ _
    · split
      · exact matching _ _
      · exact matching _ _

end Ipv4EndPointDemux

end QbbNet
