import QbbNet.RouteDelivery
import QbbNet.TopologyFile

set_option autoImplicit false

/- The network that GetStatus sets up: nodes with an Internet stack, a channel for each
link of the topology, and addresses that Ipv4AddressHelper gives to its two devices. -/
namespace QbbNet

/-- The loopback of a node, or one of the two devices of a link. -/
inductive TestDevice
  | loopback (node : Nat)
  | pointToPoint (link : Nat) (second : Bool)
  deriving DecidableEq

structure Ipv4AddressHelper where
  network : UInt32
  mask : UInt32
  address : UInt32
  base : UInt32
  shift : UInt32
  max : UInt32
  deriving DecidableEq

namespace Ipv4AddressHelper

/-- The loop of NumAddressBits from bit `i` on. -/
def numAddressBitsFrom : Nat → UInt32 → UInt32 → Option UInt32
  | 0, _, _ => none
  | left + 1, i, maskbits =>
      if maskbits &&& 1 ≠ 0 then some i else numAddressBitsFrom left (i + 1) (maskbits >>> 1)

def numAddressBits (maskbits : UInt32) : Option UInt32 := numAddressBitsFrom 32 0 maskbits

def setBase (network mask address : UInt32) : Option Ipv4AddressHelper :=
  if network &&& ~~~mask = 0 then
    (numAddressBits mask).map fun shift =>
      { network := network >>> shift
        mask := mask
        address := address
        base := address
        shift := shift
        max := (1 <<< shift) - 2 }
  else none

/-- An address overflow fails an assertion. -/
def newAddress (helper : Ipv4AddressHelper) : Option (UInt32 × Ipv4AddressHelper) :=
  if helper.address ≤ helper.max then
    some ((helper.network <<< helper.shift) ||| helper.address,
      { helper with address := helper.address + 1 })
  else none

def newNetwork (helper : Ipv4AddressHelper) : Ipv4AddressHelper :=
  { helper with network := helper.network + 1, address := helper.base }

end Ipv4AddressHelper

/-- The constructor of an interface address from an address and a mask. -/
def Ipv4InterfaceAddress.new (localAddress mask : UInt32) : Ipv4InterfaceAddress :=
  ⟨localAddress, mask, localAddress ||| ~~~mask⟩

namespace Router

/-- A node with the stack that InternetStackHelper installs, and without routes but
that of the loopback. -/
def install (routing : Ipv4GlobalRouting) (checksumEnabled : Bool) (n : Nat) : Router TestDevice :=
  let node : Ipv4Node TestDevice :=
    { nodeId := UInt32.ofNat n
      devices := [.loopback n]
      interfaces := [⟨.loopback n, [.new 0x7f000001 0xff000000], true, true⟩]
      strongEndSystemModel := false
      checksumEnabled := checksumEnabled }
  { routerId := UInt32.ofNat n
    node := node
    metrics := [1]
    static := .setIpv4 node
    routing := routing }

/-- A device is added, and Assign gives it an interface with an address. -/
def assign (device : TestDevice) (ifa : Ipv4InterfaceAddress) (r : Router TestDevice) :
    Router TestDevice :=
  let node := { r.node with
    devices := r.node.devices ++ [device]
    interfaces := r.node.interfaces ++ [⟨device, [ifa], true, true⟩] }
  { r with
    node := node
    metrics := r.metrics ++ [1]
    static := r.static.notifyInterfaceUp node r.node.interfaces.length }

end Router

/-- The nodes, the address helper, and the number of links so far. -/
structure TestNetwork where
  nodes : List (Router TestDevice)
  address : Ipv4AddressHelper
  links : Nat

namespace TestNetwork

/-- `p2p.Install(nc); address.Assign(ndc); address.NewNetwork();` -/
def installLink (net : TestNetwork) (link : LinkStats) : Option TestNetwork :=
  net.address.newAddress.bind fun (first, address) =>
    address.newAddress.map fun (second, address) =>
      { nodes := (net.nodes.modify link.nodeA.toNat
            (.assign (.pointToPoint net.links false) (.new first address.mask))).modify
          link.nodeB.toNat (.assign (.pointToPoint net.links true) (.new second address.mask))
        address := address.newNetwork
        links := net.links + 1 }

def peer : TestDevice → Option TestDevice
  | .loopback _ => none
  | .pointToPoint link second => some (.pointToPoint link !second)

def isLoopback : TestDevice → Bool
  | .loopback _ => true
  | .pointToPoint _ _ => false

def internet (net : TestNetwork) : Internet TestDevice := ⟨net.nodes, peer, isLoopback⟩

end TestNetwork

/-- The network of the links, in which every node has the same attributes. -/
def testNetwork (routing : Ipv4GlobalRouting) (checksumEnabled : Bool) (numNodes : Nat)
    (links : List LinkStats) : Option TestNetwork :=
  (Ipv4AddressHelper.setBase 0x0a000000 0xfffffffc 1).bind fun address =>
    links.foldlM TestNetwork.installLink
      ⟨(List.range numNodes).map (Router.install routing checksumEnabled), address, 0⟩

/- The addresses -/

/-- The first address of the network of a link. -/
def linkNetwork (k : Nat) : Nat := 167772160 + 4 * k

/-- The address that a device gets. -/
def addressOf : TestDevice → Ipv4InterfaceAddress
  | .loopback _ => .new 0x7f000001 0xff000000
  | .pointToPoint k second =>
      .new (UInt32.ofNat (linkNetwork k + if second then 2 else 1)) 0xfffffffc

/-- The helper after the networks of some links. -/
def helperAt (k : Nat) : Ipv4AddressHelper where
  network := UInt32.ofNat (41943040 + k)
  mask := 0xfffffffc
  address := 1
  base := 1
  shift := 2
  max := 2

/-- Links until the addresses come to 127.0.0.0. -/
def maxLinks : Nat := 490733568

theorem setBase_eq : Ipv4AddressHelper.setBase 0x0a000000 0xfffffffc 1 = some (helperAt 0) := by
  decide +kernel

variable {k k' : Nat}

theorem helper_address (few : k < maxLinks) (a : UInt32) (small : a.toNat < 4) :
    ((helperAt k).network <<< 2) ||| a = UInt32.ofNat (linkNetwork k + a.toNat) := by
  unfold maxLinks at few
  have shifted : ((helperAt k).network <<< 2).toNat = (41943040 + k) <<< 2 := by
    unfold helperAt
    rw [UInt32.toNat_shiftLeft, UInt32.toNat_ofNat_of_lt' (by norm_num; omega), Nat.shiftLeft_eq,
      show (2 : UInt32).toNat % 32 = 2 from rfl]
    omega
  rw [← UInt32.toNat_inj, UInt32.toNat_or, shifted, ← Nat.shiftLeft_add_eq_or_of_lt (by omega),
    UInt32.toNat_ofNat_of_lt' (by unfold linkNetwork; norm_num; omega), Nat.shiftLeft_eq]
  unfold linkNetwork
  omega

/-- The addresses of the two devices of a link. -/
theorem newAddress_eq (few : k < maxLinks) (second : Bool) :
    ({ helperAt k with address := if second then 2 else 1 } : Ipv4AddressHelper).newAddress =
      some ((addressOf (.pointToPoint k second)).localAddress,
        { helperAt k with address := if second then 3 else 2 }) := by
  unfold Ipv4AddressHelper.newAddress
  cases second with
  | false =>
    have address := helper_address few 1 (by decide)
    exact (if_pos (by decide : (1 : UInt32) ≤ 2)).trans (congrArg (fun a => some (a, _)) address)
  | true =>
    have address := helper_address few 2 (by decide)
    exact (if_pos (by decide : (2 : UInt32) ≤ 2)).trans (congrArg (fun a => some (a, _)) address)

theorem newNetwork_eq (few : k < maxLinks) :
    ({ helperAt k with address := 3 } : Ipv4AddressHelper).newNetwork = helperAt (k + 1) := by
  unfold maxLinks at few
  have next : UInt32.ofNat (41943040 + k) + 1 = UInt32.ofNat (41943040 + (k + 1)) := by
    rw [← UInt32.toNat_inj, UInt32.toNat_add, UInt32.toNat_ofNat_of_lt' (by norm_num; omega),
      UInt32.toNat_ofNat_of_lt' (by norm_num; omega), show (1 : UInt32).toNat = 1 from rfl]
    omega
  unfold Ipv4AddressHelper.newNetwork helperAt
  dsimp only
  rw [next]

theorem localAddress_toNat (few : k < maxLinks) (second : Bool) :
    (addressOf (.pointToPoint k second)).localAddress.toNat =
      linkNetwork k + if second then 2 else 1 := by
  unfold maxLinks at few
  unfold addressOf Ipv4InterfaceAddress.new linkNetwork
  cases second <;>
    exact UInt32.toNat_ofNat_of_lt' (by norm_num; omega)

theorem broadcast_toNat (few : k < maxLinks) (second : Bool) :
    (addressOf (.pointToPoint k second)).broadcast.toNat = linkNetwork k + 3 := by
  have value := localAddress_toNat few second
  have form : (addressOf (.pointToPoint k second)).broadcast =
      (addressOf (.pointToPoint k second)).localAddress ||| 3 := rfl
  have split (b : Nat) (small : b < 4) : linkNetwork k + b = (41943040 + k) <<< 2 ||| b := by
    rw [← Nat.shiftLeft_add_eq_or_of_lt (by omega), Nat.shiftLeft_eq]
    unfold linkNetwork
    omega
  rw [form, UInt32.toNat_or, value, show (3 : UInt32).toNat = 3 from rfl, split 3 (by omega)]
  cases second with
  | false => rw [if_neg Bool.false_ne_true, split 1 (by omega), Nat.or_assoc]; rfl
  | true => rw [if_pos rfl, split 2 (by omega), Nat.or_assoc]; rfl

/-- Only the device itself has an address that is given to it. -/
theorem isFor_address (few : k < maxLinks) {second : Bool} {d : TestDevice}
    (known : ∀ k' second', d = .pointToPoint k' second' → k' < maxLinks)
    (holds : (addressOf d).isFor (addressOf (.pointToPoint k second)).localAddress = true) :
    d = .pointToPoint k second := by
  have value := localAddress_toNat few second
  rw [Ipv4InterfaceAddress.isFor, Bool.or_eq_true, beq_iff_eq, beq_iff_eq, ← UInt32.toNat_inj,
    ← UInt32.toNat_inj, value] at holds
  unfold maxLinks linkNetwork at *
  cases d with
  | loopback n =>
    have loopback : (addressOf (.loopback n)).localAddress.toNat = 2130706433 ∧
        (addressOf (.loopback n)).broadcast.toNat = 2147483647 := ⟨rfl, rfl⟩
    rw [loopback.1, loopback.2] at holds
    split at holds <;> omega
  | pointToPoint k' second' =>
    have few' := known k' second' rfl
    rw [localAddress_toNat few', broadcast_toNat few'] at holds
    unfold linkNetwork at holds
    have same : k' = k ∧ second' = second := by
      cases second <;> cases second' <;>
        simp only [↓reduceIte, Bool.false_eq_true, and_true, and_false] at holds ⊢ <;> omega
    rw [same.1, same.2]

/-- An address that is given to a device is of no network but that of its link. -/
theorem isMatch_address (few : k < maxLinks) {second : Bool} {d : TestDevice}
    (known : ∀ k' second', d = .pointToPoint k' second' → k' < maxLinks)
    (holds : isMatch (addressOf d).mask (addressOf (.pointToPoint k second)).localAddress
      ((addressOf d).localAddress &&& (addressOf d).mask) = true) :
    ∃ second', d = .pointToPoint k second' := by
  have value := localAddress_toNat few second
  unfold isMatch at holds
  rw [UInt32.and_assoc, UInt32.and_self, beq_iff_eq, ← UInt32.toNat_inj] at holds
  unfold maxLinks linkNetwork at *
  cases d with
  | loopback n =>
    have mask : (addressOf (.loopback n)).mask.toNat = 2 ^ 32 - 2 ^ 24 := rfl
    rw [and_mask (by omega) mask, and_mask (by omega) mask, value] at holds
    have loopback : (addressOf (.loopback n)).localAddress.toNat = 2130706433 := rfl
    rw [loopback] at holds
    split at holds <;> omega
  | pointToPoint k' second' =>
    have few' := known k' second' rfl
    have mask : (addressOf (.pointToPoint k' second')).mask.toNat = 2 ^ 32 - 2 ^ 2 := rfl
    rw [and_mask (by omega) mask, and_mask (by omega) mask, value,
      localAddress_toNat few' second'] at holds
    unfold linkNetwork at holds
    have same : k' = k := by
      split at holds <;> split at holds <;> omega
    exact ⟨second', by rw [same]⟩

theorem unicast_address (few : k < maxLinks) (second : Bool) :
    isMulticast (addressOf (.pointToPoint k second)).localAddress = false ∧
      isBroadcast (addressOf (.pointToPoint k second)).localAddress = false := by
  have value := localAddress_toNat few second
  have low : (addressOf (.pointToPoint k second)).localAddress.toNat < 0x7f000000 := by
    unfold maxLinks at few
    rw [value, linkNetwork]
    split <;> omega
  constructor
  · have less : ¬ (0xe0000000 : UInt32) ≤ (addressOf (.pointToPoint k second)).localAddress := by
      rw [UInt32.le_iff_toNat_le, show (0xe0000000 : UInt32).toNat = 0xe0000000 from rfl]
      omega
    simp [isMulticast, less]
  · rw [isBroadcast, beq_eq_false_iff_ne]
    intro same
    rw [same] at low
    exact absurd low (by decide)

/- The nodes -/

/-- A router whose interfaces have the addresses of their devices. -/
structure Wired (routing : Ipv4GlobalRouting) (most : Nat) (r : Router TestDevice) : Prop where
  interfaces : r.node.interfaces = r.node.devices.map fun d => ⟨d, [addressOf d], true, true⟩
  metrics : r.metrics = r.node.devices.map fun _ => 1
  static : r.static.Connected r.node
  weak : r.node.strongEndSystemModel = false
  routing : r.routing = routing
  few : r.node.devices.length ≤ most

variable {routing : Ipv4GlobalRouting} {numNodes : Nat} {checksumEnabled : Bool}

theorem wired_install (n : Nat) : Wired routing 1 (.install routing checksumEnabled n) :=
  ⟨rfl, rfl, Ipv4StaticRouting.setIpv4_connected _, rfl, rfl, Nat.le_refl 1⟩

theorem Wired.assign {most : Nat} {r : Router TestDevice} (wired : Wired routing most r)
    (device : TestDevice) : Wired routing (most + 1) (r.assign device (addressOf device)) := by
  obtain ⟨interfaces, metrics, static, weak, routes, few⟩ := wired
  refine ⟨?_, ?_, ?_, weak, routes, ?_⟩
  · simp only [Router.assign, interfaces, List.map_append, List.map_singleton]
  · simp only [Router.assign, metrics, List.map_append, List.map_singleton]
  · refine Ipv4StaticRouting.notifyInterfaceUp_connected ?_ _
    intro route mem
    obtain ⟨i, ifa, address, same⟩ := static route mem
    refine ⟨i, ifa, ?_, same⟩
    have inside : i < r.node.interfaces.length := by
      by_contra outside
      simp [Ipv4Node.addresses, List.getElem?_eq_none (Nat.not_lt.mp outside)] at address
    have kept : (r.assign device (addressOf device)).node.interfaces[i]? = r.node.interfaces[i]? :=
      List.getElem?_append_left inside
    unfold Ipv4Node.addresses at address ⊢
    rwa [kept]
  · simpa [Router.assign] using few

/-- The nodes, with the devices that have been placed on the routers of some ids. -/
structure Cabled (routing : Ipv4GlobalRouting) (numNodes : Nat) (placed : List (TestDevice × UInt32))
    (nodes : List (Router TestDevice)) : Prop where
  ids : nodes.map (·.routerId) = (List.range numNodes).map UInt32.ofNat
  wired : ∀ r ∈ nodes, Wired routing (1 + placed.length) r
  devices : (nodes.flatMap (·.node.devices)).Perm
    ((List.range numNodes).map TestDevice.loopback ++ placed.map Prod.fst)
  here : ∀ p ∈ placed, ∃ r ∈ nodes, p.1 ∈ r.node.devices ∧ r.routerId = p.2
  order : ∀ (n : Nat) r, nodes[n]? = some r → r.node.devices =
    .loopback n :: (placed.filter fun p => p.2.toNat = n).map Prod.fst

theorem cabled_install (routing : Ipv4GlobalRouting) (checksumEnabled : Bool) (numNodes : Nat) :
    Cabled routing numNodes [] ((List.range numNodes).map (.install routing checksumEnabled)) := by
  constructor
  · rw [List.map_map]
    rfl
  · intro r mem
    obtain ⟨n, _, rfl⟩ := List.mem_map.mp mem
    exact wired_install n
  · rw [List.flatMap_map, List.map_nil, List.append_nil, List.map_eq_flatMap]
    exact List.Perm.refl _
  · intro p nowhere
    cases nowhere
  · intro n r there
    obtain ⟨n', at_n, rfl⟩ := Option.map_eq_some_iff.mp ((List.getElem?_map ..).symm.trans there)
    obtain ⟨_, rfl⟩ := List.getElem?_eq_some_iff.mp at_n
    simp [Router.install]

theorem modify_devices (device : TestDevice) (ifa : Ipv4InterfaceAddress) :
    ∀ {nodes : List (Router TestDevice)} {n : Nat}, n < nodes.length →
      ((nodes.modify n (.assign device ifa)).flatMap (·.node.devices)).Perm
        (nodes.flatMap (·.node.devices) ++ [device])
  | r :: nodes, 0, _ => by
      rw [List.modify_zero_cons, List.flatMap_cons, List.flatMap_cons, Router.assign]
      simp only [List.append_assoc]
      exact List.Perm.append_left _ List.perm_append_comm
  | r :: nodes, n + 1, inside => by
      rw [List.modify_succ_cons, List.flatMap_cons, List.flatMap_cons, List.append_assoc]
      exact (modify_devices device ifa (Nat.lt_of_succ_lt_succ inside)).append_left _

theorem modify_ids (device : TestDevice) (ifa : Ipv4InterfaceAddress) (n : Nat)
    (nodes : List (Router TestDevice)) :
    (nodes.modify n (.assign device ifa)).map (·.routerId) = nodes.map (·.routerId) := by
  induction nodes generalizing n with
  | nil => simp
  | cons r nodes ih =>
    cases n with
    | zero => rfl
    | succ n =>
      rw [List.modify_succ_cons, List.map_cons, List.map_cons, ih]

/-- Placing a device on the router of an id. -/
theorem Cabled.assign {placed : List (TestDevice × UInt32)} {nodes : List (Router TestDevice)}
    (cabled : Cabled routing numNodes placed nodes) {id : UInt32} (inside : id.toNat < numNodes)
    (device : TestDevice) : Cabled routing numNodes (placed ++ [(device, id)])
      (nodes.modify id.toNat (.assign device (addressOf device))) := by
  have length : nodes.length = numNodes := by
    simpa using congrArg List.length cabled.ids
  have small : id.toNat < nodes.length := by omega
  have split (r : Router TestDevice)
      (mem : r ∈ nodes.modify id.toNat (.assign device (addressOf device))) :
      r ∈ nodes ∨ ∃ r₀ ∈ nodes, r = r₀.assign device (addressOf device) := by
    obtain ⟨k, at_k⟩ := List.mem_iff_getElem?.mp mem
    rw [List.getElem?_modify] at at_k
    obtain ⟨r₀, there, same⟩ := Option.map_eq_some_iff.mp at_k
    split at same
    · exact Or.inr ⟨r₀, List.mem_of_getElem? there, same.symm⟩
    · exact Or.inl (same ▸ List.mem_of_getElem? there)
  constructor
  · rw [modify_ids, cabled.ids]
  · intro r mem
    rw [List.length_append, List.length_singleton, ← Nat.add_assoc]
    rcases split r mem with old | ⟨r₀, old, rfl⟩
    · have wired := cabled.wired r old
      exact { wired with few := Nat.le_succ_of_le wired.few }
    · exact (cabled.wired r₀ old).assign device
  · refine (modify_devices device _ small).trans ?_
    rw [List.map_append, List.map_singleton, ← List.append_assoc]
    exact cabled.devices.append_right _
  · have kept (r : Router TestDevice) (mem : r ∈ nodes) :
        ∃ r' ∈ nodes.modify id.toNat (.assign device (addressOf device)),
          r.node.devices ⊆ r'.node.devices ∧ r'.routerId = r.routerId := by
      obtain ⟨k, at_k⟩ := List.mem_iff_getElem?.mp mem
      have modified := List.getElem?_modify (Router.assign device (addressOf device)) id.toNat nodes k
      rw [at_k] at modified
      refine ⟨_, List.mem_of_getElem? modified, ?_⟩
      split
      · exact ⟨List.subset_append_left _ _, rfl⟩
      · exact ⟨List.Subset.refl _, rfl⟩
    intro p mem
    rcases List.mem_append.mp mem with old | new
    · obtain ⟨r, r_mem, device_mem, same⟩ := cabled.here p old
      obtain ⟨r', r'_mem, subset, same'⟩ := kept r r_mem
      exact ⟨r', r'_mem, subset device_mem, same'.trans same⟩
    · rw [List.mem_singleton.mp new]
      have there := List.getElem?_eq_getElem small
      have modified := List.getElem?_modify_eq (Router.assign device (addressOf device)) id.toNat nodes
      rw [there] at modified
      refine ⟨_, List.mem_of_getElem? modified, List.mem_append_right _ List.mem_cons_self, ?_⟩
      have at_id := congrArg (fun ids => ids[id.toNat]?) cabled.ids
      simp only [List.getElem?_map, there, List.getElem?_range inside, Option.map_some,
        Option.some.injEq, UInt32.ofNat_toNat] at at_id
      exact at_id
  · intro n r there
    rw [List.getElem?_modify] at there
    obtain ⟨r₀, at_n, same⟩ := Option.map_eq_some_iff.mp there
    have before := cabled.order n r₀ at_n
    rw [List.filter_append, List.map_append]
    split at same
    case isTrue here =>
      rw [← same, Router.assign, before]
      simp [here]
    case isFalse elsewhere =>
      rw [← same, before]
      simp [elsewhere]

/-- Where the devices of the links are placed. -/
def placements (links : List LinkStats) : List (TestDevice × UInt32) :=
  links.zipIdx.flatMap fun p =>
    [(.pointToPoint p.2 false, p.1.nodeA), (.pointToPoint p.2 true, p.1.nodeB)]

/-- What has been set up for some links. -/
structure Installed (routing : Ipv4GlobalRouting) (numNodes : Nat) (links : List LinkStats)
    (net : TestNetwork) : Prop where
  count : net.links = links.length
  address : net.address = helperAt links.length
  cabled : Cabled routing numNodes (placements links) net.nodes

/-- The nodes of a link exist. -/
def LinkStats.Inside (link : LinkStats) (numNodes : Nat) : Prop :=
  link.nodeA.toNat < numNodes ∧ link.nodeB.toNat < numNodes

variable {links : List LinkStats}

theorem Installed.installLink {net : TestNetwork} (installed : Installed routing numNodes links net)
    (few : links.length < maxLinks) {link : LinkStats} (inside : link.Inside numNodes) :
    ∃ net', net.installLink link = some net' ∧ Installed routing numNodes (links ++ [link]) net' := by
  obtain ⟨index, address, cabled⟩ := installed
  have first : (helperAt links.length).newAddress = _ := newAddress_eq few false
  have second : ({ helperAt links.length with address := 2 } : Ipv4AddressHelper).newAddress = _ :=
    newAddress_eq few true
  unfold TestNetwork.installLink
  rw [address, first, Option.bind_some]
  dsimp only
  rw [if_neg Bool.false_ne_true, second, Option.map_some]
  refine ⟨_, rfl, ?_, ?_, ?_⟩
  · simp [index]
  · dsimp only
    rw [if_pos rfl, newNetwork_eq few, List.length_append, List.length_singleton]
  · have both := (cabled.assign inside.1 (.pointToPoint net.links false)).assign inside.2
      (.pointToPoint net.links true)
    rw [index] at both ⊢
    have placed : placements (links ++ [link]) = placements links ++
        [(.pointToPoint links.length false, link.nodeA)] ++
          [(.pointToPoint links.length true, link.nodeB)] := by
      simp [placements, List.zipIdx_append]
    rw [placed]
    exact both

theorem foldlM_installLink (more : List LinkStats) :
    ∀ (links : List LinkStats) (net : TestNetwork), Installed routing numNodes links net →
      links.length + more.length ≤ maxLinks → (∀ link ∈ more, link.Inside numNodes) →
      ∃ net', more.foldlM TestNetwork.installLink net = some net' ∧
        Installed routing numNodes (links ++ more) net' := by
  induction more with
  | nil =>
    intro links net installed _ _
    exact ⟨net, rfl, by rwa [List.append_nil]⟩
  | cons link more ih =>
    intro links net installed few inside
    rw [List.length_cons] at few
    obtain ⟨next, step, installed_next⟩ :=
      installed.installLink (by omega) (inside link List.mem_cons_self)
    obtain ⟨net', folded, installed'⟩ := ih (links ++ [link]) next installed_next
      (by rw [List.length_append, List.length_singleton]; omega)
      fun link mem => inside link (List.mem_cons_of_mem _ mem)
    refine ⟨net', ?_, ?_⟩
    · rw [List.foldlM_cons, step]
      exact folded
    · rwa [List.append_assoc, List.singleton_append] at installed'

/-- The links of a topology are installed if there are addresses for all. -/
theorem testNetwork_eq_some (routing : Ipv4GlobalRouting) (checksumEnabled : Bool)
    (few : links.length ≤ maxLinks) (inside : ∀ link ∈ links, link.Inside numNodes) :
    ∃ net, testNetwork routing checksumEnabled numNodes links = some net ∧
      Installed routing numNodes links net := by
  unfold testNetwork
  rw [setBase_eq, Option.bind_some]
  exact foldlM_installLink links [] _ ⟨rfl, rfl, cabled_install routing checksumEnabled numNodes⟩
    (by simpa using few) inside

/- The plan -/

theorem mem_placements {p : TestDevice × UInt32} : p ∈ placements links ↔
    ∃ k link, links[k]? = some link ∧ (p = (.pointToPoint k false, link.nodeA) ∨
      p = (.pointToPoint k true, link.nodeB)) := by
  unfold placements
  rw [List.mem_flatMap]
  constructor
  · rintro ⟨⟨link, k⟩, mem, member⟩
    exact ⟨k, link, List.mk_mem_zipIdx_iff_getElem?.mp mem, by simpa using member⟩
  · rintro ⟨k, link, there, member⟩
    exact ⟨(link, k), List.mk_mem_zipIdx_iff_getElem?.mpr there, by simpa using member⟩

theorem placements_nodup (links : List LinkStats) : ((placements links).map Prod.fst).Nodup := by
  unfold placements
  rw [List.map_flatMap]
  refine List.nodup_flatMap.mpr ⟨fun p _ => by simp, ?_⟩
  have indices : (links.zipIdx.map Prod.snd).Nodup := by
    rw [List.zipIdx_map_snd]
    exact List.nodup_range'
  refine (List.pairwise_map.mp indices).imp fun {p q} different => ?_
  intro d here there
  simp only [List.map_cons, List.map_nil, List.mem_cons, List.not_mem_nil, or_false] at here there
  rcases here with rfl | rfl <;> rcases there with same | same <;>
    simp_all

theorem loopback_nodup (numNodes : Nat) : ((List.range numNodes).map TestDevice.loopback).Nodup :=
  List.Nodup.map (fun _ _ same => TestDevice.loopback.inj same) List.nodup_range

namespace Installed

variable {net : TestNetwork} {r : Router TestDevice} {i : Nat} {d : TestDevice}
  {ifa : Ipv4InterfaceAddress}

theorem port_iff (installed : Installed routing numNodes links net) :
    net.internet.Port r i d ifa ↔
      r ∈ net.nodes ∧ r.node.devices[i]? = some d ∧ ifa = addressOf d := by
  constructor
  · rintro ⟨mem, itf, interface, rfl, addresses⟩
    rw [(installed.cabled.wired r mem).interfaces, List.getElem?_map] at interface
    obtain ⟨d, there, rfl⟩ := Option.map_eq_some_iff.mp interface
    exact ⟨mem, there, (List.singleton_inj.mp addresses).symm⟩
  · rintro ⟨mem, there, rfl⟩
    refine ⟨mem, ⟨d, [addressOf d], true, true⟩, ?_, rfl, rfl⟩
    rw [(installed.cabled.wired r mem).interfaces, List.getElem?_map, there]
    rfl

/-- A device that is not a loopback is one of a link. -/
theorem exists_link (installed : Installed routing numNodes links net)
    (port : net.internet.Port r i d ifa) (link : TestNetwork.isLoopback d = false) :
    ∃ k second, d = .pointToPoint k second ∧ k < links.length := by
  obtain ⟨mem, there, _⟩ := installed.port_iff.mp port
  have member := installed.cabled.devices.mem_iff.mp
    (List.mem_flatMap.mpr ⟨r, mem, List.mem_of_getElem? there⟩)
  rcases List.mem_append.mp member with loopback | placed
  · obtain ⟨n, _, rfl⟩ := List.mem_map.mp loopback
    cases link
  · obtain ⟨p, p_mem, rfl⟩ := List.mem_map.mp placed
    obtain ⟨k, link, at_k, rfl | rfl⟩ := mem_placements.mp p_mem
    · exact ⟨k, false, rfl, (List.getElem?_eq_some_iff.mp at_k).1⟩
    · exact ⟨k, true, rfl, (List.getElem?_eq_some_iff.mp at_k).1⟩

/-- Each end of a link is at its node. -/
theorem exists_port (installed : Installed routing numNodes links net) {k : Nat} {link : LinkStats}
    (at_k : links[k]? = some link) (second : Bool) :
    ∃ r i, net.internet.Port r i (.pointToPoint k second) (addressOf (.pointToPoint k second)) ∧
      r.routerId = if second then link.nodeB else link.nodeA := by
  have placed : (TestDevice.pointToPoint k second, if second then link.nodeB else link.nodeA) ∈
      placements links := by
    refine mem_placements.mpr ⟨k, link, at_k, ?_⟩
    cases second with
    | false => exact Or.inl rfl
    | true => exact Or.inr rfl
  obtain ⟨r, mem, device, id⟩ := installed.cabled.here _ placed
  obtain ⟨i, there⟩ := List.mem_iff_getElem?.mp device
  exact ⟨r, i, installed.port_iff.mpr ⟨mem, there, rfl⟩, id⟩

theorem planned (installed : Installed routing numNodes links net) (few : numNodes ≤ 2 ^ 32) :
    net.internet.Planned := by
  constructor
  · show (net.nodes.map (·.routerId)).Nodup
    rw [installed.cabled.ids]
    refine List.Nodup.map_on (fun a mem_a b mem_b same => ?_) List.nodup_range
    have small_a := List.mem_range.mp mem_a
    have small_b := List.mem_range.mp mem_b
    have values := congrArg UInt32.toNat same
    rwa [UInt32.toNat_ofNat_of_lt' (by norm_num; omega),
      UInt32.toNat_ofNat_of_lt' (by norm_num; omega)] at values
  · intro r mem
    rw [(installed.cabled.wired r mem).interfaces, List.map_map]
    exact List.map_id _
  · refine installed.cabled.devices.nodup_iff.mpr (List.nodup_append.mpr
      ⟨loopback_nodup numNodes, placements_nodup links, ?_⟩)
    rintro d loopback _ placed rfl
    obtain ⟨n, _, rfl⟩ := List.mem_map.mp loopback
    obtain ⟨p, p_mem, same⟩ := List.mem_map.mp placed
    obtain ⟨k, link, _, rfl | rfl⟩ := mem_placements.mp p_mem <;> cases same
  · intro r mem i inside
    rw [(installed.cabled.wired r mem).interfaces, List.length_map] at inside
    exact ⟨_, _, installed.port_iff.mpr ⟨mem, List.getElem?_eq_getElem inside, rfl⟩⟩
  · intro r mem itf itf_mem
    rw [(installed.cabled.wired r mem).interfaces] at itf_mem
    obtain ⟨d, _, rfl⟩ := List.mem_map.mp itf_mem
    exact ⟨rfl, rfl⟩
  · intro r mem
    have wired := installed.cabled.wired r mem
    rw [wired.metrics, wired.interfaces, List.length_map, List.length_map]
    refine ⟨rfl, fun m m_mem => ?_⟩
    obtain ⟨_, _, rfl⟩ := List.mem_map.mp m_mem
    decide
  · intro r i d ifa port link
    obtain ⟨k, second, rfl, inside⟩ := installed.exists_link port link
    obtain ⟨r', i', port', _⟩ := installed.exists_port (List.getElem?_eq_getElem inside) !second
    exact ⟨.pointToPoint k !second, r', i', _, rfl, by simp [TestNetwork.internet, TestNetwork.peer],
      rfl, port'⟩

theorem known_link (installed : Installed routing numNodes links net) (few : links.length ≤ maxLinks)
    (port : net.internet.Port r i d ifa) :
    ∀ k second, d = .pointToPoint k second → k < maxLinks := by
  rintro k second rfl
  obtain ⟨_, _, same, inside⟩ := installed.exists_link port rfl
  cases same
  omega

/-- No two devices of the links have one address, and the networks are those of the links. -/
theorem addressed (installed : Installed routing numNodes links net) (few : links.length ≤ maxLinks) :
    net.internet.Addressed := by
  constructor
  · intro r i d ifa r' i' d' ifa' port link port' holds
    obtain ⟨k, second, rfl, inside⟩ := installed.exists_link port link
    obtain ⟨_, _, rfl⟩ := installed.port_iff.mp port
    obtain ⟨_, _, rfl⟩ := installed.port_iff.mp port'
    exact isFor_address (by omega) (installed.known_link few port') holds
  · intro r i d ifa port link
    obtain ⟨k, second, rfl, inside⟩ := installed.exists_link port link
    obtain ⟨_, _, rfl⟩ := installed.port_iff.mp port
    exact unicast_address (by omega) second
  · intro r i d ifa r' i' d' ifa' port link port' holds
    obtain ⟨k, second, rfl, inside⟩ := installed.exists_link port link
    obtain ⟨_, _, rfl⟩ := installed.port_iff.mp port
    obtain ⟨_, _, rfl⟩ := installed.port_iff.mp port'
    obtain ⟨second', rfl⟩ := isMatch_address (by omega) (installed.known_link few port') holds
    by_cases same : second' = second
    · exact Or.inl (by rw [same])
    · have other : (!second') = second := by
        cases second <;> cases second' <;> simp_all
      refine Or.inr ⟨rfl, ?_⟩
      show TestNetwork.peer (.pointToPoint k second') = _
      rw [TestNetwork.peer, other]
  · intro r mem
    exact (installed.cabled.wired r mem).weak

theorem fresh (installed : Installed routing numNodes links net) (few : links.length ≤ maxLinks)
    (empty : routing.hostRoutes = [] ∧ routing.networkRoutes = []) : net.internet.Fresh := by
  refine ⟨fun r mem => (installed.cabled.wired r mem).static, fun r mem => ?_, fun r mem => ?_,
    fun r mem => ?_⟩
  · rw [(installed.cabled.wired r mem).routing]
    exact empty.1
  · rw [(installed.cabled.wired r mem).routing]
    exact empty.2
  · have wired := installed.cabled.wired r mem
    have most := wired.few
    have count : (placements links).length = 2 * links.length := by
      simp [placements, Nat.mul_comm]
    unfold maxLinks at few
    rw [wired.interfaces, List.length_map]
    omega

/-- Each interface has the metric 1. -/
theorem metric_eq (installed : Installed routing numNodes links net) (mem : r ∈ net.nodes)
    {m : UInt16} (member : m ∈ r.metrics) : m = 1 := by
  rw [(installed.cabled.wired r mem).metrics] at member
  obtain ⟨_, _, rfl⟩ := List.mem_map.mp member
  rfl

end Installed

end QbbNet
