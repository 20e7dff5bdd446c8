import QbbNet.RouterLinks
import QbbNet.SpfRoutes
import QbbNet.EcmpSafety
import QbbNet.StaticRoutes

set_option autoImplicit false

/- How a packet travels through a network by the tables that have been populated: every
hop takes it closer to the router of its destination, whichever routes are selected. -/
namespace QbbNet

variable {ι : Type}

/-- Addresses that tell the ports of a network apart, and networks of two ports. -/
structure Internet.Addressed (net : Internet ι) : Prop where
  own : ∀ r i d ifa r' i' d' ifa', net.Port r i d ifa → net.loopback d = false →
    net.Port r' i' d' ifa' → ifa'.isFor ifa.localAddress = true → d' = d
  unicast : ∀ r i d ifa, net.Port r i d ifa → net.loopback d = false →
    isMulticast ifa.localAddress = false ∧ isBroadcast ifa.localAddress = false
  subnet : ∀ r i d ifa r' i' d' ifa', net.Port r i d ifa → net.loopback d = false →
    net.Port r' i' d' ifa' →
    isMatch ifa'.mask ifa.localAddress (ifa'.localAddress &&& ifa'.mask) = true →
    d' = d ∨ (net.loopback d' = false ∧ net.peer d' = some d)
  weak : ∀ r ∈ net.nodes, r.node.strongEndSystemModel = false

/-- Before the tables are populated a node has its connected static routes only. -/
structure Internet.Fresh (net : Internet ι) : Prop where
  connected : ∀ r ∈ net.nodes, r.static.Connected r.node
  hostRoutes : ∀ r ∈ net.nodes, r.routing.hostRoutes = []
  networkRoutes : ∀ r ∈ net.nodes, r.routing.networkRoutes = []
  few : ∀ r ∈ net.nodes, r.node.interfaces.length < 2 ^ 31

variable [DecidableEq ι]

variable {net : Internet ι} {r r' t : Router ι} {i i' j : Nat} {d d' dt : ι}
variable {ifa ifa' ifat : Ipv4InterfaceAddress} {lsdb : GlobalRouteManagerLSDB}

/- Interfaces by their addresses -/

theorem isMatch_host (a b : UInt32) : isMatch 0xffffffff a b = decide (a = b) := by
  have all (x : UInt32) : x &&& 0xffffffff = x := by
    rw [← UInt32.toNat_inj, UInt32.toNat_and]
    exact Nat.and_two_pow_sub_one_of_lt_two_pow x.toNat_lt
  unfold isMatch
  rw [all, all]
  rfl

theorem isFor_self (ifa : Ipv4InterfaceAddress) : ifa.isFor ifa.localAddress = true := by
  simp [Ipv4InterfaceAddress.isFor]

omit [DecidableEq ι] in
theorem Internet.Planned.find_router (planned : net.Planned) (mem : r ∈ net.nodes) :
    net.nodes.find? (·.routerId == r.routerId) = some r := by
  cases search : net.nodes.find? (·.routerId == r.routerId) with
  | none => exact absurd (List.find?_eq_none.mp search r mem) (by simp)
  | some other =>
    have same : other.routerId = r.routerId := by simpa using List.find?_some search
    rw [List.inj_on_of_nodup_map planned.ids (List.mem_of_find?_eq_some search) mem same]

omit [DecidableEq ι] in
/-- The interface that has the address of a link. -/
theorem Internet.Planned.findOutgoingInterfaceId (planned : net.Planned) (addressed : net.Addressed)
    (port : net.Port r i d ifa) (link : net.loopback d = false) :
    net.findOutgoingInterfaceId r.routerId ifa.localAddress = i := by
  obtain ⟨itf, interface, device, addresses⟩ := port.interface
  obtain ⟨small, at_i⟩ := List.getElem?_eq_some_iff.mp interface
  unfold Internet.findOutgoingInterfaceId
  rw [planned.find_router port.mem]
  dsimp only
  unfold Ipv4Node.getInterfaceForPrefix
  have first : r.node.interfaces.findIdx? (fun interface => interface.addresses.any fun other =>
      isMatch 0xffffffff other.localAddress ifa.localAddress) = some i := by
    rw [List.findIdx?_eq_some_iff_getElem]
    refine ⟨small, ?_, fun k before => ?_⟩
    · rw [at_i, addresses]
      simp [isMatch_host]
    · obtain ⟨d', ifa', other⟩ := planned.ports r port.mem k (by omega)
      obtain ⟨itf', interface', device', addresses'⟩ := other.interface
      rw [List.getElem?_eq_getElem (by omega), Option.some.injEq] at interface'
      rw [interface', addresses']
      intro holds
      have same : ifa'.localAddress = ifa.localAddress := by simpa [isMatch_host] using holds
      have here := addressed.own r i d ifa r k d' ifa' port link other (same ▸ isFor_self ifa')
      subst here
      have index := (planned.port_unique port other).2.1
      omega
  dsimp only
  rw [first]

/-- The addresses that a device of a router is advertised with. -/
def Internet.linkAddresses (net : Internet ι) (r : Router ι) (d : ι) : List UInt32 :=
  (((net.discoverDevice r d).getD []).filter (·.linkType = .pointToPoint)).map (·.linkData)

theorem Internet.Planned.mem_linkAddresses (planned : net.Planned) (mem : r ∈ net.nodes)
    (device : d ∈ r.node.devices) {a : UInt32} (member : a ∈ net.linkAddresses r d) :
    ∃ i ifa, net.Port r i d ifa ∧ net.loopback d = false ∧ ifa.localAddress = a := by
  obtain ⟨i, ifa, port⟩ := planned.port_of_device mem device
  unfold linkAddresses at member
  cases link : net.loopback d with
  | true => simp [Port.discover_loopback link] at member
  | false =>
    obtain ⟨r', i', d', ifa', joined⟩ := planned.exists_joined port link
    rw [joined.discoverDevice planned] at member
    exact ⟨i, ifa, port, rfl, by simpa [linkRecord, stubRecord, eq_comm] using member⟩

theorem Internet.Planned.linkAddresses_nodup (planned : net.Planned) (mem : r ∈ net.nodes)
    (device : d ∈ r.node.devices) : (net.linkAddresses r d).Nodup := by
  obtain ⟨i, ifa, port⟩ := planned.port_of_device mem device
  unfold linkAddresses
  cases link : net.loopback d with
  | true => simp [Port.discover_loopback link]
  | false =>
    obtain ⟨r', i', d', ifa', joined⟩ := planned.exists_joined port link
    rw [joined.discoverDevice planned]
    simp [linkRecord, stubRecord]

theorem Internet.advertisement_addresses (r : Router ι) :
    ((net.advertisement r).linkRecords.filter (·.linkType = .pointToPoint)).map (·.linkData) =
      r.node.devices.flatMap (net.linkAddresses r) := by
  unfold advertisement linkAddresses
  dsimp only
  induction r.node.devices with
  | nil => rfl
  | cons d devices ih =>
    rw [List.flatMap_cons, ← ih]
    cases found : net.discoverDevice r d with
    | none => rw [List.filterMap_cons_none found]; rfl
    | some records =>
      rw [List.filterMap_cons_some found, List.flatten_cons, List.filter_append, List.map_append]
      rfl

/-- No two links have one address. -/
theorem Internet.Planned.distinct (planned : net.Planned) (addressed : net.Addressed)
    (known : net.Database lsdb) : lsdb.Distinct := by
  unfold GlobalRouteManagerLSDB.Distinct
  rw [known.database, List.flatMap_map]
  simp only [advertisement_addresses]
  have same_device {r r' : Router ι} {d d' : ι} {a : UInt32} (mem : r ∈ net.nodes)
      (mem' : r' ∈ net.nodes) (device : d ∈ r.node.devices) (device' : d' ∈ r'.node.devices)
      (here : a ∈ net.linkAddresses r d) (there : a ∈ net.linkAddresses r' d') : d' = d := by
    obtain ⟨i, ifa, port, link, rfl⟩ := planned.mem_linkAddresses mem device here
    obtain ⟨i', ifa', port', _, same⟩ := planned.mem_linkAddresses mem' device' there
    exact addressed.own r i d ifa r' i' d' ifa' port link port' (same ▸ isFor_self ifa')
  refine List.nodup_flatMap.mpr ⟨fun r mem => List.nodup_flatMap.mpr ⟨fun d device =>
    planned.linkAddresses_nodup mem device, ?_⟩, ?_⟩
  · refine (planned.devices_nodup mem).imp_of_mem fun {d d'} device device' different => ?_
    exact fun a here there => different (same_device mem mem device device' here there).symm
  · refine (List.Nodup.of_map _ planned.ids).imp_of_mem fun {r r'} mem mem' different => ?_
    intro a here there
    obtain ⟨d, device, here⟩ := List.mem_flatMap.mp here
    obtain ⟨d', device', there⟩ := List.mem_flatMap.mp there
    have same := same_device mem mem' device device' here there
    subst same
    exact different (planned.router_unique mem mem' device device')

/- The tables -/

/-- The routes that InitializeRoutes gives to a router. -/
def Internet.calculated (net : Internet ι) (lsdb : GlobalRouteManagerLSDB) (r : Router ι) : Router ι :=
  { r with routing := (spfCalculate lsdb r.routerId (net.findOutgoingInterfaceId r.routerId)
      r.routing).getD r.routing }

/-- The entries that a router has for a destination lead along its first hops. -/
structure Leads (net : Internet ι) (lsdb : GlobalRouteManagerLSDB) (r t : Router ι)
    (dest : UInt32) (routing : Ipv4GlobalRouting) : Prop where
  some_route : routing.allRoutes r.node dest none ≠ []
  leads : ∀ entry ∈ routing.allRoutes r.node dest none, ∃ i d ifa r' i' d' ifa',
    net.Joined r i d ifa r' i' d' ifa' ∧ entry.interface = i ∧
      lsdb.linkGraph.FirstHop r.routerId t.routerId (Internet.linkRecord r i ifa r')

/-- A network whose tables can be populated. -/
structure Internet.Ready (net : Internet ι) (lsdb : GlobalRouteManagerLSDB) : Prop where
  planned : net.Planned
  addressed : net.Addressed
  fresh : net.Fresh
  known : net.Database lsdb
  routable : lsdb.Routable

/-- The default route of a router with one link is over that link. -/
theorem Internet.Ready.leads_stub (ready : net.Ready lsdb) (mem : r ∈ net.nodes)
    {x l : GlobalRoutingLinkRecord} {dest : UInt32}
    (first : lsdb.linkGraph.FirstHop r.routerId t.routerId x)
    (single : (net.advertisement r).linkRecords.filter (·.linkType = .pointToPoint) = [l]) :
    ∃ routing', spfCalculate lsdb r.routerId (net.findOutgoingInterfaceId r.routerId) r.routing =
      some routing' ∧ Leads net lsdb r t dest routing' := by
  have found := ready.planned.getLSA ready.known mem
  obtain ⟨nextHop, calculated⟩ := spfCalculate_stub ready.routable
    (net.findOutgoingInterfaceId r.routerId) found single r.routing
  have only : x = l := by
    have leaves := (GlobalRouteManagerLSDB.mem_links found).mp first.1
    have member : x ∈ (net.advertisement r).linkRecords.filter (·.linkType = .pointToPoint) := by
      simpa using leaves
    rw [single] at member
    exact List.mem_singleton.mp member
  subst only
  obtain ⟨i, d, ifa, r', i', d', ifa', joined, rfl⟩ :=
    (ready.planned.mem_links ready.known mem).mp first.1
  have outgoing := ready.planned.findOutgoingInterfaceId ready.addressed joined.near joined.near_link
  have small : i < 2 ^ 31 := by
    obtain ⟨itf, interface, _⟩ := joined.near.interface
    obtain ⟨inside, _⟩ := List.getElem?_eq_some_iff.mp interface
    have few := ready.fresh.few r mem
    omega
  have routes : (r.routing.addNetworkRouteTo 0 0 nextHop (unsignedInterface
      (net.findOutgoingInterfaceId r.routerId (linkRecord r i ifa r').linkData))).allRoutes
        r.node dest none = [⟨0, 0, nextHop, i⟩] := by
    have interface : unsignedInterface
        (net.findOutgoingInterfaceId r.routerId (linkRecord r i ifa r').linkData) = i := by
      unfold unsignedInterface linkRecord
      rw [outgoing]
      omega
    unfold Ipv4GlobalRouting.allRoutes Ipv4GlobalRouting.addNetworkRouteTo
    dsimp only
    rw [ready.fresh.hostRoutes r mem, ready.fresh.networkRoutes r mem, interface]
    simp [isMatch, Ipv4GlobalRouting.usable]
  refine ⟨_, calculated, ?_, fun entry member => ?_⟩
  · rw [routes]
    exact List.cons_ne_nil _ _
  · rw [routes] at member
    rw [List.mem_singleton.mp member]
    exact ⟨i, d, ifa, r', i', d', ifa', joined, rfl, first⟩

/-- Each first hop gives an exit by the interface of its link. -/
theorem Internet.Ready.exit_of_hop (ready : net.Ready lsdb) (mem : r ∈ net.nodes)
    {l : GlobalRoutingLinkRecord} {id : UInt32} (hop : lsdb.linkGraph.FirstHop r.routerId id l) :
    ∃ i d ifa r' i' d' ifa' nextHop, net.Joined r i d ifa r' i' d' ifa' ∧
      l = linkRecord r i ifa r' ∧
      rootExit lsdb r.routerId (net.findOutgoingInterfaceId r.routerId) l = some ⟨nextHop, i⟩ := by
  obtain ⟨i, d, ifa, r', i', d', ifa', joined, rfl⟩ :=
    (ready.planned.mem_links ready.known mem).mp hop.1
  obtain ⟨back, back_leaves, back_id⟩ := ready.routable.paired _ _ hop.1
  obtain ⟨w, target, back_mem, _⟩ := GlobalRouteManagerLSDB.exists_getLSA back_leaves
  obtain ⟨linkRemote, remote⟩ : ∃ linkRemote,
      w.linkRecords.find? (·.linkId == r.routerId) = some linkRemote :=
    Option.isSome_iff_exists.mp (List.find?_isSome.mpr ⟨back, back_mem, by simpa using back_id⟩)
  refine ⟨i, d, ifa, r', i', d', ifa', linkRemote.linkData, joined, rfl, ?_⟩
  unfold rootExit
  rw [target, Option.bind_some, remote, Option.map_some]
  exact congrArg some (congrArg _ (ready.planned.findOutgoingInterfaceId ready.addressed
    joined.near joined.near_link))

/-- The host routes of a router with several links are along all first hops. -/
theorem Internet.Ready.leads_several (ready : net.Ready lsdb) (mem : r ∈ net.nodes)
    (other : t.routerId ≠ r.routerId) {dist : Nat}
    (reachable : lsdb.linkGraph.Dist r.routerId t.routerId dist)
    (joined_t : net.Joined t j dt ifat r' i' d' ifa')
    (several : 1 < ((net.advertisement r).linkRecords.filter (·.linkType = .pointToPoint)).length) :
    ∃ routing', spfCalculate lsdb r.routerId (net.findOutgoingInterfaceId r.routerId) r.routing =
      some routing' ∧ Leads net lsdb r t ifat.localAddress routing' := by
  have found := ready.planned.getLSA ready.known mem
  obtain ⟨routing', tree, calculated, result⟩ := spfCalculate_several ready.routable
    (net.findOutgoingInterfaceId r.routerId) found several r.routing
  obtain ⟨v, in_tree, id⟩ := result.complete _ _ reachable.1
  obtain ⟨first, front, first_id⟩ := result.front
  obtain ⟨rest, split⟩ := List.head?_eq_some_iff.mp front
  have later : v ∈ tree.tail := by
    rw [split] at in_tree ⊢
    rcases List.mem_cons.mp in_tree with rfl | mem
    · exact absurd (id.symm.trans first_id) other
    · exact mem
  have exits := result.settled.exits v in_tree (id ▸ other)
  obtain ⟨networks, adds, _⟩ := result.adds
  have leaves : linkRecord t j ifat r' ∈ lsdb.linkGraph.links v.vertexId := by
    rw [id]
    exact (ready.planned.mem_links ready.known joined_t.near.mem).mpr
      ⟨j, dt, ifat, r', i', d', ifa', joined_t, rfl⟩
  have host : routing'.hostRoutes.filter (fun route => route.dest == ifat.localAddress &&
      Ipv4GlobalRouting.usable r.node none route) = v.routesTo ifat.localAddress := by
    rw [adds.hostRoutes, ready.fresh.hostRoutes r mem, List.nil_append]
    simp only [Ipv4GlobalRouting.usable, Bool.and_true]
    exact result.settled.filter_hostRoutes
      (ready.planned.distinct ready.addressed ready.known) later leaves
  have valid {exit : NodeExit} (inside : exit ∈ v.ecmpRootExits) : ∃ i d ifa r₁ i₁ d₁ ifa₁,
      net.Joined r i d ifa r₁ i₁ d₁ ifa₁ ∧ exit.outIf = (i : Int) ∧
        lsdb.linkGraph.FirstHop r.routerId t.routerId (linkRecord r i ifa r₁) := by
    obtain ⟨l, hop, leads⟩ := (exits.mem exit).mp inside
    obtain ⟨i, d, ifa, r₁, i₁, d₁, ifa₁, nextHop, joined, rfl, exit_eq⟩ := ready.exit_of_hop mem hop
    rw [exit_eq, Option.some.injEq] at leads
    subst leads
    exact ⟨i, d, ifa, r₁, i₁, d₁, ifa₁, joined, rfl, id ▸ hop⟩
  have some_route : v.routesTo ifat.localAddress ≠ [] := by
    obtain ⟨l, hop⟩ := LinkGraph.exists_firstHop reachable other
    obtain ⟨i, d, ifa, r₁, i₁, d₁, ifa₁, nextHop, joined, rfl, exit_eq⟩ :=
      ready.exit_of_hop mem (id.symm ▸ hop)
    have inside : (⟨nextHop, i⟩ : NodeExit) ∈ v.validExits :=
      List.mem_filter.mpr ⟨(exits.mem _).mpr ⟨_, id.symm ▸ hop, exit_eq⟩, by simp⟩
    exact List.ne_nil_of_mem (List.mem_map_of_mem inside)
  have routes : routing'.allRoutes r.node ifat.localAddress none = v.routesTo ifat.localAddress := by
    unfold Ipv4GlobalRouting.allRoutes
    dsimp only
    rw [host, if_pos some_route]
  refine ⟨routing', calculated, routes ▸ some_route, fun entry member => ?_⟩
  rw [routes] at member
  obtain ⟨exit, inside, rfl⟩ := List.mem_map.mp member
  obtain ⟨i, d, ifa, r₁, i₁, d₁, ifa₁, joined, outIf, hop⟩ := valid (List.mem_filter.mp inside).1
  exact ⟨i, d, ifa, r₁, i₁, d₁, ifa₁, joined, by simp [outIf], hop⟩

/-- SPFCalculate gives every router its routes. -/
theorem Internet.Ready.calculated (ready : net.Ready lsdb) (mem : r ∈ net.nodes) :
    spfCalculate lsdb r.routerId (net.findOutgoingInterfaceId r.routerId) r.routing =
      some (net.calculated lsdb r).routing := by
  have found := ready.planned.getLSA ready.known mem
  have total : ∃ routing', spfCalculate lsdb r.routerId (net.findOutgoingInterfaceId r.routerId)
      r.routing = some routing' := by
    cases links : (net.advertisement r).linkRecords.filter (·.linkType = .pointToPoint) with
    | nil => exact ⟨_, spfCalculate_alone found links r.routing⟩
    | cons l more =>
      cases more with
      | nil =>
        obtain ⟨_, calculated⟩ := spfCalculate_stub ready.routable
          (net.findOutgoingInterfaceId r.routerId) found links r.routing
        exact ⟨_, calculated⟩
      | cons l' more =>
        obtain ⟨routing', _, calculated, _⟩ := spfCalculate_several ready.routable
          (net.findOutgoingInterfaceId r.routerId) found (by simp [links]) r.routing
        exact ⟨routing', calculated⟩
  obtain ⟨routing', calculated⟩ := total
  unfold Internet.calculated
  rw [calculated]
  rfl

/-- All entries for a link of a router that can be reached lead closer to it. -/
theorem Internet.Ready.leads (ready : net.Ready lsdb) (mem : r ∈ net.nodes)
    (other : t.routerId ≠ r.routerId) {dist : Nat}
    (reachable : lsdb.linkGraph.Dist r.routerId t.routerId dist)
    (joined_t : net.Joined t j dt ifat r' i' d' ifa') :
    Leads net lsdb r t ifat.localAddress (net.calculated lsdb r).routing := by
  have found := ready.planned.getLSA ready.known mem
  obtain ⟨x, first⟩ := LinkGraph.exists_firstHop reachable other
  obtain ⟨routing', calculated, leads⟩ : ∃ routing', spfCalculate lsdb r.routerId
      (net.findOutgoingInterfaceId r.routerId) r.routing = some routing' ∧
        Leads net lsdb r t ifat.localAddress routing' := by
    cases links : (net.advertisement r).linkRecords.filter (·.linkType = .pointToPoint) with
    | nil =>
      have leaves := (GlobalRouteManagerLSDB.mem_links found).mp first.1
      have member : x ∈ (net.advertisement r).linkRecords.filter (·.linkType = .pointToPoint) := by
        simpa using leaves
      rw [links] at member
      cases member
    | cons l more =>
      cases more with
      | nil => exact ready.leads_stub mem first links
      | cons l' more =>
        exact ready.leads_several mem other reachable joined_t (by simp [links])
  rw [ready.calculated mem, Option.some.injEq] at calculated
  exact calculated ▸ leads

/-- The network after the tables have been populated. -/
def Internet.populated (net : Internet ι) (lsdb : GlobalRouteManagerLSDB) : Internet ι :=
  { net with nodes := net.nodes.map (net.calculated lsdb) }

theorem Internet.Ready.populateRoutingTables (ready : net.Ready lsdb)
    (built : net.buildGlobalRoutingDatabase = some lsdb) :
    net.populateRoutingTables = some (net.populated lsdb) := by
  unfold Internet.populateRoutingTables initializeRoutes
  rw [built, Option.bind_some, mapM_eq_map (g := net.calculated lsdb)]
  · rfl
  · intro r mem
    rw [ready.calculated mem]
    rfl

/- Journeys -/

/-- A packet that a router has received by an interface, with its time to live. -/
structure Arrival (ι : Type) where
  router : Router ι
  iif : Nat
  ttl : Nat

/-- Where a packet that leaves by the interface arrives. -/
def Internet.across (net : Internet ι) (r : Router ι) (interface : Nat) : Option (Router ι × Nat) := do
  let device ← r.node.netDevice interface
  let ndRemote ← net.peer device
  let next ← net.nodeOf ndRemote
  let iif ← next.node.interfaceForDevice ndRemote
  some (next, iif)

/-- The random variable draws one of the routes, if it is asked. -/
def Router.Draws (r : Router ι) (dest draw : UInt32) : Prop :=
  r.routing.randomEcmpRouting = true → 1 < (r.routing.allRoutes r.node dest none).length →
    draw.toNat < (r.routing.allRoutes r.node dest none).length

/-- RouteInput at a router, IpForward, and the reception at the next one. -/
inductive Internet.Hop (net : Internet ι) (dest : UInt32) : Arrival ι → Arrival ι → Prop
  | forward {r next : Router ι} {iif iif' ttl : Nat} {draw : UInt32} {key : Option FlowKey}
      {entry : Ipv4RoutingTableEntry} : r.Draws dest draw → 1 < ttl →
      r.routeInput draw dest key iif = .forward entry →
      net.across r entry.interface = some (next, iif') →
      Internet.Hop net dest ⟨r, iif, ttl⟩ ⟨next, iif', ttl - 1⟩

/-- RouteOutput at the router that sends a packet, and the reception at the next one. -/
inductive Internet.Sent (net : Internet ι) (dest : UInt32) (source : Router ι) (ttl : Nat) :
    Arrival ι → Prop
  | send {next : Router ι} {iif : Nat} {draw : UInt32} {key : Option FlowKey}
      {entry : Ipv4RoutingTableEntry} : source.Draws dest draw →
      source.route draw dest key = some entry → net.across source entry.interface = some (next, iif) →
      Internet.Sent net dest source ttl ⟨next, iif, ttl⟩

/-- A number of hops. -/
inductive Internet.Travels (net : Internet ι) (dest : UInt32) (a : Arrival ι) : Nat → Arrival ι → Prop
  | here : Internet.Travels net dest a 0 a
  | hop {n : Nat} {b c : Arrival ι} : Internet.Travels net dest a n b → net.Hop dest b c →
      Internet.Travels net dest a (n + 1) c

theorem Internet.nodeOf_populated (d : ι) :
    (net.populated lsdb).nodeOf d = (net.nodeOf d).map (net.calculated lsdb) := by
  unfold Internet.nodeOf populated
  rw [List.find?_map]
  rfl

theorem Internet.Joined.across (planned : net.Planned) (joined : net.Joined r i d ifa r' i' d' ifa') :
    (net.populated lsdb).across (net.calculated lsdb r) i = some (net.calculated lsdb r', i') := by
  unfold Internet.across
  rw [show (net.calculated lsdb r).node.netDevice i = some d from joined.near.netDevice]
  simp only [Option.bind_eq_bind, Option.bind_some]
  rw [show (net.populated lsdb).peer d = some d' from joined.peer, Option.bind_some,
    nodeOf_populated, planned.nodeOf joined.far, Option.map_some, Option.bind_some]
  have received := planned.interfaceForDevice joined.far
  rw [show (net.calculated lsdb r').node.interfaceForDevice d' = some i' from received,
    Option.bind_some]

omit [DecidableEq ι] in
/-- The index of a route is in range if the random variable draws one in range. -/
theorem selectIndex_lt {routing : Ipv4GlobalRouting} (node : Ipv4Node ι) {n : Nat} {draw : UInt32}
    (some_route : 0 < n) (draws : routing.randomEcmpRouting = true → 1 < n → draw.toNat < n)
    (key : Option FlowKey) : (routing.selectIndex node draw n key).toNat < n := by
  cases perflow : routing.perflowEcmpRouting with
  | true => exact Ipv4GlobalRouting.selectIndex_perflow node perflow draw some_route key
  | false =>
    cases random : routing.randomEcmpRouting with
    | false => exact (Ipv4GlobalRouting.selectIndex_fixed node n random draw key).2 some_route
    | true =>
      unfold Ipv4GlobalRouting.selectIndex
      rw [perflow, random]
      split
      case isTrue several => exact draws random several
      case isFalse => exact some_route

theorem exists_selectRoute {routing : Ipv4GlobalRouting} {node : Ipv4Node ι} {dest draw : UInt32}
    (some_route : routing.allRoutes node dest none ≠ [])
    (draws : routing.randomEcmpRouting = true → 1 < (routing.allRoutes node dest none).length →
      draw.toNat < (routing.allRoutes node dest none).length) (key : Option FlowKey) :
    ∃ entry ∈ routing.allRoutes node dest none,
      routing.selectRoute node draw dest none key = some entry := by
  have inside := selectIndex_lt node (List.length_pos_iff.mpr some_route) draws key
  exact ⟨_, List.getElem_mem inside, List.getElem?_eq_getElem inside⟩

/-- The packet is not for a router that does not have its destination. -/
theorem Internet.Ready.not_destination (ready : net.Ready lsdb) (mem : r ∈ net.nodes)
    (other : t.routerId ≠ r.routerId) (port : net.Port t j dt ifat) (link : net.loopback dt = false)
    (iif : Nat) : r.node.isDestinationAddress ifat.localAddress iif = false := by
  obtain ⟨multicast, broadcast⟩ := ready.addressed.unicast t j dt ifat port link
  have elsewhere (k : Nat) : (r.node.addresses k).any (·.isFor ifat.localAddress) = false := by
    by_cases inside : k < r.node.interfaces.length
    · obtain ⟨d, ifa, port'⟩ := ready.planned.ports r mem k inside
      rw [port'.addresses]
      by_contra holds
      have same := ready.addressed.own t j dt ifat r k d ifa port link port' (by simpa using holds)
      subst same
      exact other (congrArg Router.routerId (ready.planned.port_unique port port').1)
    · simp [Ipv4Node.addresses, List.getElem?_eq_none (Nat.not_lt.mp inside)]
  unfold Ipv4Node.isDestinationAddress
  simp [elsewhere, multicast, broadcast]

/-- The router of the destination delivers the packet, whichever way it came. -/
theorem Internet.Ready.destination (ready : net.Ready lsdb) (port : net.Port t j dt ifat) (iif : Nat) :
    t.node.isDestinationAddress ifat.localAddress iif = true := by
  have here : (t.node.addresses j).any (·.isFor ifat.localAddress) = true := by
    rw [port.addresses]
    simp [isFor_self]
  have inside : j < t.node.interfaces.length := by
    obtain ⟨itf, interface, _⟩ := port.interface
    exact (List.getElem?_eq_some_iff.mp interface).1
  unfold Ipv4Node.isDestinationAddress
  rw [ready.addressed.weak t port.mem]
  by_cases same : j = iif
  · rw [← same, here]
    rfl
  · have other : (List.range t.node.interfaces.length).any (fun k =>
        k != iif && (t.node.addresses k).any (·.isFor ifat.localAddress)) = true :=
      List.any_eq_true.mpr ⟨j, List.mem_range.mpr inside, by simp [here, same]⟩
    rw [other]
    simp

/-- The route of a router that does not have the destination is over a link that leads
closer. -/
theorem Internet.Ready.routed (ready : net.Ready lsdb) (mem : r ∈ net.nodes)
    (other : t.routerId ≠ r.routerId) (port : net.Port t j dt ifat) (link : net.loopback dt = false)
    {dist : Nat} (reachable : lsdb.linkGraph.Dist r.routerId t.routerId dist) {draw : UInt32}
    (draws : (net.calculated lsdb r).Draws ifat.localAddress draw) (key : Option FlowKey) :
    ∃ entry i d ifa r' i' d' ifa' dist',
      (net.calculated lsdb r).route draw ifat.localAddress key = some entry ∧
      net.Joined r i d ifa r' i' d' ifa' ∧ entry.interface = i ∧
      lsdb.linkGraph.Dist r'.routerId t.routerId dist' ∧ dist' < dist := by
  cases static : r.static.lookupStatic r.node ifat.localAddress none with
  | some entry =>
    -- a connected route leads to the router itself
    obtain ⟨metric, preferred⟩ := Ipv4StaticRouting.lookupStatic_some static
    obtain ⟨i, ifa, address, rfl⟩ : ∃ i, ∃ ifa ∈ r.node.addresses i,
        entry = Ipv4StaticRouting.connectedRoute i ifa :=
      ready.fresh.connected r mem _ preferred.mem
    obtain ⟨d, port'⟩ : ∃ d, net.Port r i d ifa := by
      by_cases small : i < r.node.interfaces.length
      · obtain ⟨d, ifa', port'⟩ := ready.planned.ports r mem i small
        rw [port'.addresses, List.mem_singleton] at address
        exact ⟨d, address ▸ port'⟩
      · simp [Ipv4Node.addresses, List.getElem?_eq_none (Nat.not_lt.mp small)] at address
    have away : d ≠ dt := by
      rintro rfl
      exact other (congrArg Router.routerId (ready.planned.port_unique port port').1)
    have reaches := (Bool.and_eq_true_iff.mp preferred.reaches).1
    obtain ⟨near_link, peer⟩ := (ready.addressed.subnet t j dt ifat r i d ifa port link port'
      reaches).resolve_left away
    have back : net.peer dt = some d := by
      obtain ⟨d₁, r₁, i₁, ifa₁, peer₁, back₁, _⟩ := ready.planned.attached r i d ifa port' near_link
      rw [peer, Option.some.injEq] at peer₁
      exact peer₁ ▸ back₁
    refine ⟨Ipv4StaticRouting.connectedRoute i ifa, i, d, ifa, t, j, dt, ifat, 0, ?_,
      ⟨port', port, peer, back, near_link, link⟩, rfl, LinkGraph.dist_self _ _,
      reachable.1.positive ready.routable.positive other⟩
    unfold Router.route
    rw [show (net.calculated lsdb r).static.lookupStatic (net.calculated lsdb r).node
      ifat.localAddress none = _ from static]
  | none =>
    obtain ⟨r₁, i₁, d₁, ifa₁, joined_t⟩ := ready.planned.exists_joined port link
    have leads := ready.leads mem other reachable joined_t
    obtain ⟨entry, member, selected⟩ := exists_selectRoute leads.some_route draws key
    obtain ⟨i, d, ifa, r', i', d', ifa', joined, interface, leaves, dist', closer, whole⟩ :=
      leads.leads entry member
    refine ⟨entry, i, d, ifa, r', i', d', ifa', dist', ?_, joined, interface, closer, ?_⟩
    · unfold Router.route
      rw [show (net.calculated lsdb r).static.lookupStatic (net.calculated lsdb r).node
        ifat.localAddress none = _ from static]
      exact selected
    · have positive := ready.routable.positive _ _ leaves
      have sum := reachable.unique whole
      omega

/-- A router that does not have the destination forwards the packet by its route. -/
theorem Internet.Ready.forward (ready : net.Ready lsdb) (mem : r ∈ net.nodes)
    (other : t.routerId ≠ r.routerId) (port : net.Port t j dt ifat) (link : net.loopback dt = false)
    {iif : Nat} (inside : iif < r.node.interfaces.length) {draw : UInt32} {key : Option FlowKey}
    {entry : Ipv4RoutingTableEntry}
    (routed : (net.calculated lsdb r).route draw ifat.localAddress key = some entry) :
    (net.calculated lsdb r).routeInput draw ifat.localAddress key iif = .forward entry := by
  obtain ⟨_, _, in_port⟩ := ready.planned.ports r mem iif inside
  unfold Router.routeInput
  rw [show (net.calculated lsdb r).node.isDestinationAddress ifat.localAddress iif = false from
    ready.not_destination mem other port link iif]
  rw [show (net.calculated lsdb r).node.isForwarding iif = true from
    (in_port.running ready.planned).2]
  simp [routed]

/-- A hop is over a link of a router that does not have the destination, and it leads
closer. -/
theorem Internet.Ready.hop (ready : net.Ready lsdb) (port : net.Port t j dt ifat)
    (link : net.loopback dt = false) {dist : Nat} (mem : r ∈ net.nodes)
    (reachable : lsdb.linkGraph.Dist r.routerId t.routerId dist) {iif ttl : Nat}
    (inside : iif < r.node.interfaces.length) {c : Arrival ι}
    (hop : (net.populated lsdb).Hop ifat.localAddress ⟨net.calculated lsdb r, iif, ttl⟩ c) :
    1 < ttl ∧ ∃ i d ifa r' i' d' ifa' dist', net.Joined r i d ifa r' i' d' ifa' ∧
      c = ⟨net.calculated lsdb r', i', ttl - 1⟩ ∧
      lsdb.linkGraph.Dist r'.routerId t.routerId dist' ∧ dist' < dist := by
  cases hop with
  | @forward _ next _ iif' _ draw key entry draws alive routed across =>
    have other : t.routerId ≠ r.routerId := by
      intro same
      have here := List.inj_on_of_nodup_map ready.planned.ids port.mem mem same
      subst here
      have delivered := ready.destination port iif
      unfold Router.routeInput at routed
      rw [show (net.calculated lsdb t).node.isDestinationAddress ifat.localAddress iif = true from
        delivered] at routed
      cases routed
    obtain ⟨entry', i, d, ifa, r', i', d', ifa', dist', route, joined, interface, nearer, less⟩ :=
      ready.routed mem other port link reachable draws key
    rw [ready.forward mem other port link inside route, Router.Fate.forward.injEq] at routed
    subst routed
    rw [interface, joined.across ready.planned] at across
    cases across
    exact ⟨alive, i, d, ifa, r', _, d', ifa', dist', joined, rfl, nearer, less⟩

/-- Each hop of a journey is one closer to the destination at least, and the journey is
along links. -/
theorem Internet.Travels.closer (ready : net.Ready lsdb) (port : net.Port t j dt ifat)
    (link : net.loopback dt = false) {dist : Nat} (mem : r ∈ net.nodes)
    (reachable : lsdb.linkGraph.Dist r.routerId t.routerId dist) {iif ttl n : Nat}
    (inside : iif < r.node.interfaces.length) {b : Arrival ι}
    (travels : (net.populated lsdb).Travels ifat.localAddress ⟨net.calculated lsdb r, iif, ttl⟩ n b) :
    ∃ r' ∈ net.nodes, b = ⟨net.calculated lsdb r', b.iif, b.ttl⟩ ∧
      b.iif < r'.node.interfaces.length ∧ b.ttl + n = ttl ∧
      (∃ dist', lsdb.linkGraph.Dist r'.routerId t.routerId dist' ∧ n + dist' ≤ dist) ∧
      ∀ most, (∀ id, ∀ l ∈ lsdb.linkGraph.links id, lsdb.linkGraph.metric l ≤ most) →
        ∃ cost ≤ n * most, lsdb.linkGraph.Walk r.routerId cost r'.routerId := by
  induction travels with
  | here =>
    exact ⟨r, mem, rfl, inside, rfl, ⟨dist, reachable, by omega⟩,
      fun _ _ => ⟨0, Nat.zero_le _, .nil⟩⟩
  | @hop n b c _ hop ih =>
    obtain ⟨r', mem', router, iif_inside, lives, ⟨dist', closer, sum⟩, along⟩ := ih
    rw [router] at hop
    obtain ⟨alive, i, d, ifa, r₁, i₁, d₁, ifa₁, dist₁, joined, rfl, nearer, less⟩ :=
      ready.hop port link mem' closer iif_inside hop
    obtain ⟨itf, there, _⟩ := joined.far.interface
    refine ⟨r₁, joined.far.mem, rfl, (List.getElem?_eq_some_iff.mp there).1, by dsimp only; omega,
      ⟨dist₁, nearer, by omega⟩, fun most cheap => ?_⟩
    obtain ⟨cost, few, walk⟩ := along most cheap
    have leaves : linkRecord r' i ifa r₁ ∈ lsdb.linkGraph.links r'.routerId :=
      (ready.planned.mem_links ready.known mem').mpr ⟨i, d, ifa, r₁, i₁, d₁, ifa₁, joined, rfl⟩
    refine ⟨_, ?_, walk.snoc leaves⟩
    have one := cheap _ _ leaves
    rw [Nat.succ_mul]
    omega

/-- A packet that is sent goes over a link too. -/
theorem Internet.Ready.sent (ready : net.Ready lsdb) (port : net.Port t j dt ifat)
    (link : net.loopback dt = false) {dist : Nat} (mem : r ∈ net.nodes)
    (other : t.routerId ≠ r.routerId) (reachable : lsdb.linkGraph.Dist r.routerId t.routerId dist)
    {ttl : Nat} {a : Arrival ι}
    (sent : (net.populated lsdb).Sent ifat.localAddress (net.calculated lsdb r) ttl a) :
    ∃ i d ifa r' i' d' ifa' dist', net.Joined r i d ifa r' i' d' ifa' ∧
      a = ⟨net.calculated lsdb r', i', ttl⟩ ∧
      lsdb.linkGraph.Dist r'.routerId t.routerId dist' ∧ dist' < dist := by
  cases sent with
  | @send next iif' draw key entry draws routed across =>
    obtain ⟨entry', i, d, ifa, r', i', d', ifa', dist', route, joined, interface, nearer, less⟩ :=
      ready.routed mem other port link reachable draws key
    rw [route, Option.some.injEq] at routed
    subst routed
    rw [interface, joined.across ready.planned] at across
    cases across
    exact ⟨i, d, ifa, r', _, d', ifa', dist', joined, rfl, nearer, less⟩

/-- What the router does with a packet that it has received. -/
structure Internet.Handles (net : Internet ι) (dest id : UInt32) (b : Arrival ι) : Prop where
  delivers : b.router.routerId = id → ∀ draw key,
    b.router.routeInput draw dest key b.iif = .localDeliver
  forwards : b.router.routerId ≠ id → ∀ draw key, b.router.Draws dest draw → ∃ entry next,
    b.router.routeInput draw dest key b.iif = .forward entry ∧
      net.across b.router entry.interface = some next

/-- A packet that is elsewhere makes a hop if its time to live is enough. -/
theorem Internet.Handles.hop {dest id : UInt32} {b : Arrival ι} (handles : net.Handles dest id b)
    (elsewhere : b.router.routerId ≠ id) (alive : 1 < b.ttl) : ∃ c, net.Hop dest b c := by
  have draws : b.router.Draws dest 0 := fun _ several => Nat.lt_trans Nat.one_pos several
  obtain ⟨entry, ⟨next, iif⟩, routed, across⟩ := handles.forwards elsewhere 0 none draws
  exact ⟨_, .forward draws alive routed across⟩

theorem Internet.Ready.handles (ready : net.Ready lsdb) (port : net.Port t j dt ifat)
    (link : net.loopback dt = false) {dist : Nat} (mem : r ∈ net.nodes)
    (reachable : lsdb.linkGraph.Dist r.routerId t.routerId dist) {iif : Nat}
    (inside : iif < r.node.interfaces.length) (ttl : Nat) :
    (net.populated lsdb).Handles ifat.localAddress t.routerId
      ⟨net.calculated lsdb r, iif, ttl⟩ := by
  constructor
  · intro same draw key
    have here := List.inj_on_of_nodup_map ready.planned.ids mem port.mem same
    subst here
    have delivered := ready.destination port iif
    unfold Router.routeInput
    rw [show (net.calculated lsdb r).node.isDestinationAddress ifat.localAddress iif = true from
      delivered]
    rfl
  · intro different draw key draws
    have other : t.routerId ≠ r.routerId := Ne.symm different
    obtain ⟨entry, i, d, ifa, r', i', d', ifa', dist', route, joined, interface, _⟩ :=
      ready.routed mem other port link reachable draws key
    exact ⟨entry, _, ready.forward mem other port link inside route,
      by rw [interface, joined.across ready.planned]⟩

/-- A journey that begins with a packet that a router sends. -/
theorem Internet.Ready.journey (ready : net.Ready lsdb) (port : net.Port t j dt ifat)
    (link : net.loopback dt = false) {dist : Nat} (mem : r ∈ net.nodes)
    (other : t.routerId ≠ r.routerId) (reachable : lsdb.linkGraph.Dist r.routerId t.routerId dist)
    {ttl n : Nat} {a b : Arrival ι}
    (sent : (net.populated lsdb).Sent ifat.localAddress (net.calculated lsdb r) ttl a)
    (travels : (net.populated lsdb).Travels ifat.localAddress a n b) :
    b.ttl + n = ttl ∧ (net.populated lsdb).Handles ifat.localAddress t.routerId b ∧
      (∃ dist', lsdb.linkGraph.Dist b.router.routerId t.routerId dist' ∧ n + 1 + dist' ≤ dist ∧
        ∀ c, (net.populated lsdb).Hop ifat.localAddress b c →
          ∃ next, lsdb.linkGraph.Dist c.router.routerId t.routerId next ∧ next < dist') ∧
      ∀ most, (∀ id, ∀ l ∈ lsdb.linkGraph.links id, lsdb.linkGraph.metric l ≤ most) →
        ∃ cost ≤ (n + 1) * most, lsdb.linkGraph.Walk r.routerId cost b.router.routerId := by
  obtain ⟨i, d, ifa, r₁, i₁, d₁, ifa₁, dist₁, joined, rfl, nearer, less⟩ :=
    ready.sent port link mem other reachable sent
  obtain ⟨itf, there, _⟩ := joined.far.interface
  obtain ⟨r', mem', arrived, inside, lives, ⟨dist', closer, sum⟩, along⟩ :=
    travels.closer ready port link joined.far.mem nearer (List.getElem?_eq_some_iff.mp there).1
  have id : b.router.routerId = r'.routerId := congrArg (·.router.routerId) arrived
  refine ⟨lives, ?_, ⟨dist', id ▸ closer, by omega, fun c hop => ?_⟩, fun most cheap => ?_⟩
  · rw [arrived]
    exact ready.handles port link mem' closer inside b.ttl
  · rw [arrived] at hop
    obtain ⟨_, _, _, _, _, _, _, _, next, _, rfl, nearer, less⟩ :=
      ready.hop port link mem' closer inside hop
    exact ⟨next, nearer, less⟩
  · obtain ⟨cost, few, walk⟩ := along most cheap
    have leaves : linkRecord r i ifa r₁ ∈ lsdb.linkGraph.links r.routerId :=
      (ready.planned.mem_links ready.known mem).mpr ⟨i, d, ifa, r₁, i₁, d₁, ifa₁, joined, rfl⟩
    have one := cheap _ _ leaves
    refine ⟨_, ?_, id ▸ walk.cons leaves⟩
    rw [Nat.succ_mul]
    omega

/-- A network with an address plan populates its tables, and by these every packet for
an address that can be reached gets to its router in at most as many hops as the
router is away, whatever the flow and whichever routes the hash or the random variable
selects on the way: elsewhere it is forwarded, to a router that is closer, and there it is
delivered. -/
theorem Internet.Planned.delivers (planned : net.Planned) (addressed : net.Addressed)
    (fresh : net.Fresh)
    (small : ∀ r ∈ net.nodes, ∀ m ∈ r.metrics, m.toNat * net.nodes.length < 2 ^ 32) :
    ∃ lsdb net', net.buildGlobalRoutingDatabase = some lsdb ∧ net.populateRoutingTables = some net' ∧
      ∀ t j dt ifat, net.Port t j dt ifat → net.loopback dt = false →
      ∀ source ∈ net'.nodes, source.routerId ≠ t.routerId →
      ∀ dist, lsdb.linkGraph.Dist source.routerId t.routerId dist →
        (∀ draw key, source.Draws ifat.localAddress draw → ∃ entry next,
          source.route draw ifat.localAddress key = some entry ∧
            net'.across source entry.interface = some next) ∧
        ∀ ttl a n b, net'.Sent ifat.localAddress source ttl a → net'.Travels ifat.localAddress a n b →
          n < dist ∧ b.ttl + n = ttl ∧ net'.Handles ifat.localAddress t.routerId b ∧
          (∃ left, lsdb.linkGraph.Dist b.router.routerId t.routerId left ∧ n + 1 + left ≤ dist ∧
            ∀ c, net'.Hop ifat.localAddress b c →
              ∃ next, lsdb.linkGraph.Dist c.router.routerId t.routerId next ∧ next < left) ∧
          (dist ≤ ttl → b.router.routerId ≠ t.routerId → ∃ c, net'.Hop ifat.localAddress b c) := by
  obtain ⟨lsdb, built, known⟩ := planned.buildGlobalRoutingDatabase
  have ready : net.Ready lsdb := ⟨planned, addressed, fresh, known, planned.routable known small⟩
  refine ⟨lsdb, net.populated lsdb, built, ready.populateRoutingTables built, ?_⟩
  intro t j dt ifat port link source source_mem different dist reachable
  obtain ⟨r, mem, rfl⟩ := List.mem_map.mp source_mem
  have other : t.routerId ≠ r.routerId := Ne.symm different
  refine ⟨fun draw key draws => ?_, fun ttl a n b sent travels => ?_⟩
  · obtain ⟨entry, i, d, ifa, r', i', d', ifa', dist', route, joined, interface, _⟩ :=
      ready.routed mem other port link reachable draws key
    exact ⟨entry, _, route, by rw [interface, joined.across planned]⟩
  · obtain ⟨lives, handles, ⟨dist', closer, sum, falls⟩, _⟩ :=
      ready.journey port link mem other reachable sent travels
    refine ⟨by omega, lives, handles, ⟨dist', closer, sum, falls⟩, fun enough elsewhere => ?_⟩
    have away := closer.1.positive ready.routable.positive elsewhere.symm
    exact handles.hop elsewhere (by omega)

end QbbNet
