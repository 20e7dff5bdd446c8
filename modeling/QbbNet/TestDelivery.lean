import QbbNet.TestNetwork
import QbbNet.TopologyChecks

set_option autoImplicit false

/- Delivery in the network of a topology file: the tables of all its nodes are
populated, and a packet comes one hop closer to its destination at every node. -/
namespace QbbNet

/-- The nodes that a node is linked to, each at a distance of one. -/
def hopGraph (links : List LinkStats) : LinkGraph UInt32 UInt32 where
  links v := links.flatMap fun link =>
    (if link.nodeA = v then [link.nodeB] else []) ++ if link.nodeB = v then [link.nodeA] else []
  target v := v
  metric _ := 1

/-- The node of one end of a link. -/
def LinkStats.node (link : LinkStats) (second : Bool) : UInt32 :=
  if second then link.nodeB else link.nodeA

theorem mem_hopGraph {links : List LinkStats} {v w : UInt32} : w ∈ (hopGraph links).links v ↔
    ∃ (k : Nat) (link : LinkStats) (second : Bool), links[k]? = some link ∧ link.node second = v ∧
      link.node (!second) = w := by
  unfold hopGraph
  dsimp only
  rw [List.mem_flatMap]
  constructor
  · rintro ⟨link, mem, member⟩
    obtain ⟨k, there⟩ := List.mem_iff_getElem?.mp mem
    rcases List.mem_append.mp member with from_first | from_second
    · split at from_first
      case isTrue first =>
        exact ⟨k, link, false, there, first, (List.mem_singleton.mp from_first).symm⟩
      case isFalse => cases from_first
    · split at from_second
      case isTrue second =>
        exact ⟨k, link, true, there, second, (List.mem_singleton.mp from_second).symm⟩
      case isFalse => cases from_second
  · rintro ⟨k, link, second, there, rfl, rfl⟩
    refine ⟨link, List.mem_of_getElem? there, ?_⟩
    cases second <;> simp [LinkStats.node]

namespace Installed

variable {routing : Ipv4GlobalRouting} {numNodes : Nat} {links : List LinkStats} {net : TestNetwork}
variable {lsdb : GlobalRouteManagerLSDB} {u v : UInt32} {dist : Nat}

/-- The ends of a link are joined. -/
theorem exists_joined (installed : Installed routing numNodes links net) {k : Nat} {link : LinkStats}
    (there : links[k]? = some link) (second : Bool) :
    ∃ r i r' i', net.internet.Joined r i (.pointToPoint k second) (addressOf (.pointToPoint k second))
        r' i' (.pointToPoint k !second) (addressOf (.pointToPoint k !second)) ∧
      r.routerId = link.node second ∧ r'.routerId = link.node !second := by
  obtain ⟨r, i, port, id⟩ := installed.exists_port there second
  obtain ⟨r', i', port', id'⟩ := installed.exists_port there !second
  have back : net.internet.peer (.pointToPoint k !second) = some (.pointToPoint k second) := by
    simp [TestNetwork.internet, TestNetwork.peer]
  exact ⟨r, i, r', i', ⟨port, port', rfl, back, rfl, rfl⟩, id, id'⟩

theorem metric_port (installed : Installed routing numNodes links net)
    (planned : net.internet.Planned) {r : Router TestDevice} {i : Nat} {d : TestDevice}
    {ifa : Ipv4InterfaceAddress} (port : net.internet.Port r i d ifa) (r' : Router TestDevice) :
    (Internet.linkRecord r i ifa r').metric.toNat = 1 := by
  obtain ⟨m, at_i, _⟩ := port.metric planned
  rw [Internet.linkRecord, at_i, installed.metric_eq port.mem (List.mem_of_getElem? at_i)]
  rfl

theorem metric_link (installed : Installed routing numNodes links net)
    (planned : net.internet.Planned) (known : net.internet.Database lsdb)
    {l : GlobalRoutingLinkRecord} (leaves : l ∈ lsdb.linkGraph.links u) :
    lsdb.linkGraph.metric l = 1 := by
  obtain ⟨lsa, found, _⟩ := GlobalRouteManagerLSDB.exists_getLSA leaves
  obtain ⟨r, mem, rfl, _⟩ := known.router_of_getLSA found
  obtain ⟨i, d, ifa, r', i', d', ifa', joined, rfl⟩ := (planned.mem_links known mem).mp leaves
  exact installed.metric_port planned joined.near r'

/-- The links of the database are those of the file. -/
theorem dist_iff (installed : Installed routing numNodes links net) (planned : net.internet.Planned)
    (known : net.internet.Database lsdb) :
    lsdb.linkGraph.Dist u v dist ↔ (hopGraph links).Dist u v dist := by
  refine LinkGraph.dist_congr ?_ ?_
  · intro id l leaves
    obtain ⟨lsa, found, _⟩ := GlobalRouteManagerLSDB.exists_getLSA leaves
    obtain ⟨r, mem, rfl, _⟩ := known.router_of_getLSA found
    obtain ⟨i, d, ifa, r', i', d', ifa', joined, rfl⟩ := (planned.mem_links known mem).mp leaves
    obtain ⟨k, second, rfl, inside⟩ := installed.exists_link joined.near joined.near_link
    have there := List.getElem?_eq_getElem inside
    obtain ⟨r₁, i₁, r₂, i₂, joined', id, id'⟩ := installed.exists_joined there second
    obtain ⟨rfl, _⟩ := planned.port_unique joined.near joined'.near
    have far := joined.peer.symm.trans joined'.peer
    cases far
    obtain ⟨rfl, _⟩ := planned.port_unique joined.far joined'.far
    exact ⟨r'.routerId, mem_hopGraph.mpr ⟨k, _, second, there, id.symm, id'.symm⟩, rfl,
      (installed.metric_port planned joined.near r').symm⟩
  · intro id w leaves
    obtain ⟨k, link, second, there, rfl, rfl⟩ := mem_hopGraph.mp leaves
    obtain ⟨r, i, r', i', joined, id, id'⟩ := installed.exists_joined there second
    refine ⟨Internet.linkRecord r i (addressOf (.pointToPoint k second)) r', ?_, id',
      installed.metric_port planned joined.near r'⟩
    rw [← id]
    exact (planned.mem_links known joined.near.mem).mpr ⟨_, _, _, _, _, _, _, joined, rfl⟩

theorem ready (installed : Installed routing numNodes links net) (nodes : numNodes < 2 ^ 32)
    (few : links.length ≤ maxLinks) (empty : routing.hostRoutes = [] ∧ routing.networkRoutes = []) :
    ∃ lsdb, net.internet.buildGlobalRoutingDatabase = some lsdb ∧ net.internet.Ready lsdb := by
  have planned := installed.planned (Nat.le_of_lt nodes)
  obtain ⟨lsdb, built, known⟩ := planned.buildGlobalRoutingDatabase
  refine ⟨lsdb, built, planned, installed.addressed few, installed.fresh few empty, known,
    planned.routable known fun r mem m member => ?_⟩
  have count : net.nodes.length = numNodes := by
    simpa using congrArg List.length installed.cabled.ids
  rw [installed.metric_eq mem member]
  show 1 * net.nodes.length < 2 ^ 32
  omega

end Installed

theorem Internet.Planned.delivers_cabled :
    ∃ net lsdb net', testNetwork (.new false true (.load fun _ => none)) true 3
        [⟨0, 1, 10⟩, ⟨1, 2, 10⟩] = some net ∧
      net.internet.buildGlobalRoutingDatabase = some lsdb ∧
      net.internet.populateRoutingTables = some net' ∧
      ∀ source ∈ net'.nodes, source.routerId ≠ 2 →
      ∀ dist, lsdb.linkGraph.Dist source.routerId 2 dist →
      ∀ a n b, net'.Sent 0x0a000006 source 64 a → net'.Travels 0x0a000006 a n b →
        n < dist ∧ net'.Handles 0x0a000006 2 b := by
  obtain ⟨net, set_up, installed⟩ := testNetwork_eq_some (.new false true (.load fun _ => none)) true
    (show [LinkStats.mk 0 1 10, LinkStats.mk 1 2 10].length ≤ maxLinks by decide)
    (show ∀ link ∈ [LinkStats.mk 0 1 10, LinkStats.mk 1 2 10], link.Inside 3 by
      unfold LinkStats.Inside
      decide)
  have count : net.nodes.length = 3 := by
    simpa using congrArg List.length installed.cabled.ids
  obtain ⟨lsdb, net', built, populated, delivered⟩ := Internet.Planned.delivers
    (installed.planned (by decide)) (installed.addressed (by decide))
    (installed.fresh (by decide) ⟨rfl, rfl⟩) fun r mem m member => by
      rw [installed.metric_eq mem member, show net.internet.nodes.length = 3 from count]
      decide
  refine ⟨net, lsdb, net', set_up, built, populated, ?_⟩
  intro source mem different dist reachable a n b sent travels
  have there : [LinkStats.mk 0 1 10, LinkStats.mk 1 2 10][1]? = some (LinkStats.mk 1 2 10) := rfl
  obtain ⟨t, j, port, id⟩ := installed.exists_port there true
  have id : t.routerId = 2 := id
  have journey := (delivered t j _ _ port rfl source mem (id ▸ different) dist
    (id ▸ reachable)).2 64 a n b sent travels
  exact ⟨journey.1, id ▸ journey.2.2.1⟩

/-- How a network carries the packets of a node for an address of another one that is
some hops away: every hop takes them one closer, whichever routes are selected, and they
make as many as their time to live allows. -/
structure Carried (net : Internet TestDevice) (links : List LinkStats) (source : Router TestDevice)
    (id dest : UInt32) (dist : Nat) : Prop where
  sends : ∀ draw key, source.Draws dest draw → ∃ entry next,
    source.route draw dest key = some entry ∧ net.across source entry.interface = some next
  closer : ∀ ttl a n b, net.Sent dest source ttl a → net.Travels dest a n b →
    n < dist ∧ b.ttl + n = ttl ∧ (hopGraph links).Dist b.router.routerId id (dist - (n + 1))
  handles : ∀ ttl a n b, net.Sent dest source ttl a → net.Travels dest a n b → net.Handles dest id b
  moves : ∀ ttl a n b, net.Sent dest source ttl a → net.Travels dest a n b →
    dist ≤ ttl → b.router.routerId ≠ id → ∃ c, net.Hop dest b c

namespace Installed

variable {routing : Ipv4GlobalRouting} {numNodes : Nat} {links : List LinkStats} {net : TestNetwork}
variable {lsdb : GlobalRouteManagerLSDB} {r t : Router TestDevice} {dist : Nat}

theorem carried (installed : Installed routing numNodes links net) (ready : net.internet.Ready lsdb)
    {k j : Nat} {second : Bool}
    (port : net.internet.Port t j (.pointToPoint k second) (addressOf (.pointToPoint k second)))
    (mem : r ∈ net.nodes) (different : r.routerId ≠ t.routerId)
    (reachable : (hopGraph links).Dist r.routerId t.routerId dist) :
    Carried (net.internet.populated lsdb) links (net.internet.calculated lsdb r) t.routerId
      (addressOf (.pointToPoint k second)).localAddress dist := by
  have other : t.routerId ≠ r.routerId := Ne.symm different
  have shortest := (installed.dist_iff ready.planned ready.known).mpr reachable
  constructor
  · intro draw key draws
    obtain ⟨entry, i, d, ifa, r', i', d', ifa', dist', route, joined, interface, _⟩ :=
      ready.routed mem other port rfl shortest draws key
    exact ⟨entry, _, route, by rw [interface, joined.across ready.planned]⟩
  all_goals
    intro ttl a n b sent travels
    obtain ⟨lives, handles, ⟨dist', closer, sum, _⟩, along⟩ :=
      ready.journey port rfl mem other shortest sent travels
  · obtain ⟨cost, cheap, walk⟩ := along 1 fun id l leaves =>
      Nat.le_of_eq (installed.metric_link ready.planned ready.known leaves)
    have least := shortest.le (walk.trans closer.1)
    have left : dist' = dist - (n + 1) := by omega
    refine ⟨by omega, lives, ?_⟩
    rw [← left]
    exact (installed.dist_iff ready.planned ready.known).mp closer
  · exact handles
  · intro enough elsewhere
    have away := closer.1.positive ready.routable.positive elsewhere.symm
    exact handles.hop elsewhere (by omega)

end Installed

/-- The network of a topology file is set up, and tables can be populated. -/
theorem exists_installed (routing : Ipv4GlobalRouting) (checksumEnabled : Bool) (lines : List Line)
    (few : (linksOf lines).length ≤ maxLinks)
    (empty : routing.hostRoutes = [] ∧ routing.networkRoutes = []) :
    ∃ net lsdb, testNetwork routing checksumEnabled
        (TopologyHeader.new.read lines).1.numNodes.toInt.toNat (linksOf lines) = some net ∧
      Installed routing (TopologyHeader.new.read lines).1.numNodes.toInt.toNat (linksOf lines) net ∧
      net.internet.populateRoutingTables = some (net.internet.populated lsdb) ∧
      net.internet.Ready lsdb := by
  have size : (TopologyHeader.new.read lines).1.numNodes.toInt < 2 ^ 31 := Int32.toInt_lt _
  have inside : ∀ link ∈ linksOf lines,
      link.Inside (TopologyHeader.new.read lines).1.numNodes.toInt.toNat := by
    intro link mem
    obtain ⟨first, second⟩ := linksOf_nodes mem
    exact ⟨by omega, by omega⟩
  obtain ⟨net, set_up, installed⟩ := testNetwork_eq_some routing checksumEnabled few inside
  obtain ⟨lsdb, built, ready⟩ := installed.ready (by omega) few empty
  exact ⟨net, lsdb, set_up, installed, ready.populateRoutingTables built, ready⟩

/-- For every topology file the network is set up and its tables are populated, and
from every node packets are carried to each end of the links that it can reach. -/
theorem topology_delivers (perflow random : Bool) (weights : EcmpWeights) (checksumEnabled : Bool)
    (lines : List Line) (few : (linksOf lines).length ≤ maxLinks) :
    ∃ net net', testNetwork (.new perflow random weights) checksumEnabled
        (TopologyHeader.new.read lines).1.numNodes.toInt.toNat (linksOf lines) = some net ∧
      net.internet.populateRoutingTables = some net' ∧
      ∀ (k : Nat) (link : LinkStats) (second : Bool), (linksOf lines)[k]? = some link →
      ∀ source ∈ net'.nodes, source.routerId ≠ link.node second →
      ∀ dist, (hopGraph (linksOf lines)).Dist source.routerId (link.node second) dist →
        Carried net' (linksOf lines) source (link.node second)
          (addressOf (.pointToPoint k second)).localAddress dist := by
  obtain ⟨net, lsdb, set_up, installed, populated, ready⟩ :=
    exists_installed (.new perflow random weights) checksumEnabled lines few ⟨rfl, rfl⟩
  refine ⟨net, net.internet.populated lsdb, set_up, populated, ?_⟩
  intro k link second there source source_mem different dist reachable
  obtain ⟨r, mem, rfl⟩ := List.mem_map.mp source_mem
  obtain ⟨t, j, port, id⟩ := installed.exists_port there second
  have id : t.routerId = link.node second := id
  rw [← id] at different reachable ⊢
  exact installed.carried ready port mem different reachable

/-- Nodes 0 and 4 of the file are two hops apart at most. -/
theorem listedFile_walk : (hopGraph [⟨0, 3, 7⟩, ⟨3, 4, 100⟩]).Walk 0 2 4 := by
  have first : (hopGraph [⟨0, 3, 7⟩, ⟨3, 4, 100⟩]).Walk 0 1 3 :=
    LinkGraph.Walk.nil.snoc (show 3 ∈ (hopGraph [⟨0, 3, 7⟩, ⟨3, 4, 100⟩]).links 0 by decide)
  exact first.snoc (show 4 ∈ (hopGraph [⟨0, 3, 7⟩, ⟨3, 4, 100⟩]).links 3 by decide)

theorem topology_delivers_listed :
    ∃ net net', testNetwork (.new true false (.load fun _ => none)) false 5
        [⟨0, 3, 7⟩, ⟨3, 4, 100⟩] = some net ∧
      net.internet.populateRoutingTables = some net' ∧
      ∀ source ∈ net'.nodes, source.routerId = 0 →
      ∀ a n b, net'.Sent 0x0a000006 source 64 a → net'.Travels 0x0a000006 a n b →
        n < 2 ∧ net'.Handles 0x0a000006 4 b := by
  have links : linksOf listedFile = [⟨0, 3, 7⟩, ⟨3, 4, 100⟩] := by decide +kernel
  have nodes : (TopologyHeader.new.read listedFile).1.numNodes.toInt.toNat = 5 := by decide +kernel
  obtain ⟨net, net', set_up, populated, delivered⟩ := topology_delivers true false
    (.load fun _ => none) false listedFile (by rw [links]; decide)
  rw [links, nodes] at set_up
  rw [links] at delivered
  refine ⟨net, net', set_up, populated, fun source mem id a n b sent travels => ?_⟩
  obtain ⟨dist, le, shortest⟩ := listedFile_walk.exists_dist
  have carried := delivered 1 ⟨3, 4, 100⟩ true rfl source mem (by rw [id]; decide) dist
    (by rw [id]; exact shortest)
  have closer := (carried.closer 64 a n b sent travels).1
  exact ⟨by omega, carried.handles 64 a n b sent travels⟩

/- Flows -/

/-- The first address of the first interface that has one, after the loopback's. -/
def Ipv4Node.getFirstNonLoopbackIp (node : Ipv4Node TestDevice) : UInt32 :=
  ((node.interfaces.drop 1).findSome? fun interface =>
    interface.addresses.head?.map (·.localAddress)).getD 0

/-- A node with links has the address of one of them, and others have none. -/
theorem Installed.getFirstNonLoopbackIp {routing : Ipv4GlobalRouting} {numNodes : Nat}
    {links : List LinkStats} {net : TestNetwork} (installed : Installed routing numNodes links net)
    (small : numNodes ≤ 2 ^ 32) {r : Router TestDevice} (mem : r ∈ net.nodes) :
    (r.routerId ∉ connectedNodes links ∧ r.node.getFirstNonLoopbackIp = 0) ∨
      (r.routerId ∈ connectedNodes links ∧ ∃ k second j,
        net.internet.Port r j (.pointToPoint k second) (addressOf (.pointToPoint k second)) ∧
          r.node.getFirstNonLoopbackIp = (addressOf (.pointToPoint k second)).localAddress) := by
  obtain ⟨n, there⟩ := List.mem_iff_getElem?.mp mem
  have id : n < numNodes ∧ r.routerId = UInt32.ofNat n := by
    have at_n := congrArg (fun ids => ids[n]?) installed.cabled.ids
    simp only [List.getElem?_map, there, Option.map_some] at at_n
    obtain ⟨n', at_n', same⟩ := Option.map_eq_some_iff.mp at_n.symm
    obtain ⟨inside, rfl⟩ := List.getElem?_eq_some_iff.mp at_n'
    rw [List.getElem_range] at same
    exact ⟨by simpa using inside, same.symm⟩
  have value : r.routerId.toNat = n := by
    rw [id.2, UInt32.toNat_ofNat_of_lt' (by norm_num; omega)]
  have devices := installed.cabled.order n r there
  have first : r.node.getFirstNonLoopbackIp =
      (((placements links).filter fun p => p.2.toNat = n).head?.map fun p =>
        (addressOf p.1).localAddress).getD 0 := by
    unfold Ipv4Node.getFirstNonLoopbackIp
    rw [(installed.cabled.wired r mem).interfaces, devices, List.map_cons, List.drop_one,
      List.tail_cons]
    cases (placements links).filter fun p => p.2.toNat = n <;> rfl
  have connected : r.routerId ∈ connectedNodes links ↔
      ∃ p ∈ placements links, p.2.toNat = n := by
    rw [mem_connectedNodes, linkEnds, List.mem_flatMap]
    constructor
    · rintro ⟨link, link_mem, node⟩
      obtain ⟨k, at_k⟩ := List.mem_iff_getElem?.mp link_mem
      rcases List.mem_pair.mp node with same | same
      · exact ⟨_, mem_placements.mpr ⟨k, link, at_k, Or.inl rfl⟩, by rw [← value, same]⟩
      · exact ⟨_, mem_placements.mpr ⟨k, link, at_k, Or.inr rfl⟩, by rw [← value, same]⟩
    · rintro ⟨p, p_mem, same⟩
      have node : p.2 = r.routerId := UInt32.toNat_inj.mp (same.trans value.symm)
      obtain ⟨k, link, at_k, rfl | rfl⟩ := mem_placements.mp p_mem
      · exact ⟨link, List.mem_of_getElem? at_k, by simp [← node]⟩
      · exact ⟨link, List.mem_of_getElem? at_k, by simp [← node]⟩
  rw [first]
  cases placed : (placements links).filter fun p => p.2.toNat = n with
  | nil =>
    refine Or.inl ⟨fun some_link => ?_, rfl⟩
    obtain ⟨p, p_mem, here⟩ := connected.mp some_link
    exact absurd here (by simpa using List.filter_eq_nil_iff.mp placed p p_mem)
  | cons p more =>
    obtain ⟨p_mem, here⟩ := List.mem_filter.mp (placed ▸ List.mem_cons_self)
    have here : p.2.toNat = n := by simpa using here
    refine Or.inr ⟨connected.mpr ⟨p, p_mem, here⟩, ?_⟩
    have device : p.1 ∈ r.node.devices := by
      rw [devices, placed]
      simp
    obtain ⟨j, at_j⟩ := List.mem_iff_getElem?.mp device
    have port := installed.port_iff.mpr ⟨mem, at_j, rfl⟩
    obtain ⟨k, link, at_k, rfl | rfl⟩ := mem_placements.mp p_mem
    · exact ⟨k, false, j, port, rfl⟩
    · exact ⟨k, true, j, port, rfl⟩

/-- A node that can be reached from another one has a link. -/
theorem connected_of_walk {links : List LinkStats} {u v : UInt32} {n : Nat}
    (walk : (hopGraph links).Walk u n v) (moved : u ≠ v) : v ∈ connectedNodes links := by
  cases walk with
  | nil => exact absurd rfl moved
  | @snoc _ w v _ leaves =>
    obtain ⟨k, link, second, there, _, rfl⟩ := mem_hopGraph.mp leaves
    rw [mem_connectedNodes, linkEnds, List.mem_flatMap]
    refine ⟨link, List.mem_of_getElem? there, ?_⟩
    cases second <;> simp [hopGraph, LinkStats.node]

/-- For every topology file the address that a flow is sent to is 0.0.0.0 exactly if its
destination has no link, which ends the experiment, and to a destination that can be
reached from the other end of the flow all its packets are carried. -/
theorem topology_flows (perflow random : Bool) (weights : EcmpWeights) (checksumEnabled : Bool)
    (lines : List Line) (few : (linksOf lines).length ≤ maxLinks) :
    ∃ net net', testNetwork (.new perflow random weights) checksumEnabled
        (TopologyHeader.new.read lines).1.numNodes.toInt.toNat (linksOf lines) = some net ∧
      net.internet.populateRoutingTables = some net' ∧
      (∀ dst ∈ net'.nodes, dst.node.getFirstNonLoopbackIp = 0 ↔
        dst.routerId ∉ connectedNodes (linksOf lines)) ∧
      ∀ src ∈ net'.nodes, ∀ dst ∈ net'.nodes, src.routerId ≠ dst.routerId →
      ∀ dist, (hopGraph (linksOf lines)).Dist src.routerId dst.routerId dist →
        Carried net' (linksOf lines) src dst.routerId dst.node.getFirstNonLoopbackIp dist := by
  have size : (TopologyHeader.new.read lines).1.numNodes.toInt < 2 ^ 31 := Int32.toInt_lt _
  obtain ⟨net, lsdb, set_up, installed, populated, ready⟩ :=
    exists_installed (.new perflow random weights) checksumEnabled lines few ⟨rfl, rfl⟩
  refine ⟨net, net.internet.populated lsdb, set_up, populated, fun dst dst_mem => ?_, ?_⟩
  · obtain ⟨t, mem, rfl⟩ := List.mem_map.mp dst_mem
    show t.node.getFirstNonLoopbackIp = 0 ↔ t.routerId ∉ connectedNodes (linksOf lines)
    rcases installed.getFirstNonLoopbackIp (by omega) mem with
      ⟨alone, none⟩ | ⟨connected, k, second, j, port, address⟩
    · exact ⟨fun _ => alone, fun _ => none⟩
    · refine ⟨fun none => absurd none ?_, fun alone => absurd connected alone⟩
      have value := localAddress_toNat (installed.known_link few port k second rfl) second
      rw [address, ← UInt32.toNat_inj, value, linkNetwork, show (0 : UInt32).toNat = 0 from rfl]
      omega
  · intro src src_mem dst dst_mem different dist reachable
    obtain ⟨r, mem, rfl⟩ := List.mem_map.mp src_mem
    obtain ⟨t, mem_t, rfl⟩ := List.mem_map.mp dst_mem
    have connected := connected_of_walk reachable.1 different
    rcases installed.getFirstNonLoopbackIp (by omega) mem_t with
      ⟨alone, _⟩ | ⟨_, k, second, j, port, address⟩
    · exact absurd connected alone
    · have carried := installed.carried ready port mem different reachable
      rw [← address] at carried
      exact carried

theorem topology_flows_listed :
    ∃ net net', testNetwork (.new false true (.load fun _ => none)) true 5
        [⟨0, 3, 7⟩, ⟨3, 4, 100⟩] = some net ∧
      net.internet.populateRoutingTables = some net' ∧
      (∀ dst ∈ net'.nodes, dst.routerId = 1 → dst.node.getFirstNonLoopbackIp = 0) ∧
      ∀ src ∈ net'.nodes, src.routerId = 0 → ∀ dst ∈ net'.nodes, dst.routerId = 4 →
        ∃ dist ≤ 2, Carried net' [⟨0, 3, 7⟩, ⟨3, 4, 100⟩] src 4 dst.node.getFirstNonLoopbackIp
          dist := by
  have links : linksOf listedFile = [⟨0, 3, 7⟩, ⟨3, 4, 100⟩] := by decide +kernel
  have nodes : (TopologyHeader.new.read listedFile).1.numNodes.toInt.toNat = 5 := by decide +kernel
  obtain ⟨net, net', set_up, populated, address, delivered⟩ := topology_flows false true
    (.load fun _ => none) true listedFile (by rw [links]; decide)
  rw [links, nodes] at set_up
  rw [links] at address delivered
  refine ⟨net, net', set_up, populated, fun dst mem id => (address dst mem).mpr ?_, ?_⟩
  · rw [id]
    decide
  · intro src src_mem from_ dst dst_mem to_
    obtain ⟨dist, le, shortest⟩ := listedFile_walk.exists_dist
    have carried := delivered src src_mem dst dst_mem (by rw [from_, to_]; decide) dist
      (by rw [from_, to_]; exact shortest)
    rw [to_] at carried
    exact ⟨dist, le, carried⟩

end QbbNet
