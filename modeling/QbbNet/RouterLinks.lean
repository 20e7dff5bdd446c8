import QbbNet.GlobalRouters
import QbbNet.SpfShortest
import QbbNet.OptionLoops

set_option autoImplicit false

/- The database of a network whose routers are joined in pairs: one advertisement for
each router, with a point-to-point record for each of its ports. -/
namespace QbbNet

variable {ι : Type}

/-- The router has an interface on the device, with one address. -/
structure Internet.Port (net : Internet ι) (r : Router ι) (i : Nat) (d : ι)
    (ifa : Ipv4InterfaceAddress) : Prop where
  mem : r ∈ net.nodes
  interface : ∃ itf, r.node.interfaces[i]? = some itf ∧ itf.device = d ∧ itf.addresses = [ifa]

/-- A device of each router for each interface, and every device that is not a
loopback joined to another one. -/
structure Internet.Planned (net : Internet ι) : Prop where
  ids : (net.nodes.map (·.routerId)).Nodup
  devices : ∀ r ∈ net.nodes, r.node.interfaces.map (·.device) = r.node.devices
  nodup : (net.nodes.flatMap (·.node.devices)).Nodup
  ports : ∀ r ∈ net.nodes, ∀ i < r.node.interfaces.length, ∃ d ifa, net.Port r i d ifa
  running : ∀ r ∈ net.nodes, ∀ itf ∈ r.node.interfaces, itf.up = true ∧ itf.forwarding = true
  metrics : ∀ r ∈ net.nodes, r.metrics.length = r.node.interfaces.length ∧ ∀ m ∈ r.metrics, 0 < m
  attached : ∀ r i d ifa, net.Port r i d ifa → net.loopback d = false → ∃ d' r' i' ifa',
    net.peer d = some d' ∧ net.peer d' = some d ∧ net.loopback d' = false ∧ net.Port r' i' d' ifa'

/-- The interface of one router is joined to that of another. -/
structure Internet.Joined (net : Internet ι) (r : Router ι) (i : Nat) (d : ι)
    (ifa : Ipv4InterfaceAddress) (r' : Router ι) (i' : Nat) (d' : ι) (ifa' : Ipv4InterfaceAddress) :
    Prop where
  near : net.Port r i d ifa
  far : net.Port r' i' d' ifa'
  peer : net.peer d = some d'
  back : net.peer d' = some d
  near_link : net.loopback d = false
  far_link : net.loopback d' = false

variable {net : Internet ι} {r r' : Router ι} {i i' : Nat} {d d' : ι}
variable {ifa ifa' : Ipv4InterfaceAddress}

theorem Internet.Joined.symm (joined : net.Joined r i d ifa r' i' d' ifa') :
    net.Joined r' i' d' ifa' r i d ifa :=
  ⟨joined.far, joined.near, joined.back, joined.peer, joined.far_link, joined.near_link⟩

namespace Internet.Planned

/-- Each port of a link is joined. -/
theorem exists_joined (planned : net.Planned) (port : net.Port r i d ifa)
    (link : net.loopback d = false) : ∃ r' i' d' ifa', net.Joined r i d ifa r' i' d' ifa' := by
  obtain ⟨d', r', i', ifa', peer, back, far_link, far⟩ := planned.attached r i d ifa port link
  exact ⟨r', i', d', ifa', port, far, peer, back, link, far_link⟩

theorem device_mem (planned : net.Planned) (port : net.Port r i d ifa) : d ∈ r.node.devices := by
  obtain ⟨itf, interface, device, _⟩ := port.interface
  rw [← planned.devices r port.mem]
  exact List.mem_map.mpr ⟨itf, List.mem_of_getElem? interface, device⟩

/-- A device is of one router only. -/
theorem router_unique (planned : net.Planned) (mem : r ∈ net.nodes) (mem' : r' ∈ net.nodes)
    (here : d ∈ r.node.devices) (there : d ∈ r'.node.devices) : r = r' := by
  by_contra different
  have disjoint := (List.nodup_flatMap.mp planned.nodup).2
  have symm : Std.Symm (Function.onFun List.Disjoint fun r : Router ι => r.node.devices) :=
    ⟨fun _ _ apart => apart.symm⟩
  exact disjoint.forall mem mem' different here there

theorem devices_nodup (planned : net.Planned) (mem : r ∈ net.nodes) : r.node.devices.Nodup :=
  (List.nodup_flatMap.mp planned.nodup).1 r mem

/-- A device is on one interface only. -/
theorem index_unique (planned : net.Planned) (mem : r ∈ net.nodes)
    {itf itf' : Ipv4Interface ι} (here : r.node.interfaces[i]? = some itf)
    (there : r.node.interfaces[i']? = some itf') (same : itf.device = itf'.device) : i = i' := by
  have nodup := planned.devices_nodup mem
  rw [← planned.devices r mem] at nodup
  have at_i : (r.node.interfaces.map (·.device))[i]? = some itf.device := by
    rw [List.getElem?_map, here, Option.map_some]
  have at_i' : (r.node.interfaces.map (·.device))[i']? = some itf.device := by
    rw [List.getElem?_map, there, Option.map_some, same]
  have ⟨small, _⟩ := List.getElem?_eq_some_iff.mp at_i
  exact (List.getElem?_inj small nodup).mp (at_i.trans at_i'.symm)

/-- A device is the one of a single port. -/
theorem port_unique (planned : net.Planned) (port : net.Port r i d ifa)
    (port' : net.Port r' i' d ifa') : r = r' ∧ i = i' ∧ ifa = ifa' := by
  have same := planned.router_unique port.mem port'.mem (planned.device_mem port)
    (planned.device_mem port')
  subst same
  obtain ⟨itf, interface, device, addresses⟩ := port.interface
  obtain ⟨itf', interface', device', addresses'⟩ := port'.interface
  have index := planned.index_unique port.mem interface interface' (device.trans device'.symm)
  subst index
  have same := Option.some.inj (interface.symm.trans interface')
  rw [← same, addresses] at addresses'
  exact ⟨rfl, rfl, (List.singleton_inj.mp addresses')⟩

variable [DecidableEq ι]

theorem nodeOf (planned : net.Planned) (port : net.Port r i d ifa) : net.nodeOf d = some r := by
  have member : r.node.devices.contains d = true := by
    simpa using planned.device_mem port
  unfold Internet.nodeOf
  cases found : net.nodes.find? fun r => r.node.devices.contains d with
  | none => exact absurd member (by simpa using List.find?_eq_none.mp found r port.mem)
  | some other =>
    have there : d ∈ other.node.devices := by simpa using List.find?_some found
    rw [planned.router_unique (List.mem_of_find?_eq_some found) port.mem there
      (planned.device_mem port)]

theorem interfaceForDevice (planned : net.Planned) (port : net.Port r i d ifa) :
    r.node.interfaceForDevice d = some i := by
  obtain ⟨itf, interface, device, _⟩ := port.interface
  unfold Ipv4Node.interfaceForDevice
  have here : (itf, i) ∈ r.node.interfaces.zipIdx.filter (·.1.device = d) := by
    rw [List.mem_filter]
    exact ⟨List.mk_mem_zipIdx_iff_getElem?.mpr interface, by simpa using device⟩
  cases last : (r.node.interfaces.zipIdx.filter (·.1.device = d)).getLast? with
  | none =>
    rw [List.getLast?_eq_none_iff.mp last] at here
    cases here
  | some pair =>
    obtain ⟨itf', i'⟩ := pair
    obtain ⟨mem, device'⟩ := List.mem_filter.mp (List.mem_of_getLast? last)
    have there := List.mk_mem_zipIdx_iff_getElem?.mp mem
    rw [Option.map_some, planned.index_unique port.mem there interface
      ((by simpa using device' : itf'.device = d).trans device.symm)]

end Internet.Planned

namespace Internet.Port

theorem addresses (port : net.Port r i d ifa) : r.node.addresses i = [ifa] := by
  obtain ⟨itf, interface, _, addresses⟩ := port.interface
  simp [Ipv4Node.addresses, interface, addresses]

theorem netDevice (port : net.Port r i d ifa) : r.node.netDevice i = some d := by
  obtain ⟨itf, interface, device, _⟩ := port.interface
  simp [Ipv4Node.netDevice, interface, device]

theorem running (planned : net.Planned) (port : net.Port r i d ifa) :
    r.node.isUp i = true ∧ r.node.isForwarding i = true := by
  obtain ⟨itf, interface, _⟩ := port.interface
  have running := planned.running r port.mem itf (List.mem_of_getElem? interface)
  simpa [Ipv4Node.isUp, Ipv4Node.isForwarding, interface] using running

theorem metric (planned : net.Planned) (port : net.Port r i d ifa) :
    ∃ m, r.metrics[i]? = some m ∧ 0 < m := by
  obtain ⟨itf, interface, _⟩ := port.interface
  obtain ⟨small, _⟩ := List.getElem?_eq_some_iff.mp interface
  obtain ⟨length, positive⟩ := planned.metrics r port.mem
  have inside : i < r.metrics.length := by omega
  exact ⟨_, List.getElem?_eq_getElem inside, positive _ (List.getElem_mem inside)⟩

end Internet.Port

section

variable [DecidableEq ι]

/-- The record of a link for one of its ends. -/
def Internet.linkRecord (r : Router ι) (i : Nat) (ifa : Ipv4InterfaceAddress) (r' : Router ι) :
    GlobalRoutingLinkRecord :=
  ⟨r'.routerId, ifa.localAddress, .pointToPoint, (r.metrics[i]?).getD 0⟩

/-- The record of the network behind a link. -/
def Internet.stubRecord (r : Router ι) (i : Nat) (ifa' : Ipv4InterfaceAddress) :
    GlobalRoutingLinkRecord :=
  ⟨ifa'.localAddress, ifa'.mask, .stubNetwork, (r.metrics[i]?).getD 0⟩

theorem Internet.Joined.discoverDevice (planned : net.Planned)
    (joined : net.Joined r i d ifa r' i' d' ifa') :
    net.discoverDevice r d = some [linkRecord r i ifa r', stubRecord r i ifa'] := by
  obtain ⟨m, metric, _⟩ := joined.near.metric planned
  unfold Internet.discoverDevice
  rw [joined.near_link, planned.interfaceForDevice joined.near]
  dsimp only
  rw [if_neg Bool.false_ne_true, if_pos (joined.near.running planned)]
  unfold processPointToPointLink
  rw [joined.near.addresses, metric, joined.peer]
  simp only [List.head?_cons, Option.bind_eq_bind, Option.bind_some]
  rw [planned.nodeOf joined.far]
  simp only [Option.bind_some]
  rw [planned.interfaceForDevice joined.far]
  simp only [Option.bind_some]
  rw [joined.far.addresses, (joined.far.running planned).1]
  simp [linkRecord, stubRecord, metric]

theorem Internet.Port.discover_loopback (port : net.loopback d = true) :
    net.discoverDevice r d = some [] := by
  unfold Internet.discoverDevice
  rw [if_pos port]

/-- The Router-LSA of a router. -/
def Internet.advertisement (net : Internet ι) (r : Router ι) : GlobalRoutingLSA :=
  ⟨r.routerId, (r.node.devices.filterMap (net.discoverDevice r)).flatten⟩

omit [DecidableEq ι] in
theorem Internet.Planned.port_of_device (planned : net.Planned) (mem : r ∈ net.nodes)
    (device : d ∈ r.node.devices) : ∃ i ifa, net.Port r i d ifa := by
  rw [← planned.devices r mem] at device
  obtain ⟨itf, itf_mem, rfl⟩ := List.mem_map.mp device
  obtain ⟨i, small, at_i⟩ := List.mem_iff_getElem.mp itf_mem
  obtain ⟨d', ifa, port⟩ := planned.ports r mem i small
  obtain ⟨itf', interface, device, addresses⟩ := port.interface
  rw [List.getElem?_eq_getElem small, at_i, Option.some.injEq] at interface
  exact ⟨i, ifa, mem, itf, by rw [List.getElem?_eq_getElem small, at_i], rfl, interface ▸ addresses⟩

theorem Internet.Planned.discoverLSAs (planned : net.Planned) (mem : r ∈ net.nodes) :
    net.discoverLSAs r = some (net.advertisement r) := by
  unfold Internet.discoverLSAs
  rw [mapM_eq_filterMap]
  · rfl
  · intro d device
    obtain ⟨i, ifa, port⟩ := planned.port_of_device mem device
    cases link : net.loopback d with
    | true => exact ⟨_, Port.discover_loopback link⟩
    | false =>
      obtain ⟨r', i', d', ifa', joined⟩ := planned.exists_joined port link
      exact ⟨_, joined.discoverDevice planned⟩

/-- The records of a router are those of the links of its ports. -/
theorem Internet.Planned.mem_linkRecords (planned : net.Planned) (mem : r ∈ net.nodes)
    {l : GlobalRoutingLinkRecord} : l ∈ (net.advertisement r).linkRecords ↔
      ∃ i d ifa r' i' d' ifa', net.Joined r i d ifa r' i' d' ifa' ∧
        (l = linkRecord r i ifa r' ∨ l = stubRecord r i ifa') := by
  unfold Internet.advertisement
  rw [List.mem_flatten]
  constructor
  · rintro ⟨records, found, member⟩
    obtain ⟨d, device, discovered⟩ := List.mem_filterMap.mp found
    obtain ⟨i, ifa, port⟩ := planned.port_of_device mem device
    cases link : net.loopback d with
    | true =>
      rw [Port.discover_loopback link, Option.some.injEq] at discovered
      subst discovered
      cases member
    | false =>
      obtain ⟨r', i', d', ifa', joined⟩ := planned.exists_joined port link
      rw [joined.discoverDevice planned, Option.some.injEq] at discovered
      subst discovered
      exact ⟨i, d, ifa, r', i', d', ifa', joined, by simpa using member⟩
  · rintro ⟨i, d, ifa, r', i', d', ifa', joined, member⟩
    exact ⟨_, List.mem_filterMap.mpr ⟨d, planned.device_mem joined.near,
      joined.discoverDevice planned⟩, by simpa using member⟩

theorem foldlM_insert (nodes : List (Router ι)) :
    ∀ (lsdb : GlobalRouteManagerLSDB), (∀ r ∈ nodes, net.discoverLSAs r = some (net.advertisement r)) →
      (lsdb.database.map (·.linkStateId) ++ nodes.map (·.routerId)).Nodup →
      ∃ lsdb', nodes.foldlM (fun lsdb r => (net.discoverLSAs r).map lsdb.insert) lsdb = some lsdb' ∧
        lsdb'.database = lsdb.database ++ nodes.map net.advertisement := by
  induction nodes with
  | nil =>
    intro lsdb _ _
    exact ⟨lsdb, rfl, (List.append_nil _).symm⟩
  | cons r nodes ih =>
    intro lsdb discovered nodup
    have fresh : (net.advertisement r).linkStateId ∉ lsdb.database.map (·.linkStateId) := by
      intro known
      exact (List.nodup_append.mp nodup).2.2 _ known _ List.mem_cons_self rfl
    have inserted : (lsdb.insert (net.advertisement r)).database =
        lsdb.database ++ [net.advertisement r] := by
      rw [GlobalRouteManagerLSDB.insert, dif_neg fresh]
    obtain ⟨lsdb', folded, database⟩ := ih (lsdb.insert (net.advertisement r))
      (fun r mem => discovered r (List.mem_cons_of_mem _ mem)) (by
        rw [inserted, List.map_append, List.append_assoc]
        exact nodup)
    refine ⟨lsdb', ?_, ?_⟩
    · rw [List.foldlM_cons, discovered r List.mem_cons_self]
      exact folded
    · rw [database, inserted, List.append_assoc]
      rfl

/-- The database of a network. -/
structure Internet.Database (net : Internet ι) (lsdb : GlobalRouteManagerLSDB) : Prop where
  database : lsdb.database = net.nodes.map net.advertisement

theorem Internet.Planned.buildGlobalRoutingDatabase (planned : net.Planned) :
    ∃ lsdb, net.buildGlobalRoutingDatabase = some lsdb ∧ net.Database lsdb := by
  obtain ⟨lsdb, folded, database⟩ := foldlM_insert net.nodes GlobalRouteManagerLSDB.empty
    (fun r mem => planned.discoverLSAs mem) planned.ids
  exact ⟨lsdb, folded, ⟨database⟩⟩

variable {lsdb : GlobalRouteManagerLSDB}

theorem Internet.Planned.getLSA (planned : net.Planned) (known : net.Database lsdb)
    (mem : r ∈ net.nodes) : lsdb.getLSA r.routerId = some (net.advertisement r) := by
  unfold GlobalRouteManagerLSDB.getLSA
  rw [known.database, List.find?_map]
  have found : net.nodes.find? ((fun lsa : GlobalRoutingLSA => lsa.linkStateId == r.routerId) ∘
      net.advertisement) = some r := by
    cases search : net.nodes.find? ((fun lsa : GlobalRoutingLSA => lsa.linkStateId == r.routerId) ∘
      net.advertisement) with
    | none => exact absurd (List.find?_eq_none.mp search r mem) (by simp [advertisement])
    | some other =>
      have same : other.routerId = r.routerId := by
        simpa [advertisement] using List.find?_some search
      rw [List.inj_on_of_nodup_map planned.ids (List.mem_of_find?_eq_some search) mem same]
  rw [found, Option.map_some]

theorem Internet.Database.router_of_getLSA (known : net.Database lsdb) {id : UInt32}
    {lsa : GlobalRoutingLSA} (found : lsdb.getLSA id = some lsa) :
    ∃ r ∈ net.nodes, r.routerId = id ∧ lsa = net.advertisement r := by
  have mem := GlobalRouteManagerLSDB.getLSA_mem found
  rw [known.database] at mem
  obtain ⟨r, member, rfl⟩ := List.mem_map.mp mem
  exact ⟨r, member, GlobalRouteManagerLSDB.getLSA_id found, rfl⟩

/-- The links of a router lead out of its ports. -/
theorem Internet.Planned.mem_links (planned : net.Planned) (known : net.Database lsdb)
    (mem : r ∈ net.nodes) {l : GlobalRoutingLinkRecord} :
    l ∈ lsdb.linkGraph.links r.routerId ↔ ∃ i d ifa r' i' d' ifa',
      net.Joined r i d ifa r' i' d' ifa' ∧ l = linkRecord r i ifa r' := by
  rw [GlobalRouteManagerLSDB.mem_links (planned.getLSA known mem), planned.mem_linkRecords mem]
  constructor
  · rintro ⟨⟨i, d, ifa, r', i', d', ifa', joined, rfl | rfl⟩, link⟩
    · exact ⟨i, d, ifa, r', i', d', ifa', joined, rfl⟩
    · cases link
  · rintro ⟨i, d, ifa, r', i', d', ifa', joined, rfl⟩
    exact ⟨⟨i, d, ifa, r', i', d', ifa', joined, Or.inl rfl⟩, rfl⟩

theorem Internet.Planned.routable (planned : net.Planned) (known : net.Database lsdb)
    (small : ∀ r ∈ net.nodes, ∀ m ∈ r.metrics, m.toNat * net.nodes.length < 2 ^ 32) :
    lsdb.Routable := by
  have out {id : UInt32} {l : GlobalRoutingLinkRecord} (leaves : l ∈ lsdb.linkGraph.links id) :
      ∃ r ∈ net.nodes, r.routerId = id ∧ ∃ i d ifa r' i' d' ifa',
        net.Joined r i d ifa r' i' d' ifa' ∧ l = linkRecord r i ifa r' := by
    obtain ⟨lsa, found, _⟩ := GlobalRouteManagerLSDB.exists_getLSA leaves
    obtain ⟨r, mem, rfl, _⟩ := known.router_of_getLSA found
    exact ⟨r, mem, rfl, (planned.mem_links known mem).mp leaves⟩
  constructor
  · intro id l leaves
    obtain ⟨r, mem, rfl, i, d, ifa, r', i', d', ifa', joined, rfl⟩ := out leaves
    exact ⟨linkRecord r' i' ifa' r, (planned.mem_links known joined.far.mem).mpr
      ⟨i', d', ifa', r, i, d, ifa, joined.symm, rfl⟩, rfl⟩
  · intro id l leaves
    obtain ⟨r, mem, rfl, i, d, ifa, r', i', d', ifa', joined, rfl⟩ := out leaves
    obtain ⟨m, metric, positive⟩ := joined.near.metric planned
    simpa [GlobalRouteManagerLSDB.linkGraph, linkRecord, metric] using UInt16.lt_iff_toNat_lt.mp positive
  · intro id l leaves
    obtain ⟨r, mem, rfl, i, d, ifa, r', i', d', ifa', joined, rfl⟩ := out leaves
    obtain ⟨m, metric, _⟩ := joined.near.metric planned
    rw [known.database, List.length_map]
    simpa [linkRecord, metric] using small r mem m (List.mem_of_getElem? metric)

end

end QbbNet
