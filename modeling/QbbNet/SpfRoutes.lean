import QbbNet.FlaggedWalk
import QbbNet.SpfShortest

set_option autoImplicit false

/- The routes that SPFCalculate adds: for each router that can be reached, a host route
to each of its addresses and a network route to each network behind its links, one for
each exit. -/
namespace QbbNet

/-- Routes are added behind those that are there. -/
structure Ipv4GlobalRouting.Adds (routing routing' : Ipv4GlobalRouting)
    (hosts networks : List Ipv4RoutingTableEntry) : Prop where
  hostRoutes : routing'.hostRoutes = routing.hostRoutes ++ hosts
  networkRoutes : routing'.networkRoutes = routing.networkRoutes ++ networks
  asExternalRoutes : routing'.asExternalRoutes = routing.asExternalRoutes
  perflow : routing'.perflowEcmpRouting = routing.perflowEcmpRouting
  random : routing'.randomEcmpRouting = routing.randomEcmpRouting
  weights : routing'.weights = routing.weights

namespace Ipv4GlobalRouting.Adds

variable {a b c : Ipv4GlobalRouting} {hosts hosts' networks networks' : List Ipv4RoutingTableEntry}

theorem refl (a : Ipv4GlobalRouting) : a.Adds a [] [] :=
  ⟨(List.append_nil _).symm, (List.append_nil _).symm, rfl, rfl, rfl, rfl⟩

theorem trans (first : a.Adds b hosts networks) (second : b.Adds c hosts' networks') :
    a.Adds c (hosts ++ hosts') (networks ++ networks') := by
  obtain ⟨h, n, e, p, r, w⟩ := first
  obtain ⟨h', n', e', p', r', w'⟩ := second
  refine ⟨?_, ?_, e'.trans e, p'.trans p, r'.trans r, w'.trans w⟩
  · rw [h', h, List.append_assoc]
  · rw [n', n, List.append_assoc]

variable {α : Type} {add : Ipv4GlobalRouting → α → Ipv4GlobalRouting}
  {routes : α → List Ipv4RoutingTableEntry}

theorem foldl_hosts (adds : ∀ (a : Ipv4GlobalRouting) x, a.Adds (add a x) (routes x) [])
    (xs : List α) : ∀ a : Ipv4GlobalRouting, a.Adds (xs.foldl add a) (xs.flatMap routes) [] := by
  induction xs with
  | nil => exact refl
  | cons x xs ih => exact fun a => (adds a x).trans (ih (add a x))

theorem foldl_networks (adds : ∀ (a : Ipv4GlobalRouting) x, a.Adds (add a x) [] (routes x))
    (xs : List α) : ∀ a : Ipv4GlobalRouting, a.Adds (xs.foldl add a) [] (xs.flatMap routes) := by
  induction xs with
  | nil => exact refl
  | cons x xs ih => exact fun a => (adds a x).trans (ih (add a x))

end Ipv4GlobalRouting.Adds

theorem Ipv4GlobalRouting.addHostRouteTo_adds (routing : Ipv4GlobalRouting) (dest nextHop : UInt32)
    (interface : Nat) : routing.Adds (routing.addHostRouteTo dest nextHop interface)
      [⟨dest, 0xffffffff, nextHop, interface⟩] [] :=
  ⟨rfl, (List.append_nil _).symm, rfl, rfl, rfl, rfl⟩

theorem Ipv4GlobalRouting.addNetworkRouteTo_adds (routing : Ipv4GlobalRouting)
    (network mask nextHop : UInt32) (interface : Nat) :
    routing.Adds (routing.addNetworkRouteTo network mask nextHop interface) []
      [⟨network, mask, nextHop, interface⟩] :=
  ⟨(List.append_nil _).symm, rfl, rfl, rfl, rfl, rfl⟩

namespace SPFVertex

variable (v : SPFVertex)

/-- The host routes to a router, through each exit to each address. -/
def hostRoutes : List Ipv4RoutingTableEntry :=
  (v.lsa.linkRecords.filter (·.linkType = .pointToPoint)).flatMap fun lr =>
    v.validExits.map fun exit => ⟨lr.linkData, 0xffffffff, exit.nextHop, exit.outIf.toNat⟩

/-- The network routes to the networks behind the links of a router. -/
def stubRoutes : List Ipv4RoutingTableEntry :=
  (v.lsa.linkRecords.filter (·.linkType = .stubNetwork)).flatMap fun l =>
    v.validExits.map fun exit =>
      ⟨l.linkId &&& l.linkData, l.linkData, exit.nextHop, exit.outIf.toNat⟩

end SPFVertex

theorem spfIntraAddRouter_adds (routing : Ipv4GlobalRouting) (v : SPFVertex) :
    routing.Adds (spfIntraAddRouter v routing) v.hostRoutes [] := by
  refine Ipv4GlobalRouting.Adds.foldl_hosts (fun routing lr => ?_) _ routing
  rw [List.map_eq_flatMap]
  exact Ipv4GlobalRouting.Adds.foldl_hosts (fun routing (exit : NodeExit) =>
    routing.addHostRouteTo_adds lr.linkData exit.nextHop exit.outIf.toNat) v.validExits routing

theorem spfIntraAddStub_adds {root : UInt32} {v : SPFVertex} (away : v.vertexId ≠ root)
    (routing : Ipv4GlobalRouting) (l : GlobalRoutingLinkRecord) :
    routing.Adds (spfIntraAddStub root l v routing) []
      (v.validExits.map fun exit =>
        ⟨l.linkId &&& l.linkData, l.linkData, exit.nextHop, exit.outIf.toNat⟩) := by
  unfold spfIntraAddStub
  rw [if_neg away, List.map_eq_flatMap]
  exact Ipv4GlobalRouting.Adds.foldl_networks (fun routing (exit : NodeExit) =>
    routing.addNetworkRouteTo_adds _ _ exit.nextHop exit.outIf.toNat) v.validExits routing

/-- What SPFProcessStubs adds for one vertex of the tree. -/
def stubRoutesFrom (root : UInt32) (v : SPFVertex) : List Ipv4RoutingTableEntry :=
  if v.vertexId = root then [] else v.stubRoutes

theorem processVertex_adds (root : UInt32) (v : SPFVertex) (routing : Ipv4GlobalRouting) :
    routing.Adds ((v.lsa.linkRecords.filter (·.linkType = .stubNetwork)).foldl
      (fun routing l => spfIntraAddStub root l v routing) routing) [] (stubRoutesFrom root v) := by
  unfold stubRoutesFrom
  by_cases here : v.vertexId = root
  · rw [if_pos here]
    have unchanged (ls : List GlobalRoutingLinkRecord) :
        ls.foldl (fun routing l => spfIntraAddStub root l v routing) routing = routing := by
      induction ls with
      | nil => rfl
      | cons l ls ih => rwa [List.foldl_cons, spfIntraAddStub, if_pos here]
    rw [unchanged]
    exact .refl routing
  · rw [if_neg here]
    exact Ipv4GlobalRouting.Adds.foldl_networks (spfIntraAddStub_adds here) _ routing

/-- A vertex of the tree by its id. -/
def SPFTree.vertex (spf : SPFTree) (id : UInt32) : Option SPFVertex :=
  spf.tree.find? (·.vertexId == id)

/-- What SPFProcessStubs adds for the vertices it visits. -/
def SPFTree.stubRoutes (spf : SPFTree) (root : UInt32) (ids : List UInt32) :
    List Ipv4RoutingTableEntry :=
  ids.flatMap fun id => (spf.vertex id).elim [] (stubRoutesFrom root)

/-- SPFProcessStubs visits the vertices of a flagged walk through the tree, and adds the
routes of each. -/
theorem spfProcessStubs_walk (root : UInt32) {spf : SPFTree}
    (inside : ∀ id, ∀ child ∈ spf.children id, (spf.vertex child).isSome) (fuel : Nat) :
    ∀ (id : UInt32) (walk : StubWalk), (spf.vertex id).isSome →
      ∀ visited after, FlaggedWalk.walk spf.children fuel id walk.processed = some (visited, after) →
      ∃ walk', spfProcessStubs root spf fuel id walk = some walk' ∧ walk'.processed = after ∧
        walk.routing.Adds walk'.routing [] (spf.stubRoutes root visited) := by
  induction fuel with
  | zero =>
    intro id walk _ visited after walked
    cases walked
  | succ fuel ih =>
    intro id walk known visited after walked
    obtain ⟨v, at_id⟩ := Option.isSome_iff_exists.mp known
    unfold FlaggedWalk.walk at walked
    unfold spfProcessStubs
    rw [show spf.tree.find? (·.vertexId == id) = some v from at_id, Option.bind_some]
    have step (left : List UInt32) : left ⊆ spf.children id → ∀ (seen : List UInt32) (walk₁ : StubWalk)
        (visited after : List UInt32), walk.routing.Adds walk₁.routing [] (spf.stubRoutes root seen) →
        left.foldlM (fun s child =>
          if child ∈ s.2 then some s
          else (FlaggedWalk.walk spf.children fuel child s.2).map fun below =>
            (s.1 ++ below.1, child :: below.2)) (seen, walk₁.processed) = some (visited, after) →
        ∃ walk', left.foldlM (fun walk child =>
            if child ∈ walk.processed then some walk
            else (spfProcessStubs root spf fuel child walk).map fun walk =>
              { walk with processed := child :: walk.processed }) walk₁ = some walk' ∧
          walk'.processed = after ∧
          walk.routing.Adds walk'.routing [] (spf.stubRoutes root visited) := by
      induction left with
      | nil =>
        intro _ seen walk₁ visited after adds folded
        cases folded
        exact ⟨walk₁, rfl, rfl, adds⟩
      | cons child left later =>
        intro subset seen walk₁ visited after adds folded
        obtain ⟨here, rest⟩ := List.cons_subset.mp subset
        rw [List.foldlM_cons] at folded ⊢
        by_cases flagged : child ∈ walk₁.processed
        · simp only [flagged, ↓reduceIte] at folded ⊢
          exact later rest seen walk₁ visited after adds folded
        · simp only [flagged, ↓reduceIte] at folded ⊢
          cases below : FlaggedWalk.walk spf.children fuel child walk₁.processed with
          | none => simp [below] at folded
          | some result =>
            obtain ⟨more, flags⟩ := result
            obtain ⟨walk₂, processed, rfl, more_adds⟩ :=
              ih child walk₁ (inside id child here) more flags below
            rw [below] at folded
            rw [processed]
            refine later rest (seen ++ more) _ visited after ?_ folded
            unfold SPFTree.stubRoutes at *
            rw [List.flatMap_append]
            exact adds.trans more_adds
    refine step (spf.children id) (List.Subset.refl _) [id] _ visited after ?_ walked
    have adds := processVertex_adds root v walk.routing
    unfold SPFTree.stubRoutes
    rw [List.flatMap_singleton, at_id]
    exact adds

/- The children of a vertex join the tree behind it, and the root leads to all of them. -/

theorem mem_spfVertexAddParent {v : SPFVertex} {children : UInt32 → List UInt32} {p child : UInt32} :
    child ∈ spfVertexAddParent v children p ↔
      child ∈ children p ∨ (p ∈ v.parents ∧ child = v.vertexId) := by
  unfold spfVertexAddParent
  induction v.parents generalizing children with
  | nil => simp
  | cons parent parents ih =>
    rw [List.foldl_cons, ih]
    by_cases here : p = parent
    · subst here
      simp only [Function.update_self, List.mem_append, List.mem_cons, true_or, true_and]
      tauto
    · simp [here]

theorem mem_foldl_addParent {child p : UInt32} (vertices : List SPFVertex) :
    ∀ children : UInt32 → List UInt32,
      child ∈ vertices.foldl (fun children v => spfVertexAddParent v children) children p ↔
        child ∈ children p ∨ ∃ v ∈ vertices, p ∈ v.parents ∧ child = v.vertexId := by
  induction vertices with
  | nil => simp
  | cons v vertices ih =>
    intro children
    rw [List.foldl_cons, ih, mem_spfVertexAddParent]
    simp [or_assoc]

section

variable {lsdb : GlobalRouteManagerLSDB} {root : UInt32} {outgoing : UInt32 → Int}
variable {rlsa : GlobalRoutingLSA} {routing : Ipv4GlobalRouting} {spf : SPFTree}

theorem SPFTree.Grown.mem_children (grown : spf.Grown rlsa routing) {child p : UInt32} :
    child ∈ spf.children p ↔ ∃ v ∈ spf.tree.tail, p ∈ v.parents ∧ child = v.vertexId := by
  rw [grown.children, mem_foldl_addParent]
  simp

/-- The position of a router in the tree. -/
def SPFTree.rank (spf : SPFTree) (id : UInt32) : Nat := (spf.tree.map (·.vertexId)).idxOf id

theorem rank_lt {tree before after : List SPFVertex} {v u : SPFVertex} {id : UInt32}
    (nodup : (tree.map (·.vertexId)).Nodup) (split : tree = before ++ v :: after) (mem : u ∈ before)
    (same : u.vertexId = id) : (tree.map (·.vertexId)).idxOf id < before.length ∧
      (tree.map (·.vertexId)).idxOf v.vertexId = before.length := by
  have inside : id ∈ before.map (·.vertexId) := List.mem_map.mpr ⟨u, mem, same⟩
  rw [split, List.map_append, List.map_cons] at nodup ⊢
  constructor
  · rw [List.idxOf_append_of_mem inside]
    simpa using List.idxOf_lt_length_of_mem inside
  · have outside : v.vertexId ∉ before.map (·.vertexId) := fun again =>
      (List.nodup_append.mp nodup).2.2 _ again _ List.mem_cons_self rfl
    rw [List.idxOf_append_of_notMem outside, List.idxOf_cons_self, List.length_map, Nat.add_zero]

/-- Where a vertex other than the first stands in the tree. -/
theorem SPFTree.Grown.split (grown : spf.Grown rlsa routing) {v : SPFVertex}
    (mem : v ∈ spf.tree.tail) : ∃ before after, spf.tree = before ++ v :: after ∧ before ≠ [] := by
  obtain ⟨rest, tree⟩ := List.head?_eq_some_iff.mp grown.front
  rw [tree, List.tail_cons] at mem
  obtain ⟨before, after, rfl⟩ := List.append_of_mem mem
  exact ⟨_ :: before, after, by rw [tree]; rfl, List.cons_ne_nil _ _⟩

theorem SPFTree.Grown.down (grown : spf.Grown rlsa routing)
    (settled : SettledTree lsdb root outgoing spf.tree) (id : UInt32) :
    ∀ child ∈ spf.children id, spf.rank id < spf.rank child ∧ spf.rank child ≤ spf.tree.length := by
  intro child mem
  obtain ⟨v, later, parent, rfl⟩ := grown.mem_children.mp mem
  obtain ⟨before, after, split, some_before⟩ := grown.split later
  obtain ⟨u, inside, same⟩ := (settled.joins before v after split some_before).mem id parent
  obtain ⟨earlier, here⟩ := rank_lt settled.nodup split inside same
  have length := congrArg List.length split
  rw [List.length_append, List.length_cons] at length
  unfold SPFTree.rank
  omega

theorem SettledTree.vertex {v : SPFVertex} (settled : SettledTree lsdb root outgoing spf.tree)
    (mem : v ∈ spf.tree) : spf.vertex v.vertexId = some v := by
  unfold SPFTree.vertex
  exact CandidateQueue.find_of_mem settled.nodup mem

theorem SPFTree.Grown.inside (grown : spf.Grown rlsa routing)
    (settled : SettledTree lsdb root outgoing spf.tree) (id : UInt32) :
    ∀ child ∈ spf.children id, (spf.vertex child).isSome := by
  intro child mem
  obtain ⟨v, later, _, rfl⟩ := grown.mem_children.mp mem
  rw [settled.vertex (List.mem_of_mem_tail later)]
  rfl

/-- The root leads to every vertex of the tree. -/
theorem SPFTree.Grown.reaches (grown : spf.Grown rlsa routing)
    (settled : SettledTree lsdb root outgoing spf.tree) (at_root : rlsa.linkStateId = root) (n : Nat) :
    ∀ before v after, before.length ≤ n → spf.tree = before ++ v :: after →
      FlaggedWalk.Reaches spf.children root v.vertexId := by
  induction n with
  | zero =>
    intro before v after short split
    have none_before := List.eq_nil_of_length_eq_zero (Nat.le_zero.mp short)
    subst none_before
    have front := grown.front
    rw [split] at front
    cases front
    exact at_root ▸ Relation.ReflTransGen.refl
  | succ n ih =>
    intro before v after short split
    cases empty : before with
    | nil => exact ih [] v after (Nat.zero_le n) (empty ▸ split)
    | cons first rest =>
      have some_before : before ≠ [] := empty ▸ List.cons_ne_nil _ _
      have joins := settled.joins before v after split some_before
      obtain ⟨p, parent⟩ := List.exists_mem_of_ne_nil _ joins.some_parent
      obtain ⟨u, inside, rfl⟩ := joins.mem p parent
      obtain ⟨before', after', earlier⟩ := List.append_of_mem inside
      have length := congrArg List.length earlier
      rw [List.length_append, List.length_cons] at length
      refine (ih before' u (after' ++ v :: after) (by omega) (by rw [split, earlier]; simp)).tail ?_
      refine grown.mem_children.mpr ⟨v, ?_, parent, rfl⟩
      rw [split, empty]
      simp

/-- SPFProcessStubs ends, after it has visited each vertex of the tree once. -/
theorem spfProcessStubs_eq_some (grown : spf.Grown rlsa routing)
    (settled : SettledTree lsdb root outgoing spf.tree) (at_root : rlsa.linkStateId = root) :
    ∃ walk, spfProcessStubs root spf (spf.tree.length + 1) root ⟨[], spf.routing⟩ = some walk ∧
      ∃ networks, spf.routing.Adds walk.routing [] networks ∧
        networks.Perm (spf.tree.tail.flatMap SPFVertex.stubRoutes) := by
  obtain ⟨rest, tree⟩ := List.head?_eq_some_iff.mp grown.front
  have root_vertex : spf.vertex root = some { SPFVertex.new rlsa with distanceFromRoot := 0 } := by
    rw [← at_root]
    exact settled.vertex (v := { SPFVertex.new rlsa with distanceFromRoot := 0 })
      (tree ▸ List.mem_cons_self)
  obtain ⟨visited, after, walked, walks⟩ := FlaggedWalk.walk_eq_some (grown.down settled)
    (spf.tree.length + 1) root [] List.not_mem_nil (fun _ nowhere => by cases nowhere) (by omega)
  obtain ⟨walk, processed, _, adds⟩ := spfProcessStubs_walk root (grown.inside settled)
    (spf.tree.length + 1) root ⟨[], spf.routing⟩ (by rw [root_vertex]; rfl) visited after walked
  refine ⟨walk, processed, _, adds, ?_⟩
  have each_once : visited.Perm (spf.tree.map (·.vertexId)) := by
    refine (List.perm_ext_iff_of_nodup walks.nodup settled.nodup).mpr fun id => ?_
    rw [walks.mem_iff, List.mem_map]
    constructor
    · intro reaches
      cases reaches with
      | refl =>
        exact ⟨{ SPFVertex.new rlsa with distanceFromRoot := 0 }, tree ▸ List.mem_cons_self, at_root⟩
      | tail _ child =>
        obtain ⟨v, later, _, same⟩ := grown.mem_children.mp child
        exact ⟨v, List.mem_of_mem_tail later, same.symm⟩
    · rintro ⟨v, mem, rfl⟩
      obtain ⟨before, after, split⟩ := List.append_of_mem mem
      exact grown.reaches settled at_root before.length before v after (Nat.le_refl _) split
  refine (each_once.flatMap_right _).trans (List.Perm.of_eq ?_)
  rw [List.flatMap_map]
  have stubs (v : SPFVertex) (mem : v ∈ spf.tree) :
      (spf.vertex v.vertexId).elim [] (stubRoutesFrom root) = stubRoutesFrom root v := by
    rw [settled.vertex mem]
    rfl
  rw [List.flatMap_congr stubs, tree, List.flatMap_cons, List.tail_cons]
  have front : stubRoutesFrom root { SPFVertex.new rlsa with distanceFromRoot := 0 } = [] :=
    if_pos at_root
  rw [front, List.nil_append]
  have nodup := settled.nodup
  rw [tree, List.map_cons, List.nodup_cons] at nodup
  refine List.flatMap_congr fun v mem => if_neg fun same => nodup.1 ?_
  exact List.mem_map.mpr ⟨v, mem, same.trans at_root.symm⟩

/-- A router with one link gets a default route over it. -/
theorem spfCalculate_stub (routable : lsdb.Routable) (outgoing : UInt32 → Int)
    {l : GlobalRoutingLinkRecord} (found : lsdb.getLSA root = some rlsa)
    (single : rlsa.linkRecords.filter (·.linkType = .pointToPoint) = [l])
    (routing : Ipv4GlobalRouting) :
    ∃ nextHop, spfCalculate lsdb root outgoing routing =
      some (routing.addNetworkRouteTo 0 0 nextHop (unsignedInterface (outgoing l.linkData))) := by
  have at_root := GlobalRouteManagerLSDB.getLSA_id found
  have member : l ∈ rlsa.linkRecords.filter (·.linkType = .pointToPoint) := by
    rw [single]
    exact List.mem_cons_self
  have here : l ∈ rlsa.linkRecords ∧ l.linkType = .pointToPoint := by simpa using member
  obtain ⟨back, back_leaves, back_id⟩ := routable.paired root l
    ((GlobalRouteManagerLSDB.mem_links found).mpr here)
  obtain ⟨wLsa, target, back_mem, back_type⟩ := GlobalRouteManagerLSDB.exists_getLSA back_leaves
  obtain ⟨lr, first⟩ : ∃ lr, wLsa.linkRecords.find? (fun lr =>
      lr.linkType = .pointToPoint && lr.linkId == rlsa.linkStateId) = some lr := by
    refine Option.isSome_iff_exists.mp (List.find?_isSome.mpr ⟨back, back_mem, ?_⟩)
    simp [back_type, back_id, at_root]
  refine ⟨lr.linkData, ?_⟩
  unfold spfCalculate checkForStubNode
  rw [found, Option.bind_some, single]
  dsimp only
  rw [target, Option.map_some, first]
  rfl

/-- A router without links gets no route. -/
theorem spfCalculate_alone (found : lsdb.getLSA root = some rlsa)
    (alone : rlsa.linkRecords.filter (·.linkType = .pointToPoint) = [])
    (routing : Ipv4GlobalRouting) : spfCalculate lsdb root outgoing routing = some routing := by
  unfold spfCalculate checkForStubNode
  rw [found, Option.bind_some, alone]
  rfl

/-- What SPFCalculate leaves at a router with several links. -/
structure Calculated (lsdb : GlobalRouteManagerLSDB) (root : UInt32) (outgoing : UInt32 → Int)
    (tree : List SPFVertex) (routing routing' : Ipv4GlobalRouting) : Prop where
  settled : SettledTree lsdb root outgoing tree
  complete : ∀ id n, lsdb.linkGraph.Walk root n id → ∃ v ∈ tree, v.vertexId = id
  front : ∃ v, tree.head? = some v ∧ v.vertexId = root
  adds : ∃ networks, routing.Adds routing' (tree.tail.flatMap SPFVertex.hostRoutes) networks ∧
    networks.Perm (tree.tail.flatMap SPFVertex.stubRoutes)

theorem spfCalculate_several (routable : lsdb.Routable) (outgoing : UInt32 → Int)
    (found : lsdb.getLSA root = some rlsa)
    (several : 1 < (rlsa.linkRecords.filter (·.linkType = .pointToPoint)).length)
    (routing : Ipv4GlobalRouting) :
    ∃ routing' tree, spfCalculate lsdb root outgoing routing = some routing' ∧
      Calculated lsdb root outgoing tree routing routing' := by
  have at_root := GlobalRouteManagerLSDB.getLSA_id found
  obtain ⟨spf, built, grown, settled, complete⟩ := spfTree_eq_some routable outgoing found routing
  obtain ⟨walk, processed, networks, stubs, once⟩ := spfProcessStubs_eq_some grown settled at_root
  have hosts : routing.Adds spf.routing (spf.tree.tail.flatMap SPFVertex.hostRoutes) [] := by
    rw [grown.routing]
    exact Ipv4GlobalRouting.Adds.foldl_hosts spfIntraAddRouter_adds spf.tree.tail routing
  have both := hosts.trans stubs
  rw [List.append_nil, List.nil_append] at both
  refine ⟨walk.routing, spf.tree, ?_, settled, complete, ⟨_, grown.front, at_root⟩, networks, both, once⟩
  have no_stub : checkForStubNode lsdb root outgoing routing = some (false, routing) := by
    unfold checkForStubNode
    rw [found, Option.bind_some]
    split
    next none_left => simp [none_left] at several
    next single => simp [single] at several
    next => rfl
  unfold spfCalculate
  rw [no_stub, Option.bind_some]
  dsimp only
  rw [if_neg Bool.false_ne_true, built, Option.bind_some, processed, Option.map_some]

/- The host routes to one address -/

theorem filter_flatMap_key {α β κ : Type} [DecidableEq κ] {f : α → List β} {key : β → κ} {k : α → κ}
    (keyed : ∀ x, ∀ y ∈ f x, key y = k x) (xs : List α) (a : κ) :
    (xs.flatMap f).filter (fun y => key y == a) = (xs.filter fun x => k x == a).flatMap f := by
  induction xs with
  | nil => rfl
  | cons x xs ih =>
    rw [List.flatMap_cons, List.filter_append, ih, List.filter_cons]
    by_cases here : k x = a
    · have all : (f x).filter (fun y => key y == a) = f x :=
        List.filter_eq_self.mpr fun y mem => by simpa using (keyed x y mem).trans here
      rw [all, if_pos (by simpa using here), List.flatMap_cons]
    · have nothing : (f x).filter (fun y => key y == a) = [] :=
        List.filter_eq_nil_iff.mpr fun y mem => by simpa [keyed x y mem] using here
      rw [nothing, if_neg (by simpa using here), List.nil_append]

theorem filter_eq_singleton {α κ : Type} [DecidableEq κ] {k : α → κ} :
    ∀ {xs : List α} {x : α}, (xs.map k).Nodup → x ∈ xs → xs.filter (fun y => k y == k x) = [x]
  | y :: xs, x, nodup, mem => by
      obtain ⟨apart, rest⟩ := List.nodup_cons.mp nodup
      rcases List.mem_cons.mp mem with rfl | mem
      · rw [List.filter_cons, if_pos (by simp), List.filter_eq_nil_iff.mpr]
        intro z later
        simpa using fun same : k z = k x => apart (same ▸ List.mem_map_of_mem later)
      · have other : k y ≠ k x := fun same => apart (same ▸ List.mem_map_of_mem mem)
        rw [List.filter_cons, if_neg (by simpa using other), filter_eq_singleton rest mem]

/-- The addresses of the links are all different. -/
def GlobalRouteManagerLSDB.Distinct (lsdb : GlobalRouteManagerLSDB) : Prop :=
  (lsdb.database.flatMap fun lsa =>
    (lsa.linkRecords.filter (·.linkType = .pointToPoint)).map (·.linkData)).Nodup

/-- The routes to a router by one of its addresses. -/
def SPFVertex.routesTo (v : SPFVertex) (dest : UInt32) : List Ipv4RoutingTableEntry :=
  v.validExits.map fun exit => ⟨dest, 0xffffffff, exit.nextHop, exit.outIf.toNat⟩

/-- The host routes to an address are those to its router. -/
theorem SettledTree.filter_hostRoutes {tree : List SPFVertex}
    (settled : SettledTree lsdb root outgoing tree) (distinct : lsdb.Distinct) {v : SPFVertex}
    (mem : v ∈ tree.tail) {lr : GlobalRoutingLinkRecord}
    (leaves : lr ∈ lsdb.linkGraph.links v.vertexId) :
    (tree.tail.flatMap SPFVertex.hostRoutes).filter (fun route => route.dest == lr.linkData) =
      v.routesTo lr.linkData := by
  have tail_nodup : (tree.tail.map (·.vertexId)).Nodup :=
    settled.nodup.sublist ((List.tail_sublist tree).map _)
  have known (u : SPFVertex) (later : u ∈ tree.tail) :=
    settled.known u (List.mem_of_mem_tail later)
  let records (u : SPFVertex) := u.lsa.linkRecords.filter (·.linkType = .pointToPoint)
  have expand : tree.tail.flatMap SPFVertex.hostRoutes =
      (tree.tail.flatMap fun u => (records u).map fun lr => (u, lr)).flatMap fun p =>
        p.1.routesTo p.2.linkData := by
    simp only [List.flatMap_assoc, List.flatMap_map]
    rfl
  have addresses : ((tree.tail.flatMap fun u => (records u).map fun lr => (u, lr)).map
      fun p => p.2.linkData).Nodup := by
    obtain ⟨each, apart⟩ := List.nodup_flatMap.mp distinct
    simp only [List.map_flatMap, List.map_map]
    refine List.nodup_flatMap.mpr ⟨fun u later =>
      each u.lsa (GlobalRouteManagerLSDB.getLSA_mem (known u later)), ?_⟩
    have symm : Std.Symm (Function.onFun List.Disjoint fun lsa : GlobalRoutingLSA =>
        (lsa.linkRecords.filter (·.linkType = .pointToPoint)).map (·.linkData)) :=
      ⟨fun _ _ apart => apart.symm⟩
    refine (List.pairwise_map.mp tail_nodup).imp_of_mem fun {u u'} later later' different => ?_
    refine apart.forall (GlobalRouteManagerLSDB.getLSA_mem (known u later))
      (GlobalRouteManagerLSDB.getLSA_mem (known u' later')) fun same => different ?_
    exact congrArg GlobalRoutingLSA.linkStateId same
  rw [expand, filter_flatMap_key (k := fun p => p.2.linkData) (fun p route mem => ?_),
    filter_eq_singleton (x := (v, lr)) addresses, List.flatMap_singleton]
  · have here := (GlobalRouteManagerLSDB.mem_links (known v mem)).mp leaves
    exact List.mem_flatMap.mpr ⟨v, mem, List.mem_map.mpr ⟨lr, by simpa [records] using here, rfl⟩⟩
  · obtain ⟨exit, _, rfl⟩ := List.mem_map.mp mem
    rfl

instance (lsdb : GlobalRouteManagerLSDB) : Decidable lsdb.Distinct :=
  inferInstanceAs (Decidable (List.Nodup _))

/-- An address is that of one router only. -/
theorem GlobalRouteManagerLSDB.Distinct.same (distinct : lsdb.Distinct) {id id' : UInt32}
    {lr lr' : GlobalRoutingLinkRecord} (leaves : lr ∈ lsdb.linkGraph.links id)
    (leaves' : lr' ∈ lsdb.linkGraph.links id') (same : lr.linkData = lr'.linkData) : id = id' := by
  obtain ⟨lsa, found, mem, type⟩ := exists_getLSA leaves
  obtain ⟨lsa', found', mem', type'⟩ := exists_getLSA leaves'
  by_contra different
  have apart := (List.nodup_flatMap.mp distinct).2
  have symm : Std.Symm (Function.onFun List.Disjoint fun lsa : GlobalRoutingLSA =>
      (lsa.linkRecords.filter (·.linkType = .pointToPoint)).map (·.linkData)) :=
    ⟨fun _ _ apart => apart.symm⟩
  refine apart.forall (getLSA_mem found) (getLSA_mem found') ?_
    (List.mem_map.mpr ⟨lr, by simp [mem, type], rfl⟩)
    (List.mem_map.mpr ⟨lr', by simp [mem', type'], same.symm⟩)
  rintro rfl
  exact different ((getLSA_id found).symm.trans (getLSA_id found'))

/-- The order of the routes to one host: by the next hop, and then by the interface. -/
def Ipv4RoutingTableEntry.Before (a b : Ipv4RoutingTableEntry) : Prop :=
  a.gateway < b.gateway ∨ (a.gateway = b.gateway ∧ a.interface < b.interface)

theorem InOrder.routesTo {v : SPFVertex} (inOrder : InOrder v.ecmpRootExits) (dest : UInt32) :
    (v.routesTo dest).Pairwise Ipv4RoutingTableEntry.Before := by
  refine List.pairwise_map.mpr ((inOrder.sublist List.filter_sublist).imp_of_mem ?_)
  intro a b a_mem b_mem less
  have a_valid : 0 ≤ a.outIf := by simpa using (List.mem_filter.mp a_mem).2
  have b_valid : 0 ≤ b.outIf := by simpa using (List.mem_filter.mp b_mem).2
  unfold Ipv4RoutingTableEntry.Before
  simp only [NodeExit.lt, Bool.or_eq_true, decide_eq_true_eq, Bool.and_eq_true, beq_iff_eq] at less
  rcases less with nextHop | ⟨nextHop, outIf⟩
  · exact Or.inl nextHop
  · exact Or.inr ⟨nextHop, by dsimp only; omega⟩

theorem Calculated.mem_tail {tree : List SPFVertex} {routing routing' : Ipv4GlobalRouting}
    (result : Calculated lsdb root outgoing tree routing routing') {id : UInt32} :
    (∃ v ∈ tree.tail, v.vertexId = id) ↔ id ≠ root ∧ ∃ n, lsdb.linkGraph.Walk root n id := by
  obtain ⟨first, front, first_id⟩ := result.front
  obtain ⟨rest, split⟩ := List.head?_eq_some_iff.mp front
  have nodup := result.settled.nodup
  rw [split, List.map_cons, List.nodup_cons] at nodup
  constructor
  · rintro ⟨v, mem, rfl⟩
    refine ⟨fun here => nodup.1 ?_, _, (result.settled.dist v (List.mem_of_mem_tail mem)).1⟩
    rw [split] at mem
    exact List.mem_map.mpr ⟨v, mem, here.trans first_id.symm⟩
  · rintro ⟨away, n, walk⟩
    obtain ⟨v, mem, rfl⟩ := result.complete id n walk
    rw [split] at mem ⊢
    rcases List.mem_cons.mp mem with rfl | later
    · exact absurd first_id away
    · exact ⟨v, later, rfl⟩

/-- A router with several links gets host routes to the link addresses of all the other
routers that it can reach, and to no others: in order, one for each way out that a
shortest path begins with and that leads to an interface. -/
theorem spfCalculate_hostRoutes (routable : lsdb.Routable) (distinct : lsdb.Distinct)
    (outgoing : UInt32 → Int) (routing : Ipv4GlobalRouting) (known : rlsa ∈ lsdb.database)
    (several : 1 < (rlsa.linkRecords.filter (·.linkType = .pointToPoint)).length) :
    ∃ routing' hosts, spfCalculate lsdb rlsa.linkStateId outgoing routing = some routing' ∧
      routing'.hostRoutes = routing.hostRoutes ++ hosts ∧
      (∀ route ∈ hosts, ∃ id ≠ rlsa.linkStateId, ∃ lr ∈ lsdb.linkGraph.links id,
        route.dest = lr.linkData) ∧
      ∀ id ≠ rlsa.linkStateId, ∀ lr ∈ lsdb.linkGraph.links id,
        (hosts.filter fun route => route.dest == lr.linkData).Pairwise Ipv4RoutingTableEntry.Before ∧
        ∀ route, (route ∈ hosts.filter fun route => route.dest == lr.linkData) ↔
          ∃ l exit, lsdb.linkGraph.FirstHop rlsa.linkStateId id l ∧
            rootExit lsdb rlsa.linkStateId outgoing l = some exit ∧ 0 ≤ exit.outIf ∧
            route = ⟨lr.linkData, 0xffffffff, exit.nextHop, exit.outIf.toNat⟩ := by
  obtain ⟨routing', tree, calculated, result⟩ := spfCalculate_several routable outgoing
    (GlobalRouteManagerLSDB.getLSA_of_mem known) several routing
  obtain ⟨networks, adds, _⟩ := result.adds
  have reached (route : Ipv4RoutingTableEntry) (mem : route ∈ tree.tail.flatMap SPFVertex.hostRoutes) :
      ∃ v ∈ tree.tail, ∃ lr ∈ lsdb.linkGraph.links v.vertexId, route.dest = lr.linkData := by
    obtain ⟨v, later, host⟩ := List.mem_flatMap.mp mem
    obtain ⟨lr, record, route_mem⟩ := List.mem_flatMap.mp host
    obtain ⟨exit, _, rfl⟩ := List.mem_map.mp route_mem
    have found := result.settled.known v (List.mem_of_mem_tail later)
    refine ⟨v, later, lr, (GlobalRouteManagerLSDB.mem_links found).mpr ?_, rfl⟩
    simpa using record
  refine ⟨routing', _, calculated, adds.hostRoutes, fun route mem => ?_, fun id away lr leaves => ?_⟩
  · obtain ⟨v, later, lr, leaves, same⟩ := reached route mem
    exact ⟨v.vertexId, (result.mem_tail.mp ⟨v, later, rfl⟩).1, lr, leaves, same⟩
  by_cases reachable : ∃ v ∈ tree.tail, v.vertexId = id
  · obtain ⟨v, later, rfl⟩ := reachable
    have exits := result.settled.exits v (List.mem_of_mem_tail later) away
    rw [result.settled.filter_hostRoutes distinct later leaves]
    refine ⟨exits.inOrder.routesTo lr.linkData, fun route => ?_⟩
    unfold SPFVertex.routesTo SPFVertex.validExits
    simp only [List.mem_map, List.mem_filter, decide_eq_true_eq, exits.mem]
    constructor
    · rintro ⟨exit, ⟨⟨l, hop, leads⟩, valid⟩, rfl⟩
      exact ⟨l, exit, hop, leads, valid, rfl⟩
    · rintro ⟨l, exit, hop, leads, valid, rfl⟩
      exact ⟨exit, ⟨⟨l, hop, leads⟩, valid⟩, rfl⟩
  · have nothing : (tree.tail.flatMap SPFVertex.hostRoutes).filter
        (fun route => route.dest == lr.linkData) = [] := by
      refine List.filter_eq_nil_iff.mpr fun route mem here => reachable ?_
      obtain ⟨v, later, lr', leaves', same⟩ := reached route mem
      exact ⟨v, later, distinct.same leaves' leaves (same.symm.trans (by simpa using here))⟩
    rw [nothing]
    refine ⟨List.Pairwise.nil, fun route => ⟨fun nowhere => absurd nowhere List.not_mem_nil, ?_⟩⟩
    rintro ⟨l, exit, ⟨_, d, _, shortest⟩, _⟩
    exact absurd (result.mem_tail.mpr ⟨away, _, shortest.1⟩) reachable

theorem spfCalculate_hostRoutes_ring :
    ∃ routing', spfCalculate ringDatabase 0 (fun a => a.toNat)
      (.new false false (.load fun _ => none)) = some routing' ∧
        ⟨14, 0xffffffff, 6, 5⟩ ∈ routing'.hostRoutes := by
  obtain ⟨routing', hosts, calculated, added, _, each⟩ := spfCalculate_hostRoutes
    ringDatabase_routable (by decide) (fun a => a.toNat) (.new false false (.load fun _ => none))
    (List.mem_cons_self : _ ∈ ringDatabase.database) (by decide)
  have route := ((each 3 (by decide) ⟨2, 14, .pointToPoint, 1⟩ (by decide)).2
    ⟨14, 0xffffffff, 6, 5⟩).mpr
      ⟨⟨2, 5, .pointToPoint, 1⟩, ⟨6, 5⟩, ringDatabase_firstHop.1, by decide, by decide, rfl⟩
  refine ⟨routing', calculated, ?_⟩
  rw [added]
  exact List.mem_append_right _ (List.mem_of_mem_filter route)

/-- Its network routes lead to the networks of those routers: those of each router are
added once, although the walk down the tree comes to it from each of its parents. -/
theorem spfCalculate_networkRoutes (routable : lsdb.Routable) (outgoing : UInt32 → Int)
    (routing : Ipv4GlobalRouting) (known : rlsa ∈ lsdb.database)
    (several : 1 < (rlsa.linkRecords.filter (·.linkType = .pointToPoint)).length) :
    ∃ routing' networks, ∃ vertices : List SPFVertex,
      spfCalculate lsdb rlsa.linkStateId outgoing routing = some routing' ∧
      routing'.networkRoutes = routing.networkRoutes ++ networks ∧
      networks.Perm (vertices.flatMap SPFVertex.stubRoutes) ∧
      (vertices.map (·.vertexId)).Nodup ∧
      (∀ id, (∃ v ∈ vertices, v.vertexId = id) ↔
        id ≠ rlsa.linkStateId ∧ ∃ n, lsdb.linkGraph.Walk rlsa.linkStateId n id) ∧
      ∀ v ∈ vertices, lsdb.getLSA v.vertexId = some v.lsa ∧
        InOrder v.ecmpRootExits ∧ ∀ exit, exit ∈ v.ecmpRootExits ↔
          ∃ l, lsdb.linkGraph.FirstHop rlsa.linkStateId v.vertexId l ∧
            rootExit lsdb rlsa.linkStateId outgoing l = some exit := by
  obtain ⟨routing', tree, calculated, result⟩ := spfCalculate_several routable outgoing
    (GlobalRouteManagerLSDB.getLSA_of_mem known) several routing
  obtain ⟨networks, adds, once⟩ := result.adds
  refine ⟨routing', networks, tree.tail, calculated, adds.networkRoutes, once,
    result.settled.nodup.sublist ((List.tail_sublist tree).map _), fun id => result.mem_tail,
    fun v later => ?_⟩
  have mem := List.mem_of_mem_tail later
  have exits := result.settled.exits v mem (result.mem_tail.mp ⟨v, later, rfl⟩).1
  exact ⟨result.settled.known v mem, exits.inOrder, exits.mem⟩

theorem spfCalculate_networkRoutes_ring :
    ∃ routing', spfCalculate ringDatabase 0 (fun a => a.toNat)
      (.new false false (.load fun _ => none)) = some routing' ∧
        ⟨8, 0xfffffffc, 6, 5⟩ ∈ routing'.networkRoutes := by
  obtain ⟨routing', networks, vertices, calculated, added, once, _, reached, each⟩ :=
    spfCalculate_networkRoutes ringDatabase_routable (fun a => a.toNat)
      (.new false false (.load fun _ => none)) (List.mem_cons_self : _ ∈ ringDatabase.database)
      (by decide)
  obtain ⟨hop, two⟩ := ringDatabase_firstHop
  obtain ⟨v, mem, id⟩ := (reached 3).mpr ⟨by decide, 2, two.1⟩
  obtain ⟨known, _, exits⟩ := each v mem
  rw [id] at known exits
  have records : v.lsa = ⟨3, [⟨1, 10, .pointToPoint, 1⟩, ⟨9, 0xfffffffc, .stubNetwork, 1⟩,
      ⟨2, 14, .pointToPoint, 1⟩, ⟨13, 0xfffffffc, .stubNetwork, 1⟩]⟩ := by
    have found : ringDatabase.getLSA 3 = _ := rfl
    exact Option.some.inj (known.symm.trans found)
  have exit : (⟨6, 5⟩ : NodeExit) ∈ v.validExits :=
    List.mem_filter.mpr ⟨(exits _).mpr ⟨_, hop, by decide⟩, by decide⟩
  refine ⟨routing', calculated, ?_⟩
  rw [added]
  refine List.mem_append_right _ (once.mem_iff.mpr (List.mem_flatMap.mpr ⟨v, mem, ?_⟩))
  unfold SPFVertex.stubRoutes
  rw [records]
  exact List.mem_flatMap.mpr ⟨⟨9, 0xfffffffc, .stubNetwork, 1⟩, by decide,
    List.mem_map.mpr ⟨⟨6, 5⟩, exit, by decide⟩⟩

end

end QbbNet
