import QbbNet.ShortestWalks
import QbbNet.SpfQueue

set_option autoImplicit false

/- The tree that SPFCalculate builds: every router that the root can reach, at its
shortest distance, with one exit for each way that a shortest path can begin. -/
namespace QbbNet

namespace GlobalRouteManagerLSDB

/-- The point-to-point links of the routers in the database. -/
def linkGraph (lsdb : GlobalRouteManagerLSDB) : LinkGraph UInt32 GlobalRoutingLinkRecord where
  links id := ((lsdb.getLSA id).map fun lsa =>
    lsa.linkRecords.filter (·.linkType = .pointToPoint)).getD []
  target l := l.linkId
  metric l := l.metric.toNat

/-- A database that routes can be calculated from: each link has one that leads back,
no link is free, and distances fit 32 bits. -/
structure Routable (lsdb : GlobalRouteManagerLSDB) : Prop where
  paired : ∀ id, ∀ l ∈ lsdb.linkGraph.links id, ∃ back ∈ lsdb.linkGraph.links l.linkId,
    back.linkId = id
  positive : lsdb.linkGraph.Positive
  small : ∀ id, ∀ l ∈ lsdb.linkGraph.links id, l.metric.toNat * lsdb.database.length < 2 ^ 32

/-- A cost that links do not exceed if distances fit 32 bits. -/
def metricBound (lsdb : GlobalRouteManagerLSDB) : Nat := (2 ^ 32 - 1) / lsdb.database.length

variable {lsdb : GlobalRouteManagerLSDB} {id : UInt32} {lsa : GlobalRoutingLSA}

theorem getLSA_id (found : lsdb.getLSA id = some lsa) : lsa.linkStateId = id := by
  simpa using List.find?_some found

theorem getLSA_mem (found : lsdb.getLSA id = some lsa) : lsa ∈ lsdb.database :=
  List.mem_of_find?_eq_some found

theorem mem_links {l : GlobalRoutingLinkRecord} (found : lsdb.getLSA id = some lsa) :
    l ∈ lsdb.linkGraph.links id ↔ l ∈ lsa.linkRecords ∧ l.linkType = .pointToPoint := by
  simp [linkGraph, found]

theorem exists_getLSA {l : GlobalRoutingLinkRecord} (leaves : l ∈ lsdb.linkGraph.links id) :
    ∃ lsa, lsdb.getLSA id = some lsa ∧ l ∈ lsa.linkRecords ∧ l.linkType = .pointToPoint := by
  cases found : lsdb.getLSA id with
  | none => simp [linkGraph, found] at leaves
  | some lsa => exact ⟨lsa, rfl, (mem_links found).mp leaves⟩

/-- There are no more vertices than advertisements. -/
theorem length_le {vertices : List SPFVertex} (nodup : (vertices.map (·.vertexId)).Nodup)
    (known : ∀ v ∈ vertices, lsdb.getLSA v.vertexId = some v.lsa) :
    vertices.length ≤ lsdb.database.length := by
  have subset : vertices.map (·.vertexId) ⊆ lsdb.database.map (·.linkStateId) := by
    intro id mem
    obtain ⟨v, member, rfl⟩ := List.mem_map.mp mem
    have found := known v member
    exact List.mem_map.mpr ⟨v.lsa, getLSA_mem found, getLSA_id found⟩
  simpa using (nodup.subperm subset).length_le

end GlobalRouteManagerLSDB

section

variable (lsdb : GlobalRouteManagerLSDB) (root : UInt32) (outgoing : UInt32 → Int)

/-- The exit that a link of the root gives: the first address of its other end back to
the root, and the interface that has its own address. -/
def rootExit (l : GlobalRoutingLinkRecord) : Option NodeExit :=
  (lsdb.getLSA l.linkId).bind fun w =>
    (w.linkRecords.find? (·.linkId == root)).map fun linkRemote =>
      ⟨linkRemote.linkData, outgoing l.linkData⟩

/-- The exits of the links, in order and without repetition. -/
structure ExitsOf (exits : List NodeExit) (hops : Set GlobalRoutingLinkRecord) : Prop where
  inOrder : InOrder exits
  mem : ∀ exit, exit ∈ exits ↔ ∃ l ∈ hops, rootExit lsdb root outgoing l = some exit

/-- The parents of a vertex that joins a tree. -/
structure Joins (tree : List SPFVertex) (v : SPFVertex) : Prop where
  some_parent : v.parents ≠ []
  nodup : v.parents.Nodup
  mem : ∀ p ∈ v.parents, ∃ u ∈ tree, u.vertexId = p

/-- The vertices of the tree are at their distances, with all their exits, and each
joined those before it. -/
structure SettledTree (tree : List SPFVertex) : Prop where
  nodup : (tree.map (·.vertexId)).Nodup
  known : ∀ v ∈ tree, lsdb.getLSA v.vertexId = some v.lsa
  root_mem : ∃ v ∈ tree, v.vertexId = root
  dist : ∀ v ∈ tree, lsdb.linkGraph.Dist root v.vertexId v.distanceFromRoot.toNat
  exits : ∀ v ∈ tree, v.vertexId ≠ root →
    ExitsOf lsdb root outgoing v.ecmpRootExits {l | lsdb.linkGraph.FirstHop root v.vertexId l}
  small : ∀ v ∈ tree, v.distanceFromRoot.toNat ≤ lsdb.metricBound * (tree.length - 1)
  joins : ∀ before v after, tree = before ++ v :: after → before ≠ [] → Joins before v

/-- A candidate is at the least distance that the scanned links offer it. -/
structure CandidateAt (scanned : Set (UInt32 × GlobalRoutingLinkRecord)) (tree : List SPFVertex)
    (v : SPFVertex) : Prop where
  known : lsdb.getLSA v.vertexId = some v.lsa
  small : v.distanceFromRoot.toNat ≤ lsdb.metricBound * tree.length
  joins : Joins tree v
  best : ∃ hops,
    (lsdb.linkGraph.offers root scanned).Best v.vertexId v.distanceFromRoot.toNat hops ∧
      ExitsOf lsdb root outgoing v.ecmpRootExits hops

/-- What is true of the calculation when the links in `scanned` have been examined. -/
structure SPFTree.Explores (scanned : Set (UInt32 × GlobalRoutingLinkRecord)) (spf : SPFTree) :
    Prop where
  settled : SettledTree lsdb root outgoing spf.tree
  tree_status : ∀ id, spf.status id = .inSpfTree ↔ ∃ v ∈ spf.tree, v.vertexId = id
  candidate_status : ∀ id, spf.status id = .candidate ↔ ∃ v ∈ spf.candidate, v.vertexId = id
  nodup : (spf.candidate.map (·.vertexId)).Nodup
  candidates : ∀ v ∈ spf.candidate, CandidateAt lsdb root outgoing scanned spf.tree v
  offered : ∀ id c x, lsdb.linkGraph.offers root scanned id c x → spf.status id ≠ .notExplored
  sorted : spf.candidate.Sorted

end

variable {lsdb : GlobalRouteManagerLSDB} {root : UInt32} {outgoing : UInt32 → Int}
variable {scanned : Set (UInt32 × GlobalRoutingLinkRecord)} {spf : SPFTree}
variable {v w : SPFVertex} {l : GlobalRoutingLinkRecord} {distance : UInt32}

theorem ExitsOf.merge {hops more : Set GlobalRoutingLinkRecord}
    (exits : ExitsOf lsdb root outgoing v.ecmpRootExits hops)
    (others : ExitsOf lsdb root outgoing w.ecmpRootExits more) :
    ExitsOf lsdb root outgoing (v.mergeRootExitDirections w).ecmpRootExits (hops ∪ more) := by
  refine ⟨v.mergeRootExitDirections_inOrder w, fun exit => ?_⟩
  rw [SPFVertex.mem_mergeRootExitDirections, exits.mem, others.mem]
  constructor
  · rintro (⟨l, mem, leaves⟩ | ⟨l, mem, leaves⟩)
    · exact ⟨l, Or.inl mem, leaves⟩
    · exact ⟨l, Or.inr mem, leaves⟩
  · rintro ⟨l, mem | mem, leaves⟩
    · exact Or.inl ⟨l, mem, leaves⟩
    · exact Or.inr ⟨l, mem, leaves⟩

/-- What the next hop calculation makes of `w`, and the exits it gives. -/
structure ReachedBy (lsdb : GlobalRouteManagerLSDB) (root : UInt32) (outgoing : UInt32 → Int)
    (v w : SPFVertex) (l : GlobalRoutingLinkRecord) (distance : UInt32) (w' : SPFVertex) :
    Prop where
  lsa : w'.lsa = w.lsa
  distance : w'.distanceFromRoot = distance
  parents : w'.parents = [v.vertexId]
  exits : ExitsOf lsdb root outgoing w'.ecmpRootExits {x | lsdb.linkGraph.Via root v.vertexId l x}

theorem spfNexthopCalculation_eq_some (routable : lsdb.Routable) (distance : UInt32)
    (leaves : l ∈ lsdb.linkGraph.links v.vertexId) (target : lsdb.getLSA l.linkId = some w.lsa)
    (exits : v.vertexId ≠ root → ExitsOf lsdb root outgoing v.ecmpRootExits
      {x | lsdb.linkGraph.FirstHop root v.vertexId x}) :
    ∃ w', spfNexthopCalculation root outgoing v w l distance = some w' ∧
      ReachedBy lsdb root outgoing v w l distance w' := by
  unfold spfNexthopCalculation
  by_cases here : v.vertexId = root
  · rw [if_pos here]
    obtain ⟨back, back_leaves, back_id⟩ := routable.paired _ l leaves
    obtain ⟨mem, _⟩ := (GlobalRouteManagerLSDB.mem_links target).mp back_leaves
    obtain ⟨linkRemote, remote⟩ : ∃ linkRemote, spfGetNextLink w v = some linkRemote := by
      refine Option.isSome_iff_exists.mp (List.find?_isSome.mpr ⟨back, mem, ?_⟩)
      simpa using back_id
    have exit : rootExit lsdb root outgoing l = some ⟨linkRemote.linkData, outgoing l.linkData⟩ := by
      unfold rootExit
      unfold spfGetNextLink at remote
      rw [here] at remote
      rw [target, Option.bind_some, remote]
      rfl
    rw [remote, Option.map_some]
    refine ⟨_, rfl, rfl, rfl, rfl, List.pairwise_singleton _ _, fun e => ?_⟩
    refine List.mem_singleton.trans ⟨?_, ?_⟩
    · rintro rfl
      exact ⟨l, Or.inl ⟨here, rfl⟩, exit⟩
    · rintro ⟨x, ⟨_, rfl⟩ | ⟨away, _⟩, leads⟩
      · exact Option.some.inj (leads.symm.trans exit)
      · exact absurd here away
  · rw [if_neg here]
    refine ⟨_, rfl, rfl, rfl, rfl, (exits here).inOrder, fun e => ?_⟩
    refine ((exits here).mem e).trans ⟨?_, ?_⟩
    · rintro ⟨x, first, leads⟩
      exact ⟨x, Or.inr ⟨here, first⟩, leads⟩
    · rintro ⟨x, ⟨at_root, _⟩ | ⟨_, first⟩, leads⟩
      · exact absurd at_root here
      · exact ⟨x, first, leads⟩

theorem ReachedBy.joins {w' : SPFVertex} {tree : List SPFVertex}
    (reached : ReachedBy lsdb root outgoing v w l distance w') (mem : v ∈ tree) : Joins tree w' := by
  obtain ⟨_, _, parents, _⟩ := reached
  constructor <;> rw [parents]
  · exact List.cons_ne_nil _ _
  · exact List.nodup_singleton _
  · intro p member
    exact ⟨v, mem, (List.mem_singleton.mp member).symm⟩

theorem Joins.merge {tree : List SPFVertex} (joins : Joins tree v) (other : Joins tree w) :
    Joins tree ((v.mergeRootExitDirections w).mergeParent w) := by
  have parents : ((v.mergeRootExitDirections w).mergeParent w).parents =
    (v.parents ++ w.parents).dedup := rfl
  constructor <;> rw [parents]
  · obtain ⟨p, mem⟩ := List.exists_mem_of_ne_nil _ joins.some_parent
    exact List.ne_nil_of_mem (List.mem_dedup.mpr (List.mem_append_left _ mem))
  · exact List.nodup_dedup _
  · intro p mem
    rcases List.mem_append.mp (List.mem_dedup.mp mem) with first | second
    · exact joins.mem p first
    · exact other.mem p second

theorem Joins.append {tree : List SPFVertex} (joins : Joins tree v) (later : List SPFVertex) :
    Joins (tree ++ later) v := by
  refine ⟨joins.some_parent, joins.nodup, fun p mem => ?_⟩
  obtain ⟨u, inside, id⟩ := joins.mem p mem
  exact ⟨u, List.mem_append_left _ inside, id⟩

/-- Another vertex stays the candidate it is. -/
theorem CandidateAt.other {tree : List SPFVertex} {d : Nat} {u : UInt32}
    (candidate : CandidateAt lsdb root outgoing scanned tree w)
    (to_u : lsdb.linkGraph.Dist root u d) (other : w.vertexId ≠ l.linkId) :
    CandidateAt lsdb root outgoing (insert (u, l) scanned) tree w := by
  obtain ⟨hops, best, exits⟩ := candidate.best
  refine ⟨candidate.known, candidate.small, candidate.joins, hops, ?_, exits⟩
  rw [LinkGraph.offers_insert to_u]
  exact (LinkGraph.Offers.best_add_other other).mpr best

theorem SettledTree.length_le (settled : SettledTree lsdb root outgoing spf.tree) :
    0 < spf.tree.length ∧ spf.tree.length ≤ lsdb.database.length := by
  obtain ⟨v, mem, _⟩ := settled.root_mem
  exact ⟨List.length_pos_of_mem mem,
    GlobalRouteManagerLSDB.length_le settled.nodup settled.known⟩

/-- A distance by a vertex of the tree does not wrap around. -/
theorem SettledTree.distance_toNat (routable : lsdb.Routable)
    (settled : SettledTree lsdb root outgoing spf.tree) (mem : v ∈ spf.tree)
    (leaves : l ∈ lsdb.linkGraph.links v.vertexId) :
    (v.distanceFromRoot + l.metric.toUInt32).toNat =
        v.distanceFromRoot.toNat + l.metric.toNat ∧
      v.distanceFromRoot.toNat + l.metric.toNat ≤ lsdb.metricBound * spf.tree.length := by
  obtain ⟨some_vertex, few⟩ := settled.length_le
  have near := settled.small v mem
  have metric : l.metric.toNat ≤ lsdb.metricBound :=
    (Nat.le_div_iff_mul_le (by omega)).mpr (Nat.le_sub_one_of_lt (routable.small _ l leaves))
  have bound : lsdb.metricBound * spf.tree.length ≤ 2 ^ 32 - 1 :=
    Nat.le_trans (Nat.mul_le_mul_left _ few) (Nat.div_mul_le_self _ _)
  have step : lsdb.metricBound * spf.tree.length =
      lsdb.metricBound * (spf.tree.length - 1) + lsdb.metricBound := by
    obtain ⟨n, length⟩ : ∃ n, spf.tree.length = n + 1 := ⟨_, (Nat.succ_pred_eq_of_pos some_vertex).symm⟩
    rw [length, Nat.add_sub_cancel, Nat.mul_succ]
  rw [UInt32.toNat_add, UInt16.toNat_toUInt32, Nat.mod_eq_of_lt (by omega)]
  omega

/-- What examining a link leaves as it is. -/
structure SPFTree.SameTree (spf spf' : SPFTree) : Prop where
  tree : spf'.tree = spf.tree
  children : spf'.children = spf.children
  routing : spf'.routing = spf.routing

namespace SPFTree.Explores

/-- A link to a vertex of the tree says nothing new. -/
theorem scan_settled (explores : Explores lsdb root outgoing scanned spf) (mem : v ∈ spf.tree)
    (status : spf.status l.linkId = .inSpfTree) :
    Explores lsdb root outgoing (insert (v.vertexId, l) scanned) spf := by
  have to_v := explores.settled.dist v mem
  refine { explores with candidates := fun u candidate => ?_, offered := fun id c x offer => ?_ }
  · refine (explores.candidates u candidate).other to_v fun same => ?_
    have other := (explores.candidate_status _).mpr ⟨u, candidate, same⟩
    rw [status] at other
    cases other
  · rw [LinkGraph.offers_insert to_v] at offer
    rcases offer with old | ⟨rfl, _⟩
    · exact explores.offered id c x old
    · show spf.status l.linkId ≠ .notExplored
      rw [status]
      nofun

/-- The target of a scanned link is a candidate afterwards, at what it is offered then. -/
theorem scan_candidate (explores : Explores lsdb root outgoing scanned spf) (mem : v ∈ spf.tree)
    (open_target : spf.status l.linkId ≠ .inSpfTree) {candidates : CandidateQueue}
    (ids : ∀ id, (∃ u ∈ candidates, u.vertexId = id) ↔
      id = l.linkId ∨ ∃ u ∈ spf.candidate, u.vertexId = id)
    (nodup : (candidates.map (·.vertexId)).Nodup) (sorted : candidates.Sorted)
    (offers : ∀ u ∈ candidates, (u ∈ spf.candidate ∧ u.vertexId ≠ l.linkId) ∨
      CandidateAt lsdb root outgoing (insert (v.vertexId, l) scanned) spf.tree u) :
    Explores lsdb root outgoing (insert (v.vertexId, l) scanned)
      { spf with
        status := Function.update spf.status l.linkId .candidate
        candidate := candidates } := by
  have to_v := explores.settled.dist v mem
  refine ⟨explores.settled, fun id => ?_, fun id => ?_, nodup, fun u candidate => ?_,
    fun id c x offer => ?_, sorted⟩ <;> dsimp only at *
  · by_cases target : id = l.linkId
    · subst target
      rw [Function.update_self]
      exact ⟨nofun, fun inside => absurd ((explores.tree_status _).mpr inside) open_target⟩
    · rw [Function.update_of_ne target]
      exact explores.tree_status id
  · rw [ids]
    by_cases target : id = l.linkId
    · simp [target]
    · rw [Function.update_of_ne target, explores.candidate_status]
      exact ⟨Or.inr, fun either => either.resolve_left target⟩
  · rcases offers u candidate with ⟨old, other⟩ | new
    · exact (explores.candidates u old).other to_v other
    · exact new
  · by_cases target : id = l.linkId
    · subst target
      rw [Function.update_self]
      nofun
    · rw [Function.update_of_ne target]
      rw [LinkGraph.offers_insert to_v] at offer
      rcases offer with old | ⟨same, _⟩
      · exact explores.offered id c x old
      · exact absurd same target

variable {w' : SPFVertex}

/-- A router that has not been met before becomes a candidate. -/
theorem scan_fresh (explores : Explores lsdb root outgoing scanned spf) (mem : v ∈ spf.tree)
    (status : spf.status l.linkId = .notExplored) (target : lsdb.getLSA l.linkId = some w.lsa)
    (reached : ReachedBy lsdb root outgoing v w l distance w')
    (cost : distance.toNat = v.distanceFromRoot.toNat + l.metric.toNat)
    (small : distance.toNat ≤ lsdb.metricBound * spf.tree.length) :
    Explores lsdb root outgoing (insert (v.vertexId, l) scanned)
      { spf with
        status := Function.update spf.status l.linkId .candidate
        candidate := spf.candidate.push w' } := by
  have id : w'.vertexId = l.linkId := by
    unfold SPFVertex.vertexId
    rw [reached.lsa, GlobalRouteManagerLSDB.getLSA_id target]
  have new (u : SPFVertex) (candidate : u ∈ spf.candidate) : u.vertexId ≠ l.linkId := by
    intro same
    have other := (explores.candidate_status _).mpr ⟨u, candidate, same⟩
    rw [status] at other
    cases other
  have perm := CandidateQueue.push_perm spf.candidate w'
  refine explores.scan_candidate mem (by rw [status]; nofun) (fun id' => ?_) ?_
    (CandidateQueue.push_sorted w' explores.sorted) fun u candidate => ?_
  · constructor
    · rintro ⟨u, candidate, rfl⟩
      rcases List.mem_cons.mp (perm.mem_iff.mp candidate) with rfl | old
      · exact Or.inl id
      · exact Or.inr ⟨u, old, rfl⟩
    · rintro (rfl | ⟨u, old, rfl⟩)
      · exact ⟨w', perm.mem_iff.mpr List.mem_cons_self, id⟩
      · exact ⟨u, perm.mem_iff.mpr (List.mem_cons_of_mem _ old), rfl⟩
  · rw [(perm.map _).nodup_iff, List.map_cons, List.nodup_cons]
    refine ⟨fun again => ?_, explores.nodup⟩
    obtain ⟨u, old, same⟩ := List.mem_map.mp again
    exact new u old (same.trans id)
  · rcases List.mem_cons.mp (perm.mem_iff.mp candidate) with rfl | old
    · refine Or.inr ⟨?_, reached.distance ▸ small, reached.joins mem, _, ?_, reached.exits⟩
      · rw [id, reached.lsa]
        exact target
      · rw [LinkGraph.offers_insert (explores.settled.dist v mem), id, reached.distance, cost]
        refine LinkGraph.Offers.best_add_first (fun n x offered => ?_)
          (LinkGraph.exists_via l (explores.settled.dist v mem))
        exact explores.offered _ n x offered status
    · exact Or.inl ⟨old, new u old⟩

/-- A candidate is written again, under the same id. -/
theorem scan_write (explores : Explores lsdb root outgoing scanned spf) (mem : v ∈ spf.tree)
    {cw : SPFVertex} (found : cw ∈ spf.candidate) (id : cw.vertexId = l.linkId)
    {candidates : CandidateQueue} (perm : candidates.Perm (spf.candidate.write w'))
    (sorted : candidates.Sorted) (same : w'.lsa = cw.lsa)
    (small : w'.distanceFromRoot.toNat ≤ lsdb.metricBound * spf.tree.length)
    (joins : Joins spf.tree w') {hops : Set GlobalRoutingLinkRecord}
    (best : (lsdb.linkGraph.offers root (insert (v.vertexId, l) scanned)).Best l.linkId
      w'.distanceFromRoot.toNat hops)
    (exits : ExitsOf lsdb root outgoing w'.ecmpRootExits hops) :
    Explores lsdb root outgoing (insert (v.vertexId, l) scanned)
      { spf with candidate := candidates } := by
  have status : spf.status l.linkId = .candidate :=
    (explores.candidate_status _).mpr ⟨cw, found, id⟩
  have id' : w'.vertexId = l.linkId := by
    rw [← id]
    exact congrArg GlobalRoutingLSA.linkStateId same
  have unchanged : Function.update spf.status l.linkId .candidate = spf.status := by
    rw [← status, Function.update_eq_self]
  have ids : (candidates.map (·.vertexId)).Perm (spf.candidate.map (·.vertexId)) := by
    rw [← CandidateQueue.write_ids spf.candidate w']
    exact perm.map _
  rw [show ({ spf with candidate := candidates } : SPFTree) =
    { spf with
      status := Function.update spf.status l.linkId .candidate
      candidate := candidates } by rw [unchanged]]
  refine explores.scan_candidate mem (by rw [status]; nofun) (fun id => ?_)
    (ids.nodup_iff.mpr explores.nodup) sorted fun u candidate => ?_
  · have member := ids.mem_iff (a := id)
    simp only [List.mem_map] at member
    rw [member]
    refine ⟨Or.inr, ?_⟩
    rintro (rfl | old)
    · exact ⟨cw, found, ‹_›⟩
    · exact old
  · rcases CandidateQueue.mem_write.mp (perm.mem_iff.mp candidate) with ⟨rfl, _⟩ | ⟨old, other⟩
    · refine Or.inr ⟨?_, small, joins, hops, id'.symm ▸ best, exits⟩
      rw [id', ← id, same]
      exact (explores.candidates cw found).known
    · exact Or.inl ⟨old, id' ▸ other⟩

variable {cw : SPFVertex}

theorem scan_dearer (explores : Explores lsdb root outgoing scanned spf) (mem : v ∈ spf.tree)
    (found : cw ∈ spf.candidate) (id : cw.vertexId = l.linkId)
    (cost : distance.toNat = v.distanceFromRoot.toNat + l.metric.toNat)
    (dearer : cw.distanceFromRoot < distance) :
    Explores lsdb root outgoing (insert (v.vertexId, l) scanned) spf := by
  have candidate := explores.candidates cw found
  obtain ⟨hops, best, exits⟩ := candidate.best
  rw [id] at best
  refine explores.scan_write mem found id ?_ explores.sorted rfl candidate.small candidate.joins
    ?_ exits
  · rw [CandidateQueue.write_self explores.nodup found]
  · rw [LinkGraph.offers_insert (explores.settled.dist v mem)]
    exact LinkGraph.Offers.best_add_dearer best (cost ▸ UInt32.lt_iff_toNat_lt.mp dearer)

/-- A path of equal cost adds its exits. -/
theorem scan_equal (explores : Explores lsdb root outgoing scanned spf) (mem : v ∈ spf.tree)
    (found : cw ∈ spf.candidate) (id : cw.vertexId = l.linkId)
    (cost : distance.toNat = v.distanceFromRoot.toNat + l.metric.toNat)
    (equal : cw.distanceFromRoot = distance)
    (reached : ReachedBy lsdb root outgoing v w l distance w') :
    Explores lsdb root outgoing (insert (v.vertexId, l) scanned)
      { spf with
        candidate := spf.candidate.write ((cw.mergeRootExitDirections w').mergeParent w') } := by
  have candidate := explores.candidates cw found
  obtain ⟨hops, best, exits⟩ := candidate.best
  rw [id] at best
  refine explores.scan_write mem found id (List.Perm.refl _) ?_ rfl candidate.small
    (candidate.joins.merge (reached.joins mem)) ?_ (exits.merge reached.exits)
  · refine CandidateQueue.write_sorted explores.sorted fun u mem_u same => ?_
    rw [List.inj_on_of_nodup_map explores.nodup mem_u found same]
    rfl
  · rw [LinkGraph.offers_insert (explores.settled.dist v mem)]
    have cost' : cw.distanceFromRoot.toNat = v.distanceFromRoot.toNat + l.metric.toNat :=
      equal ▸ cost
    exact cost' ▸ LinkGraph.Offers.best_add_equal best

/-- A shorter path replaces what was known. -/
theorem scan_cheaper (explores : Explores lsdb root outgoing scanned spf) (mem : v ∈ spf.tree)
    (found : cw ∈ spf.candidate) (id : cw.vertexId = l.linkId)
    (cost : distance.toNat = v.distanceFromRoot.toNat + l.metric.toNat)
    (cheaper : distance < cw.distanceFromRoot) (small : distance.toNat ≤ lsdb.metricBound * spf.tree.length)
    (reached : ReachedBy lsdb root outgoing v cw l distance w') :
    Explores lsdb root outgoing (insert (v.vertexId, l) scanned)
      { spf with candidate := (spf.candidate.write w').reorder } := by
  obtain ⟨hops, best, exits⟩ := (explores.candidates cw found).best
  rw [id] at best
  refine explores.scan_write mem found id (CandidateQueue.reorder_perm _)
    (CandidateQueue.reorder_sorted _) reached.lsa (reached.distance ▸ small) (reached.joins mem)
    ?_ reached.exits
  rw [reached.distance, LinkGraph.offers_insert (explores.settled.dist v mem), cost]
  exact LinkGraph.Offers.best_add_cheaper best
    (cost ▸ UInt32.lt_iff_toNat_lt.mp cheaper)
    (LinkGraph.exists_via l (explores.settled.dist v mem))

end SPFTree.Explores

/-- Examining one link of a vertex of the tree. -/
theorem spfNextLink_explores (routable : lsdb.Routable)
    (explores : spf.Explores lsdb root outgoing scanned) (mem : v ∈ spf.tree)
    (leaves : l ∈ lsdb.linkGraph.links v.vertexId) :
    ∃ spf', spfNextLink lsdb root outgoing v spf l = some spf' ∧
      spf'.Explores lsdb root outgoing (insert (v.vertexId, l) scanned) ∧ spf.SameTree spf' := by
  have to_v := explores.settled.dist v mem
  obtain ⟨back, back_leaves, _⟩ := routable.paired _ l leaves
  obtain ⟨wLsa, target, _⟩ := GlobalRouteManagerLSDB.exists_getLSA back_leaves
  have id := GlobalRouteManagerLSDB.getLSA_id target
  have point_to_point := ((GlobalRouteManagerLSDB.mem_links
    (explores.settled.known v mem)).mp leaves).2
  obtain ⟨cost, small⟩ := explores.settled.distance_toNat routable mem leaves
  rw [← cost] at small
  have reach (w : SPFVertex) (same : w.lsa = wLsa) := spfNexthopCalculation_eq_some routable
    (v.distanceFromRoot + l.metric.toUInt32) leaves
    (target.trans (congrArg some same.symm)) (explores.settled.exits v mem)
  unfold spfNextLink
  rw [point_to_point]
  dsimp only
  rw [target, Option.bind_some, id]
  cases status : spf.status l.linkId with
  | inSpfTree => exact ⟨spf, rfl, explores.scan_settled mem status, rfl, rfl, rfl⟩
  | notExplored =>
    obtain ⟨w', calculated, reached⟩ := reach (.new wLsa) rfl
    exact ⟨_, by rw [calculated]; rfl,
      explores.scan_fresh (w := .new wLsa) mem status target reached cost small, rfl, rfl, rfl⟩
  | candidate =>
    obtain ⟨cw, found, cw_id⟩ := (explores.candidate_status _).mp status
    have candidate := explores.candidates cw found
    have cw_lsa : cw.lsa = wLsa :=
      Option.some.inj ((cw_id ▸ candidate.known).symm.trans target)
    have at_cw : spf.candidate.find l.linkId = some cw :=
      cw_id ▸ CandidateQueue.find_of_mem explores.nodup found
    dsimp only
    rw [at_cw, Option.bind_some]
    by_cases nearer : cw.distanceFromRoot < v.distanceFromRoot + l.metric.toUInt32
    · rw [if_pos nearer]
      exact ⟨spf, rfl, explores.scan_dearer mem found cw_id cost nearer, rfl, rfl, rfl⟩
    · rw [if_neg nearer]
      by_cases equal : cw.distanceFromRoot = v.distanceFromRoot + l.metric.toUInt32
      · rw [if_pos equal]
        obtain ⟨w', calculated, reached⟩ := reach (.new wLsa) rfl
        exact ⟨_, by rw [calculated]; rfl,
          explores.scan_equal mem found cw_id cost equal reached, rfl, rfl, rfl⟩
      · rw [if_neg equal]
        obtain ⟨w', calculated, reached⟩ := reach cw cw_lsa
        have cheaper := UInt32.lt_of_le_of_ne (UInt32.not_lt.mp nearer) (Ne.symm equal)
        exact ⟨_, by rw [calculated]; rfl,
          explores.scan_cheaper mem found cw_id cost cheaper small reached, rfl, rfl, rfl⟩

theorem SPFTree.SameTree.trans {spf₁ spf₂ : SPFTree} (first : spf.SameTree spf₁)
    (second : spf₁.SameTree spf₂) : spf.SameTree spf₂ :=
  ⟨second.tree.trans first.tree, second.children.trans first.children,
    second.routing.trans first.routing⟩

/-- Examining links of a vertex of the tree one after another. -/
theorem foldlM_spfNextLink_explores (routable : lsdb.Routable)
    (records : List GlobalRoutingLinkRecord) :
    ∀ {scanned : Set (UInt32 × GlobalRoutingLinkRecord)} {spf : SPFTree},
      spf.Explores lsdb root outgoing scanned → v ∈ spf.tree → records ⊆ v.lsa.linkRecords →
      ∃ spf', records.foldlM (spfNextLink lsdb root outgoing v) spf = some spf' ∧
        spf'.Explores lsdb root outgoing (scanned ∪
          {p | p.1 = v.vertexId ∧ p.2 ∈ records ∧ p.2.linkType = .pointToPoint}) ∧
        spf.SameTree spf' := by
  induction records with
  | nil =>
    intro scanned spf explores _ _
    exact ⟨spf, rfl, by simpa using explores, rfl, rfl, rfl⟩
  | cons l records ih =>
    intro scanned spf explores mem subset
    obtain ⟨here, later⟩ := List.cons_subset.mp subset
    rw [List.foldlM_cons]
    cases type : l.linkType with
    | stubNetwork =>
      obtain ⟨spf', folded, explores', same⟩ := ih explores mem later
      refine ⟨spf', ?_, ?_, same⟩
      · rw [show spfNextLink lsdb root outgoing v spf l = some spf by simp [spfNextLink, type]]
        exact folded
      · convert explores' using 2
        ext ⟨id, x⟩
        simp only [Set.mem_ofPred_eq, List.mem_cons]
        constructor
        · rintro ⟨at_v, rfl | member, link⟩
          · rw [type] at link
            cases link
          · exact ⟨at_v, member, link⟩
        · rintro ⟨at_v, member, link⟩
          exact ⟨at_v, Or.inr member, link⟩
    | pointToPoint =>
      have leaves := (GlobalRouteManagerLSDB.mem_links (explores.settled.known v mem)).mpr
        ⟨here, type⟩
      obtain ⟨next, step, explores_next, same_next⟩ := spfNextLink_explores routable explores mem leaves
      obtain ⟨spf', folded, explores', same⟩ :=
        ih explores_next (same_next.tree ▸ mem) later
      refine ⟨spf', ?_, ?_, same_next.trans same⟩
      · rw [step]
        exact folded
      · convert explores' using 1
        ext ⟨id, x⟩
        simp only [Set.mem_union, Set.mem_ofPred_eq, Set.mem_insert_iff, Prod.mk.injEq, List.mem_cons]
        constructor
        · rintro (old | ⟨at_v, rfl | member, link⟩)
          · exact Or.inl (Or.inr old)
          · exact Or.inl (Or.inl ⟨at_v, rfl⟩)
          · exact Or.inr ⟨at_v, member, link⟩
        · rintro ((⟨at_v, rfl⟩ | old) | ⟨at_v, member, link⟩)
          · exact Or.inr ⟨at_v, Or.inl rfl, type⟩
          · exact Or.inl old
          · exact Or.inr ⟨at_v, Or.inr member, link⟩

theorem spfNext_explores (routable : lsdb.Routable)
    (explores : spf.Explores lsdb root outgoing scanned) (mem : v ∈ spf.tree) :
    ∃ spf', spfNext lsdb root outgoing v spf = some spf' ∧
      spf'.Explores lsdb root outgoing (scanned ∪
        {p | p.1 = v.vertexId ∧ p.2 ∈ lsdb.linkGraph.links v.vertexId}) ∧ spf.SameTree spf' := by
  obtain ⟨spf', folded, explores', same⟩ :=
    foldlM_spfNextLink_explores routable v.lsa.linkRecords explores mem (List.Subset.refl _)
  refine ⟨spf', folded, ?_, same⟩
  convert explores' using 4 with p
  rw [GlobalRouteManagerLSDB.mem_links (explores.settled.known v mem)]

theorem SettledTree.add {tree : List SPFVertex} (settled : SettledTree lsdb root outgoing tree)
    (fresh : ¬ ∃ u ∈ tree, u.vertexId = v.vertexId)
    (candidate : CandidateAt lsdb root outgoing scanned tree v)
    (dist : lsdb.linkGraph.Dist root v.vertexId v.distanceFromRoot.toNat)
    (exits : ExitsOf lsdb root outgoing v.ecmpRootExits
      {l | lsdb.linkGraph.FirstHop root v.vertexId l}) :
    SettledTree lsdb root outgoing (tree ++ [v]) := by
  have mem_add {u : SPFVertex} (mem : u ∈ tree ++ [v]) : u ∈ tree ∨ u = v := by
    simpa using mem
  constructor
  · rw [List.map_append, List.map_singleton, List.nodup_append]
    refine ⟨settled.nodup, List.nodup_singleton _, fun id mem other new same => fresh ?_⟩
    obtain ⟨u, member, rfl⟩ := List.mem_map.mp mem
    exact ⟨u, member, same.trans (List.mem_singleton.mp new)⟩
  · intro u mem
    rcases mem_add mem with old | rfl
    · exact settled.known u old
    · exact candidate.known
  · obtain ⟨u, mem, at_root⟩ := settled.root_mem
    exact ⟨u, List.mem_append_left _ mem, at_root⟩
  · intro u mem
    rcases mem_add mem with old | rfl
    · exact settled.dist u old
    · exact dist
  · intro u mem away
    rcases mem_add mem with old | rfl
    · exact settled.exits u old away
    · exact exits
  · intro u mem
    rw [List.length_append, List.length_singleton, Nat.add_sub_cancel]
    rcases mem_add mem with old | rfl
    · exact Nat.le_trans (settled.small u old) (Nat.mul_le_mul_left _ (Nat.sub_le _ _))
    · exact candidate.small
  · intro before u after split some_before
    rcases List.eq_nil_or_concat after with rfl | ⟨rest, last, rfl⟩
    · obtain ⟨rfl, same⟩ := List.append_inj' split rfl
      rw [List.singleton_inj.mp same] at candidate
      exact candidate.joins
    · rw [List.concat_eq_append, ← List.cons_append, ← List.append_assoc] at split
      obtain ⟨rfl, _⟩ := List.append_inj' split rfl
      exact settled.joins before u rest rfl some_before

/-- The routers in the tree. -/
def SPFTree.ids (spf : SPFTree) : Set UInt32 := {id | ∃ v ∈ spf.tree, v.vertexId = id}

/-- The closest candidate is at its distance when all links of the tree are scanned. -/
theorem SPFTree.Explores.grow (positive : lsdb.linkGraph.Positive)
    (explores : spf.Explores lsdb root outgoing (lsdb.linkGraph.linksOf spf.ids))
    {rest : CandidateQueue} (queue : spf.candidate = v :: rest) :
    (spf.grow v rest).Explores lsdb root outgoing (lsdb.linkGraph.linksOf spf.ids) := by
  have front : v ∈ spf.candidate := queue ▸ List.mem_cons_self
  have candidate := explores.candidates v front
  obtain ⟨hops, best, exits⟩ := candidate.best
  have outside (u : SPFVertex) (waits : u ∈ spf.candidate) : u.vertexId ∉ spf.ids := by
    intro inside
    have settled := (explores.tree_status _).mpr inside
    rw [(explores.candidate_status _).mpr ⟨u, waits, rfl⟩] at settled
    cases settled
  have sorted := explores.sorted
  have nodup := explores.nodup
  rw [queue] at sorted nodup
  obtain ⟨closest, rest_sorted⟩ := List.pairwise_cons.mp sorted
  rw [List.map_cons, List.nodup_cons] at nodup
  have least : ∀ u ∈ spf.candidate, v.distanceFromRoot.toNat ≤ u.distanceFromRoot.toNat := by
    intro u waits
    rw [queue] at waits
    rcases List.mem_cons.mp waits with rfl | behind
    · exact Nat.le_refl _
    · exact UInt32.le_iff_toNat_le.mp (closest u behind)
  have known : ∀ id ∈ spf.ids, ∃ d, lsdb.linkGraph.Dist root id d := by
    rintro id ⟨u, mem, rfl⟩
    exact ⟨_, explores.settled.dist u mem⟩
  obtain ⟨dist, rfl⟩ := LinkGraph.settle positive explores.settled.root_mem known
    (outside v front) best fun id out c x offer => by
      cases status : spf.status id with
      | notExplored => exact absurd status (explores.offered id c x offer)
      | inSpfTree => exact absurd ((explores.tree_status id).mp status) out
      | candidate =>
        obtain ⟨u, waits, rfl⟩ := (explores.candidate_status id).mp status
        obtain ⟨_, best_u, _⟩ := (explores.candidates u waits).best
        exact Nat.le_trans (least u waits) (best_u.least.2 ⟨x, offer⟩)
  refine ⟨explores.settled.add (outside v front) candidate dist exits, fun id => ?_, fun id => ?_,
    nodup.2, fun u behind => ?_, fun id c x offer => ?_, rest_sorted⟩ <;> dsimp only [SPFTree.grow]
  · by_cases here : id = v.vertexId
    · rw [here, Function.update_self]
      exact ⟨fun _ => ⟨v, by simp, rfl⟩, fun _ => rfl⟩
    · rw [Function.update_of_ne here, explores.tree_status]
      constructor
      · rintro ⟨u, mem, same⟩
        exact ⟨u, List.mem_append_left _ mem, same⟩
      · rintro ⟨u, mem, rfl⟩
        rcases List.mem_append.mp mem with old | new
        · exact ⟨u, old, rfl⟩
        · rw [List.mem_singleton.mp new] at here
          exact absurd rfl here
  · by_cases here : id = v.vertexId
    · rw [here, Function.update_self]
      refine ⟨nofun, ?_⟩
      rintro ⟨u, behind, same⟩
      exact absurd (List.mem_map.mpr ⟨u, behind, same⟩) nodup.1
    · rw [Function.update_of_ne here, explores.candidate_status, queue]
      constructor
      · rintro ⟨u, waits, rfl⟩
        rcases List.mem_cons.mp waits with rfl | behind
        · exact absurd rfl here
        · exact ⟨u, behind, rfl⟩
      · rintro ⟨u, behind, same⟩
        exact ⟨u, List.mem_cons_of_mem _ behind, same⟩
  · have old := explores.candidates u (queue ▸ List.mem_cons_of_mem _ behind)
    exact { old with
      small := Nat.le_trans old.small (Nat.mul_le_mul_left _ (by simp))
      joins := old.joins.append [v] }
  · by_cases here : id = v.vertexId
    · rw [here, Function.update_self]
      nofun
    · rw [Function.update_of_ne here]
      exact explores.offered id c x offer

/-- The tree has grown from the root alone, and the routes with it. -/
structure SPFTree.Grown (rlsa : GlobalRoutingLSA) (routing : Ipv4GlobalRouting) (spf : SPFTree) :
    Prop where
  front : spf.tree.head? = some { SPFVertex.new rlsa with distanceFromRoot := 0 }
  children : spf.children =
    spf.tree.tail.foldl (fun children v => spfVertexAddParent v children) fun _ => []
  routing : spf.routing = spf.tree.tail.foldl (fun routing v => spfIntraAddRouter v routing) routing

variable {rlsa : GlobalRoutingLSA} {routing : Ipv4GlobalRouting}

theorem SPFTree.SameTree.grown {spf' : SPFTree} (same : spf.SameTree spf')
    (grown : spf.Grown rlsa routing) : spf'.Grown rlsa routing := by
  obtain ⟨tree, children, routes⟩ := same
  constructor
  · rw [tree, grown.front]
  · rw [children, tree, grown.children]
  · rw [routes, tree, grown.routing]

theorem SPFTree.Grown.grow (grown : spf.Grown rlsa routing) (v : SPFVertex)
    (rest : CandidateQueue) : (spf.grow v rest).Grown rlsa routing := by
  obtain ⟨tail, tree⟩ := List.head?_eq_some_iff.mp grown.front
  have children := grown.children
  have routes := grown.routing
  rw [tree] at children routes
  constructor <;> simp only [SPFTree.grow, tree]
  · rfl
  · rw [children]
    simp
  · rw [routes]
    simp

theorem SPFTree.ids_grow (v : SPFVertex) (rest : CandidateQueue) :
    (spf.grow v rest).ids = insert v.vertexId spf.ids := by
  ext id
  constructor
  · rintro ⟨u, mem, rfl⟩
    rcases List.mem_append.mp mem with old | new
    · exact Or.inr ⟨u, old, rfl⟩
    · rw [List.mem_singleton.mp new]
      exact Or.inl rfl
  · rintro (rfl | ⟨u, mem, same⟩)
    · exact ⟨v, List.mem_append_right _ List.mem_cons_self, rfl⟩
    · exact ⟨u, List.mem_append_left _ mem, same⟩

/-- The loop ends with a tree whose links are all scanned, and no candidate. -/
theorem spfLoop_explores (routable : lsdb.Routable) (fuel : Nat) :
    ∀ {spf : SPFTree} {v : SPFVertex} {before : Set UInt32},
      spf.Explores lsdb root outgoing (lsdb.linkGraph.linksOf before) → v ∈ spf.tree →
      spf.ids = insert v.vertexId before → spf.Grown rlsa routing →
      lsdb.database.length < fuel + spf.tree.length →
      ∃ spf', spfLoop lsdb root outgoing fuel v spf = some spf' ∧
        spf'.Explores lsdb root outgoing (lsdb.linkGraph.linksOf spf'.ids) ∧
        spf'.candidate = [] ∧ spf'.Grown rlsa routing := by
  induction fuel with
  | zero =>
    intro spf v before explores _ _ _ enough
    obtain ⟨_, few⟩ := explores.settled.length_le
    omega
  | succ fuel ih =>
    intro spf v before explores mem ids grown enough
    obtain ⟨next, scanned, explores_next, same⟩ := spfNext_explores routable explores mem
    rw [← LinkGraph.linksOf_insert, ← ids] at explores_next
    have ids_next : next.ids = spf.ids := by
      unfold SPFTree.ids
      rw [same.tree]
    rw [← ids_next] at explores_next
    unfold spfLoop
    rw [scanned, Option.bind_some]
    cases queue : next.candidate with
    | nil => exact ⟨next, rfl, explores_next, queue, same.grown grown⟩
    | cons u rest =>
      refine ih (explores_next.grow routable.positive queue)
        (List.mem_append_right _ List.mem_cons_self) (SPFTree.ids_grow u rest)
        ((same.grown grown).grow u rest) ?_
      simp only [SPFTree.grow, List.length_append, List.length_singleton, same.tree]
      omega

theorem SPFTree.start_explores (outgoing : UInt32 → Int) (routing : Ipv4GlobalRouting)
    (found : lsdb.getLSA root = some rlsa) :
    (SPFTree.start rlsa routing).Explores lsdb root outgoing (lsdb.linkGraph.linksOf ∅) := by
  have id := GlobalRouteManagerLSDB.getLSA_id found
  subst id
  constructor
  · constructor
    · exact List.nodup_singleton _
    · intro v mem
      rw [List.mem_singleton.mp mem]
      exact found
    · exact ⟨_, List.mem_singleton_self _, rfl⟩
    · intro v mem
      rw [List.mem_singleton.mp mem]
      exact LinkGraph.dist_self _ _
    · intro v mem away
      rw [List.mem_singleton.mp mem] at away
      exact absurd rfl away
    · intro v mem
      rw [List.mem_singleton.mp mem]
      exact Nat.zero_le _
    · intro before v after split some_before
      have length := congrArg List.length split
      have some_vertex := List.length_pos_iff.mpr some_before
      simp only [start, List.length_append, List.length_cons, List.length_nil] at length
      omega
  · intro id
    simp only [start, List.mem_singleton, exists_eq_left]
    by_cases here : id = rlsa.linkStateId
    · subst here
      simp [SPFVertex.vertexId, SPFVertex.new]
    · simp [Function.update_of_ne here, SPFVertex.vertexId, SPFVertex.new, Ne.symm here]
  · intro id
    simp only [start, List.not_mem_nil, false_and, exists_false, iff_false]
    by_cases here : id = rlsa.linkStateId
    · rw [here, Function.update_self]
      intro waits
      cases waits
    · rw [Function.update_of_ne here]
      intro waits
      cases waits
  · exact List.nodup_nil
  · exact fun v waits => absurd waits List.not_mem_nil
  · rintro id c x ⟨v, l, d, ⟨nowhere, _⟩, _⟩
    exact absurd nowhere (Set.notMem_empty _)
  · exact List.Pairwise.nil

/-- SPFCalculate finds the tree of every router, and the routes grow with it. -/
theorem spfTree_eq_some (routable : lsdb.Routable) (outgoing : UInt32 → Int)
    (found : lsdb.getLSA root = some rlsa) (routing : Ipv4GlobalRouting) :
    ∃ spf, spfTree lsdb root outgoing routing = some spf ∧ spf.Grown rlsa routing ∧
      SettledTree lsdb root outgoing spf.tree ∧
      ∀ id n, lsdb.linkGraph.Walk root n id → ∃ v ∈ spf.tree, v.vertexId = id := by
  have id := GlobalRouteManagerLSDB.getLSA_id found
  obtain ⟨spf, looped, explores, done, grown⟩ := spfLoop_explores routable
    lsdb.database.length (SPFTree.start_explores outgoing routing found)
    (List.mem_singleton_self _) (by simp [SPFTree.ids, SPFTree.start])
    ⟨rfl, rfl, rfl⟩ (by simp [SPFTree.start])
  refine ⟨spf, ?_, grown, explores.settled, fun id n walk => ?_⟩
  · unfold spfTree
    rw [found]
    exact looped
  · show id ∈ spf.ids
    refine walk.inside explores.settled.root_mem ?_ ?_
    · rintro id ⟨v, mem, rfl⟩
      exact ⟨_, explores.settled.dist v mem⟩
    · intro id out c x offer
      cases status : spf.status id with
      | notExplored => exact explores.offered id c x offer status
      | inSpfTree => exact out ((explores.tree_status id).mp status)
      | candidate =>
        obtain ⟨v, waits, _⟩ := (explores.candidate_status id).mp status
        rw [done] at waits
        cases waits

theorem GlobalRouteManagerLSDB.getLSA_of_mem {lsa : GlobalRoutingLSA} (mem : lsa ∈ lsdb.database) :
    lsdb.getLSA lsa.linkStateId = some lsa := by
  unfold getLSA
  cases search : lsdb.database.find? (·.linkStateId == lsa.linkStateId) with
  | none => exact absurd (List.find?_eq_none.mp search lsa mem) (by simp)
  | some other =>
    have same : other.linkStateId = lsa.linkStateId := by simpa using List.find?_some search
    rw [List.inj_on_of_nodup_map lsdb.nodup (List.mem_of_find?_eq_some search) mem same]

/-- What the links of each advertisement have to be like. -/
theorem GlobalRouteManagerLSDB.routable_iff : lsdb.Routable ↔
    ∀ lsa ∈ lsdb.database, ∀ l ∈ lsdb.linkGraph.links lsa.linkStateId,
      (∃ back ∈ lsdb.linkGraph.links l.linkId, back.linkId = lsa.linkStateId) ∧
        0 < lsdb.linkGraph.metric l ∧ l.metric.toNat * lsdb.database.length < 2 ^ 32 := by
  constructor
  · exact fun routable lsa _ l leaves => ⟨routable.paired _ l leaves, routable.positive _ l leaves,
      routable.small _ l leaves⟩
  · intro holds
    have out {id : UInt32} {l : GlobalRoutingLinkRecord} (leaves : l ∈ lsdb.linkGraph.links id) :
        ∃ lsa ∈ lsdb.database, lsa.linkStateId = id := by
      obtain ⟨lsa, found, _⟩ := exists_getLSA leaves
      exact ⟨lsa, getLSA_mem found, getLSA_id found⟩
    constructor <;> intro id l leaves <;> obtain ⟨lsa, mem, rfl⟩ := out leaves
    · exact (holds lsa mem l leaves).1
    · exact (holds lsa mem l leaves).2.1
    · exact (holds lsa mem l leaves).2.2

instance (lsdb : GlobalRouteManagerLSDB) : Decidable lsdb.Routable :=
  decidable_of_iff _ GlobalRouteManagerLSDB.routable_iff.symm

/-- The tree of every router has each router that it can reach once, at the length of a
shortest path. The ways out of the root are in order, without repetition, those of the
links that the shortest paths begin with. -/
theorem spfTree_shortest (routable : lsdb.Routable) (outgoing : UInt32 → Int)
    (routing : Ipv4GlobalRouting) (known : rlsa ∈ lsdb.database) :
    ∃ spf, spfTree lsdb rlsa.linkStateId outgoing routing = some spf ∧
      (spf.tree.map (·.vertexId)).Nodup ∧
      (∀ id d, lsdb.linkGraph.Dist rlsa.linkStateId id d ↔
        ∃ v ∈ spf.tree, v.vertexId = id ∧ v.distanceFromRoot.toNat = d) ∧
      ∀ v ∈ spf.tree, v.vertexId ≠ rlsa.linkStateId →
        InOrder v.ecmpRootExits ∧ ∀ exit, exit ∈ v.ecmpRootExits ↔
          ∃ l, lsdb.linkGraph.FirstHop rlsa.linkStateId v.vertexId l ∧
            rootExit lsdb rlsa.linkStateId outgoing l = some exit := by
  obtain ⟨spf, built, _, settled, complete⟩ := spfTree_eq_some routable outgoing
    (GlobalRouteManagerLSDB.getLSA_of_mem known) routing
  refine ⟨spf, built, settled.nodup, fun id d => ⟨fun shortest => ?_, ?_⟩, fun v mem away => ?_⟩
  · obtain ⟨v, mem, rfl⟩ := complete id d shortest.1
    exact ⟨v, mem, rfl, (settled.dist v mem).unique shortest⟩
  · rintro ⟨v, mem, rfl, rfl⟩
    exact settled.dist v mem
  · exact ⟨(settled.exits v mem away).inOrder, (settled.exits v mem away).mem⟩

/-- Four routers in a ring, and the networks of their links. -/
def ringDatabase : GlobalRouteManagerLSDB where
  database :=
    [⟨0, [⟨1, 1, .pointToPoint, 1⟩, ⟨2, 0xfffffffc, .stubNetwork, 1⟩,
        ⟨2, 5, .pointToPoint, 1⟩, ⟨6, 0xfffffffc, .stubNetwork, 1⟩]⟩,
      ⟨1, [⟨0, 2, .pointToPoint, 1⟩, ⟨1, 0xfffffffc, .stubNetwork, 1⟩,
        ⟨3, 9, .pointToPoint, 1⟩, ⟨10, 0xfffffffc, .stubNetwork, 1⟩]⟩,
      ⟨2, [⟨0, 6, .pointToPoint, 1⟩, ⟨5, 0xfffffffc, .stubNetwork, 1⟩,
        ⟨3, 13, .pointToPoint, 1⟩, ⟨14, 0xfffffffc, .stubNetwork, 1⟩]⟩,
      ⟨3, [⟨1, 10, .pointToPoint, 1⟩, ⟨9, 0xfffffffc, .stubNetwork, 1⟩,
        ⟨2, 14, .pointToPoint, 1⟩, ⟨13, 0xfffffffc, .stubNetwork, 1⟩]⟩]
  nodup := by decide

theorem ringDatabase_routable : ringDatabase.Routable := by decide

theorem ringDatabase_firstHop :
    ringDatabase.linkGraph.FirstHop 0 3 ⟨2, 5, .pointToPoint, 1⟩ ∧
      ringDatabase.linkGraph.Dist 0 3 2 := by
  have near : ∀ l ∈ ringDatabase.linkGraph.links 0, l.linkId ≠ 3 := by decide
  have positive := ringDatabase_routable.positive
  have first : ringDatabase.linkGraph.Walk 0 1 2 :=
    LinkGraph.Walk.nil.snoc (show ⟨2, 5, .pointToPoint, 1⟩ ∈ ringDatabase.linkGraph.links 0 by decide)
  have second : ringDatabase.linkGraph.Walk 2 1 3 :=
    LinkGraph.Walk.nil.snoc (show ⟨3, 13, .pointToPoint, 1⟩ ∈ ringDatabase.linkGraph.links 2 by decide)
  have one : ringDatabase.linkGraph.Dist 2 3 1 :=
    ⟨second, fun n walk => walk.positive positive (by decide)⟩
  have two : ringDatabase.linkGraph.Dist 0 3 2 := by
    refine ⟨first.trans second, fun n walk => ?_⟩
    rcases walk.first with ⟨_, same⟩ | ⟨l, leaves, k, rest, rfl⟩
    · cases same
    · have some_cost := positive 0 l leaves
      have more := rest.positive positive (near l leaves).symm
      exact Nat.add_le_add some_cost more
  exact ⟨⟨by decide, 1, one, two⟩, two⟩

theorem spfTree_shortest_ring :
    ∃ spf, spfTree ringDatabase 0 (fun a => a.toNat) (.new false false (.load fun _ => none)) =
      some spf ∧ ∃ v ∈ spf.tree, v.vertexId = 3 ∧ v.distanceFromRoot.toNat = 2 ∧
        ⟨6, 5⟩ ∈ v.ecmpRootExits := by
  obtain ⟨spf, built, _, shortest, exits⟩ := spfTree_shortest ringDatabase_routable
    (fun a => a.toNat) (.new false false (.load fun _ => none))
    (List.mem_cons_self : _ ∈ ringDatabase.database)
  obtain ⟨hop, two⟩ := ringDatabase_firstHop
  obtain ⟨v, mem, id, far⟩ := (shortest 3 2).mp two
  refine ⟨spf, built, v, mem, id, far, ((exits v mem (by rw [id]; decide)).2 _).mpr
    ⟨⟨2, 5, .pointToPoint, 1⟩, ?_, by decide⟩⟩
  rw [id]
  exact hop

end QbbNet
