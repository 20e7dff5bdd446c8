import QbbNet.SpfRoutes
import QbbNet.GlobalRouters
import QbbNet.OptionLoops

set_option autoImplicit false

/- The routes of a table by their numbers, and the tables of a network that are deleted
and calculated again. -/
namespace QbbNet

namespace Ipv4GlobalRouting

variable (routing : Ipv4GlobalRouting)

def getNRoutes : Nat :=
  routing.hostRoutes.length + routing.networkRoutes.length + routing.asExternalRoutes.length

/-- A route that does not exist fails an assertion. -/
def removeRoute (index : Nat) : Option Ipv4GlobalRouting :=
  if index < routing.hostRoutes.length then
    some { routing with
      hostRoutes := routing.hostRoutes.eraseIdx index
      hosts := fun route mem => routing.hosts route (List.mem_of_mem_eraseIdx mem) }
  else
    let index := index - routing.hostRoutes.length
    if index < routing.networkRoutes.length then
      some { routing with networkRoutes := routing.networkRoutes.eraseIdx index }
    else
      let index := index - routing.networkRoutes.length
      if index < routing.asExternalRoutes.length then
        some { routing with asExternalRoutes := routing.asExternalRoutes.eraseIdx index }
      else none

/-- All routes in the order of their numbers. -/
def routes : List Ipv4RoutingTableEntry :=
  routing.hostRoutes ++ routing.networkRoutes ++ routing.asExternalRoutes

/-- What the routes leave as it is. -/
structure SameOptions (routing routing' : Ipv4GlobalRouting) : Prop where
  perflow : routing'.perflowEcmpRouting = routing.perflowEcmpRouting
  random : routing'.randomEcmpRouting = routing.randomEcmpRouting
  weights : routing'.weights = routing.weights

variable {routing}

theorem length_routes : routing.routes.length = routing.getNRoutes := by
  simp [routes, getNRoutes, Nat.add_assoc]

/-- The route with a number is removed, and those after it move up. -/
theorem removeRoute_eq {index : Nat} (inside : index < routing.getNRoutes) :
    ∃ routing', routing.removeRoute index = some routing' ∧
      routing'.routes = routing.routes.eraseIdx index ∧ routing.SameOptions routing' := by
  unfold removeRoute routes
  unfold getNRoutes at inside
  split
  case isTrue host =>
    refine ⟨_, rfl, ?_, rfl, rfl, rfl⟩
    rw [List.append_assoc, List.append_assoc, List.eraseIdx_append_of_lt_length host]
  case isFalse later =>
    dsimp only
    split
    case isTrue network =>
      refine ⟨_, rfl, ?_, rfl, rfl, rfl⟩
      rw [List.append_assoc, List.append_assoc,
        List.eraseIdx_append_of_length_le (Nat.not_lt.mp later),
        List.eraseIdx_append_of_lt_length network]
    case isFalse last =>
      rw [if_pos (by omega)]
      refine ⟨_, rfl, ?_, rfl, rfl, rfl⟩
      rw [List.eraseIdx_append_of_length_le (by rw [List.length_append]; omega),
        List.length_append, Nat.sub_sub]

theorem Adds.sameOptions {a b : Ipv4GlobalRouting} {hosts networks : List Ipv4RoutingTableEntry}
    (adds : a.Adds b hosts networks) : a.SameOptions b :=
  ⟨adds.perflow, adds.random, adds.weights⟩

variable (routing) in
/-- The protocol without its routes. -/
def cleared : Ipv4GlobalRouting :=
  .new routing.perflowEcmpRouting routing.randomEcmpRouting routing.weights

theorem SameOptions.cleared {a b : Ipv4GlobalRouting} (same : a.SameOptions b) :
    b.cleared = a.cleared := by
  unfold Ipv4GlobalRouting.cleared
  rw [same.perflow, same.random, same.weights]

theorem eq_cleared (none_left : routing.routes = []) : routing = routing.cleared := by
  unfold routes at none_left
  obtain ⟨hostRoutes, networkRoutes, asExternalRoutes, hosts, perflow, random, weights⟩ := routing
  simp only [List.append_eq_nil_iff] at none_left
  obtain ⟨⟨rfl, rfl⟩, rfl⟩ := none_left
  rfl

variable (routing) in
/-- The loop of DeleteGlobalRoutes that removes route 0 as often as there are routes. -/
def removeRoutes : Option Ipv4GlobalRouting :=
  (List.range routing.getNRoutes).foldlM (fun (gr : Ipv4GlobalRouting) _ => gr.removeRoute 0) routing

theorem removeRoutes_eq : routing.removeRoutes = some routing.cleared := by
  suffices removed : ∀ (indices : List Nat) (routing : Ipv4GlobalRouting),
      routing.getNRoutes = indices.length →
      indices.foldlM (fun (gr : Ipv4GlobalRouting) _ => gr.removeRoute 0) routing =
        some routing.cleared from
    removed (List.range routing.getNRoutes) routing (List.length_range).symm
  intro indices
  induction indices with
  | nil =>
    intro routing count
    have none_left : routing.routes = [] := List.length_eq_zero_iff.mp (length_routes.trans count)
    exact congrArg some (eq_cleared none_left)
  | cons i indices ih =>
    intro routing count
    rw [List.length_cons] at count
    obtain ⟨routing', removed, left, same⟩ := removeRoute_eq (show 0 < routing.getNRoutes by omega)
    rw [List.foldlM_cons, removed]
    show indices.foldlM (fun (gr : Ipv4GlobalRouting) _ => gr.removeRoute 0) routing' = _
    rw [ih routing' ?_, same.cleared]
    rw [← length_routes, left, List.length_eraseIdx_of_lt (by rw [length_routes]; omega),
      length_routes, count, Nat.add_sub_cancel]

end Ipv4GlobalRouting

section

variable {lsdb : GlobalRouteManagerLSDB} {root : UInt32} {outgoing : UInt32 → Int}

open Ipv4GlobalRouting (SameOptions)

theorem spfNextLink_routing {v : SPFVertex} {spf spf' : SPFTree} {l : GlobalRoutingLinkRecord}
    (next : spfNextLink lsdb root outgoing v spf l = some spf') : spf'.routing = spf.routing := by
  unfold spfNextLink at next
  split at next
  · cases next
    rfl
  · obtain ⟨wLsa, _, next⟩ := Option.bind_eq_some_iff.mp next
    dsimp only at next
    split at next
    · cases next
      rfl
    · obtain ⟨w, _, rfl⟩ := Option.map_eq_some_iff.mp next
      rfl
    · obtain ⟨cw, _, next⟩ := Option.bind_eq_some_iff.mp next
      split at next
      · cases next
        rfl
      · split at next
        all_goals
          obtain ⟨w, _, rfl⟩ := Option.map_eq_some_iff.mp next
          rfl

theorem spfLoop_cleared (fuel : Nat) : ∀ {v : SPFVertex} {spf spf' : SPFTree},
    spfLoop lsdb root outgoing fuel v spf = some spf' →
      spf'.routing.cleared = spf.routing.cleared := by
  induction fuel with
  | zero =>
    intro v spf spf' looped
    cases looped
  | succ fuel ih =>
    intro v spf spf' looped
    unfold spfLoop at looped
    obtain ⟨next, step, rest⟩ := Option.bind_eq_some_iff.mp looped
    have kept : next.routing = spf.routing :=
      foldlM_keeps SPFTree.routing (fun spf l spf' => spfNextLink_routing) step
    split at rest
    · cases rest
      rw [kept]
    · rw [ih rest, ← kept]
      exact (spfIntraAddRouter_adds next.routing _).sameOptions.cleared

theorem spfProcessStubs_cleared {spf : SPFTree} (fuel : Nat) : ∀ {id : UInt32} {walk walk' : StubWalk},
    spfProcessStubs root spf fuel id walk = some walk' →
      walk'.routing.cleared = walk.routing.cleared := by
  induction fuel with
  | zero =>
    intro id walk walk' processed
    cases processed
  | succ fuel ih =>
    intro id walk walk' processed
    unfold spfProcessStubs at processed
    obtain ⟨v, _, processed⟩ := Option.bind_eq_some_iff.mp processed
    refine (foldlM_keeps (fun walk : StubWalk => walk.routing.cleared)
      (fun walk child walk' visited => ?_) processed).trans
        (processVertex_adds root v walk.routing).sameOptions.cleared
    split at visited
    · rw [← Option.some.inj visited]
    · obtain ⟨next, walked, same⟩ := Option.map_eq_some_iff.mp visited
      rw [← same]
      show next.routing.cleared = walk.routing.cleared
      exact ih walked

/-- Calculating routes leaves the options of the protocol as they are. -/
theorem spfCalculate_cleared {routing routing' : Ipv4GlobalRouting}
    (calculated : spfCalculate lsdb root outgoing routing = some routing') :
    routing'.cleared = routing.cleared := by
  unfold spfCalculate at calculated
  obtain ⟨⟨stub, checked⟩, check, rest⟩ := Option.bind_eq_some_iff.mp calculated
  have kept : checked.cleared = routing.cleared := by
    unfold checkForStubNode at check
    obtain ⟨rlsa, _, check⟩ := Option.bind_eq_some_iff.mp check
    split at check
    · cases check
      rfl
    · obtain ⟨wLsa, _, found⟩ := Option.map_eq_some_iff.mp check
      dsimp only at found
      split at found <;> cases found <;> rfl
    · cases check
      rfl
  dsimp only at rest
  split at rest
  · cases rest
    exact kept
  · obtain ⟨spf, built, rest⟩ := Option.bind_eq_some_iff.mp rest
    obtain ⟨walk, processed, rfl⟩ := Option.map_eq_some_iff.mp rest
    obtain ⟨rlsa, _, looped⟩ := Option.bind_eq_some_iff.mp built
    rw [spfProcessStubs_cleared _ processed]
    exact (spfLoop_cleared _ looped).trans kept

end

namespace Internet

variable {ι : Type} (net : Internet ι)

/-- DeleteGlobalRoutes, without the database, which is built anew. -/
def deleteGlobalRoutes : Option (Internet ι) :=
  (net.nodes.mapM fun router : Router ι =>
    router.routing.removeRoutes.map fun routing => { router with routing := routing }).map
      fun nodes => { net with nodes := nodes }

/-- Ipv4GlobalRoutingHelper::RecomputeRoutingTables -/
def recomputeRoutingTables [DecidableEq ι] : Option (Internet ι) :=
  net.deleteGlobalRoutes.bind populateRoutingTables

/-- The network without its global routes. -/
def cleared : Internet ι :=
  { net with nodes := net.nodes.map fun r => { r with routing := r.routing.cleared } }

variable {net} {net' : Internet ι}

theorem deleteGlobalRoutes_eq : net.deleteGlobalRoutes = some net.cleared := by
  unfold deleteGlobalRoutes
  rw [mapM_eq_map (g := fun r : Router ι => { r with routing := r.routing.cleared })]
  · rfl
  · intro r _
    rw [Ipv4GlobalRouting.removeRoutes_eq]
    rfl

theorem cleared_cleared : net.cleared.cleared = net.cleared := by
  unfold cleared
  dsimp only
  rw [List.map_map]
  rfl

theorem initializeRoutes_cleared {lsdb : GlobalRouteManagerLSDB}
    (initialized : net.initializeRoutes lsdb = some net') : net'.cleared = net.cleared := by
  obtain ⟨nodes, calculated, rfl⟩ := Option.map_eq_some_iff.mp initialized
  unfold cleared
  dsimp only
  rw [mapM_keeps (fun r : Router ι => { r with routing := r.routing.cleared }) _ ?_ calculated]
  intro r r' found
  obtain ⟨routing, each, rfl⟩ := Option.map_eq_some_iff.mp found
  dsimp only
  rw [spfCalculate_cleared each]

theorem populateRoutingTables_cleared [DecidableEq ι] (populated : net.populateRoutingTables = some net') :
    net'.cleared = net.cleared := by
  obtain ⟨lsdb, _, initialized⟩ := Option.bind_eq_some_iff.mp populated
  exact initializeRoutes_cleared initialized

/-- RecomputeRoutingTables ends as PopulateRoutingTables does on the network without its
routes, and a second time it changes nothing. -/
theorem recomputeRoutingTables_eq [DecidableEq ι] (net : Internet ι) :
    net.recomputeRoutingTables = net.cleared.populateRoutingTables ∧
      ∀ net', net.recomputeRoutingTables = some net' → net'.recomputeRoutingTables = some net' := by
  have recomputed (net : Internet ι) :
      net.recomputeRoutingTables = net.cleared.populateRoutingTables := by
    unfold recomputeRoutingTables
    rw [deleteGlobalRoutes_eq, Option.bind_some]
  refine ⟨recomputed net, fun net' once => ?_⟩
  have populated := (recomputed net).symm.trans once
  rw [recomputed net', populateRoutingTables_cleared populated, cleared_cleared]
  exact populated

end Internet

end QbbNet
