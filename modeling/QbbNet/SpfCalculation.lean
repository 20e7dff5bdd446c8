import QbbNet.GlobalRouting
import Mathlib.Logic.Function.Basic

set_option autoImplicit false

/- GlobalRouteManagerImpl: from the advertisements of all routers to the routes of one,
over point-to-point links only. Vertices are told by their ids where the source has
pointers. -/
namespace QbbNet

inductive LinkType
  | pointToPoint
  | stubNetwork
  deriving DecidableEq

structure GlobalRoutingLinkRecord where
  linkId : UInt32
  linkData : UInt32
  linkType : LinkType
  metric : UInt16
  deriving DecidableEq

/-- A Router-LSA. Its status is kept by the calculation. -/
structure GlobalRoutingLSA where
  linkStateId : UInt32
  linkRecords : List GlobalRoutingLinkRecord
  deriving DecidableEq

inductive SPFStatus
  | notExplored
  | candidate
  | inSpfTree
  deriving DecidableEq

/-- The first advertisement that was inserted for each router. -/
structure GlobalRouteManagerLSDB where
  database : List GlobalRoutingLSA
  nodup : (database.map (·.linkStateId)).Nodup

namespace GlobalRouteManagerLSDB

def empty : GlobalRouteManagerLSDB := ⟨[], List.nodup_nil⟩

/-- A key that the map has keeps its value. -/
def insert (lsdb : GlobalRouteManagerLSDB) (lsa : GlobalRoutingLSA) : GlobalRouteManagerLSDB :=
  if known : lsa.linkStateId ∈ lsdb.database.map (·.linkStateId) then lsdb
  else
    { database := lsdb.database ++ [lsa]
      nodup := by
        rw [List.map_append, List.map_singleton, List.nodup_append]
        refine ⟨lsdb.nodup, List.nodup_singleton _, fun id mem other new => ?_⟩
        rw [List.mem_singleton.mp new]
        rintro rfl
        exact known mem }

def getLSA (lsdb : GlobalRouteManagerLSDB) (addr : UInt32) : Option GlobalRoutingLSA :=
  lsdb.database.find? (·.linkStateId == addr)

end GlobalRouteManagerLSDB

/-- A way out of the root: the next hop, and an interface or -1. -/
structure NodeExit where
  nextHop : UInt32
  outIf : Int
  deriving DecidableEq

/-- The order of pairs. -/
def NodeExit.lt (a b : NodeExit) : Bool :=
  a.nextHop < b.nextHop || (a.nextHop == b.nextHop && decide (a.outIf < b.outIf))

/-- std::list::unique -/
def unique {α : Type} [DecidableEq α] : List α → List α
  | a :: b :: rest => if a = b then unique (b :: rest) else a :: unique (b :: rest)
  | few => few

/-- A router's vertex. Its children are kept by the calculation. -/
structure SPFVertex where
  lsa : GlobalRoutingLSA
  distanceFromRoot : UInt32
  ecmpRootExits : List NodeExit
  parents : List UInt32
  deriving DecidableEq

namespace SPFVertex

/-- The vertex before anything is known of it, at SPF_INFINITY. -/
def new (lsa : GlobalRoutingLSA) : SPFVertex := ⟨lsa, 0xffffffff, [], []⟩

def vertexId (v : SPFVertex) : UInt32 := v.lsa.linkStateId

def setRootExitDirection (v : SPFVertex) (exit : NodeExit) : SPFVertex :=
  { v with ecmpRootExits := [exit] }

def inheritAllRootExitDirections (v vertex : SPFVertex) : SPFVertex :=
  { v with ecmpRootExits := vertex.ecmpRootExits }

def mergeRootExitDirections (v vertex : SPFVertex) : SPFVertex :=
  { v with ecmpRootExits :=
      unique ((v.ecmpRootExits ++ vertex.ecmpRootExits).mergeSort fun a b => !b.lt a) }

/-- The source sorts the parents by where they are in memory, which nothing depends on. -/
def mergeParent (v vertex : SPFVertex) : SPFVertex :=
  { v with parents := (v.parents ++ vertex.parents).dedup }

end SPFVertex

/-- CompareSPFVertex, of two routers. -/
def compareSPFVertex (v1 v2 : SPFVertex) : Bool := v1.distanceFromRoot < v2.distanceFromRoot

/-- m_candidates, the closest vertex first -/
abbrev CandidateQueue := List SPFVertex

namespace CandidateQueue

/-- In front of the first vertex that is farther. -/
def push (vNew : SPFVertex) : CandidateQueue → CandidateQueue
  | [] => [vNew]
  | v :: candidates =>
      if compareSPFVertex vNew v then vNew :: v :: candidates else v :: push vNew candidates

def find (candidates : CandidateQueue) (addr : UInt32) : Option SPFVertex :=
  List.find? (·.vertexId == addr) candidates

/-- What is written through a pointer that Find returned. -/
def write (candidates : CandidateQueue) (cw : SPFVertex) : CandidateQueue :=
  List.map (fun v => if v.vertexId = cw.vertexId then cw else v) candidates

def reorder (candidates : CandidateQueue) : CandidateQueue :=
  List.mergeSort candidates fun v1 v2 => !compareSPFVertex v2 v1

end CandidateQueue

namespace Ipv4GlobalRouting

/-- The protocol before it has routes. -/
def new (perflowEcmpRouting randomEcmpRouting : Bool) (weights : EcmpWeights) :
    Ipv4GlobalRouting where
  hostRoutes := []
  networkRoutes := []
  asExternalRoutes := []
  hosts := List.forall_mem_nil _
  perflowEcmpRouting := perflowEcmpRouting
  randomEcmpRouting := randomEcmpRouting
  weights := weights

def addHostRouteTo (routing : Ipv4GlobalRouting) (dest nextHop : UInt32) (interface : Nat) :
    Ipv4GlobalRouting :=
  { routing with
    hostRoutes := routing.hostRoutes ++ [⟨dest, 0xffffffff, nextHop, interface⟩]
    hosts := by
      intro route mem
      rcases List.mem_append.mp mem with old | new
      · exact routing.hosts route old
      · rw [List.mem_singleton.mp new]
        rfl }

def addNetworkRouteTo (routing : Ipv4GlobalRouting) (network networkMask nextHop : UInt32)
    (interface : Nat) : Ipv4GlobalRouting :=
  { routing with
    networkRoutes := routing.networkRoutes ++ [⟨network, networkMask, nextHop, interface⟩] }

end Ipv4GlobalRouting

/-- The tree of the shortest paths from a root and the routes of the root, while the
closest candidates join the tree one by one. -/
structure SPFTree where
  status : UInt32 → SPFStatus
  candidate : CandidateQueue
  tree : List SPFVertex
  children : UInt32 → List UInt32
  routing : Ipv4GlobalRouting

/- `lsdb` is the database, `root` the vertex m_spfroot, and `outgoing` what
FindOutgoingInterfaceId returns for the root. A null pointer ends a run in `none`. -/
section

variable (lsdb : GlobalRouteManagerLSDB) (root : UInt32) (outgoing : UInt32 → Int)

/-- SPFGetNextLink, without a previous link. Records of any type are looked at. -/
def spfGetNextLink (v w : SPFVertex) : Option GlobalRoutingLinkRecord :=
  v.lsa.linkRecords.find? (·.linkId == w.vertexId)

def spfNexthopCalculation (v w : SPFVertex) (l : GlobalRoutingLinkRecord) (distance : UInt32) :
    Option SPFVertex :=
  let settled (w : SPFVertex) : SPFVertex :=
    { w with distanceFromRoot := distance, parents := [v.vertexId] }
  if v.vertexId = root then
    (spfGetNextLink w v).map fun linkRemote =>
      settled (w.setRootExitDirection ⟨linkRemote.linkData, outgoing l.linkData⟩)
  else some (settled (w.inheritAllRootExitDirections v))

/-- What SPFNext does with one link of `v`. -/
def spfNextLink (v : SPFVertex) (spf : SPFTree) (l : GlobalRoutingLinkRecord) : Option SPFTree :=
  match l.linkType with
  | .stubNetwork => some spf
  | .pointToPoint =>
    (lsdb.getLSA l.linkId).bind fun wLsa =>
      let distance := v.distanceFromRoot + l.metric.toUInt32
      match spf.status wLsa.linkStateId with
      | .inSpfTree => some spf
      | .notExplored =>
        (spfNexthopCalculation root outgoing v (.new wLsa) l distance).map fun w =>
          { spf with
            status := Function.update spf.status wLsa.linkStateId .candidate
            candidate := spf.candidate.push w }
      | .candidate =>
        (spf.candidate.find wLsa.linkStateId).bind fun cw =>
          if cw.distanceFromRoot < distance then some spf
          else if cw.distanceFromRoot = distance then
            (spfNexthopCalculation root outgoing v (.new wLsa) l distance).map fun w =>
              { spf with
                candidate := spf.candidate.write ((cw.mergeRootExitDirections w).mergeParent w) }
          else
            (spfNexthopCalculation root outgoing v cw l distance).map fun w =>
              { spf with candidate := (spf.candidate.write w).reorder }

def spfNext (v : SPFVertex) (spf : SPFTree) : Option SPFTree :=
  v.lsa.linkRecords.foldlM (spfNextLink lsdb root outgoing v) spf

/-- SPFVertexAddParent: each parent gets `v` as its last child. -/
def spfVertexAddParent (v : SPFVertex) (children : UInt32 → List UInt32) : UInt32 → List UInt32 :=
  v.parents.foldl (fun children parent =>
    Function.update children parent (children parent ++ [v.vertexId])) children

/-- The exits that lead to an interface. -/
def SPFVertex.validExits (v : SPFVertex) : List NodeExit :=
  v.ecmpRootExits.filter fun exit => decide (0 ≤ exit.outIf)

def spfIntraAddRouter (v : SPFVertex) (routing : Ipv4GlobalRouting) : Ipv4GlobalRouting :=
  (v.lsa.linkRecords.filter (·.linkType = .pointToPoint)).foldl (fun routing lr =>
    v.validExits.foldl (fun routing exit =>
      routing.addHostRouteTo lr.linkData exit.nextHop exit.outIf.toNat) routing) routing

/-- The closest candidate joins the tree and the root gets routes to it. -/
def SPFTree.grow (spf : SPFTree) (v : SPFVertex) (rest : CandidateQueue) : SPFTree where
  status := Function.update spf.status v.vertexId .inSpfTree
  candidate := rest
  tree := spf.tree ++ [v]
  children := spfVertexAddParent v spf.children
  routing := spfIntraAddRouter v spf.routing

/-- The loop of SPFCalculate, with `v` the vertex that joined the tree last. -/
def spfLoop : Nat → SPFVertex → SPFTree → Option SPFTree
  | 0, _, _ => none
  | fuel + 1, v, spf =>
    (spfNext lsdb root outgoing v spf).bind fun spf =>
      match spf.candidate with
      | [] => some spf
      | v :: rest => spfLoop fuel v (spf.grow v rest)

def spfIntraAddStub (l : GlobalRoutingLinkRecord) (v : SPFVertex) (routing : Ipv4GlobalRouting) :
    Ipv4GlobalRouting :=
  if v.vertexId = root then routing
  else
    v.validExits.foldl (fun routing exit =>
      routing.addNetworkRouteTo (l.linkId &&& l.linkData) l.linkData exit.nextHop
        exit.outIf.toNat) routing

/-- The vertices whose flag m_vertexProcessed is set, and the routes of the root. -/
structure StubWalk where
  processed : List UInt32
  routing : Ipv4GlobalRouting

/-- SPFProcessStubs, which is given more fuel than the tree is deep. -/
def spfProcessStubs (spf : SPFTree) : Nat → UInt32 → StubWalk → Option StubWalk
  | 0, _, _ => none
  | fuel + 1, id, walk =>
    (spf.tree.find? (·.vertexId == id)).bind fun v =>
      let stubs := v.lsa.linkRecords.filter (·.linkType = .stubNetwork)
      let walk := { walk with
        routing := stubs.foldl (fun routing l => spfIntraAddStub root l v routing) walk.routing }
      (spf.children id).foldlM (fun walk child =>
        if child ∈ walk.processed then some walk
        else (spfProcessStubs spf fuel child walk).map fun walk =>
          { walk with processed := child :: walk.processed }) walk

/-- An interface as the unsigned argument of AddNetworkRouteTo. -/
def unsignedInterface (outIf : Int) : Nat := (outIf % 2 ^ 32).toNat

/-- Whether the root is a stub, and the routes that it has then. -/
def checkForStubNode (routing : Ipv4GlobalRouting) : Option (Bool × Ipv4GlobalRouting) :=
  (lsdb.getLSA root).bind fun rlsa =>
    match rlsa.linkRecords.filter (·.linkType = .pointToPoint) with
    | [] => some (true, routing)
    | [transitLink] =>
      (lsdb.getLSA transitLink.linkId).map fun wLsa =>
        let back := wLsa.linkRecords.find? fun lr =>
          lr.linkType = .pointToPoint && lr.linkId == rlsa.linkStateId
        match back with
        | some lr =>
            (true, routing.addNetworkRouteTo 0 0 lr.linkData
              (unsignedInterface (outgoing transitLink.linkData)))
        | none => (false, routing)
    | _ => some (false, routing)

/-- The tree that holds the root alone. -/
def SPFTree.start (rlsa : GlobalRoutingLSA) (routing : Ipv4GlobalRouting) : SPFTree where
  status := Function.update (fun _ => .notExplored) rlsa.linkStateId .inSpfTree
  candidate := []
  tree := [{ SPFVertex.new rlsa with distanceFromRoot := 0 }]
  children _ := []
  routing := routing

/-- The tree of the root and its host routes. -/
def spfTree (routing : Ipv4GlobalRouting) : Option SPFTree :=
  (lsdb.getLSA root).bind fun rlsa =>
    spfLoop lsdb root outgoing lsdb.database.length
      { SPFVertex.new rlsa with distanceFromRoot := 0 } (.start rlsa routing)

/-- SPFCalculate: the routes of the root. There are no external advertisements. -/
def spfCalculate (routing : Ipv4GlobalRouting) : Option Ipv4GlobalRouting :=
  (checkForStubNode lsdb root outgoing routing).bind fun (stub, routing) =>
    if stub then some routing
    else
      (spfTree lsdb root outgoing routing).bind fun spf =>
        (spfProcessStubs root spf (spf.tree.length + 1) root ⟨[], spf.routing⟩).map (·.routing)

end

end QbbNet
