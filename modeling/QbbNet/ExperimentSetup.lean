import QbbNet.Doubles
import QbbNet.SizeCdfFile

set_option autoImplicit false

/- GetStatus from the topology file to the start of the simulation: the links it
installs, the pairs of nodes it draws, and the ways it ends before. -/
namespace QbbNet

/- The links -/

/-- The units of a data rate, in bits per second. -/
def rateUnits : List (Line × Nat) :=
  [ (['b', 'p', 's'], 1), (['b', '/', 's'], 1), (['B', 'p', 's'], 8), (['B', '/', 's'], 8),
    (['k', 'b', 'p', 's'], 1000), (['k', 'b', '/', 's'], 1000), (['K', 'b', 'p', 's'], 1000),
    (['K', 'b', '/', 's'], 1000), (['k', 'B', 'p', 's'], 8000), (['k', 'B', '/', 's'], 8000),
    (['K', 'B', 'p', 's'], 8000), (['K', 'B', '/', 's'], 8000), (['K', 'i', 'b', '/', 's'], 1024),
    (['K', 'i', 'B', '/', 's'], 8192), (['M', 'b', 'p', 's'], 1000000),
    (['M', 'b', '/', 's'], 1000000),
    (['M', 'B', 'p', 's'], 8000000), (['M', 'B', '/', 's'], 8000000),
    (['M', 'i', 'b', '/', 's'], 1048576),
    (['M', 'i', 'B', '/', 's'], 8388608), (['G', 'b', 'p', 's'], 1000000000),
    (['G', 'b', '/', 's'], 1000000000), (['G', 'B', 'p', 's'], 8000000000),
    (['G', 'B', '/', 's'], 8000000000), (['G', 'i', 'b', '/', 's'], 1073741824),
    (['G', 'i', 'B', '/', 's'], 8589934592) ]

def isRateDigit (c : Char) : Bool := c.isDigit || c == '.' || c == ' '

/-- DataRate::DoParse. A rate without a unit is a number of bits per second. -/
def parseRate (s : Line) : Option UInt64 :=
  let trailer := s.dropWhile isRateDigit
  if trailer = [] then
    let digits := (s.dropWhile isSpace).takeWhile Char.isDigit
    some (UInt64.ofNat (min (digitsValue digits) 18446744073709551615))
  else
    (rateUnits.lookup trailer).map fun factor =>
      let r := (readDouble 0 (s.takeWhile isRateDigit)).value
      UInt64.ofNat ⌊(nearestDouble (r * factor)).getD 0⌋.toNat

/-- The text of `50.0 / weight`, with the unit. -/
def bandwidthText (weight : Int32) : Line :=
  let size := if weight = 0 then none else nearestDouble (50 / weight.toInt.natAbs)
  formatDouble (weight < 0) size ++ ['M', 'b', 'p', 's']

/-- The data rate of the devices of a link. Without one the attribute has no valid
value, which ends the program. -/
def dataRateBps (weight : Int32) : Option UInt64 := parseRate (bandwidthText weight)

/-- The links of the lines with their data rates, unless the program ends at one. -/
def installLinks (numNodes : Int32) : List Line → Option (List (LinkStats × UInt64))
  | [] => some []
  | line :: lines =>
      match installLinkAndTrace numNodes line with
      | none => installLinks numNodes lines
      | some link =>
          match dataRateBps link.weight with
          | none => none
          | some rate => (installLinks numNodes lines).map ((link, rate) :: ·)

example : dataRateBps 10 = some 5000000 := by decide +kernel

example : dataRateBps 0 = none := by decide +kernel

/- The pairs -/

/-- A set in ascending order with one more element. -/
def insertNode (node : UInt32) : List UInt32 → List UInt32
  | [] => [node]
  | first :: rest =>
      if node < first then node :: first :: rest
      else if first < node then first :: insertNode node rest
      else first :: rest

def connectedNodes (links : List LinkStats) : List UInt32 :=
  links.foldl (fun nodes link => insertNode link.nodeB (insertNode link.nodeA nodes)) []

/-- The nodes that flows are drawn from. -/
def edgeNodesOf (header : TopologyHeader) (links : List LinkStats) : List UInt32 :=
  if header.edgeNodes = [] then connectedNodes links else header.edgeNodes

/-- `rng->GetInteger(0, max)`, of whatever the generator draws. -/
def getInteger (max : UInt32) (draw : Nat) : Nat := draw % (max.toNat + 1)

def pickFrom (vec : List UInt32) (draw : Nat) : UInt32 :=
  vec[getInteger (UInt32.ofNat (vec.length - 1)) draw]?.getD 0

/-- `do { dst = pickFrom(edgeNodes); } while (dst == src);` with the draws that are left
when it ends. -/
def selectDst (edgeNodes : List UInt32) (src : UInt32) : List Nat → Option (UInt32 × List Nat)
  | [] => none
  | draw :: draws =>
      let dst := pickFrom edgeNodes draw
      if dst = src then selectDst edgeNodes src draws else some (dst, draws)

/-- The loop over the flows. It has no result if the draws do not suffice. -/
def choosePairs (edgeNodes : List UInt32) : Nat → List Nat → Option (List (UInt32 × UInt32))
  | 0, _ => some []
  | _ + 1, [] => none
  | flows + 1, draw :: draws =>
      let src := pickFrom edgeNodes draw
      match selectDst edgeNodes src draws with
      | none => none
      | some (dst, draws) => (choosePairs edgeNodes flows draws).map ((src, dst) :: ·)

/- The ends of GetStatus -/

/-- What comes of a call of GetStatus. -/
inductive Outcome (α : Type) where
  /-- A result vector, or the error that fills it. -/
  | returned (result : Except Int (List LinkStats × List α))
  /-- A link without a valid data rate. -/
  | fatal
  /-- The draws end in the loop over the flows. -/
  | drawing
  /-- `nodes.Get` of a node that does not exist. -/
  | outOfRange
  deriving DecidableEq

inductive FlowsEnd where
  | installed
  | unaddressed
  | outOfRange
  deriving DecidableEq

/-- The loop that installs the flows: each needs both its nodes, and an address of the
second, which a node has if it has a link. -/
def installFlows (numNodes : Int32) (connected : List UInt32) : List (UInt32 × UInt32) → FlowsEnd
  | [] => .installed
  | (src, dst) :: pairs =>
      if numNodes.toInt ≤ src.toNat ∨ numNodes.toInt ≤ dst.toNat then .outOfRange
      else if dst ∉ connected then .unaddressed
      else installFlows numNodes connected pairs

structure ExperimentFiles where
  sizeCdf : Option (List Line)
  topology : Option (List Line)

def sizeCdfPath : String := "scratch/FbHdp_distribution.txt"

/-- GetStatus, given the figures of the simulation. -/
def runExperiment {α : Type} (outside : ℚ → UInt32) (figures : Experiment α)
    (files : ExperimentFiles) (flows : UInt32) (draws : List Nat) : Outcome α :=
  match loadSizeCdf outside sizeCdfPath files.sizeCdf with
  | .error _ => .returned (.error (-6))
  | .ok _ =>
      match files.topology with
      | none => .returned (.error (-1))
      | some lines =>
          let header := TopologyHeader.new.read lines
          if header.1.numNodes ≤ 0 ∨ header.1.numLinks ≤ 0 then .returned (.error (-2))
          else
            match installLinks header.1.numNodes header.2 with
            | none => .fatal
            | some installed =>
                let allLinks := installed.map Prod.fst
                let edgeNodes := edgeNodesOf header.1 allLinks
                if edgeNodes = [] then .returned (.error (-4))
                else
                  match choosePairs edgeNodes flows.toNat draws with
                  | none => .drawing
                  | some pairs =>
                      match installFlows header.1.numNodes (connectedNodes allLinks) pairs with
                      | .outOfRange => .outOfRange
                      | .unaddressed => .returned (.error (-5))
                      | .installed =>
                          .returned (.ok (allLinks,
                            (List.range allLinks.length).map figures.avgQueueLength ++
                              (List.range allLinks.length).map figures.linkUtilization ++
                              [figures.totalThroughputMbps, figures.networkAvgDelayMs,
                                figures.e2eLossRatePct]))

end QbbNet
