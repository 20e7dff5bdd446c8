import Mathlib.Data.List.Basic
import Mathlib.Tactic.Common

set_option autoImplicit false

/- The topology file of an experiment, and the two loops that read it. -/
namespace QbbNet

/-- A line that getline reads, without its end. -/
abbrev Line := List Char

def isSpace (c : Char) : Bool := c.toNat = 32 || (9 ≤ c.toNat && c.toNat ≤ 13)

def digitsValue (digits : List Char) : Nat :=
  digits.foldl (fun value c => value * 10 + (c.toNat - 48)) 0

/-- What `iss >> n` leaves: the number, whether the stream is still good, and the
characters that were not read. -/
structure Extracted where
  value : Int32
  ok : Bool
  rest : Line
  deriving DecidableEq

/-- `iss >> n` for an int that holds `old`. At the end of the line the int is left
as it is, without digits it is 0, and out of range it is the nearest bound. -/
def readInt (old : Int32) (chars : Line) : Extracted :=
  match chars.dropWhile isSpace with
  | [] => ⟨old, false, []⟩
  | c :: rest =>
      let body := if c = '+' ∨ c = '-' then rest else c :: rest
      let digits := body.takeWhile Char.isDigit
      let after := body.dropWhile Char.isDigit
      if digits = [] then ⟨0, false, after⟩
      else
        let n : Int := if c = '-' then -(digitsValue digits : Int) else digitsValue digits
        if n < -2147483648 then ⟨Int32.minValue, false, after⟩
        else if 2147483647 < n then ⟨Int32.maxValue, false, after⟩
        else ⟨Int32.ofInt n, true, after⟩

/-- `iss >> node` for an unsigned int. A sign turns the number round. -/
def readUInt (chars : Line) : Option (UInt32 × Line) :=
  match chars.dropWhile isSpace with
  | [] => none
  | c :: rest =>
      let body := if c = '+' ∨ c = '-' then rest else c :: rest
      let digits := body.takeWhile Char.isDigit
      if digits = [] ∨ 4294967295 < digitsValue digits then none
      else
        let n := UInt32.ofNat (digitsValue digits)
        some (if c = '-' then -n else n, body.dropWhile Char.isDigit)

/-- `while (iss >> node) edgeNodes.push_back(node);`, each time of fewer characters. -/
def readNodes : Nat → Line → List UInt32
  | 0, _ => []
  | fuel + 1, chars =>
      match readUInt chars with
      | none => []
      | some (node, rest) => node :: readNodes fuel rest

def topoType : Line := ['T', 'O', 'P', 'O', '_', 'T', 'Y', 'P', 'E', ':']

def edgeNodesPrefix : Line := ['E', 'D', 'G', 'E', '_', 'N', 'O', 'D', 'E', 'S', ':']

/-- `line.empty() || line[0] == '#'` -/
def isComment (line : Line) : Bool := line.isEmpty || line.head? == some '#'

/- The loop in main -/

structure MainParser where
  state : Nat
  numNodes : Int32
  numLinks : Int32
  linkNodePairs : List (UInt32 × UInt32)

def MainParser.new : MainParser := ⟨0, 0, 0, []⟩

def MainParser.read (m : MainParser) (line : Line) : MainParser :=
  if isComment line then m
  else if topoType.isPrefixOf line then m
  else if edgeNodesPrefix.isPrefixOf line then m
  else
    match m.state with
    | 0 =>
        let n := readInt m.numNodes line
        { m with numNodes := n.value, state := if n.ok then 1 else 0 }
    | 1 =>
        let n := readInt m.numLinks line
        { m with numLinks := n.value, state := if n.ok then 2 else 1 }
    | _ =>
        let n1 := readInt 0 line
        let n2 := readInt 0 n1.rest
        if n1.ok ∧ n2.ok then
          { m with linkNodePairs := m.linkNodePairs ++ [(n1.value.toUInt32, n2.value.toUInt32)] }
        else m

def linkNodePairs (lines : List Line) : List (UInt32 × UInt32) :=
  (lines.foldl MainParser.read .new).linkNodePairs

/- The loop in GetStatus -/

structure TopologyHeader where
  state : Nat
  numNodes : Int32
  numLinks : Int32
  edgeNodes : List UInt32

def TopologyHeader.new : TopologyHeader := ⟨0, 0, 0, []⟩

/-- The header, and the lines from the first link's on. -/
def TopologyHeader.read (h : TopologyHeader) : List Line → TopologyHeader × List Line
  | [] => (h, [])
  | line :: lines =>
      if isComment line then h.read lines
      else if topoType.isPrefixOf line then h.read lines
      else if edgeNodesPrefix.isPrefixOf line then
        { h with edgeNodes := h.edgeNodes ++ readNodes line.length (line.drop 11) }.read lines
      else
        match h.state with
        | 0 =>
            let n := readInt h.numNodes line
            { h with numNodes := n.value, state := if n.ok then 1 else 0 }.read lines
        | 1 =>
            let n := readInt h.numLinks line
            let h := { h with numLinks := n.value, state := if n.ok then 2 else 1 }
            if n.ok ∧ n.value = 0 then (h, lines) else h.read lines
        | _ => (h, line :: lines)

structure LinkStats where
  nodeA : UInt32
  nodeB : UInt32
  weight : Int32
  deriving DecidableEq

/-- The link that installLinkAndTrace installs for a line. -/
def installLinkAndTrace (numNodes : Int32) (line : Line) : Option LinkStats :=
  if isComment line then none
  else if edgeNodesPrefix.isPrefixOf line then none
  else if topoType.isPrefixOf line then none
  else
    let node1 := readInt 0 line
    let node2 := readInt 0 node1.rest
    if node1.ok ∧ node2.ok then
      let weight := readInt 0 node2.rest
      if node1.value < 0 ∨ numNodes ≤ node1.value ∨ node2.value < 0 ∨ numNodes ≤ node2.value then none
      else some
        { nodeA := node1.value.toUInt32
          nodeB := node2.value.toUInt32
          weight := if weight.ok then weight.value else 100 }
    else none

/-- What the rest of GetStatus finds out: whether the flow sizes can be loaded and
every destination has an address, and the figures that the simulation gives. -/
structure Experiment (α : Type) where
  sizeCdfLoaded : Bool
  addressed : Bool
  avgQueueLength : Nat → α
  linkUtilization : Nat → α
  totalThroughputMbps : α
  networkAvgDelayMs : α
  e2eLossRatePct : α

/-- GetStatus, given the lines of the file if it can be opened: the links, and the
result vector. An error is the number that the vector is filled with. -/
def getStatus {α : Type} (experiment : Experiment α) (topoFile : Option (List Line)) :
    Except Int (List LinkStats × List α) :=
  if experiment.sizeCdfLoaded = false then .error (-6)
  else
    match topoFile with
    | none => .error (-1)
    | some lines =>
        let header := TopologyHeader.new.read lines
        if header.1.numNodes ≤ 0 ∨ header.1.numLinks ≤ 0 then .error (-2)
        else
          let allLinks := header.2.filterMap (installLinkAndTrace header.1.numNodes)
          if header.1.edgeNodes = [] ∧ allLinks = [] then .error (-4)
          else if experiment.addressed = false then .error (-5)
          else .ok (allLinks,
            (List.range allLinks.length).map experiment.avgQueueLength ++
              (List.range allLinks.length).map experiment.linkUtilization ++
              [experiment.totalThroughputMbps, experiment.networkAvgDelayMs, experiment.e2eLossRatePct])

/-- `uint32_t numLinks = (results.size() - 3) / 2;` -/
def numLinksOf {α : Type} (results : List α) : Nat := (results.length - 3) / 2 % 4294967296

end QbbNet
