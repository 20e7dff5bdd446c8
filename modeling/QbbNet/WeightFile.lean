import Mathlib.Data.List.DropRight
import QbbNet.EcmpWeights
import QbbNet.TopologyFile

set_option autoImplicit false

/- The file ecmpProbability.txt, and the weights that LoadAllNodeWeightsFile takes from it. -/
namespace QbbNet

/-- The part before a #, without white space at its ends. -/
def stripCommentAndTrim (line : Line) : Line :=
  ((line.takeWhile (· ≠ '#')).dropWhile isSpace).rdropWhile isSpace

/-- The words that `iss >> tok` reads one after the other. -/
def words (s : Line) : List Line := (s.splitOnP isSpace).filter (· ≠ [])

/-- strtoul and strtoull, which are the same for a long of 64 bits: the number at the
start of a text. There is none without digits, and an error from 2^64 on. -/
def strtoull (s : Line) : Option UInt64 :=
  let text := s.dropWhile isSpace
  let body := if text.head? = some '+' ∨ text.head? = some '-' then text.tail else text
  let digits := body.takeWhile Char.isDigit
  if digits = [] ∨ 18446744073709551615 < digitsValue digits then none
  else
    let n := UInt64.ofNat (digitsValue digits)
    some (if text.head? = some '-' then -n else n)

/-- A word as a weight, cut off at 2^32 - 1. -/
def readWeight (tok : Line) : Option UInt32 :=
  (strtoull tok).map fun val => if 4294967295 < val then 4294967295 else val.toUInt32

/-- A word as the number of a node, of which a colon at the end is not a part. -/
def readNodeId (key : Line) : Option UInt32 :=
  (strtoull (if key.getLast? = some ':' then key.dropLast else key)).map UInt64.toUInt32

/-- The node and the weights of a line. Words that are no weights are left out. -/
def readWeights (line : Line) : Option (UInt32 × List UInt32) :=
  match words (stripCommentAndTrim line) with
  | [] => none
  | key :: toks =>
      match readNodeId key with
      | none => none
      | some nodeId =>
          let w := toks.filterMap readWeight
          if w = [] then none else some (nodeId, w)

/-- The globals of the weights. The last entry of a node counts. -/
structure WeightTable where
  weightsLoaded : Bool
  nodeRawWeights : List (UInt32 × List UInt32)

def WeightTable.new : WeightTable := ⟨false, []⟩

/-- The weights of a node, if the table has any. -/
def WeightTable.find (g : WeightTable) (nodeId : UInt32) : Option (List UInt32) :=
  g.nodeRawWeights.reverse.lookup nodeId

/-- LoadAllNodeWeightsFile, given the lines of the file if it can be opened. -/
def WeightTable.loadAllNodeWeightsFile (g : WeightTable) (file : Option (List Line)) :
    Bool × WeightTable :=
  if g.weightsLoaded then (!g.nodeRawWeights.isEmpty, g)
  else
    match file with
    | none => (false, { g with weightsLoaded := true })
    | some lines =>
        let entries := lines.filterMap readWeights
        let okCnt := UInt32.ofNat entries.length
        (okCnt ≠ 0, { weightsLoaded := true, nodeRawWeights := g.nodeRawWeights ++ entries })

/-- The weights that GetNodeWeights finds in the file. -/
def weightsOf (file : Option (List Line)) : EcmpWeights :=
  .load (WeightTable.new.loadAllNodeWeightsFile file).2.find

end QbbNet
