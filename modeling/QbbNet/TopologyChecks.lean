import Mathlib.Tactic.Positivity
import QbbNet.ResultReport

set_option autoImplicit false

/- What the simulation can rely on in the links and the nodes of its topology file. -/
namespace QbbNet

/- The rates of links -/

theorem parseRate_none {c : Char} {s : Line} (other : isRateDigit c = false)
    (unit : ∀ entry ∈ rateUnits, entry.1.head? ≠ some c) : parseRate (c :: s) = none := by
  have trailer : (c :: s).dropWhile isRateDigit = c :: s := by simp [other]
  have unknown : rateUnits.lookup (c :: s) = none := by
    rw [List.lookup_eq_none_iff]
    intro entry member
    rw [bne_iff_ne]
    intro same
    exact unit entry member (by rw [← same]; rfl)
  rw [parseRate, trailer, if_neg (by simp), unknown]
  rfl

/-- A link without a positive weight has no data rate: its text starts with a sign, or
is that of an infinite number. -/
theorem dataRateBps_positive {weight : Int32} {rate : UInt64}
    (valid : dataRateBps weight = some rate) : 0 < weight := by
  by_contra not_positive
  rcases Int32.lt_or_eq_of_le (Int32.not_lt.mp not_positive) with negative | zero
  · have text : bandwidthText weight = '-' :: (bandwidthText weight).tail := by
      rw [bandwidthText, decide_eq_true negative]
      rfl
    rw [dataRateBps, text, parseRate_none (by decide) (by decide)] at valid
    cases valid
  · rw [zero] at valid
    have no_rate : dataRateBps 0 = none := by decide +kernel
    rw [no_rate] at valid
    cases valid

/- The EDGE_NODES lines -/

/-- The ids that a line lists. -/
def edgeNodesIn (line : Line) : List UInt32 :=
  if edgeNodesPrefix.isPrefixOf line then readNodes line.length (line.drop 11) else []

theorem edgeNodes_line {line : Line} (edges : edgeNodesPrefix.isPrefixOf line = true) :
    isComment line = false ∧ topoType.isPrefixOf line = false := by
  cases line with
  | nil => cases edges
  | cons c rest =>
    have letter : 'E' = c := by
      rw [edgeNodesPrefix, List.isPrefixOf_cons_cons, Bool.and_eq_true, beq_iff_eq] at edges
      exact edges.1
    subst letter
    exact ⟨rfl, rfl⟩

/-- The header loop reads the EDGE_NODES lines up to the first link line, and no others. -/
theorem read_edgeNodes (h : TopologyHeader) (lines : List Line) :
    ∃ before, lines = before ++ (h.read lines).2 ∧
      (h.read lines).1.edgeNodes = h.edgeNodes ++ before.flatMap edgeNodesIn := by
  have skip {h next : TopologyHeader} {line : Line} {lines : List Line}
      (same : next.edgeNodes = h.edgeNodes ++ edgeNodesIn line)
      (later : ∃ before, lines = before ++ (next.read lines).2 ∧
        (next.read lines).1.edgeNodes = next.edgeNodes ++ before.flatMap edgeNodesIn) :
      ∃ before, line :: lines = before ++ (next.read lines).2 ∧
        (next.read lines).1.edgeNodes = h.edgeNodes ++ before.flatMap edgeNodesIn := by
    obtain ⟨before, split, found⟩ := later
    refine ⟨line :: before, congrArg (line :: ·) split, ?_⟩
    rw [found, same, List.flatMap_cons, List.append_assoc]
  induction lines generalizing h with
  | nil => exact ⟨[], rfl, (List.append_nil _).symm⟩
  | cons line lines ih =>
    unfold TopologyHeader.read
    by_cases edges : edgeNodesPrefix.isPrefixOf line = true
    · obtain ⟨comment, topo⟩ := edgeNodes_line edges
      simp only [comment, topo, edges, Bool.false_eq_true, ↓reduceIte]
      exact skip (by simp [edgeNodesIn, edges]) (ih _)
    have nothing : h.edgeNodes = h.edgeNodes ++ edgeNodesIn line := by simp [edgeNodesIn, edges]
    by_cases comment : isComment line = true
    · rw [if_pos comment]
      exact skip nothing (ih h)
    by_cases topo : topoType.isPrefixOf line = true
    · rw [if_neg comment, if_pos topo]
      exact skip nothing (ih h)
    rw [if_neg comment, if_neg topo, if_neg edges]
    split
    · exact skip nothing (ih _)
    · dsimp only
      by_cases unlinked : (readInt h.numLinks line).ok = true ∧ (readInt h.numLinks line).value = 0
      · rw [if_pos unlinked]
        refine ⟨[line], rfl, ?_⟩
        rw [List.flatMap_singleton]
        exact nothing
      · rw [if_neg unlinked]
        exact skip nothing (ih _)
    · exact ⟨[], rfl, (List.append_nil _).symm⟩

/- The links and the flows -/

theorem toUInt32_toNat {n : Int32} (least : 0 ≤ n) : (n.toUInt32.toNat : Int) = n.toInt := by
  have positive : 0 ≤ n.toInt := Int32.le_iff_toInt_le.mp least
  have cases := BitVec.toInt_eq_toNat_cond n.toBitVec
  have small := n.toBitVec.isLt
  change (n.toBitVec.toNat : Int) = n.toBitVec.toInt
  change 0 ≤ n.toBitVec.toInt at positive
  split at cases
  · exact cases.symm
  · omega

theorem installLinkAndTrace_nodes {numNodes : Int32} {line : Line} {link : LinkStats}
    (installed : installLinkAndTrace numNodes line = some link) :
    link.nodeA.toNat < numNodes.toInt ∧ link.nodeB.toNat < numNodes.toInt := by
  unfold installLinkAndTrace at installed
  by_cases comment : isComment line = true
  · simp [comment] at installed
  by_cases edges : edgeNodesPrefix.isPrefixOf line = true
  · simp [comment, edges] at installed
  by_cases topo : topoType.isPrefixOf line = true
  · simp [comment, edges, topo] at installed
  simp only [comment, edges, topo, Bool.false_eq_true, ↓reduceIte] at installed
  generalize readInt 0 line = node1 at installed
  generalize readInt 0 node1.rest = node2 at installed
  by_cases numbers : node1.ok = true ∧ node2.ok = true
  · rw [if_pos numbers] at installed
    by_cases outside : node1.value < 0 ∨ numNodes ≤ node1.value ∨ node2.value < 0 ∨
        numNodes ≤ node2.value
    · simp [outside] at installed
    · rw [if_neg outside] at installed
      obtain rfl := Option.some.inj installed
      simp only [not_or, Int32.not_lt, Int32.not_le] at outside
      obtain ⟨least1, most1, least2, most2⟩ := outside
      rw [toUInt32_toNat least1, toUInt32_toNat least2]
      exact ⟨Int32.lt_iff_toInt_lt.mp most1, Int32.lt_iff_toInt_lt.mp most2⟩
  · simp [numbers] at installed

theorem linksOf_nodes {lines : List Line} {link : LinkStats} (member : link ∈ linksOf lines) :
    link.nodeA.toNat < (TopologyHeader.new.read lines).1.numNodes.toInt ∧
      link.nodeB.toNat < (TopologyHeader.new.read lines).1.numNodes.toInt := by
  have ⟨line, _, installed⟩ := List.mem_filterMap.mp member
  exact installLinkAndTrace_nodes installed

/-- When GetStatus comes to the simulation, the nodes of the links exist, and those of
the flows too if the header lists none. Each link has a positive weight, and with it a
positive rate and a delay. The flows can use every node that is listed before the
first link line. -/
theorem topology_checked {α : Type} {outside : ℚ → UInt32} {figures : Experiment α}
    {files : ExperimentFiles} {flows : UInt32} {draws : List Nat} {lines : List Line}
    {allLinks : List LinkStats} {results : List α} (file : files.topology = some lines)
    (reached : runExperiment outside figures files flows draws =
      .returned (.ok (allLinks, results))) :
    (∀ link ∈ allLinks,
      link.nodeA.toNat < (TopologyHeader.new.read lines).1.numNodes.toInt ∧
      link.nodeB.toNat < (TopologyHeader.new.read lines).1.numNodes.toInt ∧
      0 < link.weight ∧ (0 : ℚ) < 50 / link.weight.toInt ∧ (0 : ℚ) ≤ link.weight.toInt * 2 / 100) ∧
    ((TopologyHeader.new.read lines).1.edgeNodes = [] →
      ∀ node ∈ edgeNodesOf (TopologyHeader.new.read lines).1 allLinks,
        node.toNat < (TopologyHeader.new.read lines).1.numNodes.toInt) ∧
    ∃ before, lines = before ++ (TopologyHeader.new.read lines).2 ∧
      ∀ line ∈ before, ∀ node ∈ edgeNodesIn line,
        node ∈ edgeNodesOf (TopologyHeader.new.read lines).1 allLinks := by
  rcases runExperiment_returned reached with
    ⟨e, error, _⟩ | ⟨other, installed, pairs, usable, simulated, ok⟩
  · cases error
  obtain rfl := Option.some.inj (usable.topology.symm.trans file)
  obtain ⟨rfl, _⟩ := Prod.mk.inj (Except.ok.inj ok)
  obtain ⟨links, rates⟩ := installLinks_links simulated.links
  refine ⟨?_, ?_, ?_⟩
  · intro link member
    obtain ⟨first, second⟩ := linksOf_nodes member
    have kept : link ∈ installed.map Prod.fst := links ▸ member
    obtain ⟨entry, there, same⟩ := List.mem_map.mp kept
    have positive := dataRateBps_positive (rates entry there)
    rw [same] at positive
    have whole : 0 < link.weight.toInt := Int32.lt_iff_toInt_lt.mp positive
    have rational : (0 : ℚ) < link.weight.toInt := by exact_mod_cast whole
    exact ⟨first, second, positive, by positivity, by positivity⟩
  · intro unlisted node member
    rw [edgeNodesOf, if_pos unlisted, mem_connectedNodes] at member
    obtain ⟨link, there, ends⟩ := List.mem_flatMap.mp member
    obtain ⟨first, second⟩ := linksOf_nodes there
    rcases List.mem_pair.mp ends with rfl | rfl
    · exact first
    · exact second
  · obtain ⟨before, split, found⟩ := read_edgeNodes .new other
    refine ⟨before, split, ?_⟩
    intro line member node listed
    have there : node ∈ (TopologyHeader.new.read other).1.edgeNodes := by
      rw [found]
      exact List.mem_append_right _ (List.mem_flatMap.mpr ⟨line, member, listed⟩)
    rw [edgeNodesOf, if_neg (List.ne_nil_of_mem there)]
    exact there

/-- Two nodes for the flows, listed before the links. -/
def listedFile : List Line :=
  [['5'], ['2'], edgeNodesPrefix ++ [' ', '0', ' ', '4'], ['0', ' ', '3', ' ', '7'],
   ['3', ' ', '4']]

theorem topology_checked_listed :
    (∀ link ∈ [LinkStats.mk 0 3 7, LinkStats.mk 3 4 100], (0 : ℚ) < 50 / link.weight.toInt) ∧
      (4 : UInt32) ∈ edgeNodesOf (TopologyHeader.new.read listedFile).1
        [LinkStats.mk 0 3 7, LinkStats.mk 3 4 100] := by
  have reached : runExperiment (fun _ => 0) measured ⟨some oneSize, some listedFile⟩ 1 [0, 1] =
      .returned (.ok ([⟨0, 3, 7⟩, ⟨3, 4, 100⟩], [0, 1 / 2, 10, 11, 7 / 4, 12, 1])) := by
    decide +kernel
  have ⟨links, _, before, split, nodes⟩ := topology_checked rfl reached
  have rest : (TopologyHeader.new.read listedFile).2 =
      [['0', ' ', '3', ' ', '7'], ['3', ' ', '4']] := by
    decide +kernel
  refine ⟨fun link member => (links link member).2.2.2.1, ?_⟩
  rw [rest] at split
  have header : before = [['5'], ['2'], edgeNodesPrefix ++ [' ', '0', ' ', '4']] :=
    List.append_cancel_right split.symm
  exact nodes (edgeNodesPrefix ++ [' ', '0', ' ', '4']) (by simp [header]) 4 (by decide +kernel)

/-- A node for the flows that is listed behind a link. -/
def lateFile : List Line :=
  [['5'], ['1'], ['0', ' ', '3', ' ', '7'], edgeNodesPrefix ++ [' ', '1']]

/-- The flows cannot use it. -/
theorem topology_checked_late :
    ¬∀ (files : ExperimentFiles) (flows : UInt32) (draws : List Nat) (lines : List Line)
      (allLinks : List LinkStats) (results : List ℚ), files.topology = some lines →
      runExperiment (fun _ => 0) measured files flows draws = .returned (.ok (allLinks, results)) →
      ∀ line ∈ lines, ∀ node ∈ edgeNodesIn line,
        node ∈ edgeNodesOf (TopologyHeader.new.read lines).1 allLinks := by
  intro contributes
  have reached : runExperiment (fun _ => 0) measured ⟨some oneSize, some lateFile⟩ 1 [0, 1] =
      .returned (.ok ([⟨0, 3, 7⟩], [0, 10, 7 / 4, 12, 1])) := by
    decide +kernel
  have member := contributes _ _ _ lateFile _ _ rfl reached (edgeNodesPrefix ++ [' ', '1'])
    (by simp [lateFile]) 1 (by decide +kernel)
  revert member
  decide +kernel

end QbbNet
