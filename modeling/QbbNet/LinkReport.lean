import QbbNet.TopologyFile

set_option autoImplicit false

/- Whether the report names each link by its own nodes. -/
namespace QbbNet

/-- The elements that are kept stand where they stood exactly as far as all are kept. -/
theorem filter_in_place {α β : Type} {keep : α → Bool} {f : α → β}
    (apart : ∀ a b, keep a = true → f a = f b → keep b = true) {l : List α} {m : Nat}
    (enough : m ≤ (l.filter keep).length) :
    (∀ i < m, ((l.filter keep)[i]?).map f = (l[i]?).map f) ↔ ∀ a ∈ l.take m, keep a = true := by
  induction l generalizing m with
  | nil =>
    have none : m = 0 := by simpa using enough
    subst none
    simp
  | cons a l ih =>
    cases m with
    | zero => simp
    | succ m =>
      rw [List.take_succ_cons, List.forall_mem_cons]
      by_cases kept : keep a = true
      · rw [List.filter_cons_of_pos kept] at enough ⊢
        have rest := ih (m := m) (by simpa using enough)
        rw [← rest]
        constructor
        · intro same
          refine ⟨kept, ?_⟩
          intro i small
          have next := same (i + 1) (by omega)
          simpa using next
        · intro ⟨_, same⟩ i small
          cases i with
          | zero => rfl
          | succ i =>
            rw [List.getElem?_cons_succ, List.getElem?_cons_succ]
            exact same i (by omega)
      · rw [List.filter_cons_of_neg kept] at enough ⊢
        constructor
        · intro same
          have first := same 0 (by omega)
          have some_kept : 0 < (l.filter keep).length := by omega
          rw [List.getElem?_eq_getElem some_kept, List.getElem?_cons_zero, Option.map_some,
            Option.map_some, Option.some.injEq] at first
          have member := List.getElem_mem some_kept
          exact absurd (apart _ a (List.mem_filter.mp member).2 first) kept
        · intro ⟨impossible, _⟩
          exact absurd impossible kept

/-- The two numbers of a link line. -/
def linkPair (line : Line) : Option (Int32 × Int32) :=
  if isComment line || topoType.isPrefixOf line || edgeNodesPrefix.isPrefixOf line then none
  else
    let node1 := readInt 0 line
    let node2 := readInt 0 node1.rest
    if node1.ok ∧ node2.ok then some (node1.value, node2.value) else none

/-- The pairs of the lines that follow the header. -/
def linkPairs (lines : List Line) : List (Int32 × Int32) :=
  (TopologyHeader.new.read lines).2.filterMap linkPair

def unsignedPair (pair : Int32 × Int32) : UInt32 × UInt32 := (pair.1.toUInt32, pair.2.toUInt32)

/-- Both nodes of a pair exist. -/
def nodesExist (numNodes : Int32) (pair : Int32 × Int32) : Bool :=
  0 ≤ pair.1 && pair.1 < numNodes && 0 ≤ pair.2 && pair.2 < numNodes

/-- The pairs of which both nodes exist. -/
def existingPairs (lines : List Line) : List (Int32 × Int32) :=
  (linkPairs lines).filter (nodesExist (TopologyHeader.new.read lines).1.numNodes)

theorem unsignedPair_injective {pair other : Int32 × Int32} (same : unsignedPair pair = unsignedPair other) :
    pair = other := by
  have ⟨first, second⟩ := Prod.mk.inj same
  exact Prod.ext (congrArg Int32.ofUInt32 first) (congrArg Int32.ofUInt32 second)

theorem installLinkAndTrace_pair (numNodes : Int32) (line : Line) :
    (installLinkAndTrace numNodes line).map (fun link => (link.nodeA, link.nodeB)) =
      ((linkPair line).filter (nodesExist numNodes)).map unsignedPair := by
  unfold installLinkAndTrace linkPair
  by_cases comment : isComment line = true
  · simp [comment]
  by_cases edges : edgeNodesPrefix.isPrefixOf line = true
  · simp [comment, edges]
  by_cases topo : topoType.isPrefixOf line = true
  · simp [comment, edges, topo]
  simp only [comment, edges, topo, Bool.false_eq_true, ↓reduceIte, Bool.or_self]
  generalize readInt 0 line = node1
  generalize readInt 0 node1.rest = node2
  by_cases numbers : node1.ok = true ∧ node2.ok = true
  · rw [if_pos numbers, if_pos numbers]
    by_cases outside : node1.value < 0 ∨ numNodes ≤ node1.value ∨ node2.value < 0 ∨
        numNodes ≤ node2.value
    · have missing : nodesExist numNodes (node1.value, node2.value) = false := by
        simp only [nodesExist, Bool.and_eq_false_iff, decide_eq_false_iff_not, Int32.not_le,
          Int32.not_lt]
        tauto
      rw [if_pos outside, Option.filter_some_neg (by simp [missing])]
      rfl
    · have there : nodesExist numNodes (node1.value, node2.value) = true := by
        simp only [not_or, Int32.not_le, Int32.not_lt] at outside
        simp only [nodesExist, Bool.and_eq_true, decide_eq_true_eq]
        tauto
      rw [if_neg outside, Option.filter_some_pos there]
      rfl
  · rw [if_neg numbers, if_neg numbers]
    rfl

theorem allLinks_pairs (numNodes : Int32) (lines : List Line) :
    (lines.filterMap (installLinkAndTrace numNodes)).map (fun link => (link.nodeA, link.nodeB)) =
      ((lines.filterMap linkPair).filter (nodesExist numNodes)).map unsignedPair := by
  rw [List.map_filterMap, List.filter_filterMap, List.map_filterMap]
  congr 1
  funext line
  exact installLinkAndTrace_pair numNodes line

/-- Behind the header, main keeps every line that has two numbers. -/
theorem read_link {m : MainParser} {n : Nat} (links : m.state = n + 2) (line : Line) :
    m.read line =
      { m with linkNodePairs := m.linkNodePairs ++ (linkPair line).toList.map unsignedPair } := by
  have ⟨state, numNodes, numLinks, pairs⟩ := m
  have same : state = n + 2 := links
  subst same
  unfold MainParser.read linkPair
  by_cases comment : isComment line = true
  · simp [comment]
  by_cases topo : topoType.isPrefixOf line = true
  · simp [comment, topo]
  by_cases edges : edgeNodesPrefix.isPrefixOf line = true
  · simp [comment, topo, edges]
  simp only [comment, edges, topo, Bool.false_eq_true, ↓reduceIte, Bool.or_self]
  by_cases numbers : (readInt 0 line).ok = true ∧ (readInt 0 (readInt 0 line).rest).ok = true
  · rw [if_pos numbers, if_pos numbers]
    rfl
  · rw [if_neg numbers, if_neg numbers]
    simp

theorem foldl_read_links {m : MainParser} {n : Nat} (links : m.state = n + 2) (lines : List Line) :
    (lines.foldl MainParser.read m).linkNodePairs =
      m.linkNodePairs ++ (lines.filterMap linkPair).map unsignedPair := by
  induction lines generalizing m with
  | nil => simp
  | cons line lines ih =>
    rw [List.foldl_cons, read_link links line, ih (by exact links), List.append_assoc,
      List.filterMap_cons]
    congr 1
    cases pair : linkPair line with
    | none => simp
    | some pair => simp

/-- Up to there, main and GetStatus go through the same states. -/
theorem foldl_read_header {m : MainParser} {h : TopologyHeader} (state : m.state = h.state)
    (numNodes : m.numNodes = h.numNodes) (numLinks : m.numLinks = h.numLinks) (lines : List Line)
    (some_links : (h.read lines).1.numLinks ≠ 0) :
    (lines.foldl MainParser.read m).linkNodePairs =
      m.linkNodePairs ++ ((h.read lines).2.filterMap linkPair).map unsignedPair := by
  induction lines generalizing m h with
  | nil => simp [TopologyHeader.read]
  | cons line lines ih =>
    rw [List.foldl_cons]
    unfold TopologyHeader.read at some_links ⊢
    by_cases comment : isComment line = true
    · have skipped : m.read line = m := by simp [MainParser.read, comment]
      rw [if_pos comment] at some_links ⊢
      rw [skipped]
      exact ih state numNodes numLinks some_links
    by_cases topo : topoType.isPrefixOf line = true
    · have skipped : m.read line = m := by simp [MainParser.read, comment, topo]
      rw [if_neg comment, if_pos topo] at some_links ⊢
      rw [skipped]
      exact ih state numNodes numLinks some_links
    by_cases edges : edgeNodesPrefix.isPrefixOf line = true
    · have skipped : m.read line = m := by simp [MainParser.read, comment, topo, edges]
      rw [if_neg comment, if_neg topo, if_pos edges] at some_links ⊢
      rw [skipped]
      apply ih
      · exact state
      · exact numNodes
      · exact numLinks
      · exact some_links
    cases at_state : h.state with
    | zero =>
      have main : m.state = 0 := state.trans at_state
      simp only [comment, topo, edges, at_state, Bool.false_eq_true, ↓reduceIte] at some_links ⊢
      simp only [MainParser.read, comment, topo, edges, main, Bool.false_eq_true, ↓reduceIte]
      rw [numNodes]
      apply ih _ _ _ some_links
      · rfl
      · rfl
      · exact numLinks
    | succ n =>
      cases n with
      | zero =>
        have main : m.state = 1 := state.trans at_state
        simp only [comment, topo, edges, at_state, Bool.false_eq_true, ↓reduceIte] at some_links ⊢
        simp only [MainParser.read, comment, topo, edges, main, Bool.false_eq_true, ↓reduceIte]
        rw [numLinks]
        by_cases none : (readInt h.numLinks line).ok = true ∧ (readInt h.numLinks line).value = 0
        · rw [if_pos none] at some_links
          exact absurd none.2 some_links
        · rw [if_neg none] at some_links ⊢
          apply ih _ _ _ some_links
          · rfl
          · exact numNodes
          · rfl
      | succ n =>
        have main : m.state = n + 2 := state.trans at_state
        simp only [comment, topo, edges, Bool.false_eq_true, ↓reduceIte]
        rw [← List.foldl_cons]
        exact foldl_read_links main (line :: lines)

theorem linkNodePairs_eq {lines : List Line}
    (some_links : (TopologyHeader.new.read lines).1.numLinks ≠ 0) :
    linkNodePairs lines = (linkPairs lines).map unsignedPair := by
  have read := foldl_read_header (m := .new) (h := .new) rfl rfl rfl lines some_links
  exact read.trans (List.nil_append _)

/-- What a success of GetStatus says of the links and of the result vector. -/
theorem getStatus_ok {α : Type} {experiment : Experiment α} {lines : List Line}
    {allLinks : List LinkStats} {results : List α}
    (success : getStatus experiment (some lines) = .ok (allLinks, results)) :
    (TopologyHeader.new.read lines).1.numLinks ≠ 0 ∧
    allLinks = (TopologyHeader.new.read lines).2.filterMap
      (installLinkAndTrace (TopologyHeader.new.read lines).1.numNodes) ∧
    results = (List.range allLinks.length).map experiment.avgQueueLength ++
      (List.range allLinks.length).map experiment.linkUtilization ++
      [experiment.totalThroughputMbps, experiment.networkAvgDelayMs, experiment.e2eLossRatePct] := by
  unfold getStatus at success
  by_cases sizes : experiment.sizeCdfLoaded = false
  · simp [sizes] at success
  rw [if_neg sizes] at success
  simp only at success
  generalize TopologyHeader.new.read lines = header at success ⊢
  by_cases empty : header.1.numNodes ≤ 0 ∨ header.1.numLinks ≤ 0
  · simp [empty] at success
  rw [if_neg empty] at success
  by_cases unconnected : header.1.edgeNodes = [] ∧
      header.2.filterMap (installLinkAndTrace header.1.numNodes) = []
  · simp [unconnected] at success
  rw [if_neg unconnected] at success
  by_cases unaddressed : experiment.addressed = false
  · simp [unaddressed] at success
  rw [if_neg unaddressed] at success
  have ⟨links, vector⟩ := Prod.mk.inj (Except.ok.inj success)
  subst links
  refine ⟨?_, rfl, vector.symm⟩
  intro zero
  exact empty (.inr (by rw [zero]; exact Int32.le_refl 0))

/-- main's label of every link that it counts is that link's own pair of nodes. -/
def NamesLinks {α : Type} (lines : List Line) (allLinks : List LinkStats) (results : List α) : Prop :=
  ∀ i < numLinksOf results, ∃ link,
    allLinks[i]? = some link ∧ (linkNodePairs lines)[i]? = some (link.nodeA, link.nodeB)

theorem numLinksOf_eq {α : Type} (queues utils : List α) (same : utils.length = queues.length)
    (x y z : α) : numLinksOf (queues ++ utils ++ [x, y, z]) = queues.length % 4294967296 := by
  have length : (queues ++ utils ++ [x, y, z]).length = queues.length * 2 + 3 := by
    simp only [List.length_append, List.length_cons, List.length_nil, same]
    omega
  rw [numLinksOf, length]
  omega

/-- The report names the links rightly exactly if no pair with a node that does not
exist stands among the first pairs of the file, as many as there are existing ones. -/
theorem report_names_links {α : Type} {experiment : Experiment α} {lines : List Line}
    {allLinks : List LinkStats} {results : List α}
    (success : getStatus experiment (some lines) = .ok (allLinks, results)) :
    numLinksOf results = allLinks.length % 4294967296 ∧
    (∀ i < allLinks.length, results[i]? = some (experiment.avgQueueLength i) ∧
      results[allLinks.length + i]? = some (experiment.linkUtilization i)) ∧
    (NamesLinks lines allLinks results ↔
      ∀ pair ∈ (linkPairs lines).take ((existingPairs lines).length % 4294967296),
        nodesExist (TopologyHeader.new.read lines).1.numNodes pair = true) := by
  have ⟨some_links, links, vector⟩ := getStatus_ok success
  have counted : numLinksOf results = allLinks.length % 4294967296 := by
    rw [vector, numLinksOf_eq _ _ (by simp), List.length_map, List.length_range]
  refine ⟨counted, ?_, ?_⟩
  · intro i small
    rw [vector]
    constructor
    · simp [List.getElem?_append, small]
    · simp [List.getElem?_append, small]
  · have pairs : allLinks.map (fun link => (link.nodeA, link.nodeB)) =
        (existingPairs lines).map unsignedPair := by
      rw [links, allLinks_pairs]
      rfl
    have length : allLinks.length = (existingPairs lines).length := by
      simpa using congrArg List.length pairs
    rw [NamesLinks, counted, length]
    have fewer := Nat.mod_le (existingPairs lines).length 4294967296
    generalize (existingPairs lines).length % 4294967296 = numLinks at fewer ⊢
    unfold existingPairs at pairs fewer length
    generalize (TopologyHeader.new.read lines).1.numNodes = numNodes at pairs fewer length ⊢
    have apart (a b : Int32 × Int32) (there : nodesExist numNodes a = true)
        (same : unsignedPair a = unsignedPair b) : nodesExist numNodes b = true := by
      rw [← unsignedPair_injective same]
      exact there
    rw [← filter_in_place apart fewer]
    apply forall₂_congr
    intro i small
    have at_i := congrArg (·[i]?) pairs
    simp only [List.getElem?_map] at at_i
    have there : i < allLinks.length := by omega
    rw [linkNodePairs_eq some_links, List.getElem?_map, ← at_i, List.getElem?_eq_getElem there]
    simp only [Option.some.injEq, exists_eq_left', Option.map_some]
    exact eq_comm

/-- An experiment whose figures are the numbers of their places. -/
def numbered : Experiment Nat where
  sizeCdfLoaded := true
  addressed := true
  avgQueueLength i := i
  linkUtilization i := 10 + i
  totalThroughputMbps := 20
  networkAvgDelayMs := 21
  e2eLossRatePct := 22

/-- A comment, five nodes, two links, a line between them that is not a link. -/
def tidyFile : List Line :=
  [['#'], ['5'], ['2'], ['0', ' ', '3', ' ', '7'], ['x'], [], ['3', ' ', '4']]

theorem report_names_links_tidy :
    getStatus numbered (some tidyFile) =
        .ok ([⟨0, 3, 7⟩, ⟨3, 4, 100⟩], [0, 1, 10, 11, 20, 21, 22]) ∧
      NamesLinks tidyFile [⟨0, 3, 7⟩, ⟨3, 4, 100⟩] [0, 1, 10, 11, 20, 21, 22] := by
  have success : getStatus numbered (some tidyFile) =
      .ok ([⟨0, 3, 7⟩, ⟨3, 4, 100⟩], [0, 1, 10, 11, 20, 21, 22]) := by
    decide +kernel
  have ⟨_, _, exact_when⟩ := report_names_links success
  have all_there : ((linkPairs tidyFile).take ((existingPairs tidyFile).length % 4294967296)).all
      (nodesExist (TopologyHeader.new.read tidyFile).1.numNodes) = true := by
    decide +kernel
  exact ⟨success, exact_when.mpr (List.all_eq_true.mp all_there)⟩

/-- Five nodes, and a link to node 99 before the link between 0 and 1. -/
def straying : List Line := [['5'], ['2'], ['0', ' ', '9', '9'], ['0', ' ', '1']]

/-- The report calls the one installed link, of nodes 0 and 1, a link of nodes 0 and 99. -/
theorem report_names_links_straying :
    getStatus numbered (some straying) = .ok ([⟨0, 1, 100⟩], [0, 10, 20, 21, 22]) ∧
      (linkNodePairs straying)[0]? = some (0, 99) ∧
      ¬NamesLinks straying [⟨0, 1, 100⟩] [0, 10, 20, 21, 22] := by
  have label : (linkNodePairs straying)[0]? = some (0, 99) := by decide +kernel
  refine ⟨by decide +kernel, label, ?_⟩
  intro names
  have ⟨link, there, right⟩ := names 0 (by decide)
  have found : LinkStats.mk 0 1 100 = link := Option.some.inj there
  rw [label, ← found] at right
  exact absurd right (by decide)

end QbbNet
