import QbbNet.FlowPairs
import QbbNet.LinkReport

set_option autoImplicit false

/- Whether main can tell the results of GetStatus from its errors. -/
namespace QbbNet

/-- The vector that GetStatus returns: an error fills four entries with its number. -/
def resultVector {α : Type} [IntCast α] : Except Int (List LinkStats × List α) → List α
  | .ok (_, results) => results
  | .error e => [(e : α), (e : α), (e : α), (e : α)]

/-- What main reads of the vector before it sorts and prints. -/
structure Summary (α : Type) where
  numLinks : Nat
  queueData : List (Nat × Option α)
  utilData : List (Nat × Option α)
  throughput : Option α
  delay : Option α
  loss : Option α

/-- main's branch on the vector: an error message, or the summary. -/
def readResults {α : Type} (results : List α) : Option (Summary α) :=
  if results = [] ∨ results.length < 3 then none
  else
    let numLinks := numLinksOf results
    some
      { numLinks := numLinks
        queueData := (List.range numLinks).map fun i => (i, results[i]?)
        utilData := (List.range numLinks).map fun i => (i, results[numLinks + i]?)
        throughput := results[results.length - 3]?
        delay := results[results.length - 2]?
        loss := results[results.length - 1]? }

/-- The summary of an experiment over so many links. -/
def summaryOf {α : Type} (figures : Experiment α) (links : Nat) : Summary α where
  numLinks := links
  queueData := (List.range links).map fun i => (i, some (figures.avgQueueLength i))
  utilData := (List.range links).map fun i => (i, some (figures.linkUtilization i))
  throughput := some figures.totalThroughputMbps
  delay := some figures.networkAvgDelayMs
  loss := some figures.e2eLossRatePct

/-- main reads a result as the summary of its links, and takes its error branch on an error. -/
def ReadsRightly {α : Type} [IntCast α] (figures : Experiment α) :
    Except Int (List LinkStats × List α) → Prop
  | .ok (allLinks, results) =>
      readResults (resultVector (.ok (allLinks, results))) =
        some (summaryOf figures allLinks.length)
  | .error e => readResults (resultVector (.error e : Except Int (List LinkStats × List α))) = none

/-- The links of a file. -/
def linksOf (lines : List Line) : List LinkStats :=
  (TopologyHeader.new.read lines).2.filterMap
    (installLinkAndTrace (TopologyHeader.new.read lines).1.numNodes)

/-- The files have what GetStatus asks of them: a size, nodes and links, nodes for the
flows, and an address of every destination that is drawn. -/
structure Usable (outside : ℚ → UInt32) (files : ExperimentFiles) (flows : UInt32)
    (draws : List Nat) (lines : List Line) : Prop where
  sizes : ∃ sizeLines, files.sizeCdf = some sizeLines ∧
    ∃ line ∈ sizeLines, readEntry outside line ≠ none
  topology : files.topology = some lines
  numNodes : 0 < (TopologyHeader.new.read lines).1.numNodes
  numLinks : 0 < (TopologyHeader.new.read lines).1.numLinks
  nodes : (TopologyHeader.new.read lines).1.edgeNodes ≠ [] ∨ linksOf lines ≠ []
  addressed : ∀ pairs,
    choosePairs (edgeNodesOf (TopologyHeader.new.read lines).1 (linksOf lines)) flows.toNat draws =
      some pairs → ∀ pair ∈ pairs, pair.2 ∈ linkEnds (linksOf lines)

theorem loadSizeCdf_ok {outside : ℚ → UInt32} {path : String} {file : Option (List Line)} :
    (∃ out, loadSizeCdf outside path file = .ok out) ↔
      ∃ lines, file = some lines ∧ ∃ line ∈ lines, readEntry outside line ≠ none := by
  cases file with
  | none => simp [loadSizeCdf]
  | some lines =>
    have parsed : lines.filterMap (readEntry outside) = [] ↔
        ∀ line ∈ lines, readEntry outside line = none :=
      List.filterMap_eq_nil_iff
    by_cases empty : lines.filterMap (readEntry outside) = []
    · have failed : ∀ out, loadSizeCdf outside path (some lines) ≠ .ok out := by
        simp [loadSizeCdf, empty]
      constructor
      · intro ⟨out, loaded⟩
        exact absurd loaded (failed out)
      · rintro ⟨_, same, line, member, entry⟩
        obtain rfl := Option.some.inj same
        exact absurd (parsed.mp empty line member) entry
    · constructor
      · intro _
        have ⟨entry, member⟩ := List.exists_mem_of_ne_nil _ empty
        have ⟨line, there, read⟩ := List.mem_filterMap.mp member
        exact ⟨lines, rfl, line, there, by rw [read]; simp⟩
      · intro _
        simp [loadSizeCdf, empty]

theorem installFlows_installed {numNodes : Int32} {connected : List UInt32}
    {pairs : List (UInt32 × UInt32)}
    (installed : installFlows numNodes connected pairs = .installed) :
    ∀ pair ∈ pairs, pair.1.toNat < numNodes.toInt ∧ pair.2.toNat < numNodes.toInt ∧
      pair.2 ∈ connected := by
  induction pairs with
  | nil =>
    intro pair member
    cases member
  | cons pair pairs ih =>
    rw [installFlows] at installed
    by_cases outside : numNodes.toInt ≤ pair.1.toNat ∨ numNodes.toInt ≤ pair.2.toNat
    · simp [outside] at installed
    rw [if_neg outside] at installed
    by_cases linked : pair.2 ∈ connected
    · rw [if_neg (not_not.mpr linked)] at installed
      intro other member
      rcases List.mem_cons.mp member with rfl | behind
      · exact ⟨by omega, by omega, linked⟩
      · exact ih installed other behind
    · simp [linked] at installed

theorem installFlows_unaddressed {numNodes : Int32} {connected : List UInt32}
    {pairs : List (UInt32 × UInt32)}
    (unaddressed : installFlows numNodes connected pairs = .unaddressed) :
    ∃ pair ∈ pairs, pair.2 ∉ connected := by
  induction pairs with
  | nil => cases unaddressed
  | cons pair pairs ih =>
    rw [installFlows] at unaddressed
    by_cases outside : numNodes.toInt ≤ pair.1.toNat ∨ numNodes.toInt ≤ pair.2.toNat
    · simp [outside] at unaddressed
    rw [if_neg outside] at unaddressed
    by_cases linked : pair.2 ∈ connected
    · rw [if_neg (not_not.mpr linked)] at unaddressed
      have ⟨other, member, missing⟩ := ih unaddressed
      exact ⟨other, List.mem_cons_of_mem pair member, missing⟩
    · exact ⟨pair, List.mem_cons_self, linked⟩

theorem edgeNodesOf_nil {header : TopologyHeader} {links : List LinkStats} :
    edgeNodesOf header links = [] ↔ header.edgeNodes = [] ∧ links = [] := by
  have none_connected : connectedNodes links = [] ↔ links = [] := by
    constructor
    · intro empty
      cases links with
      | nil => rfl
      | cons link links =>
        have member : link.nodeA ∈ connectedNodes (link :: links) := by
          rw [mem_connectedNodes]
          simp [linkEnds]
        rw [empty] at member
        cases member
    · rintro rfl
      rfl
  unfold edgeNodesOf
  by_cases unlisted : header.edgeNodes = []
  · rw [if_pos unlisted, none_connected]
    simp [unlisted]
  · simp [unlisted]

section

variable {α : Type} {outside : ℚ → UInt32} {figures : Experiment α} {files : ExperimentFiles}
  {flows : UInt32} {draws : List Nat}

/-- The links and the pairs of a simulation. -/
structure Simulated (flows : UInt32) (draws : List Nat) (lines : List Line)
    (installed : List (LinkStats × UInt64)) (pairs : List (UInt32 × UInt32)) : Prop where
  links : installLinks (TopologyHeader.new.read lines).1.numNodes
    (TopologyHeader.new.read lines).2 =
    some installed
  drawn : choosePairs (edgeNodesOf (TopologyHeader.new.read lines).1 (installed.map Prod.fst))
    flows.toNat draws = some pairs
  started : installFlows (TopologyHeader.new.read lines).1.numNodes
    (connectedNodes (installed.map Prod.fst)) pairs = .installed

/-- The ends of GetStatus in the order of its checks. -/
theorem runExperiment_returned {r : Except Int (List LinkStats × List α)}
    (returned : runExperiment outside figures files flows draws = .returned r) :
    (∃ e, r = .error e ∧ ∀ lines, ¬Usable outside files flows draws lines) ∨
    ∃ lines installed pairs, Usable outside files flows draws lines ∧
      Simulated flows draws lines installed pairs ∧
      r = .ok (linksOf lines,
        (List.range (linksOf lines).length).map figures.avgQueueLength ++
          (List.range (linksOf lines).length).map figures.linkUtilization ++
          [figures.totalThroughputMbps, figures.networkAvgDelayMs, figures.e2eLossRatePct]) := by
  unfold runExperiment at returned
  cases loaded : loadSizeCdf outside sizeCdfPath files.sizeCdf with
  | error message =>
    simp only [loaded, Outcome.returned.injEq] at returned
    refine .inl ⟨-6, returned.symm, ?_⟩
    intro lines usable
    have ⟨out, success⟩ : ∃ out, loadSizeCdf outside sizeCdfPath files.sizeCdf = .ok out :=
      loadSizeCdf_ok.mpr usable.sizes
    rw [loaded] at success
    cases success
  | ok sizes =>
  cases file : files.topology with
  | none =>
    simp only [loaded, file, Outcome.returned.injEq] at returned
    refine .inl ⟨-1, returned.symm, ?_⟩
    intro lines usable
    have there := usable.topology
    rw [file] at there
    cases there
  | some lines =>
  have only {other : List Line} (usable : Usable outside files flows draws other) : other = lines :=
    Option.some.inj (usable.topology.symm.trans file)
  simp only [loaded, file] at returned
  by_cases counts : (TopologyHeader.new.read lines).1.numNodes ≤ 0 ∨
      (TopologyHeader.new.read lines).1.numLinks ≤ 0
  · simp only [counts, ↓reduceIte, Outcome.returned.injEq] at returned
    refine .inl ⟨-2, returned.symm, ?_⟩
    intro other usable
    obtain rfl := only usable
    rcases counts with no_nodes | no_links
    · exact absurd usable.numNodes (Int32.not_lt.mpr no_nodes)
    · exact absurd usable.numLinks (Int32.not_lt.mpr no_links)
  rw [if_neg counts] at returned
  cases links : installLinks (TopologyHeader.new.read lines).1.numNodes
      (TopologyHeader.new.read lines).2 with
  | none => simp [links] at returned
  | some installed =>
  have ends : installed.map Prod.fst = linksOf lines := (installLinks_links links).1
  simp only [links, ends] at returned
  by_cases nowhere : edgeNodesOf (TopologyHeader.new.read lines).1 (linksOf lines) = []
  · simp only [nowhere, ↓reduceIte, Outcome.returned.injEq] at returned
    refine .inl ⟨-4, returned.symm, ?_⟩
    intro other usable
    obtain rfl := only usable
    have ⟨unlisted, unlinked⟩ := edgeNodesOf_nil.mp nowhere
    rcases usable.nodes with listed | linked
    · exact listed unlisted
    · exact linked unlinked
  rw [if_neg nowhere] at returned
  cases drawn : choosePairs (edgeNodesOf (TopologyHeader.new.read lines).1 (linksOf lines))
      flows.toNat draws with
  | none => simp [drawn] at returned
  | some pairs =>
  simp only [drawn] at returned
  cases started : installFlows (TopologyHeader.new.read lines).1.numNodes
      (connectedNodes (linksOf lines)) pairs with
  | outOfRange => simp [started] at returned
  | unaddressed =>
    simp only [started, Outcome.returned.injEq] at returned
    refine .inl ⟨-5, returned.symm, ?_⟩
    intro other usable
    obtain rfl := only usable
    have ⟨pair, member, unlinked⟩ := installFlows_unaddressed started
    exact unlinked (mem_connectedNodes.mpr (usable.addressed pairs drawn pair member))
  | installed =>
    simp only [started, Outcome.returned.injEq] at returned
    refine .inr ⟨lines, installed, pairs, ?_,
      ⟨links, by rw [ends]; exact drawn, by rw [ends]; exact started⟩,
      returned.symm⟩
    have ⟨some_nodes, some_links⟩ := not_or.mp counts
    refine ⟨loadSizeCdf_ok.mp ⟨sizes, loaded⟩, file, Int32.not_le.mp some_nodes,
      Int32.not_le.mp some_links, ?_, ?_⟩
    · by_contra neither
      have ⟨unlisted, unlinked⟩ := not_or.mp neither
      exact nowhere (edgeNodesOf_nil.mpr ⟨not_not.mp unlisted, not_not.mp unlinked⟩)
    · intro other chosen pair member
      obtain rfl := Option.some.inj (drawn.symm.trans chosen)
      exact mem_connectedNodes.mp (installFlows_installed started pair member).2.2

/-- What is returned is what getStatus gives for some findings of the rest. -/
theorem runExperiment_getStatus {r : Except Int (List LinkStats × List α)}
    (returned : runExperiment outside figures files flows draws = .returned r) :
    ∃ loaded addressed,
      r = getStatus { figures with sizeCdfLoaded := loaded, addressed := addressed }
        files.topology := by
  unfold runExperiment at returned
  cases loaded : loadSizeCdf outside sizeCdfPath files.sizeCdf with
  | error message =>
    simp only [loaded, Outcome.returned.injEq] at returned
    exact ⟨false, false, returned.symm⟩
  | ok sizes =>
  cases file : files.topology with
  | none =>
    simp only [loaded, file, Outcome.returned.injEq] at returned
    exact ⟨true, false, returned.symm⟩
  | some lines =>
  simp only [loaded, file] at returned
  simp only [getStatus]
  generalize TopologyHeader.new.read lines = header at returned ⊢
  by_cases counts : header.1.numNodes ≤ 0 ∨ header.1.numLinks ≤ 0
  · simp only [counts, ↓reduceIte, Outcome.returned.injEq] at returned
    exact ⟨true, false, by simp [counts, returned]⟩
  rw [if_neg counts] at returned
  cases links : installLinks header.1.numNodes header.2 with
  | none => simp [links] at returned
  | some installed =>
  simp only [links, (installLinks_links links).1] at returned
  by_cases nowhere : edgeNodesOf header.1
      (header.2.filterMap (installLinkAndTrace header.1.numNodes)) = []
  · simp only [nowhere, ↓reduceIte, Outcome.returned.injEq] at returned
    exact ⟨true, false, by simp [counts, edgeNodesOf_nil.mp nowhere, ← returned]⟩
  have somewhere := mt edgeNodesOf_nil.mpr nowhere
  rw [if_neg nowhere] at returned
  generalize header.2.filterMap (installLinkAndTrace header.1.numNodes) = allLinks
    at returned somewhere ⊢
  cases drawn : choosePairs (edgeNodesOf header.1 allLinks) flows.toNat draws with
  | none => simp [drawn] at returned
  | some pairs =>
  simp only [drawn] at returned
  cases started : installFlows header.1.numNodes (connectedNodes allLinks) pairs with
  | outOfRange => simp [started] at returned
  | unaddressed =>
    simp only [started, Outcome.returned.injEq] at returned
    exact ⟨true, false, by simp [counts, somewhere, ← returned]⟩
  | installed =>
    simp only [started, Outcome.returned.injEq] at returned
    exact ⟨true, true, by simp [counts, somewhere, ← returned]⟩

/-- The vector of fewer than 2^32 links is read as their summary. -/
theorem readResults_vector (figures : Experiment α) (links : Nat) :
    readResults ((List.range links).map figures.avgQueueLength ++
        (List.range links).map figures.linkUtilization ++
        [figures.totalThroughputMbps, figures.networkAvgDelayMs, figures.e2eLossRatePct]) =
      some (summaryOf figures links) ↔ links < 4294967296 := by
  have counted := numLinksOf_eq ((List.range links).map figures.avgQueueLength)
    ((List.range links).map figures.linkUtilization) (by simp) figures.totalThroughputMbps
    figures.networkAvgDelayMs figures.e2eLossRatePct
  rw [List.length_map, List.length_range] at counted
  have long : ((List.range links).map figures.avgQueueLength ++
      (List.range links).map figures.linkUtilization ++
      [figures.totalThroughputMbps, figures.networkAvgDelayMs, figures.e2eLossRatePct]).length =
        links + links + 3 := by
    simp [Nat.add_assoc]
  have figure (k : Nat) : ((List.range links).map figures.avgQueueLength ++
      (List.range links).map figures.linkUtilization ++
      [figures.totalThroughputMbps, figures.networkAvgDelayMs, figures.e2eLossRatePct])[
        links + links + k]? =
        [figures.totalThroughputMbps, figures.networkAvgDelayMs, figures.e2eLossRatePct][k]? := by
    rw [List.getElem?_append_right (by simp)]
    simp
  unfold readResults summaryOf
  rw [long, counted, if_neg (by simp)]
  constructor
  · intro same
    have numLinks := congrArg Summary.numLinks (Option.some.inj same)
    simp only at numLinks
    omega
  · intro few
    simp only [Nat.mod_eq_of_lt few, Option.some.injEq, Summary.mk.injEq, true_and]
    refine ⟨?_, ?_, ?_, ?_, ?_⟩
    · apply List.map_congr_left
      intro i inside
      have small := List.mem_range.mp inside
      simp [List.getElem?_append, small]
    · apply List.map_congr_left
      intro i inside
      have small := List.mem_range.mp inside
      simp [List.getElem?_append, small]
    · exact figure 0
    · exact figure 1
    · exact figure 2

/-- Of the inputs on which GetStatus returns, main reads rightly what it returns
exactly for those without an error, if there are fewer than 2^32 links. -/
theorem main_reads_rightly [IntCast α] {r : Except Int (List LinkStats × List α)}
    (returned : runExperiment outside figures files flows draws = .returned r) :
    ReadsRightly figures r ↔
      ∃ lines, Usable outside files flows draws lines ∧ (linksOf lines).length < 4294967296 := by
  rcases runExperiment_returned returned with
    ⟨e, rfl, unusable⟩ | ⟨lines, installed, pairs, usable, _, rfl⟩
  · constructor
    · intro rightly
      simp [ReadsRightly, readResults, resultVector] at rightly
    · intro ⟨lines, usable, _⟩
      exact absurd usable (unusable lines)
  · rw [ReadsRightly, resultVector, readResults_vector]
    constructor
    · intro few
      exact ⟨lines, usable, few⟩
    · intro ⟨other, also, few⟩
      obtain rfl := Option.some.inj (also.topology.symm.trans usable.topology)
      exact few

end

/-- All flows have the size 100. -/
def oneSize : List Line := [['1', '0', '0', ' ', '1', '0', '0']]

def measured : Experiment ℚ where
  sizeCdfLoaded := true
  addressed := true
  avgQueueLength i := i / 2
  linkUtilization i := 10 + i
  totalThroughputMbps := 7 / 4
  networkAvgDelayMs := 12
  e2eLossRatePct := 1

theorem main_reads_rightly_chain :
    ReadsRightly measured (.ok ([⟨0, 3, 7⟩, ⟨3, 4, 100⟩], [0, 1 / 2, 10, 11, 7 / 4, 12, 1])) := by
  have returned : runExperiment (fun _ => 0) measured ⟨some oneSize, some chainFile⟩ 1 [0, 1] =
      .returned (.ok ([⟨0, 3, 7⟩, ⟨3, 4, 100⟩], [0, 1 / 2, 10, 11, 7 / 4, 12, 1])) := by
    decide +kernel
  apply (main_reads_rightly returned).mpr
  have links : linksOf chainFile = [⟨0, 3, 7⟩, ⟨3, 4, 100⟩] := by decide +kernel
  refine ⟨chainFile, ⟨⟨oneSize, rfl, _, List.mem_singleton.mpr rfl, by decide +kernel⟩, rfl,
    by decide +kernel, by decide +kernel, .inr (by simp [links]), ?_⟩, by simp [links]⟩
  intro pairs drawn pair member
  have chosen : choosePairs
      (edgeNodesOf (TopologyHeader.new.read chainFile).1 (linksOf chainFile)) 1
      [0, 1] = some [(0, 3)] := by
    decide +kernel
  obtain rfl := Option.some.inj (chosen.symm.trans drawn)
  obtain rfl := List.mem_singleton.mp member
  decide +kernel

/-- Without a topology file main prints a summary: no links, and a throughput of -1. -/
theorem main_reads_rightly_missing :
    runExperiment (fun _ => 0) measured ⟨some oneSize, none⟩ 1 [0, 1] = .returned (.error (-1)) ∧
      readResults (resultVector (.error (-1) : Except Int (List LinkStats × List ℚ))) =
        some ⟨0, [], [], some (-1), some (-1), some (-1)⟩ ∧
      ¬ReadsRightly measured (.error (-1)) := by
  refine ⟨by decide +kernel, rfl, ?_⟩
  intro rightly
  cases rightly

end QbbNet
