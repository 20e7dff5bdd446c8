import Mathlib.Data.List.Perm.Subperm
import Mathlib.Data.List.Induction
import Mathlib.Data.List.Nodup
import QbbNet.ExperimentSetup

set_option autoImplicit false

/- Whether the loop that draws the pairs of nodes can always finish. -/
namespace QbbNet

/-- The nodes that pickFrom can return. The largest index is a number of 32 bits. -/
def pickable (vec : List UInt32) : List UInt32 := vec.take ((vec.length - 1) % 4294967296 + 1)

theorem mem_pickable {vec : List UInt32} (some_nodes : vec ≠ []) {node : UInt32} :
    node ∈ pickable vec ↔ ∃ draw, pickFrom vec draw = node := by
  have positive := List.length_pos_iff.mpr some_nodes
  have largest : (UInt32.ofNat (vec.length - 1)).toNat = (vec.length - 1) % 4294967296 := rfl
  have below := Nat.mod_le (vec.length - 1) 4294967296
  rw [pickable, List.mem_take_iff_getElem]
  unfold pickFrom getInteger
  rw [largest]
  constructor
  · intro ⟨i, small, at_i⟩
    refine ⟨i, ?_⟩
    rw [Nat.mod_eq_of_lt (by omega), List.getElem?_eq_getElem (by omega), Option.getD_some, at_i]
  · intro ⟨draw, picked⟩
    have small : draw % ((vec.length - 1) % 4294967296 + 1) < (vec.length - 1) % 4294967296 + 1 :=
      Nat.mod_lt draw (Nat.succ_pos _)
    refine ⟨draw % ((vec.length - 1) % 4294967296 + 1), by omega, ?_⟩
    rw [List.getElem?_eq_getElem (by omega), Option.getD_some] at picked
    exact picked

theorem selectDst_apart {edgeNodes : List UInt32} {src dst : UInt32} {draws rest : List Nat}
    (selected : selectDst edgeNodes src draws = some (dst, rest)) :
    dst ≠ src ∧ ∃ draw, pickFrom edgeNodes draw = dst := by
  induction draws with
  | nil => cases selected
  | cons draw draws ih =>
    rw [selectDst] at selected
    by_cases same : pickFrom edgeNodes draw = src
    · exact ih (by simpa [same] using selected)
    · have ⟨picked, _⟩ : pickFrom edgeNodes draw = dst ∧ draws = rest := by
        simpa [same] using selected
      exact ⟨picked ▸ same, draw, picked⟩

theorem choosePairs_apart {edgeNodes : List UInt32} {flows : Nat} {draws : List Nat}
    {pairs : List (UInt32 × UInt32)} (chosen : choosePairs edgeNodes flows draws = some pairs) :
    ∀ pair ∈ pairs, pair.1 ≠ pair.2 ∧
      (∃ draw, pickFrom edgeNodes draw = pair.1) ∧ ∃ draw, pickFrom edgeNodes draw = pair.2 := by
  induction flows generalizing draws pairs with
  | zero =>
    obtain rfl := Option.some.inj chosen
    intro pair member
    cases member
  | succ flows ih =>
    cases draws with
    | nil => cases chosen
    | cons draw draws =>
      rw [choosePairs] at chosen
      cases selected : selectDst edgeNodes (pickFrom edgeNodes draw) draws with
      | none => simp [selected] at chosen
      | some found =>
        have ⟨dst, rest⟩ := found
        simp only [selected, Option.map_eq_some_iff] at chosen
        obtain ⟨later, chosen, rfl⟩ := chosen
        have ⟨apart, picked⟩ := selectDst_apart selected
        intro pair member
        rcases List.mem_cons.mp member with rfl | behind
        · exact ⟨apart.symm, ⟨draw, rfl⟩, picked⟩
        · exact ih chosen pair behind

/-- Whatever source is drawn, some draws end the loop for its destination, and every
pair that is chosen has two nodes. -/
def PairsFinish (flows : Nat) (edgeNodes : List UInt32) : Prop :=
  (0 < flows → ∀ draw, ∃ draws, selectDst edgeNodes (pickFrom edgeNodes draw) draws ≠ none) ∧
  ∀ draws pairs, choosePairs edgeNodes flows draws = some pairs → ∀ pair ∈ pairs, pair.1 ≠ pair.2

theorem pairsFinish_iff {edgeNodes : List UInt32} (some_nodes : edgeNodes ≠ []) (flows : Nat) :
    PairsFinish flows edgeNodes ↔
      flows = 0 ∨ ∃ a ∈ pickable edgeNodes, ∃ b ∈ pickable edgeNodes, a ≠ b := by
  constructor
  · intro ⟨finish, _⟩
    rcases Nat.eq_zero_or_pos flows with none | positive
    · exact .inl none
    · have ⟨draws, ends⟩ := finish positive 0
      obtain ⟨⟨dst, rest⟩, selected⟩ := Option.ne_none_iff_exists'.mp ends
      have ⟨apart, picked⟩ := selectDst_apart selected
      exact .inr ⟨dst, (mem_pickable some_nodes).mpr picked, _,
        (mem_pickable some_nodes).mpr ⟨0, rfl⟩, apart⟩
  · intro two
    refine ⟨?_, fun _ _ chosen pair member => (choosePairs_apart chosen pair member).1⟩
    intro positive draw
    rcases two with none | ⟨a, a_there, b, b_there, apart⟩
    · exact absurd none positive.ne'
    · have ⟨first, picks_a⟩ := (mem_pickable some_nodes).mp a_there
      have ⟨second, picks_b⟩ := (mem_pickable some_nodes).mp b_there
      by_cases same : a = pickFrom edgeNodes draw
      · refine ⟨[second], ?_⟩
        rw [selectDst, picks_b, ← same]
        simp [Ne.symm apart]
      · refine ⟨[first], ?_⟩
        rw [selectDst, picks_a]
        simp [same]

/- The nodes of the links -/

theorem mem_insertNode {node other : UInt32} {nodes : List UInt32} :
    other ∈ insertNode node nodes ↔ other = node ∨ other ∈ nodes := by
  induction nodes with
  | nil => simp [insertNode]
  | cons first rest ih =>
    rw [insertNode]
    by_cases before : node < first
    · rw [if_pos before, List.mem_cons]
    by_cases behind : first < node
    · rw [if_neg before, if_pos behind, List.mem_cons, ih, List.mem_cons]
      tauto
    · have same : node = first :=
        UInt32.le_antisymm (UInt32.not_lt.mp behind) (UInt32.not_lt.mp before)
      rw [if_neg before, if_neg behind, List.mem_cons, same]
      tauto

theorem insertNode_ascending {node : UInt32} {nodes : List UInt32}
    (ascending : nodes.Pairwise (· < ·)) : (insertNode node nodes).Pairwise (· < ·) := by
  induction nodes with
  | nil => exact List.pairwise_singleton _ _
  | cons first rest ih =>
    have ⟨before_rest, later⟩ := List.pairwise_cons.mp ascending
    rw [insertNode]
    by_cases before : node < first
    · rw [if_pos before]
      refine List.pairwise_cons.mpr ⟨?_, ascending⟩
      intro other member
      rcases List.mem_cons.mp member with rfl | behind
      · exact before
      · exact UInt32.lt_trans before (before_rest other behind)
    rw [if_neg before]
    by_cases behind : first < node
    · rw [if_pos behind]
      refine List.pairwise_cons.mpr ⟨?_, ih later⟩
      intro other member
      rcases mem_insertNode.mp member with rfl | there
      · exact behind
      · exact before_rest other there
    · rw [if_neg behind]
      exact ascending

/-- The nodes of the links. -/
def linkEnds (links : List LinkStats) : List UInt32 :=
  links.flatMap fun link => [link.nodeA, link.nodeB]

theorem mem_connectedNodes {links : List LinkStats} {node : UInt32} :
    node ∈ connectedNodes links ↔ node ∈ linkEnds links := by
  induction links using List.reverseRecOn with
  | nil => rfl
  | append_singleton links link ih =>
    unfold connectedNodes linkEnds at ih ⊢
    rw [List.foldl_append, List.flatMap_append, List.mem_append, ← ih]
    simp only [List.foldl_cons, List.foldl_nil, mem_insertNode, List.flatMap_cons, List.flatMap_nil,
      List.append_nil, List.mem_cons, List.not_mem_nil, or_false]
    tauto

theorem connectedNodes_ascending (links : List LinkStats) :
    (connectedNodes links).Pairwise (· < ·) := by
  induction links using List.reverseRecOn with
  | nil => exact .nil
  | append_singleton links link ih =>
    unfold connectedNodes at ih ⊢
    rw [List.foldl_append]
    exact insertNode_ascending (insertNode_ascending ih)

theorem ascending_length {nodes : List UInt32} (ascending : nodes.Pairwise (· < ·)) :
    nodes.length ≤ 4294967296 := by
  have distinct : (nodes.map UInt32.toNat).Nodup := by
    refine List.Pairwise.map _ (fun a b less => ?_) ascending
    exact (UInt32.lt_iff_toNat_lt.mp less).ne
  have within : nodes.map UInt32.toNat ⊆ List.range 4294967296 := by
    intro n member
    have ⟨node, _, same⟩ := List.mem_map.mp member
    rw [List.mem_range, ← same]
    exact node.toNat_lt
  have fewer := (List.subperm_of_subset distinct within).length_le
  rwa [List.length_map, List.length_range] at fewer

/-- There are no more than 2^32 different nodes, so each can be drawn. -/
theorem pickable_connectedNodes (links : List LinkStats) :
    pickable (connectedNodes links) = connectedNodes links := by
  have fewer := ascending_length (connectedNodes_ascending links)
  rw [pickable, Nat.mod_eq_of_lt (by omega)]
  exact List.take_of_length_le (by omega)

theorem installLinks_links {numNodes : Int32} {lines : List Line}
    {installed : List (LinkStats × UInt64)}
    (success : installLinks numNodes lines = some installed) :
    installed.map Prod.fst = lines.filterMap (installLinkAndTrace numNodes) ∧
      ∀ link ∈ installed, dataRateBps link.1.weight = some link.2 := by
  induction lines generalizing installed with
  | nil =>
    obtain rfl := Option.some.inj success
    exact ⟨rfl, fun _ member => by cases member⟩
  | cons line lines ih =>
    rw [installLinks] at success
    cases read : installLinkAndTrace numNodes line with
    | none =>
      rw [read] at success
      rw [List.filterMap_cons_none read]
      exact ih success
    | some link =>
      simp only [read] at success
      cases rate : dataRateBps link.weight with
      | none => simp [rate] at success
      | some bps =>
        simp only [rate, Option.map_eq_some_iff] at success
        obtain ⟨later, found, rfl⟩ := success
        have ⟨links, rates⟩ := ih found
        rw [List.filterMap_cons_some read, List.map_cons, links]
        refine ⟨rfl, ?_⟩
        intro entry member
        rcases List.mem_cons.mp member with rfl | behind
        · exact rate
        · exact rates entry behind

/-- Two different nodes can be drawn: among the ids that the header lists, or if there
are none among the ends of the links. -/
def TwoNodes (header : TopologyHeader) (links : List LinkStats) : Prop :=
  if header.edgeNodes = [] then ∃ a ∈ linkEnds links, ∃ b ∈ linkEnds links, a ≠ b
  else ∃ a ∈ pickable header.edgeNodes, ∃ b ∈ pickable header.edgeNodes, a ≠ b

/-- For a file whose links can be installed and that gives some nodes, the pairs of
nodes can be drawn exactly if there are none or two nodes to draw. -/
theorem pairs_finish {lines : List Line} {installed : List (LinkStats × UInt64)}
    (links : installLinks (TopologyHeader.new.read lines).1.numNodes
      (TopologyHeader.new.read lines).2 =
      some installed)
    (some_nodes : edgeNodesOf (TopologyHeader.new.read lines).1 (installed.map Prod.fst) ≠ [])
    (flows : UInt32) :
    PairsFinish flows.toNat
        (edgeNodesOf (TopologyHeader.new.read lines).1 (installed.map Prod.fst)) ↔
      flows = 0 ∨ TwoNodes (TopologyHeader.new.read lines).1
        ((TopologyHeader.new.read lines).2.filterMap
        (installLinkAndTrace (TopologyHeader.new.read lines).1.numNodes)) := by
  rw [pairsFinish_iff some_nodes, ← (installLinks_links links).1]
  generalize (TopologyHeader.new.read lines).1 = header
  have no_flows : flows.toNat = 0 ↔ flows = 0 := by
    rw [← UInt32.toNat_inj]
    rfl
  rw [no_flows, edgeNodesOf, TwoNodes]
  by_cases unlisted : header.edgeNodes = []
  · rw [if_pos unlisted, if_pos unlisted, pickable_connectedNodes]
    simp only [mem_connectedNodes]
  · rw [if_neg unlisted, if_neg unlisted]

/-- Five nodes, two links. -/
def chainFile : List Line :=
  [['5'], ['2'], ['0', ' ', '3', ' ', '7'], ['3', ' ', '4']]

theorem pairs_finish_chain : PairsFinish 3 [0, 3, 4] := by
  have links : installLinks (TopologyHeader.new.read chainFile).1.numNodes
      (TopologyHeader.new.read chainFile).2 =
        some [(⟨0, 3, 7⟩, 7142860), (⟨3, 4, 100⟩, 500000)] := by
    decide +kernel
  have nodes : edgeNodesOf (TopologyHeader.new.read chainFile).1 [⟨0, 3, 7⟩, ⟨3, 4, 100⟩] =
      [0, 3, 4] := by
    decide +kernel
  have exact_when := pairs_finish links
    (by rw [List.map_cons, List.map_cons, List.map_nil, nodes]; simp) 3
  rw [List.map_cons, List.map_cons, List.map_nil, nodes] at exact_when
  apply exact_when.mpr
  right
  have read : (TopologyHeader.new.read chainFile).2.filterMap (installLinkAndTrace
      (TopologyHeader.new.read chainFile).1.numNodes) = [⟨0, 3, 7⟩, ⟨3, 4, 100⟩] := by
    decide +kernel
  rw [TwoNodes, if_pos (by decide +kernel), read]
  exact ⟨0, by decide, 3, by decide, by decide⟩

/-- Five nodes of which one is listed for the flows, twice, and a link. -/
def lonelyFile : List Line :=
  [['5'], ['1'], edgeNodesPrefix ++ [' ', '3', ' ', '3'], ['0', ' ', '1']]

/-- With one flow, no draws find a destination for node 3. -/
theorem pairs_finish_lonely :
    ∃ installed,
      installLinks (TopologyHeader.new.read lonelyFile).1.numNodes
        (TopologyHeader.new.read lonelyFile).2 = some installed ∧
      edgeNodesOf (TopologyHeader.new.read lonelyFile).1 (installed.map Prod.fst) = [3, 3] ∧
      ¬PairsFinish 1 [3, 3] := by
  refine ⟨[(⟨0, 1, 100⟩, 500000)], by decide +kernel, by decide +kernel, ?_⟩
  rw [pairsFinish_iff (by decide)]
  decide

end QbbNet
