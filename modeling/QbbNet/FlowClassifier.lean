import QbbNet.FlowHash
import Mathlib.Data.List.AList

set_option autoImplicit false

/- Ipv4FlowClassifier: the flows that packets are counted by. A std::map is an
association list, whose order nothing here reads. -/
namespace QbbNet

abbrev FlowId := UInt32
abbrev FlowPacketId := UInt32

/-- The IPv4 header as far as a packet is classified and reported by it. -/
structure FlowHeader extends IpHeader where
  fragmentOffset : UInt16
  lastFragment : Bool
  deriving DecidableEq

def FlowHeader.getDscp (header : FlowHeader) : UInt8 := (header.tos &&& 0xFC) >>> 2

structure FiveTuple where
  sourceAddress : UInt32
  destinationAddress : UInt32
  protocol : UInt8
  sourcePort : UInt16
  destinationPort : UInt16
  deriving DecidableEq

/-- The tuple that Classify reads, unless the packet is no TCP or UDP packet with its
ports. -/
def fiveTuple (ipHeader : FlowHeader) (ipPayload : List UInt8) : Option FiveTuple :=
  if 0 < ipHeader.fragmentOffset then none
  else if ipHeader.protocol ≠ 17 ∧ ipHeader.protocol ≠ 6 then none
  else
    match ipPayload with
    | s0 :: s1 :: d0 :: d1 :: _ =>
        some ⟨ipHeader.source, ipHeader.destination, ipHeader.protocol, readNtohU16 s0 s1,
          readNtohU16 d0 d1⟩
    | _ => none

/-- `counts[a]++` -/
def increment {α : Type} [DecidableEq α] (counts : AList fun _ : α => UInt32) (a : α) :
    AList fun _ : α => UInt32 :=
  counts.insert a ((counts.lookup a).getD 0 + 1)

structure Ipv4FlowClassifier where
  lastNewFlowId : FlowId
  flowMap : AList fun _ : FiveTuple => FlowId
  flowPktIdMap : AList fun _ : FlowId => FlowPacketId
  flowDscpMap : AList fun _ : FlowId => AList fun _ : UInt8 => UInt32

namespace Ipv4FlowClassifier

def new : Ipv4FlowClassifier := ⟨0, ∅, ∅, ∅⟩

/-- The flow of a tuple, with a number of its own if it is a new one, and the packet
counted. -/
def flowOf (c : Ipv4FlowClassifier) (tuple : FiveTuple) : FlowId × Ipv4FlowClassifier :=
  match c.flowMap.lookup tuple with
  | none =>
      let newFlowId := c.lastNewFlowId + 1
      (newFlowId,
        { lastNewFlowId := newFlowId
          flowMap := c.flowMap.insert tuple newFlowId
          flowPktIdMap := c.flowPktIdMap.insert newFlowId 0
          flowDscpMap := c.flowDscpMap.insert newFlowId ((c.flowDscpMap.lookup newFlowId).getD ∅) })
  | some flowId => (flowId, { c with flowPktIdMap := increment c.flowPktIdMap flowId })

def countDscp (c : Ipv4FlowClassifier) (flowId : FlowId) (dscp : UInt8) : Ipv4FlowClassifier :=
  { c with flowDscpMap :=
      c.flowDscpMap.insert flowId (increment ((c.flowDscpMap.lookup flowId).getD ∅) dscp) }

/-- Ipv4FlowClassifier::Classify -/
def classify (c : Ipv4FlowClassifier) (ipHeader : FlowHeader) (ipPayload : List UInt8) :
    Option (FlowId × FlowPacketId) × Ipv4FlowClassifier :=
  match fiveTuple ipHeader ipPayload with
  | none => (none, c)
  | some tuple =>
      let found := c.flowOf tuple
      let counted := found.2.countDscp found.1 ipHeader.getDscp
      (some (found.1, (counted.flowPktIdMap.lookup found.1).getD 0), counted)

/-- An unknown number is a fatal error. -/
def findFlow (c : Ipv4FlowClassifier) (flowId : FlowId) : Option FiveTuple :=
  (c.flowMap.entries.find? fun entry => decide (entry.2 = flowId)).map (·.1)

/-- The packets that the probes show the classifier one after another. -/
def classifyAll (c : Ipv4FlowClassifier) :
    List (FlowHeader × List UInt8) → List (Option (FlowId × FlowPacketId)) × Ipv4FlowClassifier
  | [] => ([], c)
  | packet :: packets =>
      let first := c.classify packet.1 packet.2
      let rest := first.2.classifyAll packets
      (first.1 :: rest.1, rest.2)

end Ipv4FlowClassifier

/- The numbers of the tuples -/

section

variable {α : Type} [DecidableEq α]

theorem lookup_increment (counts : AList fun _ : α => UInt32) (a b : α) :
    ((increment counts a).lookup b).getD 0 =
      (counts.lookup b).getD 0 + if b = a then 1 else 0 := by
  unfold increment
  by_cases same : b = a
  · rw [same, AList.lookup_insert, Option.getD_some, if_pos rfl]
  · rw [AList.lookup_insert_ne same, if_neg same, UInt32.add_zero]

theorem eraseDups_snoc (seen : List α) (a : α) :
    (seen ++ [a]).eraseDups = if a ∈ seen then seen.eraseDups else seen.eraseDups ++ [a] := by
  rw [List.eraseDups_append, List.removeAll, List.filter_singleton]
  by_cases old : a ∈ seen <;> simp [old, List.eraseDups_cons]

theorem length_eraseDups_le (seen : List α) : seen.eraseDups.length ≤ seen.length := by
  induction seen using List.reverseRecOn with
  | nil => rfl
  | append_singleton seen a ih =>
    rw [eraseDups_snoc, List.length_append, List.length_singleton]
    split
    · omega
    · rw [List.length_append, List.length_singleton]
      omega

/-- The tuples are numbered in the order in which they appear first. -/
def numberOf (seen : List α) (a : α) : UInt32 := UInt32.ofNat (seen.eraseDups.idxOf a + 1)

theorem numberOf_snoc {seen : List α} {a : α} (old : a ∈ seen) (b : α) :
    numberOf (seen ++ [b]) a = numberOf seen a := by
  unfold numberOf
  rw [eraseDups_snoc]
  split
  · rfl
  · rw [List.idxOf_append_of_mem (List.mem_eraseDups.mpr old)]

theorem numberOf_append {seen : List α} {a : α} (old : a ∈ seen) (more : List α) :
    numberOf (seen ++ more) a = numberOf seen a := by
  induction more using List.reverseRecOn with
  | nil => rw [List.append_nil]
  | append_singleton more b ih =>
    rw [← List.append_assoc, numberOf_snoc (List.mem_append_left more old), ih]

theorem numberOf_new {seen : List α} {a : α} (fresh : a ∉ seen) :
    numberOf (seen ++ [a]) a = UInt32.ofNat (seen.eraseDups.length + 1) := by
  unfold numberOf
  rw [eraseDups_snoc, if_neg fresh,
    List.idxOf_append_of_notMem fun old => fresh (List.mem_eraseDups.mp old), List.idxOf_cons_self,
    Nat.add_zero]

theorem numberOf_inj {seen : List α} (few : seen.length < 2 ^ 32) {a b : α} (old : a ∈ seen)
    (old' : b ∈ seen) : numberOf seen a = numberOf seen b ↔ a = b := by
  refine ⟨fun same => ?_, fun same => by rw [same]⟩
  have short := length_eraseDups_le seen
  have mem := List.mem_eraseDups.mpr old
  have here := List.idxOf_lt_length_of_mem mem
  have there := List.idxOf_lt_length_of_mem (List.mem_eraseDups.mpr old')
  have size : UInt32.size = 2 ^ 32 := rfl
  have numbers := congrArg UInt32.toNat same
  unfold numberOf at numbers
  rw [UInt32.toNat_ofNat_of_lt' (by omega), UInt32.toNat_ofNat_of_lt' (by omega)] at numbers
  exact (List.idxOf_inj mem).mp (by omega)

theorem numberOf_ne {seen : List α} {a b : α} (few : seen.length + 1 < 2 ^ 32) (fresh : a ∉ seen)
    (old : b ∈ seen) : numberOf seen b ≠ numberOf (seen ++ [a]) a := by
  intro same
  rw [← numberOf_snoc old a, numberOf_inj (by rw [List.length_append]; exact few)
    (List.mem_append_left [a] old) List.mem_concat_self] at same
  rw [same] at old
  exact fresh old

end

/-- What the classifier holds when it has seen packets of these tuples, whose code points
are counted. -/
structure Ipv4FlowClassifier.Knows (c : Ipv4FlowClassifier) (tuples : List FiveTuple)
    (counted : List (FiveTuple × UInt8)) : Prop where
  last : c.lastNewFlowId = UInt32.ofNat tuples.eraseDups.length
  flow : ∀ tuple, c.flowMap.lookup tuple =
    if tuple ∈ tuples then some (numberOf tuples tuple) else none
  packets : ∀ tuple ∈ tuples, c.flowPktIdMap.lookup (numberOf tuples tuple) =
    some (UInt32.ofNat (tuples.count tuple - 1))
  dscp : ∀ tuple ∈ tuples, ∃ counts, c.flowDscpMap.lookup (numberOf tuples tuple) = some counts ∧
    ∀ dscp, (counts.lookup dscp).getD 0 = UInt32.ofNat (counted.count (tuple, dscp))
  numbers : ∀ flowId ∈ c.flowDscpMap, ∃ tuple ∈ tuples, flowId = numberOf tuples tuple
  known : ∀ entry ∈ counted, entry.1 ∈ tuples

namespace Ipv4FlowClassifier

variable {c : Ipv4FlowClassifier} {tuples : List FiveTuple} {counted : List (FiveTuple × UInt8)}
  {tuple : FiveTuple}

theorem Knows.new : Knows .new [] [] where
  last := rfl
  flow := fun _ => rfl
  packets := fun _ none_seen => absurd none_seen List.not_mem_nil
  dscp := fun _ none_seen => absurd none_seen List.not_mem_nil
  numbers := fun _ none_listed => absurd none_listed (AList.notMem_empty _)
  known := fun _ none_counted => absurd none_counted List.not_mem_nil

theorem Knows.flowOf_old (knows : c.Knows tuples counted) (few : tuples.length + 1 < 2 ^ 32)
    (old : tuple ∈ tuples) :
    (c.flowOf tuple).1 = numberOf (tuples ++ [tuple]) tuple ∧
      (c.flowOf tuple).2.Knows (tuples ++ [tuple]) counted := by
  have found : c.flowOf tuple = (numberOf tuples tuple,
      { c with flowPktIdMap := increment c.flowPktIdMap (numberOf tuples tuple) }) := by
    unfold flowOf
    rw [knows.flow, if_pos old]
  have listed (other : FiveTuple) : other ∈ tuples ++ [tuple] ↔ other ∈ tuples := by
    rw [List.mem_append, List.mem_singleton, or_iff_left_iff_imp]
    rintro rfl
    exact old
  rw [found, numberOf_snoc old]
  refine ⟨rfl, ?_, fun other => ?_, fun other mem => ?_, fun other mem => ?_, fun flowId mem => ?_,
    fun entry mem => (listed _).mpr (knows.known entry mem)⟩
  · rw [eraseDups_snoc, if_pos old]
    exact knows.last
  · show c.flowMap.lookup other = _
    rw [knows.flow]
    by_cases seen : other ∈ tuples
    · rw [if_pos seen, if_pos ((listed other).mpr seen), numberOf_snoc seen]
    · rw [if_neg seen, if_neg (fun mem => seen ((listed other).mp mem))]
  · have seen := (listed other).mp mem
    rw [numberOf_snoc seen, List.count_append, List.count_singleton]
    show (increment c.flowPktIdMap (numberOf tuples tuple)).lookup (numberOf tuples other) = _
    unfold increment
    by_cases same : other = tuple
    · have positive := List.count_pos_iff.mpr old
      rw [same, AList.lookup_insert, knows.packets tuple old, Option.getD_some, beq_self_eq_true,
        if_pos rfl, ← UInt32.ofNat_one, ← UInt32.ofNat_add]
      congr 2
      omega
    · rw [AList.lookup_insert_ne fun alike => same
        ((numberOf_inj (by omega) seen old).mp alike), knows.packets other seen,
        if_neg (by simpa using fun alike => same alike.symm), Nat.add_zero]
  · have seen := (listed other).mp mem
    rw [numberOf_snoc seen]
    exact knows.dscp other seen
  · obtain ⟨other, seen, number⟩ := knows.numbers flowId mem
    exact ⟨other, (listed other).mpr seen, by rw [numberOf_snoc seen]; exact number⟩

theorem Knows.flowOf_new (knows : c.Knows tuples counted) (few : tuples.length + 1 < 2 ^ 32)
    (fresh : tuple ∉ tuples) :
    (c.flowOf tuple).1 = numberOf (tuples ++ [tuple]) tuple ∧
      (c.flowOf tuple).2.Knows (tuples ++ [tuple]) counted := by
  have number : c.lastNewFlowId + 1 = numberOf (tuples ++ [tuple]) tuple := by
    rw [knows.last, numberOf_new fresh, UInt32.ofNat_add, UInt32.ofNat_one]
  have unused : c.flowDscpMap.lookup (numberOf (tuples ++ [tuple]) tuple) = none := by
    rw [AList.lookup_eq_none]
    intro mem
    obtain ⟨other, old, same⟩ := knows.numbers _ mem
    exact numberOf_ne few fresh old same.symm
  have found : c.flowOf tuple = (numberOf (tuples ++ [tuple]) tuple,
      { lastNewFlowId := numberOf (tuples ++ [tuple]) tuple
        flowMap := c.flowMap.insert tuple (numberOf (tuples ++ [tuple]) tuple)
        flowPktIdMap := c.flowPktIdMap.insert (numberOf (tuples ++ [tuple]) tuple) 0
        flowDscpMap := c.flowDscpMap.insert (numberOf (tuples ++ [tuple]) tuple) ∅ }) := by
    unfold flowOf
    rw [knows.flow, if_neg fresh]
    dsimp only
    rw [number, unused, Option.getD_none]
  have cases (other : FiveTuple) (mem : other ∈ tuples ++ [tuple]) :
      other = tuple ∨ other ∈ tuples ∧ other ≠ tuple := by
    rcases List.mem_append.mp mem with old | same
    · exact Or.inr ⟨old, fun same => fresh (same ▸ old)⟩
    · exact Or.inl (List.mem_singleton.mp same)
  rw [found]
  refine ⟨rfl, ?_, fun other => ?_, fun other mem => ?_, fun other mem => ?_, fun flowId mem => ?_,
    fun entry mem => List.mem_append_left _ (knows.known entry mem)⟩
  · show numberOf (tuples ++ [tuple]) tuple = _
    rw [numberOf_new fresh, eraseDups_snoc, if_neg fresh, List.length_append, List.length_singleton]
  · show (c.flowMap.insert tuple (numberOf (tuples ++ [tuple]) tuple)).lookup other = _
    by_cases same : other = tuple
    · rw [same, AList.lookup_insert, if_pos List.mem_concat_self]
    · rw [AList.lookup_insert_ne same, knows.flow]
      by_cases old : other ∈ tuples
      · rw [if_pos old, if_pos (List.mem_append_left _ old), numberOf_snoc old]
      · rw [if_neg old, if_neg fun mem => (cases other mem).elim same fun seen => old seen.1]
  · show (c.flowPktIdMap.insert (numberOf (tuples ++ [tuple]) tuple) 0).lookup _ = _
    rcases cases other mem with rfl | ⟨old, differ⟩
    · rw [AList.lookup_insert, List.count_append, List.count_eq_zero.mpr fresh, List.count_singleton,
        beq_self_eq_true, if_pos rfl]
      rfl
    · rw [numberOf_snoc old, AList.lookup_insert_ne (numberOf_ne few fresh old),
        knows.packets other old, List.count_append, List.count_singleton,
        if_neg (by simpa using fun alike => differ alike.symm), Nat.add_zero]
  · show ∃ counts, (c.flowDscpMap.insert (numberOf (tuples ++ [tuple]) tuple) ∅).lookup _ = _ ∧ _
    rcases cases other mem with rfl | ⟨old, differ⟩
    · refine ⟨∅, AList.lookup_insert _, fun dscp => ?_⟩
      rw [AList.lookup_empty, Option.getD_none,
        List.count_eq_zero.mpr fun mem => fresh (knows.known _ mem)]
      rfl
    · rw [numberOf_snoc old, AList.lookup_insert_ne (numberOf_ne few fresh old)]
      exact knows.dscp other old
  · rcases (AList.mem_insert _).mp mem with rfl | mem
    · exact ⟨tuple, List.mem_concat_self, rfl⟩
    · obtain ⟨other, old, same⟩ := knows.numbers flowId mem
      exact ⟨other, List.mem_append_left _ old, by rw [numberOf_snoc old]; exact same⟩

theorem Knows.countDscp (knows : c.Knows tuples counted) (few : tuples.length < 2 ^ 32)
    (seen : tuple ∈ tuples) (dscp : UInt8) :
    (c.countDscp (numberOf tuples tuple) dscp).Knows tuples (counted ++ [(tuple, dscp)]) := by
  obtain ⟨counts, listed, each⟩ := knows.dscp tuple seen
  have found : c.countDscp (numberOf tuples tuple) dscp =
      { c with flowDscpMap :=
          c.flowDscpMap.insert (numberOf tuples tuple) (increment counts dscp) } := by
    unfold Ipv4FlowClassifier.countDscp
    rw [listed, Option.getD_some]
  rw [found]
  refine ⟨knows.last, knows.flow, knows.packets, fun other mem => ?_, fun flowId mem => ?_,
    fun entry mem => ?_⟩
  · show ∃ after, (c.flowDscpMap.insert (numberOf tuples tuple) _).lookup _ = some after ∧ _
    by_cases same : other = tuple
    · refine ⟨increment counts dscp, by rw [same, AList.lookup_insert], fun each' => ?_⟩
      rw [lookup_increment, each, same, List.count_append, List.count_singleton, UInt32.ofNat_add]
      by_cases alike : each' = dscp
      · simp [alike]
      · rw [if_neg alike, if_neg (by simpa using fun alike' => alike alike'.symm)]
        rfl
    · obtain ⟨after, listed', each'⟩ := knows.dscp other mem
      refine ⟨after, ?_, fun dscp' => ?_⟩
      · rw [AList.lookup_insert_ne fun alike => same ((numberOf_inj few mem seen).mp alike)]
        exact listed'
      · rw [each', List.count_append, List.count_singleton,
          if_neg (by simpa using fun alike => absurd alike.symm same), Nat.add_zero]
  · rcases (AList.mem_insert _).mp mem with rfl | mem
    · exact ⟨tuple, seen, rfl⟩
    · exact knows.numbers flowId mem
  · rcases List.mem_append.mp mem with old | last
    · exact knows.known entry old
    · rw [List.mem_singleton.mp last]
      exact seen

/-- A packet gets the number of its tuple, and of the packets of the tuple before it. -/
theorem Knows.classify {ipHeader : FlowHeader} {ipPayload : List UInt8}
    (knows : c.Knows tuples counted) (few : tuples.length + 1 < 2 ^ 32)
    (read : fiveTuple ipHeader ipPayload = some tuple) :
    (c.classify ipHeader ipPayload).1 =
        some (numberOf (tuples ++ [tuple]) tuple, UInt32.ofNat (tuples.count tuple)) ∧
      (c.classify ipHeader ipPayload).2.Knows (tuples ++ [tuple])
        (counted ++ [(tuple, ipHeader.getDscp)]) := by
  obtain ⟨number, next⟩ : (c.flowOf tuple).1 = numberOf (tuples ++ [tuple]) tuple ∧
      (c.flowOf tuple).2.Knows (tuples ++ [tuple]) counted := by
    by_cases old : tuple ∈ tuples
    · exact knows.flowOf_old few old
    · exact knows.flowOf_new few old
  have shown := next.countDscp (by rw [List.length_append]; exact few) List.mem_concat_self
    ipHeader.getDscp
  unfold Ipv4FlowClassifier.classify
  rw [read]
  dsimp only
  rw [number]
  refine ⟨?_, shown⟩
  rw [shown.packets tuple List.mem_concat_self, Option.getD_some, List.count_append,
    List.count_singleton, beq_self_eq_true, if_pos rfl, Nat.add_sub_cancel]

/-- The tuples of the packets that are classified, with their code points. -/
def classified (packets : List (FlowHeader × List UInt8)) : List (FiveTuple × UInt8) :=
  packets.filterMap fun packet =>
    (fiveTuple packet.1 packet.2).map fun tuple => (tuple, packet.1.getDscp)

def tuplesOf (packets : List (FlowHeader × List UInt8)) : List FiveTuple :=
  packets.filterMap fun packet => fiveTuple packet.1 packet.2

theorem Knows.findFlow (knows : c.Knows tuples counted) (few : tuples.length < 2 ^ 32)
    (seen : tuple ∈ tuples) : c.findFlow (numberOf tuples tuple) = some tuple := by
  unfold Ipv4FlowClassifier.findFlow
  have listed : c.flowMap.lookup tuple = some (numberOf tuples tuple) := by
    rw [knows.flow, if_pos seen]
  have mem := AList.mem_lookup_iff.mp listed
  cases found : c.flowMap.entries.find? fun entry => decide (entry.2 = numberOf tuples tuple) with
  | none =>
    have missed := List.find?_eq_none.mp found _ mem
    simp at missed
  | some entry =>
    have number := List.find?_some found
    have entry_mem := List.mem_of_find?_eq_some found
    obtain ⟨other, id⟩ := entry
    have lookup : c.flowMap.lookup other = some id := AList.mem_lookup_iff.mpr entry_mem
    rw [knows.flow] at lookup
    split at lookup
    case isFalse => cases lookup
    case isTrue old =>
      have same := (Option.some.inj lookup).trans (of_decide_eq_true number)
      rw [Option.map_some, (numberOf_inj few old seen).mp same]

theorem tuplesOf_append (packets more : List (FlowHeader × List UInt8)) :
    tuplesOf (packets ++ more) = tuplesOf packets ++ tuplesOf more := List.filterMap_append

theorem length_tuplesOf_le (packets : List (FlowHeader × List UInt8)) :
    (tuplesOf packets).length ≤ packets.length := List.length_filterMap_le _ _

theorem Knows.next {before : List (FlowHeader × List UInt8)} (packet : FlowHeader × List UInt8)
    (knows : c.Knows (tuplesOf before) (classified before)) (few : before.length + 1 < 2 ^ 32) :
    (c.classify packet.1 packet.2).1 = ((fiveTuple packet.1 packet.2).map fun tuple =>
        (numberOf (tuplesOf (before ++ [packet])) tuple,
          UInt32.ofNat ((tuplesOf before).count tuple))) ∧
      (c.classify packet.1 packet.2).2.Knows (tuplesOf (before ++ [packet]))
        (classified (before ++ [packet])) := by
  have short := length_tuplesOf_le before
  unfold classified at knows ⊢
  rw [tuplesOf_append, List.filterMap_append]
  cases read : fiveTuple packet.1 packet.2 with
  | none =>
    have alone : tuplesOf [packet] = [] := List.filterMap_cons_none read
    have same : c.classify packet.1 packet.2 = (none, c) := by
      unfold Ipv4FlowClassifier.classify
      rw [read]
    rw [same, alone, List.filterMap_cons_none (by rw [read]; rfl), List.filterMap_nil,
      List.append_nil, List.append_nil]
    exact ⟨rfl, knows⟩
  | some tuple =>
    have alone : tuplesOf [packet] = [tuple] := List.filterMap_cons_some read
    rw [alone, List.filterMap_cons_some (by rw [read]; rfl), List.filterMap_nil]
    exact knows.classify (by omega) read

theorem Knows.classifyAll (packets : List (FlowHeader × List UInt8)) :
    ∀ {c : Ipv4FlowClassifier} {before : List (FlowHeader × List UInt8)},
      c.Knows (tuplesOf before) (classified before) → (before ++ packets).length < 2 ^ 32 →
      (c.classifyAll packets).2.Knows (tuplesOf (before ++ packets)) (classified (before ++ packets)) ∧
      ∀ i packet, packets[i]? = some packet → (c.classifyAll packets).1[i]? =
        some ((fiveTuple packet.1 packet.2).map fun tuple =>
          (numberOf (tuplesOf (before ++ packets)) tuple,
            UInt32.ofNat ((tuplesOf (before ++ packets.take i)).count tuple))) := by
  induction packets with
  | nil =>
    intro c before knows _
    rw [List.append_nil]
    exact ⟨knows, fun i packet there => by cases there⟩
  | cons packet packets ih =>
    intro c before knows few
    obtain ⟨first, after⟩ := knows.next packet
      (by rw [List.length_append, List.length_cons] at few; omega)
    have split : before ++ packet :: packets = before ++ [packet] ++ packets := by
      rw [List.append_assoc, List.singleton_append]
    obtain ⟨last, rest⟩ := ih after (by rw [← split]; exact few)
    refine ⟨by rw [split]; exact last, fun i other there => ?_⟩
    cases i with
    | zero =>
      obtain rfl := Option.some.inj there
      show some (c.classify packet.1 packet.2).1 = _
      rw [first, List.take_zero, List.append_nil]
      cases read : fiveTuple packet.1 packet.2 with
      | none => rfl
      | some tuple =>
        have seen : tuple ∈ tuplesOf (before ++ [packet]) := by
          rw [tuplesOf_append]
          exact List.mem_append_right _ (List.mem_filterMap.mpr ⟨packet, List.mem_singleton_self _, read⟩)
        rw [Option.map_some, Option.map_some, split, tuplesOf_append (before ++ [packet]),
          numberOf_append seen]
    | succ i =>
      have later := rest i other there
      rw [split, List.take_succ_cons, show before ++ packet :: packets.take i =
        before ++ [packet] ++ packets.take i by rw [List.append_assoc, List.singleton_append]]
      exact later

/-- Over every run of the classifier two packets are of one flow exactly if their tuples
are the same, each packet is numbered by the packets of its flow before it, and the number
of a flow leads back to its tuple and to the counts of its code points. -/
theorem classifyAll_numbers (packets : List (FlowHeader × List UInt8))
    (few : packets.length < 2 ^ 32) :
    (∀ i packet, packets[i]? = some packet → (new.classifyAll packets).1[i]? =
      some ((fiveTuple packet.1 packet.2).map fun tuple => (numberOf (tuplesOf packets) tuple,
        UInt32.ofNat ((tuplesOf (packets.take i)).count tuple)))) ∧
    (∀ first ∈ tuplesOf packets, ∀ second ∈ tuplesOf packets,
      numberOf (tuplesOf packets) first = numberOf (tuplesOf packets) second ↔ first = second) ∧
    ∀ tuple ∈ tuplesOf packets,
      (new.classifyAll packets).2.findFlow (numberOf (tuplesOf packets) tuple) = some tuple ∧
      ∃ counts, (new.classifyAll packets).2.flowDscpMap.lookup (numberOf (tuplesOf packets) tuple) =
          some counts ∧
        ∀ dscp, (counts.lookup dscp).getD 0 =
          UInt32.ofNat ((classified packets).count (tuple, dscp)) := by
  have few' := lt_of_le_of_lt (length_tuplesOf_le packets) few
  have start : new.Knows (tuplesOf []) (classified []) := .new
  obtain ⟨knows, numbered⟩ := start.classifyAll packets few
  exact ⟨numbered, fun _ old _ old' => numberOf_inj few' old old',
    fun tuple seen => ⟨knows.findFlow few' seen, knows.dscp tuple seen⟩⟩

def datagramTo (destinationPort : UInt8) : FlowHeader × List UInt8 :=
  (⟨⟨⟨0⟩, 20, 8, 17, 0x0a000001, 0x0a000002⟩, 0, true⟩, [0, 7, 0, destinationPort, 0, 8, 0, 0])

theorem classifyAll_numbers_datagrams :
    (new.classifyAll [datagramTo 80, datagramTo 90, datagramTo 80]).1[2]? = some (some (1, 1)) := by
  rw [(classifyAll_numbers [datagramTo 80, datagramTo 90, datagramTo 80] (by decide)).1 2 _ rfl]
  decide +kernel

end Ipv4FlowClassifier

end QbbNet
