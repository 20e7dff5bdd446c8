import QbbNet.SpfCalculation
import Mathlib.Data.List.Sort

set_option autoImplicit false

/- The candidate queue stays in order, and merged exits are in order without repetition. -/
namespace QbbNet

namespace NodeExit

variable {a b c : NodeExit}

theorem lt_iff :
    a.lt b = true ↔ a.nextHop < b.nextHop ∨ (a.nextHop = b.nextHop ∧ a.outIf < b.outIf) := by
  simp [NodeExit.lt]

theorem lt_trans (first : a.lt b = true) (second : b.lt c = true) : a.lt c = true := by
  rw [lt_iff, UInt32.lt_iff_toNat_lt, ← UInt32.toNat_inj] at *
  omega

theorem lt_or_eq (different : a ≠ b) (later : b.lt a = false) : a.lt b = true := by
  obtain ⟨hop, out⟩ := a
  obtain ⟨hop', out'⟩ := b
  rw [← Bool.not_eq_true, lt_iff] at later
  rw [lt_iff]
  simp only [UInt32.lt_iff_toNat_lt, ← UInt32.toNat_inj] at *
  have apart : ¬ (hop.toNat = hop'.toNat ∧ out = out') := by
    rintro ⟨same, rfl⟩
    exact different (by rw [UInt32.toNat_inj.mp same])
  omega

theorem le_total (a b : NodeExit) : (!b.lt a || !a.lt b) = true := by
  cases behind : b.lt a with
  | false => rfl
  | true =>
    cases ahead : a.lt b with
    | false => rfl
    | true =>
      rw [lt_iff, UInt32.lt_iff_toNat_lt, ← UInt32.toNat_inj] at behind ahead
      omega

theorem le_trans (a b c : NodeExit) (first : (!b.lt a) = true) (second : (!c.lt b) = true) :
    (!c.lt a) = true := by
  rw [Bool.not_eq_true', ← Bool.not_eq_true, lt_iff, UInt32.lt_iff_toNat_lt,
    ← UInt32.toNat_inj] at *
  omega

end NodeExit

theorem mem_unique {α : Type} [DecidableEq α] {x : α} (xs : List α) : x ∈ unique xs ↔ x ∈ xs := by
  fun_induction unique xs with
  | case1 b rest equal => simp_all
  | case2 a b rest different equal => simp_all
  | case3 few => rfl

/-- The exits are in strict order. -/
def InOrder (exits : List NodeExit) : Prop := exits.Pairwise fun a b => a.lt b = true

theorem inOrder_unique {exits : List NodeExit} (sorted : exits.Pairwise fun a b => b.lt a = false) :
    InOrder (unique exits) := by
  fun_induction unique exits with
  | case1 b rest ih => exact ih (List.pairwise_cons.mp sorted).2
  | case2 a b rest different ih =>
    obtain ⟨after, later⟩ := List.pairwise_cons.mp sorted
    have next : a.lt b = true := NodeExit.lt_or_eq different (after b List.mem_cons_self)
    refine List.pairwise_cons.mpr ⟨fun x mem => ?_, ih later⟩
    rcases List.mem_cons.mp ((mem_unique _).mp mem) with rfl | mem
    · exact next
    · by_cases same : b = x
      · exact same ▸ next
      · exact NodeExit.lt_trans next
          (NodeExit.lt_or_eq same ((List.pairwise_cons.mp later).1 x mem))
  | case3 few short =>
    cases few with
    | nil => exact List.Pairwise.nil
    | cons a few =>
      cases few with
      | nil => exact List.pairwise_singleton _ a
      | cons b rest => exact absurd rfl (short a b rest)

theorem SPFVertex.mergeRootExitDirections_inOrder (v w : SPFVertex) :
    InOrder (v.mergeRootExitDirections w).ecmpRootExits := by
  apply inOrder_unique
  have sorted : ((v.ecmpRootExits ++ w.ecmpRootExits).mergeSort fun a b => !b.lt a).Pairwise
      fun a b => (!b.lt a) = true :=
    List.pairwise_mergeSort NodeExit.le_trans NodeExit.le_total _
  exact sorted.imp fun later => by simpa using later

theorem SPFVertex.mem_mergeRootExitDirections {v w : SPFVertex} {exit : NodeExit} :
    exit ∈ (v.mergeRootExitDirections w).ecmpRootExits ↔
      exit ∈ v.ecmpRootExits ∨ exit ∈ w.ecmpRootExits := by
  simp only [mergeRootExitDirections, mem_unique, List.mem_mergeSort, List.mem_append]

namespace CandidateQueue

variable {candidates : CandidateQueue} {v w cw : SPFVertex} {id : UInt32}

/-- No vertex is closer than one in front of it. -/
def Sorted (candidates : CandidateQueue) : Prop :=
  candidates.Pairwise fun v1 v2 => v1.distanceFromRoot ≤ v2.distanceFromRoot

variable (candidates v) in
theorem push_perm : (candidates.push v).Perm (v :: candidates) := by
  induction candidates with
  | nil => exact List.Perm.refl _
  | cons first candidates ih =>
    unfold push
    split
    · exact List.Perm.refl _
    · exact (ih.cons first).trans (List.Perm.swap v first candidates)

variable (v) in
theorem push_sorted (sorted : candidates.Sorted) : (candidates.push v).Sorted := by
  induction candidates with
  | nil => exact List.pairwise_singleton _ v
  | cons first candidates ih =>
    obtain ⟨closest, rest⟩ := List.pairwise_cons.mp sorted
    unfold push
    split
    next closer =>
      have le : v.distanceFromRoot ≤ first.distanceFromRoot :=
        UInt32.le_of_lt (of_decide_eq_true closer)
      refine List.pairwise_cons.mpr ⟨fun u mem => ?_, sorted⟩
      rcases List.mem_cons.mp mem with rfl | mem
      · exact le
      · exact UInt32.le_trans le (closest u mem)
    next farther =>
      refine List.pairwise_cons.mpr ⟨fun u mem => ?_, ih rest⟩
      rcases List.mem_cons.mp ((push_perm candidates v).mem_iff.mp mem) with rfl | mem
      · exact UInt32.not_lt.mp (of_decide_eq_false (Bool.not_eq_true _ ▸ farther))
      · exact closest u mem

variable (candidates) in
theorem reorder_perm : candidates.reorder.Perm candidates := List.mergeSort_perm _ _

variable (candidates) in
theorem reorder_sorted : candidates.reorder.Sorted := by
  have sorted : candidates.reorder.Pairwise fun v1 v2 => (!compareSPFVertex v2 v1) = true :=
    List.pairwise_mergeSort (fun a b c first second => by
      simp only [compareSPFVertex, Bool.not_eq_true', decide_eq_false_iff_not,
        UInt32.not_lt] at first second ⊢
      exact UInt32.le_trans first second)
    (fun a b => by
      simp only [compareSPFVertex, Bool.or_eq_true, Bool.not_eq_true', decide_eq_false_iff_not,
        UInt32.not_lt]
      exact UInt32.le_total _ _) candidates
  refine sorted.imp fun {a b} later => ?_
  simpa [compareSPFVertex] using later

theorem mem_write : v ∈ candidates.write cw ↔
    (v = cw ∧ ∃ u ∈ candidates, u.vertexId = cw.vertexId) ∨
      (v ∈ candidates ∧ v.vertexId ≠ cw.vertexId) := by
  unfold write
  rw [List.mem_map]
  constructor
  · rintro ⟨u, mem, rfl⟩
    by_cases written : u.vertexId = cw.vertexId
    · rw [if_pos written]
      exact Or.inl ⟨rfl, u, mem, written⟩
    · rw [if_neg written]
      exact Or.inr ⟨mem, written⟩
  · rintro (⟨rfl, u, mem, written⟩ | ⟨mem, kept⟩)
    · exact ⟨u, mem, if_pos written⟩
    · exact ⟨v, mem, if_neg kept⟩

variable (candidates cw) in
theorem write_ids :
    (candidates.write cw).map (·.vertexId) = candidates.map (·.vertexId) := by
  unfold write
  rw [List.map_map]
  refine List.map_congr_left fun v _ => ?_
  by_cases written : v.vertexId = cw.vertexId
  · simp [written]
  · simp [written]

theorem write_sorted (sorted : candidates.Sorted)
    (same : ∀ v ∈ candidates, v.vertexId = cw.vertexId →
      v.distanceFromRoot = cw.distanceFromRoot) : (candidates.write cw).Sorted := by
  have kept : ∀ v ∈ candidates,
      (if v.vertexId = cw.vertexId then cw else v).distanceFromRoot = v.distanceFromRoot := by
    intro v mem
    by_cases written : v.vertexId = cw.vertexId
    · rw [if_pos written, same v mem written]
    · rw [if_neg written]
  refine List.pairwise_map.mpr (sorted.imp_of_mem fun {a b} mem_a mem_b le => ?_)
  rw [kept a mem_a, kept b mem_b]
  exact le

theorem find_of_mem (nodup : (candidates.map (·.vertexId)).Nodup) (mem : cw ∈ candidates) :
    candidates.find cw.vertexId = some cw := by
  unfold find
  cases found : List.find? (fun v => v.vertexId == cw.vertexId) candidates with
  | none => exact absurd (List.find?_eq_none.mp found cw mem) (by simp)
  | some u =>
    have same : u.vertexId = cw.vertexId := by simpa using List.find?_some found
    rw [List.inj_on_of_nodup_map nodup (List.mem_of_find?_eq_some found) mem same]

theorem write_self (nodup : (candidates.map (·.vertexId)).Nodup) (mem : cw ∈ candidates) :
    candidates.write cw = candidates := by
  unfold write
  rw [List.map_congr_left (g := id), List.map_id]
  intro v member
  by_cases same : v.vertexId = cw.vertexId
  · rw [if_pos same]
    exact (List.inj_on_of_nodup_map nodup member mem same).symm
  · rw [if_neg same]
    rfl

end CandidateQueue

end QbbNet
