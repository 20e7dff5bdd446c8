import QbbNet.EcmpWeights

set_option autoImplicit false

/- Whether weighted ECMP splits the flows in proportion to the weights. -/
namespace QbbNet

open WeightedChoice

/-- A hash picks the route that its scaled value falls to in exact integers; so
every route has its share of the hashes, and equal weights make an equal split. -/
structure SplitsInProportion (weights : List UInt32) : Prop where
  index : ∀ (h32 : UInt32) (i : Nat),
    Within (sizes weights) (h32.toNat * (sizes weights).sum / 2 ^ 32) i ↔
      i = (weightedIndex weights h32).toNat
  share : ∀ i size : Nat, (sizes weights)[i]? = some size →
    |(((Finset.range (2 ^ 32)).filter fun h =>
      (weightedIndex weights (UInt32.ofNat h)).toNat = i).card : ℚ) -
        2 ^ 32 * size / (sizes weights).sum| ≤ 1
  equal : ∀ n w, weights = List.replicate n w → ∀ h32 : UInt32,
    (weightedIndex weights h32).toNat = h32.toNat * n / 2 ^ 32

variable {weights : List UInt32}

theorem shared_of_index (some_total : 0 < (sizes weights).sum)
    (index : ∀ (h32 : UInt32) (i : Nat),
      Within (sizes weights) (h32.toNat * (sizes weights).sum / 2 ^ 32) i ↔
        i = (weightedIndex weights h32).toNat) {i size : Nat}
    (part : (sizes weights)[i]? = some size) :
    |(((Finset.range (2 ^ 32)).filter fun h =>
      (weightedIndex weights (UInt32.ofNat h)).toNat = i).card : ℚ) -
        2 ^ 32 * size / (sizes weights).sum| ≤ 1 := by
  have share := card_share some_total (show 0 < 2 ^ 32 by decide)
    (sum_take_mono (sizes weights) (Nat.le_succ i)) (sum_take_le _)
  have picked : ((Finset.range (2 ^ 32)).filter fun h =>
      (weightedIndex weights (UInt32.ofNat h)).toNat = i) =
      (Finset.range (2 ^ 32)).filter fun h =>
        ((sizes weights).take i).sum ≤ h * (sizes weights).sum / 2 ^ 32 ∧
          h * (sizes weights).sum / 2 ^ 32 < ((sizes weights).take (i + 1)).sum := by
    apply Finset.filter_congr
    intro h member
    have hash : (UInt32.ofNat h).toNat = h := by
      rw [UInt32.toNat_ofNat']
      exact Nat.mod_eq_of_lt (Finset.mem_range.mp member)
    have within := index (UInt32.ofNat h) i
    rw [hash] at within
    rw [eq_comm, ← within]
    rfl
  have length : ((sizes weights).take (i + 1)).sum - ((sizes weights).take i).sum = size := by
    rw [List.take_add_one, List.sum_append, part]
    simp
  rw [picked]
  rw [length] at share
  exact_mod_cast share.le

/-- The greatest hash tells whether scaling is exact: its product must fit into
64 bits, and the route that it picks must have an index of 32 bits. -/
theorem splitsInProportion_iff (nonzero : sumWeights weights ≠ 0) :
    SplitsInProportion weights ↔
      (sizes weights).sum ≤ 2 ^ 32 + 1 ∧
        (2 ^ 32 - 1) * (sizes weights).sum / 2 ^ 32 < ((sizes weights).take (2 ^ 32)).sum := by
  have some_total : 0 < (sizes weights).sum := by
    rw [Nat.pos_iff_ne_zero]
    intro zero
    apply nonzero
    rw [← UInt64.toNat_inj, sumWeights_toNat, zero]
    rfl
  constructor
  · intro split
    have greatest : (UInt32.ofNat (2 ^ 32 - 1)).toNat = 2 ^ 32 - 1 := by decide
    have below : (2 ^ 32 - 1) * (sizes weights).sum / 2 ^ 32 < (sizes weights).sum :=
      scaled_lt (by decide) some_total
    have ⟨i, within⟩ := exists_within below
    have picked := split.index (UInt32.ofNat (2 ^ 32 - 1)) i
    rw [greatest] at picked
    have index := picked.mp within
    have found := scanWeights_found nonzero (UInt32.ofNat (2 ^ 32 - 1))
    have ⟨_, cast⟩ := weightedIndex_toNat nonzero (UInt32.ofNat (2 ^ 32 - 1))
    rw [scaleHash_sumWeights, greatest] at found
    constructor
    · -- a product that is cut off falls to a part that ends before the exact position
      by_contra wide
      generalize scanWeights _ 0 weights = j at found cast
      by_cases same : i = j
      · subst same
        have far := found.far within (sizes_le weights)
        omega
      · have before : i < j := by omega
        have ends := sum_take_mono (sizes weights) (show i + 1 ≤ j from before)
        have reached := found.1
        have passed := within.2
        omega
    · have small := (weightedIndex weights (UInt32.ofNat (2 ^ 32 - 1))).toNat_lt
      exact lt_of_lt_of_le within.2 (sum_take_mono _ (by omega))
  · intro ⟨narrow, short⟩
    have index : ∀ (h32 : UInt32) (i : Nat),
        Within (sizes weights) (h32.toNat * (sizes weights).sum / 2 ^ 32) i ↔
          i = (weightedIndex weights h32).toNat := by
      intro h32 i
      have hash : h32.toNat ≤ 2 ^ 32 - 1 := Nat.le_sub_one_of_lt h32.toNat_lt
      have scaled : h32.toNat * (sizes weights).sum / 2 ^ 32 ≤
          (2 ^ 32 - 1) * (sizes weights).sum / 2 ^ 32 :=
        Nat.div_le_div_right (Nat.mul_le_mul_right _ hash)
      have found := scanWeights_found nonzero h32
      have ⟨_, cast⟩ := weightedIndex_toNat nonzero h32
      rw [scaleHash_sumWeights, Nat.mod_eq_of_lt (by omega)] at found
      generalize scanWeights _ 0 weights = j at found cast
      have fits : j < 2 ^ 32 := by
        by_contra beyond
        have ends := sum_take_mono (sizes weights) (not_lt.mp beyond)
        have reached := found.1
        omega
      rw [cast, Nat.mod_eq_of_lt fits]
      constructor
      · intro within
        exact within.unique found
      · intro same
        exact same ▸ found
    refine ⟨index, fun i size part => shared_of_index some_total index part, ?_⟩
    intro n w equal h32
    subst equal
    have size : sizes (List.replicate n w) = List.replicate n w.toNat := List.map_replicate
    rw [size, List.sum_replicate_nat] at some_total index
    have some_size : 0 < w.toNat := Nat.pos_of_mul_pos_left some_total
    exact ((within_replicate some_size).mp ((index h32 _).mpr rfl)).2

/-- Weights that a node was given split its flows in proportion exactly if their
sum is at most 2^32 + 1 and none beyond the 2^32-th is ever picked. -/
theorem weighted_split (g : EcmpWeights) (nodeId : UInt32) (n : Nat) {weights : List UInt32}
    (given : (g.getNodeWeights nodeId n).1 = some weights) :
    SplitsInProportion weights ↔
      (sizes weights).sum ≤ 2 ^ 32 + 1 ∧
        (2 ^ 32 - 1) * (sizes weights).sum / 2 ^ 32 < ((sizes weights).take (2 ^ 32)).sum := by
  apply splitsInProportion_iff
  exact (EcmpWeights.getNodeWeights_eq_some given).2

theorem weighted_split_thirds : SplitsInProportion [1, 2] :=
  (weighted_split (.load fun _ => some [1, 2, 9]) 4 2 (by decide)).mpr (by decide)

/-- The greatest hash is scaled to 2^32, and the code puts it at 0. -/
theorem weighted_split_wide :
    ∃ (g : EcmpWeights) (weights : List UInt32), (g.getNodeWeights 4 2).1 = some weights ∧
      Within (sizes weights) ((UInt32.ofNat (2 ^ 32 - 1)).toNat * (sizes weights).sum / 2 ^ 32) 1 ∧
      weightedIndex weights (UInt32.ofNat (2 ^ 32 - 1)) = 0 ∧ ¬ SplitsInProportion weights := by
  refine ⟨.load fun _ => some [4294967295, 3], [4294967295, 3], by decide, ?_, by decide, ?_⟩
  · unfold Within
    decide
  · intro split
    have exact_index := (split.index (UInt32.ofNat (2 ^ 32 - 1)) 1).mp (by unfold Within; decide)
    exact absurd exact_index (by decide)

end QbbNet
