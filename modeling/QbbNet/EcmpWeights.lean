import QbbNet.WeightedChoice

set_option autoImplicit false

/- The weights that ecmpProbability.txt gives a node's equal-cost routes, and how
a hash picks a route by them. -/
namespace QbbNet

/-- `uint64_t sum = 0; for (uint32_t v : w) sum += v;` -/
def sumWeights (weights : List UInt32) : UInt64 :=
  weights.foldl (fun sum v => sum + v.toUInt64) 0

/-- The first `n` weights of a node, if it has as many and they do not sum to 0. -/
def weightPrefix (nodeRawWeights : UInt32 → Option (List UInt32)) (nodeId : UInt32) (n : Nat) :
    Option (List UInt32) :=
  match nodeRawWeights nodeId with
  | none => none
  | some raw =>
      if raw.length < n then none
      else if sumWeights (raw.take n) = 0 then none else some (raw.take n)

theorem weightPrefix_eq_some {nodeRawWeights : UInt32 → Option (List UInt32)} {nodeId : UInt32}
    {n : Nat} {weights : List UInt32} (given : weightPrefix nodeRawWeights nodeId n = some weights) :
    weights.length = n ∧ sumWeights weights ≠ 0 := by
  unfold weightPrefix at given
  split at given
  · cases given
  · split at given
    · cases given
    · split at given
      · cases given
      · rename_i raw enough nonzero
        cases given
        exact ⟨List.length_take_of_le (not_lt.mp enough), nonzero⟩

/-- The weights as they were loaded, and those that were given out before. -/
structure EcmpWeights where
  nodeRawWeights : UInt32 → Option (List UInt32)
  cacheByNodeN : UInt32 × Nat → Option (List UInt32)
  cached : ∀ nodeId n w, cacheByNodeN (nodeId, n) = some w →
    weightPrefix nodeRawWeights nodeId n = some w

namespace EcmpWeights

/-- A file that was just loaded. -/
def load (nodeRawWeights : UInt32 → Option (List UInt32)) : EcmpWeights :=
  ⟨nodeRawWeights, fun _ => none, fun _ _ _ cached => by cases cached⟩

def remember (g : EcmpWeights) (nodeId : UInt32) (n : Nat) (w : List UInt32)
    (found : weightPrefix g.nodeRawWeights nodeId n = some w) : EcmpWeights where
  nodeRawWeights := g.nodeRawWeights
  cacheByNodeN := Function.update g.cacheByNodeN (nodeId, n) (some w)
  cached other m v cached := by
    by_cases same : (other, m) = (nodeId, n)
    · rw [same, Function.update_self, Option.some.injEq] at cached
      rw [Prod.mk.injEq] at same
      rw [same.1, same.2, found, cached]
    · rw [Function.update_of_ne same] at cached
      exact g.cached other m v cached

def getNodeWeights (g : EcmpWeights) (nodeId : UInt32) (n : Nat) :
    Option (List UInt32) × EcmpWeights :=
  match g.cacheByNodeN (nodeId, n) with
  | some w => (some w, g)
  | none =>
      match found : weightPrefix g.nodeRawWeights nodeId n with
      | none => (none, g)
      | some w => (some w, g.remember nodeId n w found)

/-- Whether or not they were given out before, the weights are those of the file. -/
theorem getNodeWeights_eq (g : EcmpWeights) (nodeId : UInt32) (n : Nat) :
    (g.getNodeWeights nodeId n).1 = weightPrefix g.nodeRawWeights nodeId n ∧
      (g.getNodeWeights nodeId n).2.nodeRawWeights = g.nodeRawWeights := by
  unfold getNodeWeights
  split
  · rename_i w hit
    exact ⟨(g.cached nodeId n w hit).symm, rfl⟩
  · split
    · rename_i missing
      exact ⟨missing.symm, rfl⟩
    · rename_i w found
      exact ⟨found.symm, rfl⟩

theorem getNodeWeights_eq_some {g : EcmpWeights} {nodeId : UInt32} {n : Nat} {weights : List UInt32}
    (given : (g.getNodeWeights nodeId n).1 = some weights) :
    weights.length = n ∧ sumWeights weights ≠ 0 := by
  rw [(g.getNodeWeights_eq nodeId n).1] at given
  exact weightPrefix_eq_some given

end EcmpWeights

/-- `(static_cast<uint64_t>(h32) * total) >> 32` -/
def scaleHash (h32 : UInt32) (total : UInt64) : UInt64 := (h32.toUInt64 * total) >>> 32

/-- The loop over the weights: where it breaks, or else their number. -/
def scanWeights (r : UInt64) : UInt64 → List UInt32 → Nat
  | _, [] => 0
  | acc, w :: weights =>
      let acc := acc + w.toUInt64
      if r < acc then 0 else scanWeights r acc weights + 1

/-- The index that the weights give a hash. -/
def weightedIndex (weights : List UInt32) (h32 : UInt32) : UInt32 :=
  let idx := scanWeights (scaleHash h32 (sumWeights weights)) 0 weights
  UInt32.ofNat (if weights.length ≤ idx then weights.length - 1 else idx)

/-- The index of a hash when there are no weights. -/
def equalIndex (paths : Nat) (h32 : UInt32) : UInt32 :=
  (scaleHash h32 (UInt64.ofNat paths)).toUInt32

abbrev sizes (weights : List UInt32) : List Nat := weights.map UInt32.toNat

variable {weights : List UInt32} {h32 : UInt32}

theorem sizes_cons (w : UInt32) (weights : List UInt32) :
    sizes (w :: weights) = w.toNat :: sizes weights := rfl

theorem sumWeights_toNat (weights : List UInt32) :
    (sumWeights weights).toNat = (sizes weights).sum % 2 ^ 64 := by
  have sum_from (from_sum : UInt64) :
      (weights.foldl (fun sum v => sum + v.toUInt64) from_sum).toNat =
        (from_sum.toNat + (sizes weights).sum) % 2 ^ 64 := by
    induction weights generalizing from_sum with
    | nil => simp [Nat.mod_eq_of_lt from_sum.toNat_lt]
    | cons w weights ih =>
      rw [List.foldl_cons, ih, UInt64.toNat_add, UInt32.toNat_toUInt64]
      simp [Nat.add_assoc]
  simpa [sumWeights] using sum_from 0

theorem scaleHash_toNat (h32 : UInt32) (total : UInt64) :
    (scaleHash h32 total).toNat = h32.toNat * total.toNat % 2 ^ 64 / 2 ^ 32 := by
  simp [scaleHash, Nat.shiftRight_eq_div_pow]

/-- What is cut off a product at 64 bits is cut off the scaled hash at 32. -/
theorem scaleHash_sumWeights (weights : List UInt32) (h32 : UInt32) :
    (scaleHash h32 (sumWeights weights)).toNat =
      h32.toNat * (sizes weights).sum / 2 ^ 32 % 2 ^ 32 := by
  rw [scaleHash_toNat, sumWeights_toNat, Nat.mul_mod_mod, show 2 ^ 64 = 2 ^ 32 * 2 ^ 32 from rfl,
    Nat.mod_mul_right_div_self]

theorem scaleHash_lt (h32 : UInt32) (total : UInt64) : (scaleHash h32 total).toNat < 2 ^ 32 := by
  rw [scaleHash_toNat]
  omega

theorem scaleHash_lt_total (h32 : UInt32) {total : UInt64} (some_total : 0 < total.toNat) :
    (scaleHash h32 total).toNat < total.toNat := by
  rw [scaleHash_toNat]
  have cut := Nat.div_le_div_right (c := 2 ^ 32) (Nat.mod_le (h32.toNat * total.toNat) (2 ^ 64))
  exact lt_of_le_of_lt cut (WeightedChoice.scaled_lt h32.toNat_lt some_total)

theorem sizes_le (weights : List UInt32) : ∀ size ∈ sizes weights, size ≤ 2 ^ 32 - 1 := by
  intro size member
  have ⟨w, _, same⟩ := List.mem_map.mp member
  have bound := w.toNat_lt
  omega

/-- Below 2^32 the loop finds the part that the position falls in: no sum it
makes on the way is cut off. -/
theorem scanWeights_within {r acc : UInt64} (small : r.toNat < 2 ^ 32) (reached : acc.toNat ≤ r.toNat)
    (inside : r.toNat < acc.toNat + (sizes weights).sum) :
    WeightedChoice.Within (sizes weights) (r.toNat - acc.toNat) (scanWeights r acc weights) := by
  induction weights generalizing acc with
  | nil => exact absurd inside (by simp [reached])
  | cons w weights ih =>
    have bound := w.toNat_lt
    have sum : (acc + w.toUInt64).toNat = acc.toNat + w.toNat := by
      rw [UInt64.toNat_add, UInt32.toNat_toUInt64]
      omega
    rw [sizes_cons, List.sum_cons] at inside
    unfold scanWeights
    dsimp only
    rw [sizes_cons]
    by_cases passed : r < acc + w.toUInt64
    · rw [if_pos passed, WeightedChoice.within_cons_zero]
      rw [UInt64.lt_iff_toNat_lt, sum] at passed
      omega
    · rw [if_neg passed, WeightedChoice.within_cons_succ]
      rw [UInt64.lt_iff_toNat_lt, sum, not_lt] at passed
      have later := ih (show (acc + w.toUInt64).toNat ≤ r.toNat by omega) (by omega)
      rw [sum, ← Nat.sub_sub] at later
      exact ⟨by omega, later⟩

/-- The loop stops at one of the weights, so its index is not repaired. -/
theorem scanWeights_found (nonzero : sumWeights weights ≠ 0) (h32 : UInt32) :
    WeightedChoice.Within (sizes weights) (scaleHash h32 (sumWeights weights)).toNat
      (scanWeights (scaleHash h32 (sumWeights weights)) 0 weights) := by
  have some_total : 0 < (sumWeights weights).toNat := by
    rw [Nat.pos_iff_ne_zero]
    intro zero
    exact nonzero (UInt64.toNat_inj.mp zero)
  have below := scaleHash_lt_total h32 some_total
  have cut := sumWeights_toNat weights
  have whole := Nat.mod_le (sizes weights).sum (2 ^ 64)
  have inside : (scaleHash h32 (sumWeights weights)).toNat <
      (0 : UInt64).toNat + (sizes weights).sum := by
    show _ < 0 + (sizes weights).sum
    omega
  exact scanWeights_within (scaleHash_lt _ _) (Nat.zero_le _) inside

theorem weightedIndex_toNat (nonzero : sumWeights weights ≠ 0) (h32 : UInt32) :
    scanWeights (scaleHash h32 (sumWeights weights)) 0 weights < weights.length ∧
      (weightedIndex weights h32).toNat =
        scanWeights (scaleHash h32 (sumWeights weights)) 0 weights % 2 ^ 32 := by
  have found := (scanWeights_found nonzero h32).lt_length
  rw [List.length_map] at found
  refine ⟨found, ?_⟩
  rw [weightedIndex, if_neg (not_le.mpr found), UInt32.toNat_ofNat']

theorem equalIndex_toNat (paths : Nat) (h32 : UInt32) :
    (equalIndex paths h32).toNat = h32.toNat * paths % 2 ^ 64 / 2 ^ 32 := by
  have small := scaleHash_lt h32 (UInt64.ofNat paths)
  have cut : (equalIndex paths h32).toNat = (scaleHash h32 (UInt64.ofNat paths)).toNat % 2 ^ 32 :=
    UInt64.toNat_toUInt32 _
  rw [cut, Nat.mod_eq_of_lt small, scaleHash_toNat, UInt64.toNat_ofNat', Nat.mul_mod_mod]

end QbbNet
