import QbbNet.GlobalRouting

set_option autoImplicit false

/- That the route which LookupGlobal selects among several is one of them. -/
namespace QbbNet

variable {ι : Type}

theorem hashIndex_lt {g : EcmpWeights} {nodeId : UInt32} {n : Nat} (some_route : 0 < n) (h32 : UInt32) :
    (hashIndex (g.getNodeWeights nodeId n).1 n h32).toNat < n := by
  cases given : (g.getNodeWeights nodeId n).1 with
  | some weights =>
    have ⟨length, nonzero⟩ := EcmpWeights.getNodeWeights_eq_some given
    have ⟨found, cast⟩ := weightedIndex_toNat nonzero h32
    have smaller := Nat.mod_le (scanWeights (scaleHash h32 (sumWeights weights)) 0 weights) (2 ^ 32)
    show (weightedIndex weights h32).toNat < n
    omega
  | none =>
    show (equalIndex n h32).toNat < n
    have scaled : h32.toNat * n / 2 ^ 32 < n := WeightedChoice.scaled_lt h32.toNat_lt some_route
    have cut := Nat.div_le_div_right (c := 2 ^ 32) (Nat.mod_le (h32.toNat * n) (2 ^ 64))
    rw [equalIndex_toNat]
    omega

namespace Ipv4GlobalRouting

variable {routing : Ipv4GlobalRouting} {node : Ipv4Node ι} {n : Nat}

variable (node) in
theorem selectIndex_perflow (perflow : routing.perflowEcmpRouting = true) (draw : UInt32)
    (some_route : 0 < n) (key : Option FlowKey) :
    (routing.selectIndex node draw n key).toNat < n := by
  unfold selectIndex
  by_cases several : 1 < n
  · rw [if_pos several, if_pos perflow]
    cases key with
    | some key => exact hashIndex_lt some_route _
    | none => exact some_route
  · rw [if_neg several]
    exact some_route

variable (node n) in
/-- Without the random mode nothing is drawn, and the index is in range. -/
theorem selectIndex_fixed (fixed : routing.randomEcmpRouting = false) (draw : UInt32)
    (key : Option FlowKey) :
    routing.selectIndex node draw n key = routing.selectIndex node 0 n key ∧
      (0 < n → (routing.selectIndex node draw n key).toNat < n) := by
  cases perflow : routing.perflowEcmpRouting with
  | true =>
    refine ⟨?_, fun some_route => selectIndex_perflow node perflow draw some_route key⟩
    simp [selectIndex, perflow]
  | false =>
    have first (number : UInt32) : routing.selectIndex node number n key = 0 := by
      simp [selectIndex, perflow, fixed]
    rw [first, first]
    exact ⟨rfl, fun some_route => some_route⟩

end Ipv4GlobalRouting

/-- In per-flow mode the index is in range, and the loop over the weights ends at
one of them; the weight at an index that fits into 32 bits is not 0. -/
theorem ecmp_selection_safe (routing : Ipv4GlobalRouting) (node : Ipv4Node ι)
    (routes : List Ipv4RoutingTableEntry) (two : 2 ≤ routes.length)
    (perflow : routing.perflowEcmpRouting = true) :
    (∀ draw key, (routing.selectIndex node draw routes.length key).toNat < routes.length) ∧
    ∀ h32 : UInt32,
      (hashIndex (routing.weights.getNodeWeights node.nodeId routes.length).1
        routes.length h32).toNat < routes.length ∧
      ∀ weights, (routing.weights.getNodeWeights node.nodeId routes.length).1 = some weights →
        scanWeights (scaleHash h32 (sumWeights weights)) 0 weights < weights.length ∧
        (routes.length ≤ 2 ^ 32 →
          ∃ weight, weights[(weightedIndex weights h32).toNat]? = some weight ∧ 0 < weight) := by
  have some_route : 0 < routes.length := by omega
  constructor
  · intro draw key
    exact Ipv4GlobalRouting.selectIndex_perflow node perflow draw some_route key
  · intro h32
    refine ⟨hashIndex_lt some_route h32, ?_⟩
    intro weights given
    have ⟨length, nonzero⟩ := EcmpWeights.getNodeWeights_eq_some given
    have ⟨found, cast⟩ := weightedIndex_toNat nonzero h32
    refine ⟨found, ?_⟩
    intro narrow
    have ⟨size, part, positive⟩ := (scanWeights_found nonzero h32).part
    rw [List.getElem?_map, Option.map_eq_some_iff] at part
    have ⟨weight, there, same⟩ := part
    rw [cast, Nat.mod_eq_of_lt (by omega)]
    refine ⟨weight, there, ?_⟩
    rw [UInt32.lt_iff_toNat_lt]
    exact same ▸ positive

def weighingRouting : Ipv4GlobalRouting where
  hostRoutes := []
  networkRoutes := []
  asExternalRoutes := []
  hosts _ member := absurd member List.not_mem_nil
  perflowEcmpRouting := true
  randomEcmpRouting := false
  weights := .load fun _ => some [0, 7, 0]

theorem ecmp_selection_safe_zeros :
    ∃ weight : UInt32, [0, 7, 0][(weightedIndex [0, 7, 0] 4026531840).toNat]? = some weight ∧
      0 < weight :=
  (((ecmp_selection_safe weighingRouting (⟨4, [], [], false, false⟩ : Ipv4Node Nat)
    (List.replicate 3 ⟨0, 0, 0, 0⟩) (by decide) rfl).2 4026531840).2 [0, 7, 0]
      (by decide)).2 (by decide)

/-- Weights of 0, and a last one of 1. -/
def lastOnly (zeros : Nat) : List UInt32 := List.replicate zeros 0 ++ [1]

theorem sumWeights_lastOnly (zeros : Nat) : sumWeights (lastOnly zeros) = 1 := by
  unfold sumWeights lastOnly
  induction zeros with
  | zero => rfl
  | succ zeros ih =>
    rw [List.replicate_succ, List.cons_append, List.foldl_cons]
    exact ih

theorem scanWeights_lastOnly (zeros : Nat) : scanWeights 0 0 (lastOnly zeros) = zeros := by
  unfold lastOnly
  induction zeros with
  | zero => rfl
  | succ zeros ih =>
    rw [List.replicate_succ, List.cons_append]
    exact congrArg (· + 1) ih

/-- An index beyond 32 bits is cut off, so that a route of weight 0 is selected. -/
theorem ecmp_selection_cut_off :
    ∃ (g : EcmpWeights) (n : Nat) (weights : List UInt32) (h32 : UInt32), 2 ≤ n ∧
      (g.getNodeWeights 0 n).1 = some weights ∧
      weights[(hashIndex (g.getNodeWeights 0 n).1 n h32).toNat]? = some 0 := by
  obtain ⟨zeros, wide⟩ : ∃ zeros : Nat, zeros = 2 ^ 32 := ⟨_, rfl⟩
  have length : (lastOnly zeros).length = zeros + 1 := by simp [lastOnly]
  have sum := sumWeights_lastOnly zeros
  have given : ((EcmpWeights.load fun _ => some (lastOnly zeros)).getNodeWeights 0 (zeros + 1)).1 =
      some (lastOnly zeros) := by
    rw [(EcmpWeights.getNodeWeights_eq _ _ _).1]
    unfold weightPrefix EcmpWeights.load
    dsimp only
    rw [if_neg (by omega), List.take_of_length_le length.le, sum, if_neg (by decide)]
  refine ⟨.load fun _ => some (lastOnly zeros), zeros + 1, lastOnly zeros, 0, by omega, given, ?_⟩
  have index : (weightedIndex (lastOnly zeros) 0).toNat = 0 := by
    have some_weight : sumWeights (lastOnly zeros) ≠ 0 := by
      rw [sum]
      decide
    have ⟨_, cast⟩ := weightedIndex_toNat some_weight 0
    rw [cast, sum, show scaleHash 0 1 = 0 from rfl, scanWeights_lastOnly, wide, Nat.mod_self]
  rw [given]
  show (lastOnly zeros)[(weightedIndex (lastOnly zeros) 0).toNat]? = some 0
  rw [index, lastOnly, List.getElem?_append_left (by rw [List.length_replicate]; omega),
    List.getElem?_replicate_of_lt (by omega)]

end QbbNet
