import QbbNet.EcmpSafety

set_option autoImplicit false

/- Weights that send the hashes of a node's packets where one wants them. -/
namespace QbbNet

namespace EcmpWeights

/-- The route that a packet takes of `n`, by its hash if it has one. -/
def pick (g : EcmpWeights) (nodeId : UInt32) (n : Nat) : Option UInt32 → Nat
  | none => 0
  | some h32 => (hashIndex (g.getNodeWeights nodeId n).1 n h32).toNat

variable {g : EcmpWeights} {nodeId h32 : UInt32} {n : Nat}

variable (nodeId) in
theorem pick_lt (place : Option UInt32) (some_route : 0 < n) :
    g.pick nodeId n place < n ∧ g.pick nodeId n place < 2 ^ 32 := by
  cases place with
  | none => exact ⟨some_route, Nat.two_pow_pos 32⟩
  | some h32 => exact ⟨hashIndex_lt some_route h32, UInt32.toNat_lt _⟩

end EcmpWeights

namespace Ipv4GlobalRouting

variable {ι : Type} (routing : Ipv4GlobalRouting) (node : Ipv4Node ι) (n : Nat)

/-- The hash that a packet is sent by one of `n` routes by. Without one it takes the first. -/
def place (key : Option FlowKey) : Option UInt32 :=
  if 1 < n ∧ routing.perflowEcmpRouting = true then key.map (·.hash node.heavySalt) else none

/-- Of a single route there is nothing to choose. -/
theorem placed (key other : Option FlowKey) (different : routing.place node n key ≠ routing.place node n other) :
    1 < n := by
  by_contra single
  apply different
  rw [place, place, if_neg fun both => single both.1, if_neg fun both => single both.1]

theorem selectIndex_place (fixed : routing.perflowEcmpRouting = true ∨ routing.randomEcmpRouting = false)
    (draw : UInt32) (key : Option FlowKey) :
    (routing.selectIndex node draw n key).toNat =
      routing.weights.pick node.nodeId n (routing.place node n key) := by
  unfold selectIndex place
  by_cases several : 1 < n
  · rw [if_pos several]
    cases perflow : routing.perflowEcmpRouting with
    | true =>
      rw [if_pos rfl, if_pos ⟨several, rfl⟩]
      cases key with
      | none => rfl
      | some key => rfl
    | false =>
      have undrawn : routing.randomEcmpRouting = false := by simpa [perflow] using fixed
      rw [if_neg (by simp), undrawn, if_neg (by simp), if_neg (by simp)]
      rfl
  · rw [if_neg several, if_neg fun both => several both.1]
    rfl

end Ipv4GlobalRouting

end QbbNet
