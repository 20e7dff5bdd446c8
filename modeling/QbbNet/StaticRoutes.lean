import QbbNet.GlobalRouters

set_option autoImplicit false

/- The route that LookupStatic finds: the longest prefix, and the lowest metric of those. -/
namespace QbbNet

theorem shiftsToZero_le (fuel : Nat) : ∀ mask : UInt32, shiftsToZero fuel mask ≤ fuel := by
  induction fuel with
  | zero => exact fun _ => Nat.le_refl 0
  | succ fuel ih =>
    intro mask
    unfold shiftsToZero
    split
    · exact Nat.zero_le _
    · exact Nat.succ_le_succ (ih _)

theorem prefixLength_le (mask : UInt32) : prefixLength mask ≤ 32 := shiftsToZero_le 32 mask

variable {ι : Type} [DecidableEq ι]

/-- The route is to a network of the destination, over the requested device if there is one. -/
def Ipv4RoutingTableEntry.reaches (route : Ipv4RoutingTableEntry) (node : Ipv4Node ι)
    (oif : Option ι) (dest : UInt32) : Bool :=
  isMatch route.destNetworkMask dest route.dest && Ipv4GlobalRouting.usable node oif route

namespace Ipv4StaticRouting

variable (node : Ipv4Node ι) (oif : Option ι) (dest : UInt32)

/-- A route among some that no other is preferred to. The metric of a host route does
not count. -/
structure Preferred (routes : List (Ipv4RoutingTableEntry × UInt32))
    (route : Ipv4RoutingTableEntry × UInt32) : Prop where
  mem : route ∈ routes
  reaches : route.1.reaches node oif dest = true
  longest : ∀ other ∈ routes, other.1.reaches node oif dest = true →
    prefixLength other.1.destNetworkMask ≤ prefixLength route.1.destNetworkMask
  lowest : ∀ other ∈ routes, other.1.reaches node oif dest = true →
    prefixLength other.1.destNetworkMask = prefixLength route.1.destNetworkMask →
      prefixLength route.1.destNetworkMask = 32 ∨ route.2 ≤ other.2

/-- What the loop knows of the routes that it has seen. -/
def Seen (seen : List (Ipv4RoutingTableEntry × UInt32)) (longest : Nat)
    (shortest : UInt32) : Option Ipv4RoutingTableEntry → Prop
  | none => longest = 0 ∧ shortest = 0xffffffff ∧ ∀ route ∈ seen, route.1.reaches node oif dest = false
  | some j => prefixLength j.destNetworkMask = longest ∧ Preferred node oif dest seen (j, shortest)

variable {node oif dest} {routes seen : List (Ipv4RoutingTableEntry × UInt32)}
variable {route : Ipv4RoutingTableEntry × UInt32} {longest : Nat} {shortest : UInt32}
variable {rtentry : Option Ipv4RoutingTableEntry}

/-- A preferred route stays so next to one that does not compare. -/
theorem Preferred.skip (preferred : Preferred node oif dest seen route)
    {other : Ipv4RoutingTableEntry × UInt32}
    (shorter : other.1.reaches node oif dest = true →
      prefixLength other.1.destNetworkMask ≤ prefixLength route.1.destNetworkMask)
    (dearer : other.1.reaches node oif dest = true →
      prefixLength other.1.destNetworkMask = prefixLength route.1.destNetworkMask →
      prefixLength route.1.destNetworkMask = 32 ∨ route.2 ≤ other.2) :
    Preferred node oif dest (seen ++ [other]) route := by
  obtain ⟨mem, reaches, long, low⟩ := preferred
  refine ⟨List.mem_append_left _ mem, reaches, fun r member => ?_, fun r member => ?_⟩
  · rcases List.mem_append.mp member with old | new
    · exact long r old
    · rw [List.mem_singleton.mp new]
      exact shorter
  · rcases List.mem_append.mp member with old | new
    · exact low r old
    · rw [List.mem_singleton.mp new]
      exact dearer

/-- A route that does not reach the destination changes nothing. -/
theorem Seen.skip_other (known : Seen node oif dest seen longest shortest rtentry)
    (other : route.1.reaches node oif dest = false) :
    Seen node oif dest (seen ++ [route]) longest shortest rtentry := by
  cases rtentry with
  | none =>
    refine ⟨known.1, known.2.1, fun r member => ?_⟩
    rcases List.mem_append.mp member with old | new
    · exact known.2.2 r old
    · rw [List.mem_singleton.mp new]
      exact other
  | some j =>
    refine ⟨known.1, known.2.skip (fun reaches => ?_) fun reaches => ?_⟩
    all_goals
      rw [other] at reaches
      cases reaches

/-- Nor does one with a shorter prefix. -/
theorem Seen.skip_shorter (known : Seen node oif dest seen longest shortest rtentry)
    (shorter : prefixLength route.1.destNetworkMask < longest) :
    Seen node oif dest (seen ++ [route]) longest shortest rtentry := by
  cases rtentry with
  | none =>
    have zero := known.1
    omega
  | some j =>
    obtain ⟨length, preferred⟩ := known
    exact ⟨length, preferred.skip (fun _ => by dsimp only; omega) fun _ same => by
      dsimp only at same
      omega⟩

/-- Nor one with a higher metric. -/
theorem Seen.skip_dearer (known : Seen node oif dest seen longest shortest rtentry)
    (length : prefixLength route.1.destNetworkMask = longest) (dearer : shortest < route.2) :
    Seen node oif dest (seen ++ [route]) longest shortest rtentry := by
  cases rtentry with
  | none =>
    rw [known.2.1, UInt32.lt_iff_toNat_lt] at dearer
    have small := route.2.toNat_lt
    simp only [UInt32.reduceToNat] at dearer
    omega
  | some j =>
    obtain ⟨length_j, preferred⟩ := known
    exact ⟨length_j, preferred.skip (fun _ => by dsimp only; omega) fun _ _ =>
      Or.inr (UInt32.le_of_lt dearer)⟩

/-- A route that is no worse than those seen is preferred to them. -/
theorem Seen.prefer (known : Seen node oif dest seen longest shortest rtentry)
    (reaches : route.1.reaches node oif dest = true)
    (longer : longest < prefixLength route.1.destNetworkMask ∨
      (longest = prefixLength route.1.destNetworkMask ∧ route.2 ≤ shortest)) :
    Preferred node oif dest (seen ++ [route]) route := by
  refine ⟨List.mem_append_right _ List.mem_cons_self, reaches, fun r member reaches_r => ?_,
    fun r member reaches_r same => ?_⟩
  · rcases List.mem_append.mp member with old | new
    · cases rtentry with
      | none => exact absurd reaches_r (by simpa using known.2.2 r old)
      | some j =>
        have le := known.2.longest r old reaches_r
        have length := known.1
        dsimp only at le
        omega
    · rw [List.mem_singleton.mp new]
  · rcases List.mem_append.mp member with old | new
    · cases rtentry with
      | none => exact absurd reaches_r (by simpa using known.2.2 r old)
      | some j =>
        have le := known.2.longest r old reaches_r
        have length := known.1
        dsimp only at le
        obtain longer | ⟨equal, cheaper⟩ := longer
        · omega
        · rcases known.2.lowest r old reaches_r (by dsimp only; omega) with host | low
          · exact Or.inl (by dsimp only at host; omega)
          · exact Or.inr (UInt32.le_trans cheaper low)
    · rw [List.mem_singleton.mp new]
      exact Or.inr (UInt32.le_refl _)

/-- A host route is preferred to all that come after. -/
theorem Preferred.host (preferred : Preferred node oif dest (seen ++ [route]) route)
    (host : prefixLength route.1.destNetworkMask = 32)
    (routes : List (Ipv4RoutingTableEntry × UInt32)) :
    Preferred node oif dest (seen ++ route :: routes) route := by
  refine ⟨List.mem_append_right _ List.mem_cons_self, preferred.reaches, fun r _ _ => ?_,
    fun _ _ _ _ => Or.inl host⟩
  rw [host]
  exact prefixLength_le _

/-- The loop ends with a preferred route, if any reaches the destination. -/
theorem lookupLoop_spec :
    ∀ (routes seen : List (Ipv4RoutingTableEntry × UInt32)) (longest : Nat) (shortest : UInt32)
      (rtentry : Option Ipv4RoutingTableEntry), Seen node oif dest seen longest shortest rtentry →
      match lookupLoop node oif dest routes longest shortest rtentry with
      | none => ∀ route ∈ seen ++ routes, route.1.reaches node oif dest = false
      | some entry => ∃ metric, Preferred node oif dest (seen ++ routes) (entry, metric)
  | [], seen, longest, shortest, rtentry, known => by
      unfold lookupLoop
      rw [List.append_nil]
      cases rtentry with
      | none => exact known.2.2
      | some j => exact ⟨shortest, known.2⟩
  | (j, metric) :: routes, seen, longest, shortest, rtentry, known => by
      have rest {longest shortest rtentry}
          (known : Seen node oif dest (seen ++ [(j, metric)]) longest shortest rtentry) :=
        lookupLoop_spec routes (seen ++ [(j, metric)]) longest shortest rtentry known
      rw [List.append_assoc, List.singleton_append] at rest
      unfold lookupLoop
      dsimp only
      by_cases other : isMatch j.destNetworkMask dest j.dest = false
      · rw [if_pos other]
        exact rest (known.skip_other (by simp [Ipv4RoutingTableEntry.reaches, other]))
      rw [if_neg other]
      by_cases elsewhere : Ipv4GlobalRouting.usable node oif j = false
      · rw [if_pos elsewhere]
        exact rest (known.skip_other (by simp [Ipv4RoutingTableEntry.reaches, elsewhere]))
      · have reaches : j.reaches node oif dest = true := by
          simpa [Ipv4RoutingTableEntry.reaches] using And.intro other elsewhere
        rw [if_neg elsewhere]
        by_cases shorter : prefixLength j.destNetworkMask < longest
        · rw [if_pos shorter]
          exact rest (known.skip_shorter shorter)
        · rw [if_neg shorter]
          by_cases dearer :
              (if longest < prefixLength j.destNetworkMask then 0xffffffff else shortest) < metric
          · have small := metric.toNat_lt
            rw [if_pos dearer]
            by_cases longer : longest < prefixLength j.destNetworkMask
            · rw [if_pos longer, UInt32.lt_iff_toNat_lt] at dearer
              simp only [UInt32.reduceToNat] at dearer
              omega
            · rw [if_neg longer] at dearer ⊢
              have length : prefixLength j.destNetworkMask = longest := by omega
              rw [length]
              exact rest (known.skip_dearer length dearer)
          · have preferred : Preferred node oif dest (seen ++ [(j, metric)]) (j, metric) :=
                known.prefer reaches <| by
              by_cases longer : longest < prefixLength j.destNetworkMask
              · exact Or.inl longer
              · rw [if_neg longer] at dearer
                exact Or.inr ⟨by dsimp only; omega, UInt32.not_lt.mp dearer⟩
            rw [if_neg dearer]
            by_cases host : prefixLength j.destNetworkMask = 32
            · rw [if_pos host]
              exact ⟨metric, preferred.host host routes⟩
            · rw [if_neg host]
              exact rest ⟨rfl, preferred⟩

/-- What LookupStatic has seen when it ends. -/
theorem lookupStatic_spec (static : Ipv4StaticRouting) (node : Ipv4Node ι) (dest : UInt32)
    (oif : Option ι) :
    match static.lookupStatic node dest oif with
    | none => ∀ route ∈ static.networkRoutes, route.1.reaches node oif dest = false
    | some entry => ∃ metric, Preferred node oif dest static.networkRoutes (entry, metric) :=
  lookupLoop_spec static.networkRoutes [] 0 0xffffffff none
    ⟨rfl, rfl, fun _ nowhere => absurd nowhere List.not_mem_nil⟩

theorem lookupStatic_some {static : Ipv4StaticRouting} {entry : Ipv4RoutingTableEntry}
    (found : static.lookupStatic node dest oif = some entry) :
    ∃ metric, Preferred node oif dest static.networkRoutes (entry, metric) := by
  have spec := lookupStatic_spec static node dest oif
  rwa [found] at spec

/-- LookupStatic finds a route exactly if one reaches the destination over the requested
device, and then one with the longest prefix and, unless it is a host route, the lowest
metric of those. -/
theorem lookupStatic_preferred (static : Ipv4StaticRouting) (node : Ipv4Node ι) (dest : UInt32)
    (oif : Option ι) :
    (static.lookupStatic node dest oif = none ↔
      ∀ route ∈ static.networkRoutes, route.1.reaches node oif dest = false) ∧
    ∀ entry, static.lookupStatic node dest oif = some entry →
      ∃ metric, Preferred node oif dest static.networkRoutes (entry, metric) := by
  refine ⟨⟨fun nothing => ?_, fun nothing => ?_⟩, fun entry found => lookupStatic_some found⟩
  · have spec := lookupStatic_spec static node dest oif
    rwa [nothing] at spec
  · cases found : static.lookupStatic node dest oif with
    | none => rfl
    | some entry =>
      obtain ⟨metric, preferred⟩ := lookupStatic_some found
      have reaches := preferred.reaches
      rw [nothing _ preferred.mem] at reaches
      cases reaches

section

omit [DecidableEq ι]

/-- The route to the network of an interface with an address. -/
def connectedRoute (i : Nat) (ifa : Ipv4InterfaceAddress) : Ipv4RoutingTableEntry :=
  ⟨ifa.localAddress &&& ifa.mask, ifa.mask, 0, i⟩

/-- Every static route is a connected one. -/
def Connected (node : Ipv4Node ι) (static : Ipv4StaticRouting) : Prop :=
  ∀ route ∈ static.networkRoutes, ∃ i, ∃ ifa ∈ node.addresses i, route.1 = connectedRoute i ifa

theorem notifyInterfaceUp_connected {node : Ipv4Node ι} {static : Ipv4StaticRouting}
    (connected : static.Connected node) (i : Nat) :
    (notifyInterfaceUp node static i).Connected node := by
  have step (addresses : List Ipv4InterfaceAddress) : addresses ⊆ node.addresses i →
      ∀ static : Ipv4StaticRouting, static.Connected node →
      (addresses.foldl (fun static ifa =>
        if ifa.localAddress ≠ uninitialized ∧ ifa.mask ≠ uninitialized ∧ ifa.mask ≠ 0xffffffff then
          static.addNetworkRouteTo (ifa.localAddress &&& ifa.mask) ifa.mask i
        else static) static).Connected node := by
    induction addresses with
    | nil => exact fun _ _ connected => connected
    | cons ifa addresses ih =>
      intro subset static connected
      obtain ⟨here, later⟩ := List.cons_subset.mp subset
      rw [List.foldl_cons]
      refine ih later _ ?_
      split
      · unfold addNetworkRouteTo
        dsimp only
        split
        · exact connected
        · intro route mem
          rcases List.mem_append.mp mem with old | new
          · exact connected route old
          · rw [List.mem_singleton.mp new]
            exact ⟨i, ifa, here, rfl⟩
      · exact connected
  exact step (node.addresses i) (List.Subset.refl _) static connected

theorem setIpv4_connected (node : Ipv4Node ι) : (setIpv4 node).Connected node := by
  have step (interfaces : List Nat) : ∀ static : Ipv4StaticRouting, static.Connected node →
      (interfaces.foldl (notifyInterfaceUp node) static).Connected node := by
    induction interfaces with
    | nil => exact fun _ connected => connected
    | cons i interfaces ih => exact fun static connected => ih _ (notifyInterfaceUp_connected connected i)
  exact step _ ⟨[]⟩ fun _ nowhere => by cases nowhere

end

end Ipv4StaticRouting

end QbbNet
