import QbbNet.TokenCalls

set_option autoImplicit false

/- Whose turn it is at an egress port, over any calls of its ingress ports. -/
namespace QbbNet.EgressTokenManager

/-- The ingress port that a call is granted a token for, at an egress port. -/
def serves (m : EgressTokenManager) (now : Time) (egress : Nat) : TokenCall → Option Nat
  | .tryConsumeTokenFair port ingress pkts =>
      if port = egress ∧ (m.tryConsumeTokenFair now port ingress pkts).1 then some ingress else none
  | _ => none

/-- The ingress ports that a run of calls serves, in order. -/
def served (m : EgressTokenManager) (egress : Nat) : List (Time × TokenCall) → List Nat
  | [] => []
  | (now, c) :: calls =>
      (m.serves now egress c).toList ++ (m.call now c).2.served egress calls

/-- An ingress port asks for a token only while it is registered. -/
def AsksRegistered (egress : Nat) (m : EgressTokenManager) : TokenCall → Prop
  | .tryConsumeTokenFair port ingress _ =>
      port = egress → ingress ∈ (m.arbiters egress).activeIngressPorts
  | _ => True

/-- What holds at each call of a run, before it is made. -/
def Along (holds : EgressTokenManager → TokenCall → Prop) (m : EgressTokenManager) :
    List (Time × TokenCall) → Prop
  | [] => True
  | (now, c) :: calls => holds m c ∧ Along holds (m.call now c).2 calls

def Registered (egress ingress : Nat) (m : EgressTokenManager) (_ : TokenCall) : Prop :=
  ingress ∈ (m.arbiters egress).activeIngressPorts

instance (egress : Nat) (m : EgressTokenManager) (c : TokenCall) :
    Decidable (AsksRegistered egress m c) := by
  unfold AsksRegistered
  split <;> infer_instance

instance (egress ingress : Nat) (m : EgressTokenManager) (c : TokenCall) :
    Decidable (Registered egress ingress m c) := inferInstanceAs (Decidable (_ ∈ _))

instance decidableAlong {holds : EgressTokenManager → TokenCall → Prop}
    [∀ m c, Decidable (holds m c)] (m : EgressTokenManager) :
    (calls : List (Time × TokenCall)) → Decidable (Along holds m calls)
  | [] => isTrue trivial
  | (now, c) :: calls =>
      @instDecidableAnd _ _ _ (decidableAlong (m.call now c).2 calls)

variable {m : EgressTokenManager} {now : Time} {egress x y : Nat} {c : TokenCall}

theorem serves_eq_some (served : m.serves now egress c = some x) :
    ∃ pkts, c = .tryConsumeTokenFair egress x pkts ∧
      (m.tryConsumeTokenFair now egress x pkts).1 = true := by
  cases c with
  | tryConsumeTokenFair port ingress pkts =>
    unfold serves at served
    dsimp only at served
    by_cases granted : port = egress ∧ (m.tryConsumeTokenFair now port ingress pkts).1 = true
    · rw [if_pos granted, Option.some.injEq] at served
      rw [← granted.1, ← served]
      exact ⟨pkts, rfl, granted.2⟩
    · rw [if_neg granted] at served
      cases served
  | _ => cases served

/-- A port that was registered stays so. -/
theorem call_isSome (registered : (m.buckets egress).isSome) :
    ((m.call now c).2.buckets egress).isSome := by
  have kept {port : Nat} {b : TokenBucket} :
      ((m.setBucket port b).buckets egress).isSome := by
    by_cases same : egress = port
    · simp [setBucket, same]
    · simpa [setBucket, same] using registered
  cases c with
  | registerEgressPort port rate avgPktSize =>
    show ((m.registerEgressPort now port rate avgPktSize).buckets egress).isSome
    unfold registerEgressPort
    split
    · exact registered
    · exact kept
  | registerDemand port ingress => exact registered
  | unregisterDemand port ingress => exact registered
  | tryConsumeToken port pkts =>
    show ((m.tryConsumeToken now port pkts).2.buckets egress).isSome
    unfold tryConsumeToken
    split
    · exact registered
    · exact kept
  | tryConsumeTokenFair port ingress pkts =>
    show ((m.tryConsumeTokenFair now port ingress pkts).2.buckets egress).isSome
    unfold tryConsumeTokenFair
    split
    · exact registered
    · dsimp only
      split
      · exact kept
      · split
        · exact kept
        · split
          · exact kept
          · exact kept

variable (now) in
/-- The turn moves to whoever is served, and only if somebody else is registered. -/
theorem call_turn (registered : (m.buckets egress).isSome)
    (asks : AsksRegistered egress m c) (contender : y ∈ (m.arbiters egress).activeIngressPorts) :
    match m.serves now egress c with
    | none => ((m.call now c).2.arbiters egress).lastServedIngress =
        (m.arbiters egress).lastServedIngress
    | some z => y ≠ z →
        RoundRobin.next (m.arbiters egress).activeIngressPorts
          (m.arbiters egress).lastServedIngress = some z ∧
        ((m.call now c).2.arbiters egress).lastServedIngress = z := by
  cases serve : m.serves now egress c with
  | some z =>
    intro different
    have ⟨pkts, same, granted⟩ := serves_eq_some serve
    subst same
    have ⟨b, bucket⟩ := Option.isSome_iff_exists.mp registered
    exact tryConsumeTokenFair_turn bucket (asks rfl) contender different granted
  | none =>
    cases c with
    | registerEgressPort port rate avgPktSize =>
      show ((m.registerEgressPort now port rate avgPktSize).arbiters egress).lastServedIngress = _
      unfold registerEgressPort
      split <;> rfl
    | registerDemand port ingress =>
      by_cases same : egress = port
      · subst same
        simp [call, registerDemand, setArbiter]
      · simp [call, registerDemand, setArbiter, same]
    | unregisterDemand port ingress =>
      by_cases same : egress = port
      · subst same
        simp [call, unregisterDemand, setArbiter]
      · simp [call, unregisterDemand, setArbiter, same]
    | tryConsumeToken port pkts =>
      show ((m.tryConsumeToken now port pkts).2.arbiters egress).lastServedIngress = _
      unfold tryConsumeToken
      split <;> rfl
    | tryConsumeTokenFair port ingress pkts =>
      by_cases same : port = egress
      · subst same
        have refused : (m.tryConsumeTokenFair now port ingress pkts).1 = false := by
          simpa [serves] using serve
        show ((m.tryConsumeTokenFair now port ingress pkts).2.arbiters port).lastServedIngress = _
        rw [tryConsumeTokenFair_refused refused]
      · have kept := (tryConsumeTokenFair_others m now ingress (Ne.symm same) pkts).2
        exact congrArg PortArbiter.lastServedIngress kept

/-- Until `y` is served, the turn stays short of it, and so it does not come back to `x`. -/
theorem not_served_again {calls : List (Time × TokenCall)} {last : Time × TokenCall}
    (away : y ≠ x) (registered : (m.buckets egress).isSome)
    (protocol : m.Along (AsksRegistered egress) (calls ++ [last]))
    (stays : m.Along (Registered egress y) (calls ++ [last]))
    (short : RoundRobin.Short x y (m.arbiters egress).lastServedIngress)
    (again : (m.run calls).serves last.1 egress last.2 = some x) : y ∈ m.served egress calls := by
  induction calls generalizing m with
  | nil =>
    have turn := call_turn last.1 registered protocol.1 stays.1
    rw [show m.serves last.1 egress last.2 = some x from again] at turn
    have met := (RoundRobin.next_eq_some.mp (turn away).1).2 y stays.1
    exact absurd rfl (short.advance met away.symm away).1
  | cons first rest ih =>
    have turn := call_turn first.1 registered protocol.1 stays.1
    have rest_served := ih (call_isSome registered) protocol.2 stays.2
    cases serve : m.serves first.1 egress first.2 with
    | none =>
      rw [serve] at turn
      have later := rest_served (turn ▸ short) again
      simpa [served, serve] using later
    | some z =>
      rw [serve] at turn
      by_cases same : y = z
      · simp [served, serve, same]
      · have ⟨next, moved⟩ := turn same
        have met := (RoundRobin.next_eq_some.mp next).2 y stays.1
        have later := rest_served (moved ▸ (short.advance met (Ne.symm same) away).2) again
        simp [served, serve, later]

end QbbNet.EgressTokenManager

namespace QbbNet

open EgressTokenManager

/-- Between two grants to an ingress port of a registered egress port, every
other ingress port that stays registered is granted one too. -/
theorem turn_fairness {m : EgressTokenManager} {egress x y : Nat}
    (first second : Time × TokenCall) {between : List (Time × TokenCall)}
    (registered : (m.buckets egress).isSome)
    (protocol : m.Along (AsksRegistered egress) (first :: between ++ [second]))
    (granted : m.serves first.1 egress first.2 = some x)
    (again : (m.run (first :: between)).serves second.1 egress second.2 = some x)
    (other : y ≠ x) (stays : m.Along (Registered egress y) (first :: between ++ [second])) :
    y ∈ (m.run [first]).served egress between := by
  have turn := call_turn first.1 registered protocol.1 stays.1
  rw [granted] at turn
  have short : RoundRobin.Short x y ((m.call first.1 first.2).2.arbiters egress).lastServedIngress :=
    Or.inl (turn other).2
  exact not_served_again other (call_isSome registered) protocol.2 stays.2 short again

def contendedCalls : List (Time × TokenCall) :=
  [(1, .tryConsumeTokenFair 2 1 1), (1, .tryConsumeTokenFair 2 0 1)]

theorem turn_fairness_contended :
    0 ∈ ((((new.registerEgressPort 0 2 8000000 1000).registerDemand 2 0).registerDemand 2 1).run
      [(0, .tryConsumeTokenFair 2 1 1)]).served 2 contendedCalls :=
  turn_fairness (x := 1) (0, .tryConsumeTokenFair 2 1 1) (2, .tryConsumeTokenFair 2 1 1)
    (by decide +kernel) (by decide +kernel) (by decide +kernel) (by decide +kernel) (by decide)
    (by decide +kernel)

/-- At a port that nobody registered there are no turns. -/
theorem turn_fairness_unregistered :
    ∃ (m : EgressTokenManager) (egress x y : Nat) (first second : Time × TokenCall)
      (between : List (Time × TokenCall)),
      m.Along (AsksRegistered egress) (first :: between ++ [second]) ∧
      m.serves first.1 egress first.2 = some x ∧
      (m.run (first :: between)).serves second.1 egress second.2 = some x ∧
      y ≠ x ∧ m.Along (Registered egress y) (first :: between ++ [second]) ∧
      y ∉ (m.run [first]).served egress between :=
  ⟨(new.registerDemand 2 0).registerDemand 2 1, 2, 0, 1, (0, .tryConsumeTokenFair 2 0 1),
    (1, .tryConsumeTokenFair 2 0 1), [], by decide, by decide, by decide, by decide, by decide,
    by decide⟩

end QbbNet
