import QbbNet.EgressTokenManager

set_option autoImplicit false

/- The calls to a node's token manager, from any of its devices and in any
order, and how many packets a port's bucket lets pass. -/
namespace QbbNet

inductive TokenCall
  | registerEgressPort (port rate avgPktSize : Nat)
  | registerDemand (egress ingress : Nat)
  | unregisterDemand (egress ingress : Nat)
  | tryConsumeToken (port pkts : Nat)
  | tryConsumeTokenFair (egress ingress pkts : Nat)
  deriving DecidableEq

/-- The packets that a call asks leave for at a port. -/
def TokenCall.packets (port : Nat) : TokenCall → Nat
  | .tryConsumeToken asked pkts => if asked = port then pkts else 0
  | .tryConsumeTokenFair asked _ pkts => if asked = port then pkts else 0
  | _ => 0

namespace EgressTokenManager

/-- A call at a time. Those that return nothing grant nothing. -/
def call (m : EgressTokenManager) (now : Time) : TokenCall → Bool × EgressTokenManager
  | .registerEgressPort port rate avgPktSize => (false, m.registerEgressPort now port rate avgPktSize)
  | .registerDemand egress ingress => (false, m.registerDemand egress ingress)
  | .unregisterDemand egress ingress => (false, m.unregisterDemand egress ingress)
  | .tryConsumeToken port pkts => m.tryConsumeToken now port pkts
  | .tryConsumeTokenFair egress ingress pkts => m.tryConsumeTokenFair now egress ingress pkts

def run (m : EgressTokenManager) : List (Time × TokenCall) → EgressTokenManager
  | [] => m
  | (now, c) :: calls => (m.call now c).2.run calls

/-- The packets that a call gets through a port. -/
def granted (m : EgressTokenManager) (now : Time) (port : Nat) (c : TokenCall) : Nat :=
  if (m.call now c).1 then c.packets port else 0

/-- The packets that each call of a run gets through a port, and when. -/
def grants (m : EgressTokenManager) (port : Nat) : List (Time × TokenCall) → List (Time × Nat)
  | [] => []
  | (now, c) :: calls => (now, m.granted now port c) :: (m.call now c).2.grants port calls

variable {m : EgressTokenManager} {now : Time} {port : Nat} {b : TokenBucket}

theorem tryConsumeToken_bucket (bucket : m.buckets port = some b) (sound : b.Sound now) (pkts : Nat) :
    ∃ after, (m.tryConsumeToken now port pkts).2.buckets = Function.update m.buckets port (some after) ∧
      TokenBucket.Asked b after now (if (m.tryConsumeToken now port pkts).1 then pkts else 0) := by
  unfold tryConsumeToken
  simp only [bucket]
  exact ⟨_, rfl, sound.tryConsume_asked pkts⟩

variable (now) in
/-- A call to another port takes nothing out of this one's bucket. -/
theorem call_others (c : TokenCall) (bucket : m.buckets port = some b)
    (others : ∀ pkts ingress, c ≠ .tryConsumeToken port pkts ∧
      c ≠ .tryConsumeTokenFair port ingress pkts) :
    (m.call now c).2.buckets port = some b ∧ c.packets port = 0 := by
  cases c with
  | registerEgressPort other rate avgPktSize =>
    refine ⟨?_, rfl⟩
    show (m.registerEgressPort now other rate avgPktSize).buckets port = some b
    unfold registerEgressPort
    by_cases same : port = other
    · subst same
      simp [bucket]
    · cases m.buckets other with
      | some _ => exact bucket
      | none => simp [setBucket, same, bucket]
  | registerDemand egress ingress => exact ⟨bucket, rfl⟩
  | unregisterDemand egress ingress => exact ⟨bucket, rfl⟩
  | tryConsumeToken other pkts =>
    have different : other ≠ port := fun same => (others pkts 0).1 (by rw [same])
    refine ⟨?_, if_neg different⟩
    show (m.tryConsumeToken now other pkts).2.buckets port = some b
    unfold tryConsumeToken
    cases m.buckets other with
    | none => exact bucket
    | some _ => simp [setBucket, different.symm, bucket]
  | tryConsumeTokenFair other ingress pkts =>
    have different : other ≠ port := fun same => (others pkts ingress).2 (by rw [same])
    have kept := (tryConsumeTokenFair_others m now ingress different.symm pkts).1
    exact ⟨kept.trans bucket, if_neg different⟩

/-- Whatever the call, the port's bucket is asked for the packets it is granted. -/
theorem call_bucket (c : TokenCall) (bucket : m.buckets port = some b) (sound : b.Sound now) :
    ∃ after, (m.call now c).2.buckets port = some after ∧
      TokenBucket.Asked b after now (m.granted now port c) := by
  have of_update {after : TokenBucket} {buckets : Nat → Option TokenBucket}
      (update : buckets = Function.update m.buckets port (some after)) :
      buckets port = some after := by rw [update, Function.update_self]
  by_cases ours : (∃ pkts, c = .tryConsumeToken port pkts) ∨
      ∃ ingress pkts, c = .tryConsumeTokenFair port ingress pkts
  · rcases ours with ⟨pkts, rfl⟩ | ⟨ingress, pkts, rfl⟩
    · have ⟨after, update, asked⟩ := tryConsumeToken_bucket bucket sound pkts
      refine ⟨after, of_update update, ?_⟩
      simpa [granted, TokenCall.packets, call] using asked
    · have ⟨after, update, asked⟩ := tryConsumeTokenFair_bucket ingress bucket sound pkts
      refine ⟨after, of_update update, ?_⟩
      simpa [granted, TokenCall.packets, call] using asked
  · have others : ∀ pkts ingress, c ≠ .tryConsumeToken port pkts ∧
        c ≠ .tryConsumeTokenFair port ingress pkts := by
      intro pkts ingress
      constructor
      · intro same
        exact ours (Or.inl ⟨pkts, same⟩)
      · intro same
        exact ours (Or.inr ⟨ingress, pkts, same⟩)
    have ⟨kept, nothing⟩ := call_others now c bucket others
    refine ⟨b, kept, ?_⟩
    rw [granted, nothing, ite_self, Nat.cast_zero]
    exact sound.asked

theorem run_serves {calls : List (Time × TokenCall)} (bucket : m.buckets port = some b)
    (sound : b.Sound now) (ordered : (now :: calls.map (·.1)).Pairwise (· ≤ ·)) :
    ∃ last final, (m.run calls).buckets port = some last ∧
      TokenBucket.Serves b now (m.grants port calls) last final := by
  induction calls generalizing m b now with
  | nil => exact ⟨b, now, bucket, .nil b now⟩
  | cons first rest ih =>
    rw [List.map_cons, List.pairwise_cons] at ordered
    have later : now ≤ first.1 := ordered.1 first.1 List.mem_cons_self
    have ⟨after, kept, asked⟩ := call_bucket first.2 bucket (sound.mono later)
    have ⟨last, final, left, serves⟩ := ih kept asked.sound ordered.2
    exact ⟨last, final, left, .cons later asked serves⟩

end EgressTokenManager

/-- A port's bucket is never overdrawn nor overfull, and the packets it lets pass
in any stretch of time are no more than a full bucket and what comes into it. -/
theorem token_conformance {m : EgressTokenManager} {port burst : Nat} {pps : ℚ} {start : Time}
    {calls : List (Time × TokenCall)}
    (registered : m.buckets port = some (.new pps burst start))
    (ordered : (start :: calls.map (·.1)).Pairwise (· ≤ ·)) :
    (∃ b, (m.run calls).buckets port = some b ∧ b.capacity = burst ∧
      0 ≤ b.tokens ∧ b.tokens ≤ b.capacity) ∧
    ∀ t0 t1, t0 ≤ t1 →
      (TokenBucket.takenWithin t0 t1 (m.grants port calls) : ℚ) ≤
        burst + max pps 0 * TokenBucket.elapsedSeconds t0 t1 := by
  have full : (TokenBucket.new pps burst start).Sound start := .new
  have ⟨last, final, left, serves⟩ := EgressTokenManager.run_serves registered full ordered
  have ⟨sound, _, capacity⟩ := serves.sound full
  constructor
  · exact ⟨last, left, capacity, sound.nonneg, sound.le_capacity⟩
  · intro t0 t1 le
    exact serves.window full le

/-- Port 1 is refunded when it asks out of turn, and refused when no token is left. -/
def mixedCalls : List (Time × TokenCall) :=
  [(0, .registerDemand 2 0), (0, .registerDemand 2 1), (0, .tryConsumeToken 2 1),
    (0, .tryConsumeTokenFair 2 1 1), (0, .tryConsumeTokenFair 2 1 1),
    (0, .tryConsumeTokenFair 2 0 1), (0, .tryConsumeTokenFair 2 1 1),
    (1000000, .tryConsumeTokenFair 2 1 1)]

theorem token_conformance_mixed :
    TokenBucket.takenWithin 0 1000000
        ((EgressTokenManager.new.setBucket 2 (.new 1000 3 0)).grants 2 mixedCalls) = 4 ∧
      (TokenBucket.takenWithin 0 1000000
        ((EgressTokenManager.new.setBucket 2 (.new 1000 3 0)).grants 2 mixedCalls) : ℚ) ≤
          (3 : Nat) + max 1000 0 * TokenBucket.elapsedSeconds 0 1000000 :=
  ⟨by decide +kernel, (token_conformance rfl (by decide)).2 0 1000000 (by decide)⟩

end QbbNet
