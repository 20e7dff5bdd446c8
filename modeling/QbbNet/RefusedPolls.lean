import QbbNet.TokenCalls
import Mathlib.Data.Option.Basic
import Mathlib.Order.MinMax

set_option autoImplicit false

/- Attempts that get no token, seen from the bucket: whoever asks later finds what
it would have found without them. -/
namespace QbbNet

namespace TokenBucket

variable {b c : TokenBucket} {now later : Time}

/-- Filling up to one time and then to a later one fills up to the later one. -/
theorem level_add (b : TokenBucket) (le : now ≤ later) :
    b.level later = if b.pps ≤ 0 then b.level now
      else min (b.level now + elapsedSeconds now later * b.pps) b.capacity := by
  rw [level_eq, level_eq]
  split
  · rfl
  · rename_i pps
    have gained := mul_nonneg (elapsedSeconds_nonneg le) (le_of_not_ge pps)
    have full : (b.capacity : ℚ) ≤ b.capacity + elapsedSeconds now later * b.pps := by linarith
    rw [← min_add_add_right, min_assoc, min_eq_right full, add_assoc, ← add_mul,
      elapsedSeconds_add]

/-- Two buckets that cannot be told apart from some time on. -/
structure Alike (now : Time) (b c : TokenBucket) : Prop where
  pps : c.pps = b.pps
  capacity : c.capacity = b.capacity
  left : b.Sound now
  right : c.Sound now
  level : c.level now = b.level now

namespace Alike

theorem refl (sound : b.Sound now) : Alike now b b := ⟨rfl, rfl, sound, sound, rfl⟩

theorem level_later (alike : Alike now b c) (le : now ≤ later) : c.level later = b.level later := by
  rw [level_add c le, level_add b le, alike.pps, alike.capacity, alike.level]

theorem mono (alike : Alike now b c) (le : now ≤ later) : Alike later b c :=
  ⟨alike.pps, alike.capacity, alike.left.mono le, alike.right.mono le, alike.level_later le⟩

/-- As much is taken out of both. -/
theorem asked {b' c' : TokenBucket} {taken : ℚ} (alike : Alike now b c)
    (left : Asked b b' now taken) (right : Asked c c' now taken) : Alike now b' c' where
  pps := right.pps.trans (alike.pps.trans left.pps.symm)
  capacity := right.capacity.trans (alike.capacity.trans left.capacity.symm)
  left := left.sound
  right := right.sound
  level := by rw [right.level, left.level, alike.level]

/-- Nothing is taken out of the one, and the other is left alone. -/
theorem unasked {c' : TokenBucket} (alike : Alike now b c) (right : Asked c c' now 0) :
    Alike now b c' := alike.asked alike.left.asked right

theorem tryConsume_granted (alike : Alike now b c) (pkts : Nat) :
    (c.tryConsume now pkts).1 = (b.tryConsume now pkts).1 := by
  rw [Bool.eq_iff_iff, TokenBucket.tryConsume_granted, TokenBucket.tryConsume_granted, alike.level]

theorem tryConsume (alike : Alike now b c) (pkts : Nat) :
    Alike now (b.tryConsume now pkts).2 (c.tryConsume now pkts).2 := by
  have right := alike.right.tryConsume_asked pkts
  rw [alike.tryConsume_granted] at right
  exact alike.asked (alike.left.tryConsume_asked pkts) right

theorem refund {pkts : Nat} (alike : Alike now b c) (granted : (b.tryConsume now pkts).1 = true) :
    Alike now ((b.tryConsume now pkts).2.refund pkts) ((c.tryConsume now pkts).2.refund pkts) :=
  alike.asked (alike.left.refund_asked granted)
    (alike.right.refund_asked ((alike.tryConsume_granted pkts).trans granted))

end Alike

end TokenBucket

/-- A call that asks for tokens. -/
def TokenCall.isAttempt : TokenCall → Bool
  | .tryConsumeToken _ _ => true
  | .tryConsumeTokenFair _ _ _ => true
  | _ => false

namespace EgressTokenManager

/-- The calls of a run that are granted tokens. -/
def passed (m : EgressTokenManager) : List (Time × TokenCall) → List (Time × TokenCall)
  | [] => []
  | (now, c) :: calls =>
      (if (m.call now c).1 then [(now, c)] else []) ++ (m.call now c).2.passed calls

/-- `more` is `base` with attempts put in that are refused when the manager is
asked in that order. -/
inductive Polled : EgressTokenManager → List (Time × TokenCall) → List (Time × TokenCall) → Prop
  | nil (m : EgressTokenManager) : Polled m [] []
  | call {m : EgressTokenManager} {base more : List (Time × TokenCall)} (now : Time) (c : TokenCall)
      (rest : Polled (m.call now c).2 base more) : Polled m ((now, c) :: base) ((now, c) :: more)
  | refused {m : EgressTokenManager} {base more : List (Time × TokenCall)} (now : Time)
      (c : TokenCall) (attempt : c.isAttempt = true) (refused : (m.call now c).1 = false)
      (rest : Polled (m.call now c).2 base more) : Polled m base ((now, c) :: more)

/-- Two managers with the same arbiters, whose buckets cannot be told apart. -/
structure Alike (now : Time) (m n : EgressTokenManager) : Prop where
  arbiters : n.arbiters = m.arbiters
  buckets : ∀ port, Option.Rel (TokenBucket.Alike now) (m.buckets port) (n.buckets port)

variable {m n : EgressTokenManager} {now later : Time} {port egress ingress pkts : Nat}

namespace Alike

/-- A port has a bucket in both or in neither. -/
theorem bucket (alike : Alike now m n) (port : Nat) :
    m.buckets port = none ∧ n.buckets port = none ∨
      ∃ b c, m.buckets port = some b ∧ n.buckets port = some c ∧ TokenBucket.Alike now b c := by
  have rel := alike.buckets port
  cases left : m.buckets port with
  | none =>
    cases right : n.buckets port with
    | none => exact Or.inl ⟨rfl, rfl⟩
    | some c => simp [left, right] at rel
  | some b =>
    cases right : n.buckets port with
    | none => simp [left, right] at rel
    | some c => exact Or.inr ⟨b, c, rfl, rfl, by simpa [left, right] using rel⟩

theorem mono (alike : Alike now m n) (le : now ≤ later) : Alike later m n where
  arbiters := alike.arbiters
  buckets port := by
    rcases alike.bucket port with ⟨left, right⟩ | ⟨b, c, left, right, bucket⟩
    · rw [left, right]
      exact .none
    · rw [left, right]
      exact .some (bucket.mono le)

theorem setBucket {b c : TokenBucket} (alike : Alike now m n) (port : Nat)
    (bucket : TokenBucket.Alike now b c) : Alike now (m.setBucket port b) (n.setBucket port c) where
  arbiters := alike.arbiters
  buckets other := by
    unfold EgressTokenManager.setBucket
    rcases eq_or_ne other port with rfl | different
    · simpa using Option.Rel.some bucket
    · simpa [different] using alike.buckets other

theorem setArbiter (alike : Alike now m n) (port : Nat) (arbiter : PortArbiter) :
    Alike now (m.setArbiter port arbiter) (n.setArbiter port arbiter) where
  arbiters := by simp only [EgressTokenManager.setArbiter, alike.arbiters]
  buckets := alike.buckets

theorem registerEgressPort (alike : Alike now m n) (port rate avgPktSize : Nat) :
    Alike now (m.registerEgressPort now port rate avgPktSize)
      (n.registerEgressPort now port rate avgPktSize) := by
  unfold EgressTokenManager.registerEgressPort
  rcases alike.bucket port with ⟨left, right⟩ | ⟨b, c, left, right, bucket⟩
  · rw [left, right]
    exact alike.setBucket port (.refl .new)
  · rw [left, right]
    exact alike

theorem tryConsumeToken (alike : Alike now m n) (port pkts : Nat) :
    (n.tryConsumeToken now port pkts).1 = (m.tryConsumeToken now port pkts).1 ∧
      Alike now (m.tryConsumeToken now port pkts).2 (n.tryConsumeToken now port pkts).2 := by
  unfold EgressTokenManager.tryConsumeToken
  rcases alike.bucket port with ⟨left, right⟩ | ⟨b, c, left, right, bucket⟩
  · rw [left, right]
    exact ⟨rfl, alike⟩
  · rw [left, right]
    exact ⟨bucket.tryConsume_granted pkts, alike.setBucket port (bucket.tryConsume pkts)⟩

theorem tryConsumeTokenFair (alike : Alike now m n) (egress ingress pkts : Nat) :
    (n.tryConsumeTokenFair now egress ingress pkts).1 =
        (m.tryConsumeTokenFair now egress ingress pkts).1 ∧
      Alike now (m.tryConsumeTokenFair now egress ingress pkts).2
        (n.tryConsumeTokenFair now egress ingress pkts).2 := by
  unfold EgressTokenManager.tryConsumeTokenFair
  rcases alike.bucket egress with ⟨left, right⟩ | ⟨b, c, left, right, bucket⟩
  · rw [left, right]
    exact ⟨rfl, alike⟩
  · have taken := alike.setBucket egress (bucket.tryConsume pkts)
    simp only [left, right, bucket.tryConsume_granted, alike.arbiters]
    cases granted : (b.tryConsume now pkts).1 with
    | false => exact ⟨rfl, taken⟩
    | true =>
      simp only [Bool.true_eq_false, ↓reduceIte]
      split
      · exact ⟨rfl, taken⟩
      · split
        · exact ⟨rfl, taken.setArbiter egress _⟩
        · exact ⟨rfl, alike.setBucket egress (bucket.refund granted)⟩

/-- A call is answered alike, and leaves the two alike. -/
theorem call (alike : Alike now m n) (c : TokenCall) :
    (n.call now c).1 = (m.call now c).1 ∧ Alike now (m.call now c).2 (n.call now c).2 := by
  cases c with
  | registerEgressPort port rate avgPktSize =>
    exact ⟨rfl, alike.registerEgressPort port rate avgPktSize⟩
  | registerDemand egress ingress =>
    refine ⟨rfl, ?_⟩
    show Alike now (m.setArbiter egress _) (n.setArbiter egress _)
    rw [alike.arbiters]
    exact alike.setArbiter egress _
  | unregisterDemand egress ingress =>
    refine ⟨rfl, ?_⟩
    show Alike now (m.setArbiter egress _) (n.setArbiter egress _)
    rw [alike.arbiters]
    exact alike.setArbiter egress _
  | tryConsumeToken port pkts => exact alike.tryConsumeToken port pkts
  | tryConsumeTokenFair egress ingress pkts => exact alike.tryConsumeTokenFair egress ingress pkts

theorem refl (sound : ∀ port b, m.buckets port = some b → b.Sound now) : Alike now m m where
  arbiters := rfl
  buckets port := by
    cases bucket : m.buckets port with
    | none => exact .none
    | some b => exact .some (.refl (sound port b bucket))

/-- What the port's bucket has lost to an attempt that is refused comes back. -/
theorem unasked {b after : TokenBucket} (alike : Alike now m n) (bucket : n.buckets port = some b)
    (asked : TokenBucket.Asked b after now 0) {n' : EgressTokenManager}
    (buckets : n'.buckets = Function.update n.buckets port (some after))
    (arbiters : n'.arbiters = n.arbiters) : Alike now m n' where
  arbiters := arbiters.trans alike.arbiters
  buckets other := by
    rw [buckets]
    rcases eq_or_ne other port with rfl | different
    · rcases alike.bucket other with ⟨-, absent⟩ | ⟨b', c, left, right, same⟩
      · rw [bucket] at absent
        cases absent
      · obtain rfl : b = c := Option.some.inj (bucket.symm.trans right)
        rw [left, Function.update_self]
        exact .some (same.unasked asked)
    · rw [Function.update_of_ne different]
      exact alike.buckets other

/-- An attempt that is refused, for lack of tokens or out of turn, is not noticed. -/
theorem refused {c : TokenCall} (alike : Alike now m n) (attempt : c.isAttempt = true)
    (refused : (n.call now c).1 = false) : Alike now m (n.call now c).2 := by
  cases c with
  | registerEgressPort | registerDemand | unregisterDemand => cases attempt
  | tryConsumeToken port pkts =>
    change (n.tryConsumeToken now port pkts).1 = false at refused
    rcases alike.bucket port with ⟨-, absent⟩ | ⟨_, b, -, bucket, same⟩
    · simp [EgressTokenManager.tryConsumeToken, absent] at refused
    · obtain ⟨after, buckets, asked⟩ := tryConsumeToken_bucket bucket same.right pkts
      rw [refused] at asked
      refine alike.unasked bucket asked buckets ?_
      simp [EgressTokenManager.call, EgressTokenManager.tryConsumeToken, bucket,
        EgressTokenManager.setBucket]
  | tryConsumeTokenFair egress ingress pkts =>
    change (n.tryConsumeTokenFair now egress ingress pkts).1 = false at refused
    rcases alike.bucket egress with ⟨-, absent⟩ | ⟨_, b, -, bucket, same⟩
    · simp [EgressTokenManager.tryConsumeTokenFair, absent] at refused
    · obtain ⟨after, buckets, asked⟩ := tryConsumeTokenFair_bucket ingress bucket same.right pkts
      rw [refused] at asked
      exact alike.unasked bucket asked buckets (tryConsumeTokenFair_refused refused)

end Alike

/-- From the last call on, the two runs have left the same. -/
theorem Polled.alike {base more : List (Time × TokenCall)} (polled : n.Polled base more)
    (alike : Alike now m n) (ordered : (now :: more.map (·.1)).Pairwise (· ≤ ·)) :
    ∃ last, (∀ later, now ≤ later → (∀ call ∈ more, call.1 ≤ later) → last ≤ later) ∧
      m.passed base = n.passed more ∧ Alike last (m.run base) (n.run more) := by
  induction polled generalizing m now with
  | nil => exact ⟨now, fun _ le _ => le, rfl, alike⟩
  | @call _ base more next c rest ih =>
    rw [List.map_cons, List.pairwise_cons] at ordered
    obtain ⟨answer, left⟩ := (alike.mono (ordered.1 next List.mem_cons_self)).call c
    obtain ⟨last, early, passed, final⟩ := ih left ordered.2
    refine ⟨last, fun later _ after => ?_, ?_, final⟩
    · obtain ⟨first, others⟩ := List.forall_mem_cons.mp after
      exact early later first others
    · rw [EgressTokenManager.passed, EgressTokenManager.passed, answer, passed]
  | @refused _ base more next c attempt refused rest ih =>
    rw [List.map_cons, List.pairwise_cons] at ordered
    have unnoticed := (alike.mono (ordered.1 next List.mem_cons_self)).refused attempt refused
    obtain ⟨last, early, passed, final⟩ := ih unnoticed ordered.2
    refine ⟨last, fun later _ after => ?_, ?_, final⟩
    · obtain ⟨first, others⟩ := List.forall_mem_cons.mp after
      exact early later first others
    · rw [passed, EgressTokenManager.passed, refused]
      rfl

end EgressTokenManager

/-- Refused attempts, however many and whenever, change neither what is granted nor
the tokens that any port's bucket has at any later time. -/
theorem refused_polls_invisible {m : EgressTokenManager} {start : Time}
    {base more : List (Time × TokenCall)}
    (sound : ∀ port b, m.buckets port = some b → b.Sound start)
    (ordered : (start :: more.map (·.1)).Pairwise (· ≤ ·)) (polled : m.Polled base more) :
    m.passed base = m.passed more ∧ (m.run base).arbiters = (m.run more).arbiters ∧
      ∀ port later, start ≤ later → (∀ call ∈ more, call.1 ≤ later) →
        ((m.run base).buckets port).map (fun b => (b.refill later).tokens) =
          ((m.run more).buckets port).map (fun b => (b.refill later).tokens) := by
  obtain ⟨last, early, passed, final⟩ := polled.alike (.refl sound) ordered
  refine ⟨passed, final.arbiters.symm, fun port later le after => ?_⟩
  rcases (final.mono (early later le after)).bucket port with
    ⟨left, right⟩ | ⟨b, c, left, right, bucket⟩
  · rw [left, right]
  · rw [left, right]
    exact congrArg some bucket.level.symm

/-- A manager with one bucket, of three tokens. -/
def threeTokens : EgressTokenManager := EgressTokenManager.new.setBucket 2 (.new 1000 3 0)

def patientCalls : List (Time × TokenCall) :=
  [(0, .registerDemand 2 1), (0, .registerDemand 2 5), (10000, .tryConsumeTokenFair 2 1 2)]

/-- Port 5 asks out of turn, and then for more than is left. -/
def eagerCalls : List (Time × TokenCall) :=
  [(0, .registerDemand 2 1), (0, .registerDemand 2 5), (10000, .tryConsumeTokenFair 2 5 1),
    (10000, .tryConsumeTokenFair 2 1 2), (20000, .tryConsumeTokenFair 2 5 2)]

theorem refused_polls_invisible_eager :
    threeTokens.passed patientCalls = threeTokens.passed eagerCalls ∧
      threeTokens.passed eagerCalls = [(10000, .tryConsumeTokenFair 2 1 2)] ∧
      ((threeTokens.run patientCalls).buckets 2).map (fun b => (b.refill 1000000).tokens) =
        ((threeTokens.run eagerCalls).buckets 2).map (fun b => (b.refill 1000000).tokens) ∧
      ((threeTokens.run eagerCalls).buckets 2).map (fun b => (b.refill 1000000).tokens) =
        some (199 / 100) := by
  have sound : ∀ port b, threeTokens.buckets port = some b → b.Sound 0 := by
    intro port b bucket
    by_cases registered : port = 2
    · subst registered
      obtain rfl : TokenBucket.new 1000 3 0 = b := by
        simpa [threeTokens, EgressTokenManager.setBucket] using bucket
      exact .new
    · simp [threeTokens, EgressTokenManager.setBucket, registered, EgressTokenManager.new] at bucket
  have polled : threeTokens.Polled patientCalls eagerCalls :=
    .call 0 _ (.call 0 _ (.refused 10000 _ rfl (by decide +kernel)
      (.call 10000 _ (.refused 20000 _ rfl (by decide +kernel) (.nil _)))))
  obtain ⟨passed, -, level⟩ := refused_polls_invisible sound (by decide) polled
  exact ⟨passed, by decide +kernel, level 2 1000000 (by decide) (by decide), by decide +kernel⟩

end QbbNet
