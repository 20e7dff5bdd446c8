import QbbNet.RoundRobin
import QbbNet.TokenBucket

set_option autoImplicit false

namespace QbbNet

/-- The round-robin arbiter of one egress port: the ingress ports that have
asked for it, and the one it granted last. -/
structure PortArbiter where
  activeIngressPorts : Finset Nat
  lastServedIngress : Nat

def PortArbiter.new : PortArbiter := ⟨∅, 0⟩

/-- The buckets and arbiters of a node's egress ports. A port without a bucket
was not registered; an arbiter that was never touched is a new one. -/
structure EgressTokenManager where
  buckets : Nat → Option TokenBucket
  arbiters : Nat → PortArbiter

namespace EgressTokenManager

def new : EgressTokenManager := ⟨fun _ => none, fun _ => .new⟩

def setBucket (m : EgressTokenManager) (port : Nat) (b : TokenBucket) : EgressTokenManager :=
  { m with buckets := Function.update m.buckets port (some b) }

def setArbiter (m : EgressTokenManager) (port : Nat) (a : PortArbiter) : EgressTokenManager :=
  { m with arbiters := Function.update m.arbiters port a }

/-- `rate` in bits per second, `avgPktSize` in bytes. -/
def packetRate (rate avgPktSize : Nat) : ℚ :=
  if 0 < avgPktSize then rate / (avgPktSize * 8) else 0

def burst (pps : ℚ) : Nat := max 8 (pps / 1000).floor.toNat

def registerEgressPort (m : EgressTokenManager) (now : Time) (port rate avgPktSize : Nat) :
    EgressTokenManager :=
  match m.buckets port with
  | some _ => m
  | none =>
      let pps := packetRate rate avgPktSize
      m.setBucket port (.new pps (burst pps) now)

def tryConsumeToken (m : EgressTokenManager) (now : Time) (port pkts : Nat) :
    Bool × EgressTokenManager :=
  match m.buckets port with
  | none => (true, m)
  | some bucket =>
      let taken := bucket.tryConsume now pkts
      (taken.1, m.setBucket port taken.2)

def registerDemand (m : EgressTokenManager) (egress ingress : Nat) : EgressTokenManager :=
  let arbiter := m.arbiters egress
  m.setArbiter egress
    { arbiter with activeIngressPorts := insert ingress arbiter.activeIngressPorts }

def unregisterDemand (m : EgressTokenManager) (egress ingress : Nat) : EgressTokenManager :=
  let arbiter := m.arbiters egress
  m.setArbiter egress
    { arbiter with activeIngressPorts := arbiter.activeIngressPorts.erase ingress }

/-- `upper_bound(lastServedIngress)`, wrapping round at the end of the set. -/
def selectNextIngress (arbiter : PortArbiter) : Nat :=
  (RoundRobin.next arbiter.activeIngressPorts arbiter.lastServedIngress).getD 0

def tryConsumeTokenFair (m : EgressTokenManager) (now : Time) (egress ingress pkts : Nat) :
    Bool × EgressTokenManager :=
  match m.buckets egress with
  | none => (true, m)
  | some bucket =>
      let taken := bucket.tryConsume now pkts
      let arbiter := m.arbiters egress
      if taken.1 = false then (false, m.setBucket egress taken.2)
      else if arbiter.activeIngressPorts.card ≤ 1 then (true, m.setBucket egress taken.2)
      else if selectNextIngress arbiter = ingress then
        (true, (m.setBucket egress taken.2).setArbiter egress
          { arbiter with lastServedIngress := ingress })
      else (false, m.setBucket egress (taken.2.refund pkts))

/-- What an ingress drain does for a token: it registers, and asks for one. -/
def ask (m : EgressTokenManager) (now : Time) (egress ingress : Nat) : Bool × EgressTokenManager :=
  (m.registerDemand egress ingress).tryConsumeTokenFair now egress ingress 1

def asking (m : EgressTokenManager) (egress ingress : Nat) : Finset Nat :=
  insert ingress (m.arbiters egress).activeIngressPorts

variable {m : EgressTokenManager} {now : Time} {egress ingress : Nat} {b : TokenBucket}

variable (now ingress) in
theorem ask_unregistered (unregistered : m.buckets egress = none) :
    (m.ask now egress ingress).1 = true ∧ (m.ask now egress ingress).2.buckets = m.buckets := by
  simp [ask, tryConsumeTokenFair, registerDemand, setArbiter, unregistered]

theorem selectNextIngress_eq (arbiter : PortArbiter) (some_port : arbiter.activeIngressPorts.Nonempty) :
    RoundRobin.next arbiter.activeIngressPorts arbiter.lastServedIngress =
      some (selectNextIngress arbiter) := by
  unfold selectNextIngress
  cases first : RoundRobin.next arbiter.activeIngressPorts arbiter.lastServedIngress with
  | none => exact absurd (RoundRobin.next_eq_none.mp first) some_port.ne_empty
  | some port => rfl

/-- A lone candidate is the next one. -/
theorem next_of_card_le_one {candidates : Finset Nat} {last port : Nat} (member : port ∈ candidates)
    (lone : candidates.card ≤ 1) : RoundRobin.next candidates last = some port := by
  refine RoundRobin.next_eq_some.mpr ⟨member, fun other member' => ?_⟩
  obtain rfl := Finset.card_le_one.mp lone other member' port member
  simp only [RoundRobin.Before]
  omega

variable (now ingress) in
/-- A device that asks is granted a token if there is one and it is the device's turn. -/
theorem ask_granted (bucket : m.buckets egress = some b) :
    (m.ask now egress ingress).1 = true ↔ 1 ≤ b.level now ∧
      RoundRobin.next (m.asking egress ingress) (m.arbiters egress).lastServedIngress = some ingress := by
  have registered : (m.registerDemand egress ingress).arbiters egress =
      ⟨m.asking egress ingress, (m.arbiters egress).lastServedIngress⟩ := by
    simp [registerDemand, setArbiter, asking]
  have member : ingress ∈ m.asking egress ingress := Finset.mem_insert_self ..
  have turn := selectNextIngress_eq
    ⟨m.asking egress ingress, (m.arbiters egress).lastServedIngress⟩ ⟨ingress, member⟩
  dsimp only at turn
  have enough : (b.tryConsume now 1).1 = true ↔ 1 ≤ b.level now := by
    rw [TokenBucket.tryConsume_granted, Nat.cast_one]
  have kept : (m.registerDemand egress ingress).buckets = m.buckets := rfl
  unfold ask tryConsumeTokenFair
  simp only [kept, bucket, registered]
  cases taken : (b.tryConsume now 1).1 with
  | false => simpa using fun level => absurd (enough.mpr level) (by simp [taken])
  | true =>
    have level := enough.mp taken
    simp only [Bool.true_eq_false, ↓reduceIte, level, true_and]
    split
    · rename_i lone
      simpa using next_of_card_le_one member lone
    · rw [turn]
      split <;> simp [*]

variable (ingress) in
/-- The bucket is refilled, and the tokens are taken out if they are granted. -/
theorem tryConsumeTokenFair_bucket (bucket : m.buckets egress = some b) (sound : b.Sound now)
    (pkts : Nat) :
    ∃ after, (m.tryConsumeTokenFair now egress ingress pkts).2.buckets =
        Function.update m.buckets egress (some after) ∧
      TokenBucket.Asked b after now
        (if (m.tryConsumeTokenFair now egress ingress pkts).1 then pkts else 0) := by
  have asked := sound.tryConsume_asked pkts
  unfold tryConsumeTokenFair
  simp only [bucket]
  cases taken : (b.tryConsume now pkts).1 with
  | false =>
    rw [taken] at asked
    exact ⟨_, rfl, asked⟩
  | true =>
    rw [taken] at asked
    simp only [Bool.true_eq_false, ↓reduceIte]
    split
    · exact ⟨_, rfl, by simpa using asked⟩
    · split
      · exact ⟨_, rfl, by simpa using asked⟩
      · exact ⟨_, rfl, by simpa using sound.refund_asked taken⟩

variable (ingress) in
/-- What `tryConsumeTokenFair_bucket` says, of a device that asks for one packet. -/
theorem ask_bucket (bucket : m.buckets egress = some b) (sound : b.Sound now) :
    ∃ after, (m.ask now egress ingress).2.buckets = Function.update m.buckets egress (some after) ∧
      TokenBucket.Asked b after now (if (m.ask now egress ingress).1 then 1 else 0) := by
  have asked := tryConsumeTokenFair_bucket (m := m.registerDemand egress ingress) ingress bucket sound 1
  rwa [Nat.cast_one] at asked

theorem tryConsumeTokenFair_refused {pkts : Nat}
    (refused : (m.tryConsumeTokenFair now egress ingress pkts).1 = false) :
    (m.tryConsumeTokenFair now egress ingress pkts).2.arbiters = m.arbiters := by
  revert refused
  unfold tryConsumeTokenFair
  dsimp only
  split
  · intro granted
    cases granted
  · split
    · exact fun _ => rfl
    · split
      · intro granted
        cases granted
      · split
        · intro granted
          cases granted
        · exact fun _ => rfl

/-- A device that is refused stays registered, and the turn stays where it was. -/
theorem ask_refused (refused : (m.ask now egress ingress).1 = false) :
    (m.ask now egress ingress).2.arbiters = Function.update m.arbiters egress
      ⟨m.asking egress ingress, (m.arbiters egress).lastServedIngress⟩ :=
  tryConsumeTokenFair_refused refused

/-- Where others are registered too, whoever is granted had the turn, and takes it. -/
theorem tryConsumeTokenFair_turn {pkts other : Nat} (bucket : m.buckets egress = some b)
    (registered : ingress ∈ (m.arbiters egress).activeIngressPorts)
    (contender : other ∈ (m.arbiters egress).activeIngressPorts) (different : other ≠ ingress)
    (granted : (m.tryConsumeTokenFair now egress ingress pkts).1 = true) :
    RoundRobin.next (m.arbiters egress).activeIngressPorts (m.arbiters egress).lastServedIngress =
        some ingress ∧
      ((m.tryConsumeTokenFair now egress ingress pkts).2.arbiters egress).lastServedIngress =
        ingress := by
  have contended : ¬ (m.arbiters egress).activeIngressPorts.card ≤ 1 := by
    intro lone
    exact different (Finset.card_le_one.mp lone other contender ingress registered)
  have turn := selectNextIngress_eq (m.arbiters egress) ⟨ingress, registered⟩
  revert granted
  unfold tryConsumeTokenFair
  simp only [bucket, contended, ↓reduceIte]
  split
  · intro refused
    cases refused
  · by_cases first : selectNextIngress (m.arbiters egress) = ingress
    · intro _
      rw [turn, first, if_pos rfl]
      simp [setArbiter]
    · rw [if_neg first]
      intro refused
      cases refused

variable (m now ingress) in
/-- Whoever asks is registered, granted or not. -/
theorem ask_active :
    ((m.ask now egress ingress).2.arbiters egress).activeIngressPorts = m.asking egress ingress := by
  unfold ask tryConsumeTokenFair asking
  dsimp only
  split
  · simp [registerDemand, setArbiter]
  · split
    · simp [registerDemand, setArbiter, setBucket]
    · split
      · simp [registerDemand, setArbiter, setBucket]
      · split <;> simp [registerDemand, setArbiter, setBucket]

theorem unregisterDemand_active :
    ((m.unregisterDemand egress ingress).arbiters egress).activeIngressPorts =
      (m.arbiters egress).activeIngressPorts.erase ingress := by
  simp [unregisterDemand, setArbiter]

variable (m now ingress) in
/-- The other ports are left alone. -/
theorem tryConsumeTokenFair_others {port : Nat} (other : port ≠ egress) (pkts : Nat) :
    (m.tryConsumeTokenFair now egress ingress pkts).2.buckets port = m.buckets port ∧
      (m.tryConsumeTokenFair now egress ingress pkts).2.arbiters port = m.arbiters port := by
  unfold tryConsumeTokenFair
  dsimp only
  split
  · exact ⟨rfl, rfl⟩
  · split
    · simp [setBucket, other]
    · split
      · simp [setBucket, other]
      · split <;> simp [setBucket, setArbiter, other]

variable (m now ingress) in
theorem ask_others {port : Nat} (other : port ≠ egress) :
    (m.ask now egress ingress).2.buckets port = m.buckets port ∧
      (m.ask now egress ingress).2.arbiters port = m.arbiters port := by
  have ⟨buckets, arbiters⟩ :=
    tryConsumeTokenFair_others (m.registerDemand egress ingress) now ingress other 1
  refine ⟨buckets, arbiters.trans ?_⟩
  simp [registerDemand, setArbiter, other]

end EgressTokenManager

end QbbNet
