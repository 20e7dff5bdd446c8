import Mathlib.Data.Rat.Defs
import Mathlib.Algebra.Order.Ring.Rat
import Mathlib.Tactic.Common
import Mathlib.Tactic.Linarith
import Mathlib.Tactic.Ring

set_option autoImplicit false

namespace QbbNet

/-- Simulation time in nanoseconds. -/
abbrev Time := Nat

def microSeconds (n : Nat) : Time := n * 1000

/-- A token bucket counted in packets, with exact rationals for the doubles of
the source. -/
structure TokenBucket where
  pps : ℚ
  capacity : Nat
  tokens : ℚ
  lastRefill : Time
  deriving DecidableEq

namespace TokenBucket

/-- The constructor: a new bucket is full. -/
def new (pps : ℚ) (burst : Nat) (now : Time) : TokenBucket where
  pps := pps
  capacity := burst
  tokens := burst
  lastRefill := now

def elapsedSeconds (since now : Time) : ℚ := ((now : ℚ) - (since : ℚ)) / 1000000000

def refill (b : TokenBucket) (now : Time) : TokenBucket :=
  if b.pps ≤ 0 then b
  else { b with
    tokens := min (b.tokens + elapsedSeconds b.lastRefill now * b.pps) b.capacity
    lastRefill := now }

def tryConsume (b : TokenBucket) (now : Time) (pkts : Nat) : Bool × TokenBucket :=
  let b := b.refill now
  if (pkts : ℚ) ≤ b.tokens then (true, { b with tokens := b.tokens - pkts }) else (false, b)

def refund (b : TokenBucket) (pkts : Nat) : TokenBucket :=
  { b with tokens := min (b.tokens + pkts) b.capacity }

/-- A bucket that was filled no later than `now`, and not above its rim. -/
structure Sound (b : TokenBucket) (now : Time) : Prop where
  nonneg : 0 ≤ b.tokens
  le_capacity : b.tokens ≤ b.capacity
  past : b.lastRefill ≤ now

/-- The tokens that a refill leaves. -/
def level (b : TokenBucket) (now : Time) : ℚ := (b.refill now).tokens

variable {b : TokenBucket} {now later : Time}

theorem elapsedSeconds_nonneg (le : now ≤ later) : 0 ≤ elapsedSeconds now later := by
  have le' : (now : ℚ) ≤ later := by exact_mod_cast le
  unfold elapsedSeconds
  exact div_nonneg (by linarith) (by norm_num)

theorem elapsedSeconds_add (first second third : Time) :
    elapsedSeconds first second + elapsedSeconds second third = elapsedSeconds first third := by
  unfold elapsedSeconds
  ring

@[simp] theorem refill_pps : (b.refill now).pps = b.pps := by
  unfold refill
  split <;> rfl

@[simp] theorem refill_capacity : (b.refill now).capacity = b.capacity := by
  unfold refill
  split <;> rfl

theorem level_eq (b : TokenBucket) (now : Time) :
    b.level now = if b.pps ≤ 0 then b.tokens
      else min (b.tokens + elapsedSeconds b.lastRefill now * b.pps) b.capacity := by
  unfold level refill
  split <;> rfl

theorem Sound.mono (sound : b.Sound now) (le : now ≤ later) : b.Sound later :=
  ⟨sound.nonneg, sound.le_capacity, sound.past.trans le⟩

theorem Sound.new {pps : ℚ} {burst : Nat} : (TokenBucket.new pps burst now).Sound now :=
  ⟨Nat.cast_nonneg burst, le_refl _, le_refl _⟩

theorem Sound.refill (sound : b.Sound now) : (b.refill now).Sound now := by
  unfold TokenBucket.refill
  split
  · exact sound
  · rename_i pps
    have gained := mul_nonneg (elapsedSeconds_nonneg sound.past) (le_of_not_ge pps)
    have tokens := sound.nonneg
    exact ⟨le_min (by linarith) (Nat.cast_nonneg _), min_le_right _ _, le_refl _⟩

theorem level_mono (le : now ≤ later) : b.level now ≤ b.level later := by
  rw [level_eq, level_eq]
  split
  · exact le_refl _
  · rename_i pps
    have gained := mul_nonneg (elapsedSeconds_nonneg le) (le_of_not_ge pps)
    have split := elapsedSeconds_add b.lastRefill now later
    refine min_le_min_right _ ?_
    rw [← split, add_mul]
    linarith

/-- Tokens come at the bucket's rate at most. -/
theorem level_later (le : now ≤ later) :
    b.level later ≤ b.level now + max b.pps 0 * elapsedSeconds now later := by
  rw [level_eq, level_eq]
  split
  · rename_i pps
    rw [max_eq_right pps]
    linarith
  · rename_i pps
    rw [max_eq_left (le_of_not_ge pps)]
    have gained := mul_nonneg (le_of_not_ge pps) (elapsedSeconds_nonneg le)
    have split := elapsedSeconds_add b.lastRefill now later
    rw [← split, add_mul, ← min_add_add_right]
    exact min_le_min (by linarith) (by linarith)

/-- What has been earned by then is there, as far as it fits. -/
theorem Sound.level_earned (sound : b.Sound now) (le : now ≤ later) :
    min (b.pps * elapsedSeconds now later) b.capacity ≤ b.level later := by
  have filled := sound.nonneg
  rw [level_eq]
  split
  · rename_i pps
    have nothing := mul_nonneg (neg_nonneg.mpr pps) (elapsedSeconds_nonneg le)
    exact (min_le_left _ _).trans (by linarith)
  · rename_i pps
    have before := mul_nonneg (elapsedSeconds_nonneg sound.past) (le_of_not_ge pps)
    have split := elapsedSeconds_add b.lastRefill now later
    refine min_le_min_right _ ?_
    rw [← split, add_mul]
    linarith

/-- A refill adds nothing to a bucket that has been refilled at the same time. -/
theorem level_settled (fresh : b.pps ≤ 0 ∨ b.lastRefill = now) (full : b.tokens ≤ b.capacity) :
    b.level now = b.tokens := by
  rw [level_eq]
  split
  · rfl
  · rename_i pps
    have same : elapsedSeconds b.lastRefill now = 0 := by
      simp [elapsedSeconds, fresh.resolve_left pps]
    rw [same, zero_mul, add_zero]
    exact min_eq_left full

theorem refill_fresh (b : TokenBucket) (now : Time) :
    (b.refill now).pps ≤ 0 ∨ (b.refill now).lastRefill = now := by
  unfold refill
  split
  · exact Or.inl ‹_›
  · exact Or.inr rfl

/-- What asking for packets' worth of tokens does, and what giving them back does. -/
structure Asked (b after : TokenBucket) (now : Time) (taken : ℚ) : Prop where
  pps : after.pps = b.pps
  capacity : after.capacity = b.capacity
  sound : after.Sound now
  level : after.level now = b.level now - taken

theorem Sound.asked (sound : b.Sound now) : Asked b b now 0 := ⟨rfl, rfl, sound, (sub_zero _).symm⟩

theorem Sound.refill_asked (sound : b.Sound now) : Asked b (b.refill now) now 0 where
  pps := refill_pps
  capacity := refill_capacity
  sound := sound.refill
  level := by
    rw [level_settled (refill_fresh b now) sound.refill.le_capacity, sub_zero]
    rfl

theorem tryConsume_granted {pkts : Nat} :
    (b.tryConsume now pkts).1 = true ↔ (pkts : ℚ) ≤ b.level now := by
  unfold tryConsume level
  dsimp only
  split <;> simp [*]

theorem Sound.tryConsume_asked (sound : b.Sound now) (pkts : Nat) :
    Asked b (b.tryConsume now pkts).2 now (if (b.tryConsume now pkts).1 then pkts else 0) := by
  have refilled := sound.refill
  unfold tryConsume
  dsimp only
  split
  · rename_i enough
    have count : (0 : ℚ) ≤ pkts := Nat.cast_nonneg pkts
    have full := (sub_le_self _ count).trans refilled.le_capacity
    exact ⟨refill_pps, refill_capacity, ⟨by simpa using enough, full, refilled.past⟩,
      level_settled (b := { b.refill now with tokens := (b.refill now).tokens - pkts })
        (refill_fresh b now) full⟩
  · exact sound.refill_asked

/-- Tokens that were taken at the same time go back in whole. -/
theorem Sound.refund_asked (sound : b.Sound now) {pkts : Nat} (granted : (b.tryConsume now pkts).1 = true) :
    Asked b ((b.tryConsume now pkts).2.refund pkts) now 0 := by
  have whole : (b.tryConsume now pkts).2.refund pkts = b.refill now := by
    have enough : (pkts : ℚ) ≤ (b.refill now).tokens := tryConsume_granted.mp granted
    have full := sound.refill.le_capacity
    simp only [tryConsume, enough, ↓reduceIte, refund, sub_add_cancel, min_eq_left full]
  exact whole ▸ sound.refill_asked

/-- A bucket is asked again and again, at times that do not go back: what is
taken out each time, and the bucket that is left in the end. -/
inductive Serves : TokenBucket → Time → List (Time × Nat) → TokenBucket → Time → Prop
  | nil (b : TokenBucket) (now : Time) : Serves b now [] b now
  | cons {b mid last : TokenBucket} {now next final : Time} {taken : Nat} {rest : List (Time × Nat)}
      (later : now ≤ next) (asked : Asked b mid next taken) (serves : Serves mid next rest last final) :
      Serves b now ((next, taken) :: rest) last final

/-- What is taken out from `t0` to `t1`. -/
def takenWithin (t0 t1 : Time) (takings : List (Time × Nat)) : Nat :=
  ((takings.filter fun taking => decide (t0 ≤ taking.1 ∧ taking.1 ≤ t1)).map (·.2)).sum

theorem takenWithin_cons (t0 t1 next : Time) (taken : Nat) (rest : List (Time × Nat)) :
    takenWithin t0 t1 ((next, taken) :: rest) =
      (if t0 ≤ next ∧ next ≤ t1 then taken else 0) + takenWithin t0 t1 rest := by
  unfold takenWithin
  by_cases inside : t0 ≤ next ∧ next ≤ t1
  · simp [inside]
  · simp [inside]

theorem Sound.level_nonneg (sound : b.Sound now) : 0 ≤ b.level now := sound.refill.nonneg

theorem Sound.level_le (sound : b.Sound now) : b.level now ≤ b.capacity := by
  have full := sound.refill.le_capacity
  rwa [refill_capacity] at full

theorem Serves.sound {last : TokenBucket} {final : Time} {takings : List (Time × Nat)}
    (serves : Serves b now takings last final) (sound : b.Sound now) :
    last.Sound final ∧ last.pps = b.pps ∧ last.capacity = b.capacity := by
  induction serves with
  | nil => exact ⟨sound, rfl, rfl⟩
  | cons later asked serves ih =>
    have ⟨kept, pps, capacity⟩ := ih asked.sound
    exact ⟨kept, pps.trans asked.pps, capacity.trans asked.capacity⟩

/-- Nothing is taken out before it is asked for. -/
theorem Serves.early {last : TokenBucket} {final t0 t1 : Time} {takings : List (Time × Nat)}
    (serves : Serves b now takings last final) (early : t1 < now) : takenWithin t0 t1 takings = 0 := by
  induction serves with
  | nil => rfl
  | cons later asked serves ih =>
    have after := lt_of_lt_of_le early later
    rw [takenWithin_cons, if_neg fun inside => absurd after (not_lt.mpr inside.2), ih after]

/-- From some time on, no more is taken out than was in the bucket and came into it. -/
theorem Serves.onwards {last : TokenBucket} {final t0 t1 : Time} {takings : List (Time × Nat)}
    (serves : Serves b now takings last final) (sound : b.Sound now) (from_now : t0 ≤ now)
    (le : now ≤ t1) :
    (takenWithin t0 t1 takings : ℚ) ≤ b.level now + max b.pps 0 * elapsedSeconds now t1 := by
  induction serves with
  | nil b now =>
    have earned := mul_nonneg (le_max_right b.pps 0) (elapsedSeconds_nonneg le)
    have filled := sound.level_nonneg
    show (0 : ℚ) ≤ _
    linarith
  | @cons b mid last now next final taken rest later asked serves ih =>
    by_cases within : next ≤ t1
    · have began := le_trans from_now later
      have after := ih asked.sound began within
      have gained := level_later (b := b) later
      have split := elapsedSeconds_add now next t1
      rw [takenWithin_cons, if_pos ⟨began, within⟩, ← split, mul_add]
      rw [asked.level, asked.pps] at after
      push_cast
      linarith
    · have earned := mul_nonneg (le_max_right b.pps 0) (elapsedSeconds_nonneg le)
      have filled := sound.level_nonneg
      rw [takenWithin_cons, if_neg fun inside => within inside.2, serves.early (not_le.mp within)]
      show (0 : ℚ) ≤ _
      linarith

/-- In any stretch of time, no more than a full bucket and what comes into it. -/
theorem Serves.window {last : TokenBucket} {final t0 t1 : Time} {takings : List (Time × Nat)}
    (serves : Serves b now takings last final) (sound : b.Sound now) (le : t0 ≤ t1) :
    (takenWithin t0 t1 takings : ℚ) ≤ b.capacity + max b.pps 0 * elapsedSeconds t0 t1 := by
  have earned := mul_nonneg (le_max_right b.pps 0) (elapsedSeconds_nonneg le)
  induction serves with
  | nil b now =>
    have room : (0 : ℚ) ≤ b.capacity := Nat.cast_nonneg _
    show (0 : ℚ) ≤ _
    linarith
  | @cons b mid last now next final taken rest later asked serves ih =>
    by_cases began : t0 ≤ next
    · by_cases within : next ≤ t1
      · -- the bucket is no more than full when the stretch begins
        have full := (sound.mono later).level_le
        have onwards := (Serves.cons (le_refl next) asked serves).onwards (sound.mono later) began within
        have earlier := mul_nonneg (le_max_right b.pps 0) (elapsedSeconds_nonneg began)
        have split := elapsedSeconds_add t0 next t1
        rw [← split, mul_add]
        linarith
      · have room : (0 : ℚ) ≤ b.capacity := Nat.cast_nonneg _
        rw [takenWithin_cons, if_neg fun inside => within inside.2, serves.early (not_le.mp within)]
        show (0 : ℚ) ≤ _
        linarith
    · rw [takenWithin_cons, if_neg fun inside => began inside.1, Nat.zero_add]
      have after := ih asked.sound (by rwa [asked.pps])
      rwa [asked.pps, asked.capacity] at after

end TokenBucket

end QbbNet
