import QbbNet.ArbiterProgress
import QbbNet.SendCalls
import QbbNet.SenderQueues

set_option autoImplicit false

/- How many packets in transit can come through a port. -/
namespace QbbNet

variable {ι ν : Type} [DecidableEq ι] [DecidableEq ν] {cfg : Config ι ν} {s t : Net ι ν}
  {action : Action ι ν} {e : ι}

omit [DecidableEq ν] in
variable (cfg e) in
/-- The device that polls has a packet to drain, and sends nothing if it is refused. -/
theorem poll_eq_some {j : ι} {port : Nat} (asks : s.poll action = some (j, port)) :
    (∃ prio, (s.dev j).ingressQ prio ≠ []) ∧
      (s.duty cfg j action = none → s.sent cfg e action = []) := by
  unfold Net.poll at asks
  split at asks
  · rename_i up
    split at asks
    · rename_i event sim popped
      unfold Net.eventPoll at asks
      split at asks
      · rename_i k
        obtain ⟨p, picked, same⟩ := Option.map_eq_some_iff.mp asks
        obtain ⟨prio, -, head⟩ := Option.bind_eq_some_iff.mp picked
        obtain ⟨rfl, -⟩ := Prod.mk.inj same
        refine ⟨⟨prio, fun empty => by simp [empty] at head⟩, fun idle => ?_⟩
        simp only [Net.duty, popped, Net.eventDuty, ↓reduceIte, Option.map_eq_none_iff] at idle
        simp [Net.sent, popped, Net.eventSent, idle]
      · cases asks
    · cases asks
  · cases asks

def Packet.forwarded (p : Packet) : Bool :=
  match p.origin with
  | .transit _ => true
  | _ => false

/-- Packets in transit are sent through the device only when a device of the node
polls for its port, and one at most each time. -/
def Net.ForwardsDrained (cfg : Config ι ν) (e : ι) (s : Net ι ν) (action : Action ι ν) : Prop :=
  (s.sent cfg e action).countP (·.packet.forwarded) ≤
    (s.polled cfg (cfg.node e) (cfg.ifIndex e) action).toList.length

instance (cfg : Config ι ν) (e : ι) (s : Net ι ν) (action : Action ι ν) :
    Decidable (s.ForwardsDrained cfg e action) := inferInstanceAs (Decidable (_ ≤ _))

/-- The packets in transit that Send has been called with. -/
def SendingSide.entered (d : SendingSide) : Nat := d.accepted.countP (·.packet.forwarded)

/-- The packets in transit that came through the port were paid for with its tokens. -/
def Net.InBudget (cfg : Config ι ν) (e : ι) (s : Net ι ν) : Prop :=
  match (s.mgr (cfg.node e)).buckets (cfg.ifIndex e) with
  | none => (s.dev e).entered = 0
  | some b => ((s.dev e).entered : ℚ) + b.level s.sim.currentTs ≤
      b.capacity + max b.pps 0 * TokenBucket.elapsedSeconds 0 s.sim.currentTs

/-- Time passes, and some packets enter for as many tokens. -/
theorem TokenBucket.Asked.budget {b after : TokenBucket} {now later : Time} {taken : ℚ}
    {before entered : Nat} (asked : TokenBucket.Asked b after later taken) (le : now ≤ later)
    (paid : (entered : ℚ) ≤ taken)
    (budget : (before : ℚ) + b.level now ≤
      b.capacity + max b.pps 0 * TokenBucket.elapsedSeconds 0 now) :
    ((before + entered : Nat) : ℚ) + after.level later ≤
      after.capacity + max after.pps 0 * TokenBucket.elapsedSeconds 0 later := by
  have gained := TokenBucket.level_later (b := b) le
  have total := TokenBucket.elapsedSeconds_add 0 now later
  rw [asked.level, asked.capacity, asked.pps, ← total, mul_add]
  push_cast
  linarith

theorem Net.InBudget.step (budget : s.InBudget cfg e) (reachable : Net.Reachable cfg s)
    (valid : cfg.ifIndex e ≠ kInvalidPortId) (step : s.step cfg action = some t)
    (forwards : s.ForwardsDrained cfg e action) : t.InBudget cfg e := by
  have tokens := Net.reachable_tokens reachable
  have later := Net.step_later cfg step
  have entered : (t.dev e).entered = (s.dev e).entered +
      (s.sent cfg e action).countP (·.packet.forwarded) := by
    rw [SendingSide.entered, step_accepted step, List.countP_append]
    rfl
  have kept {b after : TokenBucket} {taken : ℚ}
      (before : (s.mgr (cfg.node e)).buckets (cfg.ifIndex e) = some b)
      (now : (t.mgr (cfg.node e)).buckets (cfg.ifIndex e) = some after)
      (asked : TokenBucket.Asked b after t.sim.currentTs taken)
      (paid : ((s.sent cfg e action).countP (·.packet.forwarded) : ℚ) ≤ taken) :
      t.InBudget cfg e := by
    unfold Net.InBudget at budget ⊢
    rw [before] at budget
    rw [now, entered]
    exact asked.budget later paid budget
  -- nothing enters when nobody polls, so a port without a poll keeps its budget
  have unpolled (polled : s.polled cfg (cfg.node e) (cfg.ifIndex e) action = none)
      (same : (t.mgr (cfg.node e)).buckets (cfg.ifIndex e) =
        (s.mgr (cfg.node e)).buckets (cfg.ifIndex e)) : t.InBudget cfg e := by
    have none_enters : (s.sent cfg e action).countP (·.packet.forwarded) = 0 :=
      Nat.le_zero.mp (forwards.trans (by rw [polled]; rfl))
    cases bucket : (s.mgr (cfg.node e)).buckets (cfg.ifIndex e) with
    | some b =>
      refine kept bucket (same.trans bucket) ((tokens.sound _ _ b bucket).mono later).asked ?_
      rw [none_enters, Nat.cast_zero]
    | none =>
      unfold Net.InBudget at budget ⊢
      rw [bucket] at budget
      rw [same, bucket, entered, none_enters]
      exact budget
  cases step_managed step (cfg.node e) with
  | asked i egress asks own _ _ granted buckets =>
    by_cases same : egress = cfg.ifIndex e
    · subst same
      obtain ⟨⟨prio, waiting⟩, refused⟩ := poll_eq_some cfg e asks
      have registered := tokens.registered i e (tokens.queued i prio waiting) own.symm
      rw [own] at registered
      obtain ⟨b, bucket⟩ := Option.ne_none_iff_exists'.mp registered
      obtain ⟨after, filled, asked⟩ := EgressTokenManager.ask_bucket (cfg.ifIndex i) bucket
        ((tokens.sound _ _ b bucket).mono later)
      refine kept bucket (by rw [buckets, filled, Function.update_self]) asked ?_
      have polled : s.polled cfg (cfg.node e) (cfg.ifIndex e) action =
          some (i, (s.duty cfg i action).isSome) := by simp [Net.polled, asks, own]
      rw [← granted]
      cases due : s.duty cfg i action with
      | none => simp [refused due]
      | some duty =>
        have one : (s.sent cfg e action).countP (·.packet.forwarded) ≤ 1 :=
          forwards.trans (by rw [polled]; rfl)
        simpa using one
    · refine unpolled (by simp [Net.polled, asks, same]) ?_
      rw [buckets]
      exact (EgressTokenManager.ask_others _ _ _ (Ne.symm same)).1
  | ensured i p unasked _ _ _ registers =>
    have polled : s.polled cfg (cfg.node e) (cfg.ifIndex e) action = none := by
      simp [Net.polled, unasked]
    obtain ⟨registered, -⟩ := registerPorts_registers cfg i t.sim.currentTs (s.mgr (cfg.node e))
    cases before : (s.mgr (cfg.node e)).buckets (cfg.ifIndex e) with
    | some b =>
      exact unpolled polled (by rw [registers, registered.kept _ b before, before])
    | none =>
      cases now : (t.mgr (cfg.node e)).buckets (cfg.ifIndex e) with
      | none => exact unpolled polled (now.trans before.symm)
      | some b =>
        obtain ⟨pps, burst, rfl⟩ := registered.fresh _ b before (registers ▸ now)
        have none_enters : (s.sent cfg e action).countP (·.packet.forwarded) = 0 :=
          Nat.le_zero.mp (forwards.trans (by rw [polled]; rfl))
        unfold Net.InBudget at budget ⊢
        rw [before] at budget
        rw [now, entered, none_enters, show (s.dev e).entered = 0 from budget]
        have full : (TokenBucket.new pps burst t.sim.currentTs).level t.sim.currentTs = burst :=
          TokenBucket.level_settled (Or.inr rfl) (le_refl _)
        have earned := mul_nonneg (le_max_right pps 0)
          (TokenBucket.elapsedSeconds_nonneg (Nat.zero_le t.sim.currentTs))
        dsimp only
        rw [full]
        simpa [TokenBucket.new] using earned
  | idle unasked _ same =>
    refine unpolled (Net.polled_eq_none fun i egress asks own port => ?_) (by rw [same])
    exact valid (port ▸ unasked i egress asks own)

/-- The packets in transit of a class that wait in the device. -/
def QbbNetDevice.forwardedWaiting (d : QbbNetDevice) (prio : Fin 8) : Nat :=
  d.queue.packets.countP (fun p => p.forwarded && decide (frameClass p = some prio)) +
    (d.macHold prio).countP Packet.forwarded + (d.txq prio).countP (·.packet.forwarded)

theorem forwardedWaiting_le (reachable : Net.Reachable cfg s) (e : ι) (prio : Fin 8) :
    (s.dev e).forwardedWaiting prio ≤ (s.dev e).entered := by
  have placed := (accepted_perm reachable e).countP_eq Packet.forwarded
  have framed (datagrams : List Datagram) :
      (datagrams.map (·.frame)).countP Packet.forwarded =
        datagrams.countP (·.packet.forwarded) := by
    rw [List.countP_map]
    rfl
  have queued : (s.dev e).queue.packets.countP
      (fun p => p.forwarded && decide (frameClass p = some prio)) ≤
        (s.dev e).dataLine.countP Packet.forwarded := by
    rw [QbbNetDevice.dataLine, List.filter_append, List.countP_append, List.countP_filter,
      List.countP_filter]
    refine (List.countP_mono_left fun p _ both => ?_).trans (Nat.le_add_left _ _)
    rw [Bool.and_eq_true, decide_eq_true_eq] at both
    rw [Bool.and_eq_true]
    refine ⟨both.1, ?_⟩
    have data : ¬ isPfcFrame p = true := fun control => by
      rw [frameClass_eq_none.mpr control] at both
      cases both.2
    simpa using data
  have part {α : Type} (queues : Fin 8 → List α) : (queues prio).Sublist (classes.flatMap queues) :=
    List.sublist_flatten_of_mem (List.mem_map_of_mem (mem_classes prio))
  have held : ((s.dev e).macHold prio).countP Packet.forwarded ≤
      (classes.flatMap (s.dev e).macHold).countP Packet.forwarded := (part _).countP_le
  have backlog : ((s.dev e).txq prio).countP (·.packet.forwarded) ≤
      ((classes.flatMap (s.dev e).txq).map (·.frame)).countP Packet.forwarded := by
    rw [framed]
    exact (part _).countP_le
  rw [framed, List.countP_append, List.countP_append] at placed
  unfold QbbNetDevice.forwardedWaiting SendingSide.entered
  omega

theorem run_budget {start : Net ι ν} {actions : List (Action ι ν)}
    (initial : Net.Initial cfg start) (valid : cfg.ifIndex e ≠ kInvalidPortId)
    (run : Net.RunWhere cfg (Net.ForwardsDrained cfg e) start actions s) : s.InBudget cfg e := by
  induction run with
  | nil =>
    obtain ⟨linkUp, stack, rfl⟩ := initial
    rfl
  | snoc before forwards step ih => exact ih.step (before.reachable cfg initial) valid step forwards

end QbbNet
