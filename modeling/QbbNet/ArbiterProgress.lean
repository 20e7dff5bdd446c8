import QbbNet.TokenManagers
import QbbNet.Topology

set_option autoImplicit false

/- When the polls of a node's devices for a port are granted a token. -/
namespace QbbNet

variable {ι ν : Type} [DecidableEq ι] [DecidableEq ν] {cfg : Config ι ν} {s t : Net ι ν}
  {action : Action ι ν} {v : ν} {port : Nat}

/-- The device of node `v` that polls for the port in a step, with the outcome. -/
def Net.polled (cfg : Config ι ν) (v : ν) (port : Nat) (s : Net ι ν) (action : Action ι ν) :
    Option (ι × Bool) :=
  match s.poll action with
  | some (i, egress) =>
      if cfg.node i = v ∧ egress = port then some (i, (s.duty cfg i action).isSome) else none
  | none => none

theorem Net.polled_eq_none
    (unasked : ∀ i egress, s.poll action = some (i, egress) → cfg.node i = v → egress ≠ port) :
    s.polled cfg v port action = none := by
  unfold Net.polled
  split
  · rename_i i egress asks
    exact if_neg fun both => unasked i egress asks both.1 both.2
  · rfl

/-- The polls for the port in the course of a run, for as long as it goes. -/
def Net.polls (cfg : Config ι ν) (v : ν) (port : Nat) (s : Net ι ν) :
    List (Action ι ν) → List (ι × Bool)
  | [] => []
  | action :: actions =>
      match s.step cfg action with
      | some t => (s.polled cfg v port action).toList ++ t.polls cfg v port actions
      | none => []

/-- There is a token for the port, and those that asked for it are waiting for their turn. -/
structure Net.TurnOf (v : ν) (port : Nat) (s : Net ι ν) (active : Finset Nat) (last : Nat) :
    Prop where
  bucket : ∃ b, (s.mgr v).buckets port = some b ∧ 1 ≤ b.level s.sim.currentTs
  arbiter : (s.mgr v).arbiters port = ⟨active, last⟩

/-- A poll is granted exactly to the device whose turn it is; one that is refused waits on. -/
theorem Net.TurnOf.step {active : Finset Nat} {last : Nat} (turn : s.TurnOf v port active last)
    (tokens : s.Tokens cfg) (valid : port ≠ kInvalidPortId) (step : s.step cfg action = some t) :
    match s.polled cfg v port action with
    | none => t.TurnOf v port active last
    | some (i, granted) =>
        (granted = true ↔ RoundRobin.next (insert (cfg.ifIndex i) active) last = some (cfg.ifIndex i)) ∧
        (granted = false → t.TurnOf v port (insert (cfg.ifIndex i) active) last) := by
  obtain ⟨⟨b, bucket, token⟩, arbiter⟩ := turn
  have later := Net.step_later cfg step
  have sound : b.Sound t.sim.currentTs := (tokens.sound v port b bucket).mono later
  have token : 1 ≤ b.level t.sim.currentTs := token.trans (TokenBucket.level_mono later)
  cases step_managed step v with
  | asked i egress asks own valid' _ granted buckets others refused =>
    by_cases same : egress = port
    · subst same
      have polled : s.polled cfg v egress action = some (i, (s.duty cfg i action).isSome) := by
        simp [Net.polled, asks, own]
      have answer := EgressTokenManager.ask_granted t.sim.currentTs (cfg.ifIndex i) bucket
      rw [EgressTokenManager.asking, arbiter] at answer
      obtain ⟨after, filled, asked⟩ :=
        EgressTokenManager.ask_bucket (cfg.ifIndex i) bucket sound
      rw [polled]
      refine ⟨?_, fun denied => ⟨⟨after, ?_, ?_⟩, ?_⟩⟩
      · rw [granted, answer]
        exact and_iff_right token
      · rw [buckets, filled, Function.update_self]
      · rw [asked.level, ← granted, denied]
        simpa using token
      · rw [granted] at denied
        rw [refused (by simpa using granted.trans denied),
          EgressTokenManager.ask_refused denied, Function.update_self,
          EgressTokenManager.asking, arbiter]
    · have polled : s.polled cfg v port action = none := by simp [Net.polled, asks, same]
      rw [polled]
      have kept := (EgressTokenManager.ask_others (s.mgr v) t.sim.currentTs (cfg.ifIndex i)
        (Ne.symm same)).1
      exact ⟨⟨b, by rw [buckets, kept, bucket], token⟩, by rw [others port (Ne.symm same), arbiter]⟩
  | ensured i p unasked _ _ _ registers =>
    have polled : s.polled cfg v port action = none := by simp [Net.polled, unasked]
    obtain ⟨registered, -⟩ := registerPorts_registers cfg i t.sim.currentTs (s.mgr v)
    rw [polled]
    exact ⟨⟨b, by rw [registers, registered.kept port b bucket], token⟩,
      by rw [registers, registered.arbiters, arbiter]⟩
  | idle unasked _ same =>
    have polled : s.polled cfg v port action = none :=
      Net.polled_eq_none fun i egress asks own same => valid (same ▸ unasked i egress asks own)
    rw [polled]
    exact ⟨⟨b, by rw [same, bucket], token⟩, by rw [same, arbiter]⟩

/-- Until a first poll is granted, the polls go by the turns of the round robin. -/
theorem Net.TurnOf.polls {active : Finset Nat} {last : Nat} (turn : s.TurnOf v port active last)
    (reachable : Net.Reachable cfg s) (valid : port ≠ kInvalidPortId) (actions : List (Action ι ν)) :
    (∃ i, (i, true) ∈ s.polls cfg v port actions) ↔
      RoundRobin.asks active last ((s.polls cfg v port actions).map fun poll => cfg.ifIndex poll.1) =
        true := by
  induction actions generalizing s active with
  | nil => simp [Net.polls, RoundRobin.asks]
  | cons action actions ih =>
    rw [Net.polls]
    cases step : s.step cfg action with
    | none => simp [RoundRobin.asks]
    | some t =>
      have outcome := turn.step (Net.reachable_tokens reachable) valid step
      dsimp only
      cases polled : s.polled cfg v port action with
      | none =>
        rw [polled] at outcome
        exact ih outcome (reachable.step cfg step)
      | some poll =>
        obtain ⟨i, granted⟩ := poll
        rw [polled] at outcome
        obtain ⟨turn_of, waits⟩ := outcome
        simp only [Option.toList_some, List.singleton_append, List.map_cons, RoundRobin.asks,
          Bool.or_eq_true, decide_eq_true_eq, ← turn_of, List.mem_cons, Prod.mk.injEq]
        cases granted with
        | true => exact iff_of_true ⟨i, Or.inl ⟨rfl, rfl⟩⟩ (Or.inl rfl)
        | false => simpa using ih (waits rfl) (reachable.step cfg step)

/-- When there is a token for a port, one of the polls for it that follow is
granted exactly if the next in turn, among the devices that have registered and
those that poll, is one that polls. -/
theorem arbiter_progress (reachable : Net.Reachable cfg s) (valid : port ≠ kInvalidPortId)
    {b : TokenBucket} (bucket : (s.mgr v).buckets port = some b)
    (token : 1 ≤ (b.refill s.sim.currentTs).tokens) (actions : List (Action ι ν)) :
    (∃ i, (i, true) ∈ s.polls cfg v port actions) ↔
      ∃ poll ∈ s.polls cfg v port actions, EgressTokenManager.selectNextIngress
        { (s.mgr v).arbiters port with activeIngressPorts :=
            ((s.mgr v).arbiters port).activeIngressPorts ∪
              ((s.polls cfg v port actions).map fun poll => cfg.ifIndex poll.1).toFinset } =
          cfg.ifIndex poll.1 := by
  have turn : s.TurnOf v port ((s.mgr v).arbiters port).activeIngressPorts
      ((s.mgr v).arbiters port).lastServedIngress := ⟨⟨b, bucket, token⟩, rfl⟩
  rw [turn.polls reachable valid actions, RoundRobin.asks_iff]
  generalize s.polls cfg v port actions = polls
  have next (poll : ι × Bool) (member : poll ∈ polls) := EgressTokenManager.selectNextIngress_eq
    { (s.mgr v).arbiters port with activeIngressPorts :=
        ((s.mgr v).arbiters port).activeIngressPorts ∪
          (polls.map fun poll => cfg.ifIndex poll.1).toFinset }
    ⟨cfg.ifIndex poll.1, by
      simp only [Finset.mem_union, List.mem_toFinset, List.mem_map]
      exact Or.inr ⟨poll, member, rfl⟩⟩
  dsimp only at next
  constructor
  · rintro ⟨_, member, first⟩
    obtain ⟨poll, polled, rfl⟩ := List.mem_map.mp member
    rw [next poll polled, Option.some.injEq] at first
    exact ⟨poll, polled, first⟩
  · rintro ⟨poll, member, first⟩
    refine ⟨_, List.mem_map_of_mem member, ?_⟩
    rw [next poll member, first]

/-- Packets for port 3 wait at devices 2 and 3 of the switch. -/
def contendedRun : List (Action (Fin 4) (Fin 2)) :=
  [.deliver 2 (Datagram.ipv4 (.transit 0) 0x00).frame false,
    .deliver 3 (Datagram.ipv4 (.transit 1) 0x00).frame false]

theorem arbiter_progress_contended :
    ∃ s, (Net.started stalledSwitch).run stalledSwitch (fun _ _ => True) contendedRun = some s ∧
      (s.polls stalledSwitch 1 3 [.event (.through 3), .event (.through 3)]).map (·.1) = [2, 3] ∧
      ∃ i, (i, true) ∈ s.polls stalledSwitch 1 3 [.event (.through 3), .event (.through 3)] := by
  obtain ⟨s, ran, ⟨b, bucket, token⟩, polls, next⟩ : ∃ s,
      (Net.started stalledSwitch).run stalledSwitch (fun _ _ => True) contendedRun = some s ∧
        (∃ b ∈ (s.mgr 1).buckets 3, 1 ≤ (b.refill s.sim.currentTs).tokens) ∧
        (s.polls stalledSwitch 1 3 [.event (.through 3), .event (.through 3)]).map (·.1) = [2, 3] ∧
        ∃ poll ∈ s.polls stalledSwitch 1 3 [.event (.through 3), .event (.through 3)],
          EgressTokenManager.selectNextIngress
            { (s.mgr 1).arbiters 3 with activeIngressPorts :=
                ((s.mgr 1).arbiters 3).activeIngressPorts ∪
                  ((s.polls stalledSwitch 1 3 [.event (.through 3), .event (.through 3)]).map
                    fun poll => stalledSwitch.ifIndex poll.1).toFinset } =
              stalledSwitch.ifIndex poll.1 :=
    exists_of_any (by decide +kernel)
  exact ⟨s, ran, polls, (arbiter_progress (.of_run _ (Net.started_initial _) ran) (by decide) bucket
    token _).mpr next⟩

/-- Device 2 has the turn and nothing to send, and device 1 is refused however often it polls. -/
theorem arbiter_stalled :
    ∃ s, Net.Reachable stalledSwitch s ∧
      (∃ b ∈ (s.mgr 1).buckets 3, 1 ≤ (b.refill s.sim.currentTs).tokens) ∧
      (∀ i, stalledSwitch.node i = 1 →
        (s.eventPoll (.through 3) (.doIngressDrain i) = some (i, 3) ↔ i = 1)) ∧
      s.polls stalledSwitch 1 3 (List.replicate 8 (.event (.through 3))) =
        [(1, false), (1, false), (1, false)] ∧
      ∀ actions, (∀ poll ∈ s.polls stalledSwitch 1 3 actions, poll.1 = 1) →
        ∀ i, (i, true) ∉ s.polls stalledSwitch 1 3 actions := by
  obtain ⟨s, ran, ⟨b, bucket, token⟩, offering, polls, active, last⟩ : ∃ s,
      (Net.started stalledSwitch).run stalledSwitch (fun _ _ => True) (stalledRun 4) = some s ∧
        (∃ b ∈ (s.mgr 1).buckets 3, 1 ≤ (b.refill s.sim.currentTs).tokens) ∧
        (∀ i, stalledSwitch.node i = 1 →
          (s.eventPoll (.through 3) (.doIngressDrain i) = some (i, 3) ↔ i = 1)) ∧
        s.polls stalledSwitch 1 3 (List.replicate 8 (.event (.through 3))) =
          [(1, false), (1, false), (1, false)] ∧
        ((s.mgr 1).arbiters 3).activeIngressPorts = {1} ∧
        ((s.mgr 1).arbiters 3).lastServedIngress = 0 :=
    exists_of_any (by decide +kernel)
  have reachable : Net.Reachable stalledSwitch s := .of_run _ (Net.started_initial _) ran
  have turn : s.TurnOf 1 3 {1} 0 := ⟨⟨b, bucket, token⟩, by rw [← active, ← last]⟩
  refine ⟨s, reachable, ⟨b, bucket, token⟩, offering, polls, fun actions alone i granted => ?_⟩
  have served := (turn.polls reachable (by decide) actions).mp ⟨i, granted⟩
  obtain ⟨x, member, first⟩ := RoundRobin.asks_iff.mp served
  obtain ⟨poll, polled, rfl⟩ := List.mem_map.mp member
  rw [alone poll polled] at first
  have before : RoundRobin.Before 0 2 1 := (RoundRobin.next_eq_some.mp first).2 1 (by simp)
  simp [RoundRobin.Before] at before

end QbbNet
