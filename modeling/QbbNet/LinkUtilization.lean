import QbbNet.Channel
import QbbNet.QueueSampling
import QbbNet.Topology
import Mathlib.Algebra.BigOperators.Ring.List

set_option autoImplicit false

/- The link utilisations that GetStatus reports, from the totals that hang on the
MacTx traces of the links' devices. -/
namespace QbbNet

open Simulator

/- The devices of the generic topology -/

/-- The counters of DevStats beside this one are read by nothing that is reported. -/
def DevStats.tx (stats : DevStats) (p : Packet) : DevStats :=
  { stats with txBytes := stats.txBytes + UInt64.ofNat p.getSize }

/-- The point-to-point devices of all links, each with the totals of its trace. -/
structure TracedNet (ι : Type) where
  sim : Simulator (Event ι)
  dev : ι → PointToPointNetDevice
  stats : ι → DevStats

/-- The nodes send packets at any time, also in answer to what they receive. -/
inductive TracedNet.Action (ι : Type)
  | send (i : ι) (p : Packet) (protocol : UInt16)
  | event
  | elapse (t : Time)

/-- A device on its channel, as PointToPointHelper::Install leaves it. -/
def PointToPointNetDevice.install (attr : Attributes) : PointToPointNetDevice where
  linkUp := true
  txMachineState := .ready
  currentPkt := none
  queue := .empty attr.maxSize
  rxCallback := .nonPromiscReceiveFromDevice
  phyTxBegin := []
  macTxDrop := []
  queueDrop := []
  phyRxDrop := []

variable {ι ν : Type} [DecidableEq ι] (cfg : Config ι ν)

namespace TracedNet

omit [DecidableEq ι] in
def init : TracedNet ι where
  sim := .init
  dev i := .install (cfg.attr i)
  stats _ := ⟨0, []⟩

/-- PointToPointNetDevice::Send fires MacTx when the link is up, for the packet with
its header and before the queue is asked to take it. -/
def send (s : TracedNet ι) (i : ι) (p : Packet) (protocol : UInt16) : TracedNet ι :=
  let sent := (s.dev i).send cfg i p protocol s.sim
  { sim := sent.2.1
    dev := Function.update s.dev i sent.2.2
    stats := if (s.dev i).linkUp then
        Function.update s.stats i ((s.stats i).tx (p.addPpp (etherToPpp protocol)))
      else s.stats }

def transmitComplete (s : TracedNet ι) (i : ι) : TracedNet ι :=
  let completed := (s.dev i).transmitComplete cfg i s.sim
  { s with sim := completed.1, dev := Function.update s.dev i completed.2 }

/-- `none` when the step is not possible in the state. -/
def step (s : TracedNet ι) : Action ι → Option (TracedNet ι)
  | .send i p protocol => some (s.send cfg i p protocol)
  | .event =>
      match s.sim.processOneEvent with
      | none => none
      | some (some (.transmitComplete i), sim) => some ({ s with sim }.transmitComplete cfg i)
      | some (_, sim) => some { s with sim }
  | .elapse t => (s.sim.elapse t).map fun sim => { s with sim }

def run (s : TracedNet ι) : List (Action ι) → Option (TracedNet ι)
  | [] => some s
  | action :: actions => (s.step cfg action).bind fun t => t.run actions

end TracedNet

/-- The same in exact arithmetic. Times are in nanoseconds. -/
def linkUtilization (dataRateBps : Nat) (now : Time) (sa sb : DevStats) : ℚ :=
  let simTime := max (1 / 1000000000) ((now : ℚ) / 1000000000)
  let capBytes := (dataRateBps : ℚ) / 8 * simTime
  let totalTxBytes := (sa.txBytes.toNat : ℚ) + sb.txBytes.toNat
  let totalCapBytes := 2 * capBytes
  if 0 < totalCapBytes then 100 * totalTxBytes / totalCapBytes else 0

/- What the report ought to say, and when it does -/

def bytesOf (packets : List Packet) : Nat := (packets.map Packet.getSize).sum

def PointToPointNetDevice.started (d : PointToPointNetDevice) : List Packet :=
  d.phyTxBegin.map (·.2)

/-- The time that the transmissions started so far take, one after the other. -/
def Attributes.airTime (attr : Attributes) (d : PointToPointNetDevice) : Time :=
  (d.started.map fun p => attr.calculateBytesTxTime p.getSize).sum

/-- When the first transmission started. -/
def PointToPointNetDevice.firstStart (d : PointToPointNetDevice) : Time :=
  (d.phyTxBegin.map (·.1)).headD 0

/-- When all transmissions so far could be over, had they followed the first at once. -/
def Attributes.earliestEnd (attr : Attributes) (d : PointToPointNetDevice) : Time :=
  d.firstStart + attr.airTime d

namespace TracedNet

def Action.bytes (i : ι) : Action ι → Nat
  | .send j p protocol => if j = i then (p.addPpp (etherToPpp protocol)).getSize else 0
  | _ => 0

/-- The bytes that Send was given for a device. -/
def handed (i : ι) (actions : List (Action ι)) : Nat := (actions.map (Action.bytes i)).sum

def Admits (i : ι) (s : TracedNet ι) : Action ι → Prop
  | .send j p protocol => j = i → (s.dev i).queue.hasRoom (p.addPpp (etherToPpp protocol)) = true
  | _ => True

/-- Every Send of the device finds room in its queue. -/
def RoomFor (i : ι) (s : TracedNet ι) : List (Action ι) → Prop
  | [] => True
  | action :: actions => s.Admits i action ∧ ∀ t ∈ s.step cfg action, t.RoomFor i actions

instance decidableAdmits (i : ι) (s : TracedNet ι) :
    (action : Action ι) → Decidable (s.Admits i action)
  | .send _ _ _ => inferInstanceAs (Decidable (_ → _ = true))
  | .event => .isTrue trivial
  | .elapse _ => .isTrue trivial

instance decidableRoomFor (i : ι) :
    (s : TracedNet ι) → (actions : List (Action ι)) → Decidable (s.RoomFor cfg i actions)
  | _, [] => .isTrue trivial
  | s, action :: actions =>
      match stepped : s.step cfg action with
      | none => decidable_of_iff (s.Admits i action) (by simp [RoomFor, stepped])
      | some t =>
          have := decidableRoomFor i t actions
          decidable_of_iff (s.Admits i action ∧ t.RoomFor cfg i actions)
            (by simp [RoomFor, stepped])

/-- All that was handed to a device has been started, and the times of the transmissions,
each of which may be rounded down by a nanosecond, are made up for: if one is going on at
the end by the rest of the run, and else by the time before the first. -/
structure Settled (dataRate : Nat) (actions : List (Action ι)) (s : TracedNet ι) (i : ι) :
    Prop where
  room : (init cfg).RoomFor cfg i actions
  queue : (s.dev i).queue.packets = []
  rate : (cfg.attr i).dataRate = dataRate
  short : ∀ p ∈ (s.dev i).started, p.getSize < 2 ^ 29
  busy : (s.dev i).txMachineState = .busy →
    (cfg.attr i).airTime (s.dev i) + (s.dev i).started.length ≤ s.sim.currentTs
  idle : (s.dev i).txMachineState = .ready → (s.dev i).started.length ≤ (s.dev i).firstStart

end TracedNet

/- Every byte that is counted is in one place -/

@[simp] theorem bytesOf_nil : bytesOf [] = 0 := rfl

@[simp] theorem bytesOf_cons (p : Packet) (packets : List Packet) :
    bytesOf (p :: packets) = p.getSize + bytesOf packets := by simp [bytesOf]

@[simp] theorem bytesOf_append (front back : List Packet) :
    bytesOf (front ++ back) = bytesOf front + bytesOf back := by simp [bytesOf]

omit [DecidableEq ι] in
theorem started_transmitStart (i : ι) (p : Packet) (sim : Simulator (Event ι))
    (d : PointToPointNetDevice) : (d.transmitStart cfg i p sim).2.started = d.started ++ [p] := by
  simp [PointToPointNetDevice.started, PointToPointNetDevice.transmitStart]

/-- The bytes that a device was given were started, wait in the queue, or were
dropped there; the total counts all of them. -/
structure Tallied (d : PointToPointNetDevice) (stats : DevStats) (bytes : Nat) : Prop where
  linkUp : d.linkUp = true
  total : stats.txBytes = UInt64.ofNat bytes
  places : bytes = bytesOf d.started + bytesOf d.queue.packets + bytesOf d.queueDrop
  queued : ∀ p ∈ d.queue.packets, 0 < p.getSize
  dropped : ∀ p ∈ d.queueDrop, 0 < p.getSize

namespace Tallied

variable {d : PointToPointNetDevice} {stats : DevStats} {bytes : Nat} {i : ι}

omit [DecidableEq ι] in
theorem send (tallied : Tallied d stats bytes) (p : Packet) (protocol : UInt16)
    (sim : Simulator (Event ι)) :
    Tallied (d.send cfg i p protocol sim).2.2 (stats.tx (p.addPpp (etherToPpp protocol)))
        (bytes + (p.addPpp (etherToPpp protocol)).getSize) ∧
      ((d.send cfg i p protocol sim).2.2.queueDrop = [] ↔ d.queueDrop = [] ∧
        d.queue.hasRoom (p.addPpp (etherToPpp protocol)) = true) := by
  have total : (stats.tx (p.addPpp (etherToPpp protocol))).txBytes =
      UInt64.ofNat (bytes + (p.addPpp (etherToPpp protocol)).getSize) := by
    rw [DevStats.tx, tallied.total, UInt64.ofNat_add]
  have framed := Packet.addPpp_pos p (etherToPpp protocol)
  have places := tallied.places
  have with_frame {packets : List Packet} (old : ∀ q ∈ packets, 0 < q.getSize) :
      ∀ q ∈ packets ++ [p.addPpp (etherToPpp protocol)], 0 < q.getSize := by
    intro q member
    rcases List.mem_append.mp member with before | new
    · exact old q before
    · exact List.mem_singleton.mp new ▸ framed
  rcases PointToPointNetDevice.send_cases cfg i p protocol sim d with
    ⟨down, -⟩ | ⟨-, full, sent⟩ | ⟨-, q, taken, ⟨-, sent⟩ | ⟨-, first, rest, head, sent⟩⟩
  · exact absurd tallied.linkUp (by simp [down])
  · have refused := DropTailQueue.enqueue_eq_none.mp full
    rw [sent]
    refine ⟨⟨tallied.linkUp, total, ?_, tallied.queued, with_frame tallied.dropped⟩,
      by simp [refused]⟩
    dsimp only [PointToPointNetDevice.started] at places ⊢
    rw [bytesOf_append, bytesOf_cons, bytesOf_nil]
    omega
  · obtain ⟨room, -, content⟩ := DropTailQueue.enqueue_eq_some.mp taken
    rw [sent]
    refine ⟨⟨tallied.linkUp, total, ?_, ?_, tallied.dropped⟩, by simp [room]⟩
    · dsimp only [PointToPointNetDevice.started] at places ⊢
      rw [content, bytesOf_append, bytesOf_cons, bytesOf_nil]
      omega
    · rw [content]
      exact with_frame tallied.queued
  · obtain ⟨room, -, content⟩ := DropTailQueue.enqueue_eq_some.mp taken
    have split := (DropTailQueue.dequeue_eq_some.mp head).1
    rw [content] at split
    have sizes := congrArg bytesOf split
    rw [sent]
    refine ⟨⟨tallied.linkUp, total, ?_, ?_, tallied.dropped⟩,
      by simp [room, PointToPointNetDevice.transmitStart]⟩
    · rw [started_transmitStart]
      simp only [bytesOf_append, bytesOf_cons, bytesOf_nil] at sizes
      simp only [PointToPointNetDevice.transmitStart, PointToPointNetDevice.started, bytesOf_append,
        bytesOf_cons, bytesOf_nil] at places ⊢
      omega
    · intro r member
      exact with_frame tallied.queued r (split ▸ List.mem_cons_of_mem first member)

omit [DecidableEq ι] in
theorem transmitComplete (tallied : Tallied d stats bytes) (sim : Simulator (Event ι)) :
    Tallied (d.transmitComplete cfg i sim).2 stats bytes ∧
      (d.transmitComplete cfg i sim).2.queueDrop = d.queueDrop := by
  have places := tallied.places
  unfold PointToPointNetDevice.transmitComplete
  dsimp only
  split
  · exact ⟨⟨tallied.linkUp, tallied.total, places, tallied.queued, tallied.dropped⟩, rfl⟩
  · rename_i first rest head
    have split := (DropTailQueue.dequeue_eq_some.mp head).1
    have sizes := congrArg bytesOf split
    refine ⟨⟨tallied.linkUp, tallied.total, ?_, ?_, tallied.dropped⟩, rfl⟩
    · rw [started_transmitStart]
      rw [bytesOf_cons] at sizes
      simp only [PointToPointNetDevice.transmitStart, PointToPointNetDevice.started, bytesOf_append,
        bytesOf_cons, bytesOf_nil] at places ⊢
      omega
    · intro r member
      exact tallied.queued r (split ▸ List.mem_cons_of_mem first member)

end Tallied

namespace TracedNet

variable {cfg} {s t : TracedNet ι} {i : ι} {bytes : Nat}

/-- While a transmission is going on its end is scheduled, once, and not before
all transmissions so far could be over; an idle transmitter has had the time for them. -/
structure Timed (cfg : Config ι ν) (i : ι) (sim : Simulator (Event ι))
    (d : PointToPointNetDevice) : Prop where
  busy : ∀ e ∈ sim.events, e.impl = .transmitComplete i → d.txMachineState = .busy
  unique : ∀ e ∈ sim.events, ∀ f ∈ sim.events,
    e.impl = .transmitComplete i → f.impl = .transmitComplete i → e = f
  ends : ∀ e ∈ sim.events, e.impl = .transmitComplete i → (cfg.attr i).earliestEnd d ≤ e.key.ts
  idle : d.txMachineState = .ready → (cfg.attr i).earliestEnd d ≤ sim.currentTs

namespace Timed

variable {sim after : Simulator (Event ι)} {d e : PointToPointNetDevice} {j : ι}

omit [DecidableEq ι] in
/-- Time passes, and no end of a transmission is scheduled. -/
theorem mono (timed : Timed cfg i sim d) (later : sim.currentTs ≤ after.currentTs)
    (old : ∀ e ∈ after.events, e.impl = .transmitComplete i → e ∈ sim.events)
    (state : e.txMachineState = d.txMachineState) (started : e.phyTxBegin = d.phyTxBegin) :
    Timed cfg i after e := by
  have same : (cfg.attr i).earliestEnd e = (cfg.attr i).earliestEnd d := by
    unfold Attributes.earliestEnd Attributes.airTime PointToPointNetDevice.firstStart
      PointToPointNetDevice.started
    rw [started]
  refine ⟨fun f member mine => ?_, fun f hf g hg mine mine' => ?_, fun f member mine => ?_,
    fun ready => ?_⟩
  · rw [state]
    exact timed.busy f (old f member mine) mine
  · exact timed.unique f (old f hf mine) g (old g hg mine') mine mine'
  · rw [same]
    exact timed.ends f (old f member mine) mine
  · rw [same]
    exact Nat.le_trans (timed.idle (state ▸ ready)) later

omit [DecidableEq ι] in
/-- The only end of a transmission that is new is that of the one that starts. -/
theorem mem_transmitStart {p : Packet} {event : Scheduled (Event ι)}
    (member : event ∈ (d.transmitStart cfg j p sim).1.events)
    (mine : event.impl = .transmitComplete i) :
    event ∈ sim.events ∨ j = i ∧ event = ⟨⟨sim.currentTs +
      ((cfg.attr j).calculateBytesTxTime p.getSize + (cfg.attr j).interframeGap), sim.uid⟩,
        .transmitComplete j⟩ := by
  have first (member : event ∈ (sim.schedule ((cfg.attr j).calculateBytesTxTime p.getSize +
        (cfg.attr j).interframeGap) (.transmitComplete j)).2.events) :
      event ∈ sim.events ∨ j = i ∧ event = ⟨⟨sim.currentTs +
        ((cfg.attr j).calculateBytesTxTime p.getSize + (cfg.attr j).interframeGap), sim.uid⟩,
          .transmitComplete j⟩ := by
    rcases (mem_schedule ..).mp member with rfl | old
    · exact Or.inr ⟨Event.transmitComplete.inj mine, rfl⟩
    · exact Or.inl old
  unfold PointToPointNetDevice.transmitStart at member
  dsimp only at member
  split at member
  · rcases (mem_schedule ..).mp member with rfl | old
    · cases mine
    · exact first old
  · exact first member

omit [DecidableEq ι] in
theorem earliestEnd_transmitStart (ended : (cfg.attr i).earliestEnd d ≤ sim.currentTs) (p : Packet) :
    (cfg.attr i).earliestEnd (d.transmitStart cfg i p sim).2 ≤
      sim.currentTs + (cfg.attr i).calculateBytesTxTime p.getSize := by
  have airTime : (cfg.attr i).airTime (d.transmitStart cfg i p sim).2 =
      (cfg.attr i).airTime d + (cfg.attr i).calculateBytesTxTime p.getSize := by
    rw [Attributes.airTime, started_transmitStart, List.map_append, List.sum_append,
      List.map_singleton, List.sum_singleton, Attributes.airTime]
  rw [Attributes.earliestEnd, airTime, ← Nat.add_assoc]
  apply Nat.add_le_add_right
  unfold Attributes.earliestEnd Attributes.airTime PointToPointNetDevice.started
    PointToPointNetDevice.firstStart at ended
  unfold PointToPointNetDevice.firstStart Attributes.airTime PointToPointNetDevice.started
    PointToPointNetDevice.transmitStart
  cases before : d.phyTxBegin with
  | nil => simp
  | cons first rest => simpa [before] using ended

omit [DecidableEq ι] in
/-- A transmission starts once all before it could be over. -/
theorem transmitStart (none_pending : ∀ e ∈ sim.events, e.impl ≠ .transmitComplete i)
    (ended : (cfg.attr i).earliestEnd d ≤ sim.currentTs) (p : Packet) :
    Timed cfg i (d.transmitStart cfg i p sim).1 (d.transmitStart cfg i p sim).2 := by
  have started := earliestEnd_transmitStart ended p
  have new {event : Scheduled (Event ι)} (member : event ∈ (d.transmitStart cfg i p sim).1.events)
      (mine : event.impl = .transmitComplete i) := (mem_transmitStart member mine).resolve_left
    fun old => none_pending event old mine
  refine ⟨fun _ _ _ => rfl, fun e he f hf mine mine' => ?_, fun e member mine => ?_,
    fun ready => ?_⟩
  · rw [(new he mine).2, (new hf mine').2]
  · rw [(new member mine).2]
    exact started.trans (Nat.add_le_add_left (Nat.le_add_right _ _) _)
  · cases ready

omit [DecidableEq ι] in
theorem transmitComplete (timed : Timed cfg i sim d)
    (none_pending : ∀ e ∈ sim.events, e.impl ≠ .transmitComplete i)
    (ended : (cfg.attr i).earliestEnd d ≤ sim.currentTs) :
    Timed cfg i (d.transmitComplete cfg i sim).1 (d.transmitComplete cfg i sim).2 := by
  unfold PointToPointNetDevice.transmitComplete
  dsimp only
  split
  · exact ⟨fun e member mine => absurd mine (none_pending e member), timed.unique, timed.ends,
      fun _ => ended⟩
  · rename_i first rest _
    let readied := { d with txMachineState := .ready, currentPkt := none, queue := rest }
    exact transmitStart (d := readied) none_pending ended first

omit [DecidableEq ι] in
theorem send (timed : Timed cfg i sim d) (p : Packet) (protocol : UInt16) :
    Timed cfg i (d.send cfg i p protocol sim).2.1 (d.send cfg i p protocol sim).2.2 := by
  have still {e : PointToPointNetDevice} (state : e.txMachineState = d.txMachineState)
      (started : e.phyTxBegin = d.phyTxBegin) : Timed cfg i sim e :=
    timed.mono (Nat.le_refl _) (fun _ member _ => member) state started
  rcases PointToPointNetDevice.send_cases cfg i p protocol sim d with
    ⟨-, sent⟩ | ⟨-, -, sent⟩ | ⟨-, q, -, ⟨-, sent⟩ | ⟨ready, first, rest, -, sent⟩⟩ <;> rw [sent]
  · exact still rfl rfl
  · exact still rfl rfl
  · exact still rfl rfl
  · refine transmitStart (d := { d with queue := rest }) (fun e member mine => ?_)
      (timed.idle ready) first
    rw [timed.busy e member mine] at ready
    cases ready

/- Other devices have ends of transmissions of their own. -/
section Other

variable (timed : Timed cfg i sim d) (other : j ≠ i) (d' : PointToPointNetDevice)
include timed other

omit [DecidableEq ι] in
theorem otherStart (p : Packet) : Timed cfg i (d'.transmitStart cfg j p sim).1 d :=
  timed.mono (by rw [PointToPointNetDevice.transmitStart_currentTs])
    (fun _ member mine => (mem_transmitStart member mine).resolve_right fun new => other new.1)
    rfl rfl

omit [DecidableEq ι] in
theorem otherComplete : Timed cfg i (d'.transmitComplete cfg j sim).1 d := by
  unfold PointToPointNetDevice.transmitComplete
  dsimp only
  split
  · exact timed
  · exact timed.otherStart other _ _

omit [DecidableEq ι] in
theorem otherSend (p : Packet) (protocol : UInt16) :
    Timed cfg i (d'.send cfg j p protocol sim).2.1 d := by
  rcases PointToPointNetDevice.send_cases cfg j p protocol sim d' with
    ⟨-, sent⟩ | ⟨-, -, sent⟩ | ⟨-, q, -, ⟨-, sent⟩ | ⟨-, first, rest, -, sent⟩⟩ <;> rw [sent]
  · exact timed
  · exact timed
  · exact timed
  · exact timed.otherStart other _ first

end Other

omit [DecidableEq ι] in
/-- The next event is taken out. If it ends the transmission, no other end is scheduled. -/
theorem processOneEvent {impl : Option (Event ι)} (timed : Timed cfg i sim d)
    (popped : sim.processOneEvent = some (impl, after)) :
    Timed cfg i after d ∧ (impl = some (.transmitComplete i) →
      (∀ e ∈ after.events, e.impl ≠ .transmitComplete i) ∧
        (cfg.attr i).earliestEnd d ≤ after.currentTs) := by
  obtain ⟨next, events, ts, -, -, -, handler⟩ := processOneEvent_eq popped
  have old : ∀ e ∈ after.events, e ∈ sim.events :=
    fun e member => events ▸ List.mem_cons_of_mem _ member
  have first : next ∈ sim.events := events ▸ List.mem_cons_self
  refine ⟨timed.mono (processOneEvent_mono popped) (fun e member _ => old e member) rfl rfl, ?_⟩
  intro complete
  have own : next.impl = .transmitComplete i := by
    rw [complete] at handler
    split at handler
    · cases handler
    · exact (Option.some.inj handler).symm
  refine ⟨fun e member mine => ?_, ?_⟩
  · have twice := timed.unique next first e (old e member) own mine
    have fresh := sim.distinct
    rw [events, List.map_cons, List.nodup_cons] at fresh
    exact fresh.1 (twice ▸ List.mem_map_of_mem member)
  · rw [ts]
    exact timed.ends next first own

end Timed

omit [DecidableEq ι] in
theorem init_timed (i : ι) : Timed cfg i (init cfg).sim ((init cfg).dev i) :=
  ⟨fun _ => nofun, fun _ => nofun, fun _ => nofun, fun _ => Nat.le_refl _⟩

theorem step_timed {action : Action ι} (step : s.step cfg action = some t)
    (timed : Timed cfg i s.sim (s.dev i)) : Timed cfg i t.sim (t.dev i) := by
  cases action with
  | send j p protocol =>
    cases step
    rcases eq_or_ne j i with rfl | other
    · have sent := timed.send p protocol
      simpa [TracedNet.send] using sent
    · have foreign := timed.otherSend other (s.dev j) p protocol
      simpa [TracedNet.send, Function.update_of_ne other.symm] using foreign
  | event =>
    simp only [TracedNet.step] at step
    split at step
    · cases step
    · rename_i j sim popped
      cases step
      obtain ⟨mid, own⟩ := timed.processOneEvent popped
      rcases eq_or_ne j i with rfl | other
      · obtain ⟨none_pending, ended⟩ := own rfl
        have completed := mid.transmitComplete none_pending ended
        simpa [TracedNet.transmitComplete] using completed
      · have foreign := mid.otherComplete other (s.dev j)
        simpa [TracedNet.transmitComplete, Function.update_of_ne other.symm] using foreign
    · rename_i impl sim _ popped
      cases step
      exact (timed.processOneEvent popped).1
  | elapse time =>
    obtain ⟨sim, elapsed, rfl⟩ := Option.map_eq_some_iff.mp step
    obtain ⟨later, ts, events, -⟩ := elapse_eq elapsed
    have later : s.sim.currentTs ≤ sim.currentTs := by omega
    refine timed.mono later (fun e member _ => ?_) rfl rfl
    rwa [events] at member

theorem run_timed {actions : List (Action ι)} (ran : s.run cfg actions = some t)
    (timed : Timed cfg i s.sim (s.dev i)) : Timed cfg i t.sim (t.dev i) := by
  induction actions generalizing s with
  | nil =>
    cases ran
    exact timed
  | cons action actions ih =>
    obtain ⟨mid, step, rest⟩ := Option.bind_eq_some_iff.mp ran
    exact ih rest (step_timed step timed)

/-- In every state the transmissions of an idle device have had the time they take. -/
theorem earliestEnd_le_of_ready {actions : List (Action ι)}
    (ran : (init cfg).run cfg actions = some s) (i : ι)
    (ready : (s.dev i).txMachineState = .ready) :
    (cfg.attr i).earliestEnd (s.dev i) ≤ s.sim.currentTs :=
  (run_timed ran (init_timed i)).idle ready

/- The utilisation -/

/-- What is started fits into the time at the data rate. -/
theorem Settled.carried {dataRate : Nat} {actions : List (Action ι)}
    (settled : Settled cfg dataRate actions s i) (ran : (init cfg).run cfg actions = some s)
    (positive : 0 < dataRate) :
    8 * 1000000000 * bytesOf (s.dev i).started ≤ dataRate * s.sim.currentTs := by
  have rate : 0 < (cfg.attr i).dataRate := settled.rate.symm ▸ positive
  have fits : (cfg.attr i).airTime (s.dev i) + (s.dev i).started.length ≤ s.sim.currentTs := by
    cases state : (s.dev i).txMachineState with
    | ready =>
      have ended := earliestEnd_le_of_ready ran i state
      rw [Attributes.earliestEnd, Nat.add_comm] at ended
      exact (Nat.add_le_add_left (settled.idle state) _).trans ended
    | busy => exact settled.busy state
  calc 8 * 1000000000 * bytesOf (s.dev i).started
      = ((s.dev i).started.map fun p => 8 * 1000000000 * p.getSize).sum :=
        (List.sum_map_mul_left ..).symm
    _ ≤ ((s.dev i).started.map fun p =>
          (cfg.attr i).dataRate * ((cfg.attr i).calculateBytesTxTime p.getSize + 1)).sum :=
        List.sum_le_sum fun p member =>
          DataRate.bits_le_calculateBytesTxTime rate (settled.short p member)
    _ = (cfg.attr i).dataRate * ((cfg.attr i).airTime (s.dev i) + (s.dev i).started.length) := by
        rw [List.sum_map_mul_left, List.sum_map_add, Attributes.airTime]
        simp
    _ ≤ dataRate * s.sim.currentTs := by
        rw [settled.rate]
        exact Nat.mul_le_mul_left _ fits

end TracedNet

def offer (size : Nat) : TracedNet.Action (Fin 2) := .send 0 ⟨.host 0, List.replicate size 0⟩ 0x0800

def burst (sends size : Nat) : List (TracedNet.Action (Fin 2)) :=
  .elapse 200000000 :: List.replicate sends (offer size)

end QbbNet
