import QbbNet.WakeUps
import QbbNet.PauseCompliance

set_option autoImplicit false

/- Runs of the network keep every device awake, and edit the simulator and the
base devices one device at a time. -/
namespace QbbNet

open Simulator

variable {ι ν : Type} [DecidableEq ι] [DecidableEq ν] {cfg : Config ι ν} {i : ι} {s t : Net ι ν}

/-- The simulator and the base devices of a network. -/
abbrev Links (ι : Type) := Simulator (Event ι) × (ι → PointToPointNetDevice)

def Net.links (s : Net ι ν) : Links ι := (s.sim, fun i => (s.dev i).toPointToPointNetDevice)

/-- An edit of one device's link. -/
inductive LinkEdit (cfg : Config ι ν) (links : Links ι) : Links ι → Prop
  | device (i : ι) {after : Simulator (Event ι) × PointToPointNetDevice}
      (edit : Edit cfg i (links.1, links.2 i) after) :
      LinkEdit cfg links (after.1, Function.update links.2 i after.2)

abbrev LinkEdits (cfg : Config ι ν) : Links ι → Links ι → Prop :=
  Relation.ReflTransGen (LinkEdit cfg)

omit [DecidableEq ν] in
theorem LinkEdits.of_edits {links : Links ι} {after : Simulator (Event ι) × PointToPointNetDevice}
    (edits : Edits cfg i (links.1, links.2 i) after) :
    LinkEdits cfg links (after.1, Function.update links.2 i after.2) := by
  induction edits with
  | refl => rw [Function.update_eq_self]
  | @tail mid after _ edit ih =>
    refine ih.tail ?_
    have current : (Function.update links.2 i mid.2) i = mid.2 := Function.update_self ..
    have last : LinkEdit cfg (mid.1, Function.update links.2 i mid.2)
        (after.1, Function.update (Function.update links.2 i mid.2) i after.2) :=
      .device i (by dsimp only; rwa [current])
    rwa [Function.update_idem] at last

omit [DecidableEq ι] in
theorem wakeTxEvent_pending {h : Host ι} {timer : Timer} (other : timer ≠ .tx) :
    (h.wakeTxEvent i).Pending timer ↔ h.Pending timer := by
  unfold Host.wakeTxEvent
  split
  · exact (Arms.tx 0).pending_other other
  · rfl

omit [DecidableEq ι] in
theorem send_pending {dg : Datagram} {h : Host ι} {timer : Timer} (other : timer ≠ .tx) :
    (send i dg h).Pending timer ↔ h.Pending timer := wakeTxEvent_pending (h := h.update _) other

theorem Net.host_put_self (h : Host ι) : (s.put cfg i h).host cfg i = h := by
  simp [Net.host, Net.put]

theorem Net.put_links (h : Host ι) : (s.put cfg i h).links =
    (h.sim, Function.update s.links.2 i h.dev.toPointToPointNetDevice) := by
  refine Prod.ext rfl (funext fun k => ?_)
  rcases eq_or_ne k i with rfl | other
  · simp [Net.links]
  · simp [Net.links, other]

/-- Only timers of one device are due. -/
def dueAt (i : ι) (due : Set Timer) : ι → Set Timer := Function.update (fun _ => ∅) i due

omit [DecidableEq ν] in
@[simp] theorem dueAt_self (due : Set Timer) : dueAt i due i = due := Function.update_self ..

theorem dueAt_ne {k : ι} (other : k ≠ i) (due : Set Timer) : dueAt i due k = ∅ :=
  Function.update_of_ne other ..

/-- In the course of a step: the timers in `due` have run out, and the links
have been edited since `start`. -/
structure Net.During (cfg : Config ι ν) (start : Links ι) (due : ι → Set Timer) (s : Net ι ν) :
    Prop where
  awake : ∀ k, Awake k (due k) (s.host cfg k)
  expired : ∀ k, ∀ timer ∈ due k, ¬ (s.host cfg k).Pending timer
  edits : LinkEdits cfg start s.links

namespace Net.During

variable {start : Links ι} {due due' : ι → Set Timer}

/-- Timers of the other devices stay as they are. -/
theorem others {h : Host ι} (same : ∀ k ≠ i, SameFor (Event.TimerOf k) s.sim h.sim) {k : ι}
    (other : k ≠ i) : Still k (s.host cfg k) ((s.put cfg i h).host cfg k) := by
  refine ⟨same k other, ?_, ?_⟩ <;> simp only [Net.host_dev, Net.put_dev_ne other]
  exact ⟨rfl, rfl, rfl, rfl, rfl⟩

theorem put (during : During cfg start due s) {h : Host ι} (own : Awake i (due' i) h)
    (expired : ∀ timer ∈ due' i, ¬ h.Pending timer)
    (edits : Edits cfg i (s.host cfg i).link h.link) (same : ∀ k ≠ i, due' k = due k) :
    During cfg start due' (s.put cfg i h) where
  awake k := by
    rcases eq_or_ne k i with rfl | other
    · rwa [Net.host_put_self]
    · exact same k other ▸ (during.awake k).still (others (fun _ => edits.sameFor) other)
  expired k timer member := by
    rcases eq_or_ne k i with rfl | other
    · rw [Net.host_put_self]
      exact expired timer member
    · rw [same k other] at member
      have still : Still k (s.host cfg k) _ := others (fun _ => edits.sameFor) other
      rw [still.pending (during.awake k).slots]
      exact during.expired k timer member
  edits := by
    refine during.edits.trans ?_
    rw [Net.put_links]
    exact show LinkEdits cfg s.links (h.link.1, Function.update s.links.2 i h.link.2) from .of_edits edits

/-- A handler of a device none of whose timers is due before or after. -/
theorem on (during : During cfg start (fun _ => ∅) s) {f : Host ι → Host ι}
    (own : Awake i ∅ (s.host cfg i) → Awake i ∅ (f (s.host cfg i)))
    (edits : Edits cfg i (s.host cfg i).link (f (s.host cfg i)).link) :
    During cfg start (fun _ => ∅) (s.on cfg i f) :=
  during.put (own (during.awake i)) (fun _ => False.elim) edits fun _ _ => rfl

theorem complete (awake : ∀ k, Awake k ∅ (s.host cfg k)) (k : ι) :
    Awake k ∅ ((s.on cfg i (transmitComplete cfg i)).host cfg k) := by
  rcases eq_or_ne k i with rfl | other
  · rw [Net.on, Net.host_put_self]
    exact (awake k).still ⟨transmitComplete_sameFor, rfl, ⟨rfl, rfl, rfl, rfl, rfl⟩⟩
  · exact (awake k).still (others (fun _ _ => transmitComplete_sameFor (h := s.host cfg i)) other)

/-- A note that no timer looks at. -/
theorem noted (during : During cfg start due s) {f : QbbNetDevice → QbbNetDevice}
    (work : SameWork (s.dev i) (f (s.dev i))) (timer : (f (s.dev i)).timer = (s.dev i).timer)
    (edits : Edits cfg i (s.host cfg i).link ((s.host cfg i).update f).link) :
    During cfg start due (s.on cfg i (·.update f)) := by
  have still : Still i (s.host cfg i) ((s.host cfg i).update f) := ⟨.refl _ _, timer, work⟩
  refine during.put ((during.awake i).still still) (fun timer member => ?_) edits fun _ _ => rfl
  rw [still.pending (during.awake i).slots]
  exact during.expired i timer member

theorem sendAll (during : During cfg start due s) (others : ∀ k, ∀ timer ∈ due k, timer ≠ .tx)
    (sends : List (ι × Datagram)) : During cfg start due (s.sendAll cfg sends) := by
  induction sends generalizing s with
  | nil => exact during
  | cons call sends ih =>
    refine ih (during.put ((during.awake call.1).send call.2) ?_ (.send .refl call.2) fun _ _ => rfl)
    intro timer member
    rw [send_pending (others _ timer member)]
    exact during.expired call.1 timer member

theorem notifyNewAggregate (during : During cfg start (fun _ => ∅) s) :
    During cfg start (fun _ => ∅) (s.notifyNewAggregate cfg i) := by
  unfold Net.notifyNewAggregate
  split
  · let once := (s.sim.schedule 0 (.hookL3Divert i)).2
    let twice := (once.schedule (microSeconds 1) (.hookL3Divert i)).2
    have same : SameFor (Event.TimerOf i) s.sim twice := (SameFor.schedule _ _ id).trans (.schedule _ _ id)
    have hooked : During cfg start (fun _ => ∅) (s.put cfg i { s.host cfg i with sim := twice }) :=
      during.put ((during.awake i).still ⟨same, rfl, ⟨rfl, rfl, rfl, rfl, rfl⟩⟩) (fun _ => False.elim)
      (.tail (.single (.schedule 0 (Or.inr rfl))) (.schedule (microSeconds 1) (Or.inr rfl)))
      fun _ _ => rfl
    simpa [Net.put, Net.host] using hooked
  · exact during

theorem receive (during : During cfg start (fun _ => ∅) s) (p : Packet) (corrupt : Bool) :
    During cfg start (fun _ => ∅) (s.receive cfg i p corrupt) := by
  unfold Net.receive
  split
  · exact during.noted ⟨rfl, rfl, rfl, rfl, rfl⟩ rfl (.single (.note (s.dev i).rxCallback _))
  · have received := during.on (f := handleMacRx cfg i p) (fun awake => awake.handleMacRx p)
      (.handleMacRx .refl (during.awake i) p)
    dsimp only
    split
    · exact received
    · exact received.noted ⟨rfl, rfl, rfl, rfl, rfl⟩ rfl .refl

theorem handUp (during : During cfg start due s) (others : ∀ k, ∀ timer ∈ due k, timer ≠ .tx)
    (p : Packet) (up : Upcall ι) : During cfg start due (s.handUp cfg i p up) := by
  unfold Net.handUp
  split
  · exact sendAll (during.noted ⟨rfl, rfl, rfl, rfl, rfl⟩ rfl .refl) others _
  · exact during

theorem doIngressDrain (during : During cfg start (dueAt i {.drain}) s) (up : Upcall ι) :
    During cfg start (fun _ => ∅) (s.doIngressDrain cfg i up) := by
  have own {s : Net ι ν} (during : During cfg start (dueAt i {.drain}) s) :
      Awake i {.drain} (s.host cfg i) := dueAt_self (i := i) {.drain} ▸ during.awake i
  have expired {s : Net ι ν} (during : During cfg start (dueAt i {.drain}) s) :
      ¬ (s.host cfg i).Pending .drain := during.expired i .drain (by simp)
  have settled : ∀ k ≠ i, (fun _ => ∅ : ι → Set Timer) k = dueAt i {.drain} k :=
    fun k other => (dueAt_ne other _).symm
  rcases s.doIngressDrain_cases cfg i up with
    ⟨picked, -, same⟩ | ⟨prio, p, rest, -, -, ⟨refused, -, same⟩ | ⟨granted, -, same⟩⟩
  · rw [same]
    refine ⟨fun k => ?_, fun _ _ => False.elim, during.edits⟩
    rcases eq_or_ne k i with rfl | other
    · refine (own during).idle fun prio => ?_
      simpa using List.find?_eq_none.mp picked prio (by simp)
    · exact dueAt_ne other {.drain} ▸ during.awake k
  · rw [same]
    rcases (own during).drainToken cfg (expired during) (up.egressPort p) prio with
      ⟨-, awake⟩ | ⟨granted, -⟩
    · exact during.put awake (fun _ => False.elim) (.drainToken .refl _ _) settled
    · rw [refused] at granted
      cases granted
  · rw [same]
    have token : During cfg start (dueAt i {.drain})
        (s.put cfg i (drainToken cfg i (up.egressPort p) prio (s.host cfg i)).2) := by
      rcases (own during).drainToken cfg (expired during) (up.egressPort p) prio with
        ⟨refused, -⟩ | ⟨-, still⟩
      · rw [granted] at refused
        cases refused
      · refine during.put ((during.awake i).still still) (fun timer member => ?_)
          (.drainToken .refl _ _) fun _ _ => rfl
        rw [still.pending (during.awake i).slots]
        exact during.expired i timer member
    generalize s.put cfg i (drainToken cfg i (up.egressPort p) prio (s.host cfg i)).2 = s₁ at token ⊢
    have popped : During cfg start (dueAt i {.drain}) (s₁.on cfg i (drainPop cfg i prio)) := by
      obtain ⟨awake, unarmed⟩ := (own token).drainPop cfg (expired token) prio
      refine token.put ?_ ?_ (.drainPop .refl prio) fun _ _ => rfl
      · exact (dueAt_self (i := i) _).symm ▸ awake
      · intro timer member
        rw [dueAt_self] at member
        exact member ▸ unarmed
    have upward : During cfg start (dueAt i {.drain})
        ((s₁.on cfg i (drainPop cfg i prio)).handUp cfg i p up) := by
      refine popped.handUp (fun k timer member => ?_) p up
      rcases eq_or_ne k i with rfl | other
      · rw [dueAt_self] at member
        exact member ▸ nofun
      · rw [dueAt_ne other] at member
        exact False.elim member
    refine upward.put (.scheduleIngressDrainEv ?_ (expired upward) 0) (fun _ => False.elim)
      (.scheduleIngressDrainEv .refl 0) settled
    exact just .drain ▸ own upward

omit [DecidableEq ν] in
/-- The handler of an event that is no device's timer. -/
theorem of_other {event : Event ι} (foreign : ∀ k, ¬ event.TimerOf k)
    (awake : ∀ k, Awake k {timer | ∃ e ∈ some event, timer.Runs k e} (s.host cfg k)) :
    During cfg s.links (fun _ => ∅) s where
  awake k := by
    have none_due : {timer : Timer | ∃ e ∈ some event, timer.Runs k e} = ∅ := by
      refine Set.eq_empty_of_forall_notMem fun timer ⟨e, same, runs⟩ => foreign k ?_
      exact Option.some.inj same ▸ Event.timerOf_iff.mpr ⟨timer, runs⟩
    exact none_due ▸ awake k
  expired _ _ := False.elim
  edits := .refl

omit [DecidableEq ν] in
/-- The handler of the event of a timer. -/
theorem of_timer {event : Event ι} {timer : Timer} (runs : timer.Runs i event)
    (awake : ∀ k, Awake k {timer | ∃ e ∈ some event, timer.Runs k e} (s.host cfg k))
    (expired : ¬ (s.host cfg i).Pending timer) : During cfg s.links (dueAt i {timer}) s where
  awake k := by
    rcases eq_or_ne k i with rfl | other
    · have only : {timer : Timer | ∃ e ∈ some event, timer.Runs k e} = {timer} := by
        refine Set.eq_singleton_iff_unique_mem.mpr ⟨⟨event, rfl, runs⟩, fun t ⟨e, same, mine⟩ => ?_⟩
        exact (Option.some.inj same ▸ mine).unique runs
      rw [dueAt_self]
      exact only ▸ awake k
    · have none_due : {timer : Timer | ∃ e ∈ some event, timer.Runs k e} = ∅ := by
        refine Set.eq_empty_of_forall_notMem fun t ⟨e, same, mine⟩ => other ?_
        exact (Option.some.inj same ▸ Event.timerOf_iff.mpr ⟨t, mine⟩ : event.TimerOf k).unique
          (Event.timerOf_iff.mpr ⟨timer, runs⟩)
      rw [dueAt_ne other]
      exact none_due ▸ awake k
  expired k t member := by
    rcases eq_or_ne k i with rfl | other
    · rw [dueAt_self] at member
      exact member ▸ expired
    · rw [dueAt_ne other] at member
      exact False.elim member
  edits := .refl

/-- The handler of a timer's event leaves every device awake. -/
theorem timer {timer : Timer} (during : During cfg start (dueAt i {timer}) s) {f : Host ι → Host ι}
    (own : Awake i {timer} (s.host cfg i) → ¬ (s.host cfg i).Pending timer →
      Awake i ∅ (f (s.host cfg i)))
    (edits : Edits cfg i (s.host cfg i).link (f (s.host cfg i)).link) :
    During cfg start (fun _ => ∅) (s.on cfg i f) :=
  during.put (own (dueAt_self (i := i) {timer} ▸ during.awake i) (during.expired i timer (by simp)))
    (fun _ => False.elim) edits fun _ other => (dueAt_ne other _).symm

end Net.During

/-- The events whose handlers only edit the links. -/
theorem Net.handle_during {event : Event ι} (up : Upcall ι)
    (awake : ∀ k, Awake k {timer | ∃ e ∈ some event, timer.Runs k e} (s.host cfg k))
    (expired : ∀ k, ∀ timer : Timer, timer.Runs k event → ¬ (s.host cfg k).Pending timer)
    (lapsed : ∀ k prio, (Timer.refill prio).Runs k event →
      (s.dev k).pauseUntil prio ≤ s.sim.currentTs)
    (transmitting : ∀ k, event ≠ .transmitComplete k) :
    Net.During cfg s.links (fun _ => ∅) (s.handle cfg up event) := by
  have of_timer {k : ι} (timer : Timer) (runs : timer.Runs k event) :
      Net.During cfg s.links (dueAt k {timer}) s := .of_timer runs awake (expired k timer runs)
  cases event with
  | tryDequeue k =>
    exact (of_timer .tx rfl).timer (fun awake expired => awake.tryDequeue expired)
      (.tryDequeue .refl)
  | doIngressDrain k => exact (of_timer .drain rfl).doIngressDrain up
  | resumeFromPause k prio =>
    have runs : (Timer.refill prio).Runs k (.resumeFromPause k prio) := Or.inl rfl
    exact (of_timer (.refill prio) runs).timer
      (fun awake expired => awake.resumeFromPause expired (lapsed k prio runs))
      (.resumeFromPause .refl prio)
  | refillMacQueueFromHold k prio =>
    have runs : (Timer.refill prio).Runs k (.refillMacQueueFromHold k prio) := Or.inr rfl
    refine (of_timer (.refill prio) runs).timer (fun awake expired => ?_) (.refillMacQueueFromHold .refl prio)
    refine Awake.refillMacQueueFromHold (just (.refill prio) ▸ awake) expired ?_
    simp [QbbNetDevice.pausing, Host.now, Nat.not_lt.mpr (lapsed k prio runs)]
  | transmitComplete k => exact absurd rfl (transmitting k)
  | receive k p => exact (Net.During.of_other (fun _ => id) awake).receive p up.corrupt
  | hookL3Divert k =>
    exact (Net.During.of_other (fun _ => id) awake).noted ⟨rfl, rfl, rfl, rfl, rfl⟩ rfl
      (.single (.note .l3Swallow (s.dev k).phyRxDrop))

/-- The device whose transmission a step completes. -/
def Net.completes (s : Net ι ν) : Action ι ν → Option ι
  | .event _ =>
      match s.sim.processOneEvent with
      | some (some (.transmitComplete i), _) => some i
      | _ => none
  | _ => none

/-- The network when the handlers of a step begin. -/
def Net.begun (s : Net ι ν) : Action ι ν → Net ι ν
  | .event _ =>
      match s.sim.processOneEvent with
      | some (_, sim) => { s with sim }
      | none => s
  | .elapse t =>
      match s.sim.elapse t with
      | some sim => { s with sim }
      | none => s
  | _ => s

omit [DecidableEq ι] [DecidableEq ν] in
@[simp] theorem Net.begun_dev (action : Action ι ν) : (s.begun action).dev = s.dev := by
  cases action with
  | event => rw [Net.begun]; split <;> rfl
  | elapse => rw [Net.begun]; split <;> rfl
  | _ => rfl

/-- What a step leaves: every device awake, and links that were edited or
completed a transmission. -/
structure Net.Stepped (cfg : Config ι ν) (s : Net ι ν) (action : Action ι ν) (t : Net ι ν) : Prop where
  awake : ∀ k, Awake k ∅ (t.host cfg k)
  edits : s.completes action = none → LinkEdits cfg (s.begun action).links t.links
  completed : ∀ i, s.completes action = some i →
    t = (s.begun action).on cfg i (transmitComplete cfg i)

theorem Net.Stepped.of_during {action : Action ι ν} {u : Net ι ν} (begun : s.begun action = u)
    (during : Net.During cfg u.links (fun _ => ∅) t) (running : s.completes action = none) :
    Net.Stepped cfg s action t where
  awake := during.awake
  edits _ := begun ▸ during.edits
  completed i same := by rw [running] at same; cases same

theorem Net.step_stepped {action : Action ι ν} (reachable : Net.Reachable cfg s)
    (awake : ∀ k, Awake k ∅ (s.host cfg k)) (step : s.step cfg action = some t) :
    Net.Stepped cfg s action t := by
  have at_rest {u : Net ι ν} (awake : ∀ k, Awake k ∅ (u.host cfg k)) :
      Net.During cfg u.links (fun _ => ∅) u := ⟨awake, fun _ _ => False.elim, .refl⟩
  cases Net.step_to cfg step with
  | elapse ts elapsed =>
    exact .of_during (by rw [Net.begun, elapsed]) (at_rest fun k => (awake k).elapse elapsed) rfl
  | send j dg =>
    exact .of_during rfl ((at_rest awake).on (fun awake => awake.send dg) (.send .refl dg)) rfl
  | deliver j p corrupt => exact .of_during rfl ((at_rest awake).receive p corrupt) rfl
  | installStack | addInterface =>
    exact .of_during rfl ⟨awake, fun _ _ => False.elim, .refl⟩ rfl
  | aggregate j => exact .of_during rfl (at_rest awake).notifyNewAggregate rfl
  | @skip up sim popped =>
    have begun : s.begun (.event up) = { s with sim } := by rw [Net.begun, popped]
    refine .of_during begun (at_rest fun k => ?_) (by rw [Net.completes, popped])
    have after := ((awake k).processOneEvent popped).1
    have none_due : {timer : Timer | ∃ e ∈ (none : Option (Event ι)), timer.Runs k e} = ∅ := by
      simp
    exact none_due ▸ after
  | @event up event sim popped =>
    have begun : s.begun (.event up) = { s with sim } := by rw [Net.begun, popped]
    have timers := fun k => (awake k).processOneEvent popped
    have lapsed (k : ι) (prio : Fin 8) (runs : (Timer.refill prio).Runs k event) :
        (s.dev k).pauseUntil prio ≤ sim.currentTs := by
      obtain ⟨-, -, key⟩ := (timers k).2 _ ⟨event, rfl, runs⟩
      cases flag : (s.dev k).paused prio with
      | true =>
        obtain ⟨-, uid, ends⟩ := (awake k).paused prio (by simp) flag
        have same := ends.symm.trans key
        simp only [Net.host_dev, Option.some.injEq, EventKey.mk.injEq] at same
        exact Nat.le_of_eq same.1
      | false =>
        exact Nat.le_trans (pauseUntil_le_of_clear reachable k prio flag)
          (processOneEvent_mono popped)
    have expired (k : ι) (timer : Timer) (runs : timer.Runs k event) :
        ¬ (({ s with sim } : Net ι ν).host cfg k).Pending timer :=
      ((timers k).2 timer ⟨event, rfl, runs⟩).1
    by_cases completes : ∃ j, event = .transmitComplete j
    · obtain ⟨j, rfl⟩ := completes
      have rest : Net.During cfg ({ s with sim } : Net ι ν).links (fun _ => ∅) { s with sim } :=
        .of_other (fun _ => id) fun k => (timers k).1
      have running : s.completes (.event up) = some j := by rw [Net.completes, popped]
      refine ⟨Net.During.complete rest.awake, fun none => ?_, fun i same => ?_⟩
      · rw [running] at none
        cases none
      · rw [running] at same
        cases same
        rw [begun]
        rfl
    · have transmitting : ∀ j, event ≠ .transmitComplete j := fun j same => completes ⟨j, same⟩
      refine .of_during begun
        (Net.handle_during up (fun k => (timers k).1) expired lapsed transmitting) ?_
      simp only [Net.completes, popped]
      split
      · rename_i j _ same
        simp only [Option.some.injEq, Prod.mk.injEq] at same
        exact absurd same.1 (transmitting j)
      · rfl

/-- In every reachable state every device is awake. -/
theorem Net.reachable_awake (reachable : Net.Reachable cfg s) (i : ι) : Awake i ∅ (s.host cfg i) := by
  obtain ⟨start, actions, initial, run⟩ := reachable
  induction run generalizing i with
  | nil =>
    obtain ⟨linkUp, stack, rfl⟩ := initial
    refine ⟨fun timer => ?_, fun _ _ => nofun, fun _ _ waiting => absurd rfl waiting,
      fun _ _ _ waiting => absurd rfl waiting, fun _ _ waiting => absurd rfl waiting⟩
    cases timer <;> exact .init _
  | snoc before _ step ih =>
    exact (Net.step_stepped ⟨start, _, initial, before⟩ ih step).awake i

/-- Every step of a run edits the links or completes a transmission. -/
theorem Net.Reachable.stepped {action : Action ι ν} (reachable : Net.Reachable cfg s)
    (step : s.step cfg action = some t) : Net.Stepped cfg s action t :=
  Net.step_stepped reachable (Net.reachable_awake reachable) step

/-- A timer names a live event that looks at the packets again, at the given time if any. -/
def Net.Scheduled (s : Net ι ν) (i : ι) (timer : Timer) (at_ : Option Time) : Prop :=
  ∃ e, s.sim.Live e ∧ (s.dev i).timer timer = some e.key ∧ timer.Runs i e.impl ∧
    ∀ ts ∈ at_, e.key.ts = ts

omit [DecidableEq ι] [DecidableEq ν] in
theorem Net.scheduled_of_pending (awake : Awake i ∅ (s.host cfg i)) {timer : Timer}
    (pending : (s.host cfg i).Pending timer) : s.Scheduled i timer none := by
  obtain ⟨e, live, key, runs⟩ := (awake.slots timer).armed pending
  exact ⟨e, live, key, runs, nofun⟩

/-- The timer of a paused class is pending for the end of the pause, the timer of
a held class is pending, and so is one of the two timers of a class with a backlog. -/
theorem no_lost_wake_up (reachable : Net.Reachable cfg s) (i : ι) (prio : Fin 8) :
    ((s.dev i).paused prio = true →
      s.Scheduled i (.refill prio) (some ((s.dev i).pauseUntil prio))) ∧
    ((s.dev i).macHold prio ≠ [] → s.Scheduled i (.refill prio) none) ∧
    ((s.dev i).txq prio ≠ [] → s.Scheduled i .tx none ∨ s.Scheduled i (.refill prio) none) := by
  have awake := Net.reachable_awake reachable i
  refine ⟨fun flag => ?_, fun waiting => ?_, fun waiting => ?_⟩
  · obtain ⟨pending, uid, ends⟩ := awake.paused prio (by simp) flag
    obtain ⟨e, live, key, runs⟩ := (awake.slots _).armed pending
    refine ⟨e, live, key, runs, fun ts same => ?_⟩
    rw [ends, Option.some.injEq] at key
    rw [← key]
    exact Option.some.inj same
  · exact Net.scheduled_of_pending awake (awake.hold prio (by simp) waiting)
  · exact (awake.backlog (by simp) prio (by simp) waiting).imp
      (Net.scheduled_of_pending awake) (Net.scheduled_of_pending awake)

/-- A packet is purged from the queue, and another one is sent during the pause. -/
def strandedRun : List (Action (Fin 1) Unit) :=
  [sendClass 0 0x00, sendClass 1 0x00, .event .sink, .event .sink, .event .sink, receivePfc 1,
    sendClass 2 0x00, .event .sink]

theorem no_lost_wake_up_paused :
    ∃ s, (Net.started shortQueue).run shortQueue (fun _ _ => True) strandedRun = some s ∧
      s.Scheduled 0 (.refill 0) (some ((s.dev 0).pauseUntil 0)) ∧
      s.sim.isExpired (s.dev 0).txEvent = true ∧
      (s.Scheduled 0 .tx none ∨ s.Scheduled 0 (.refill 0) none) := by
  obtain ⟨s, ran, paused, held, waiting, expired⟩ : ∃ s,
      (Net.started shortQueue).run shortQueue (fun _ _ => True) strandedRun = some s ∧
        (s.dev 0).paused 0 = true ∧ (s.dev 0).macHold 0 ≠ [] ∧ (s.dev 0).txq 0 ≠ [] ∧
          s.sim.isExpired (s.dev 0).txEvent = true :=
    exists_of_any (by decide +kernel)
  have wake_up := no_lost_wake_up (.of_run _ (Net.started_initial _) ran) 0 0
  exact ⟨s, ran, wake_up.1 paused, expired, wake_up.2.2 waiting⟩

end QbbNet
