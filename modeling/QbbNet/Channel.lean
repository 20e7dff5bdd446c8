import QbbNet.SimulatorFlight
import QbbNet.WakeUpRun

set_option autoImplicit false

/- The channel from device `i` to its peer `j` delivers the frames in the order
in which their transmissions start. -/
namespace QbbNet

open Simulator

variable {ι ν : Type} [DecidableEq ι] {cfg : Config ι ν} {i j : ι}

/-- The frame that an event brings to device `j`. -/
def Event.receivedBy (j : ι) : Event ι → Option Packet
  | .receive k p => if k = j then some p else none
  | _ => none

/-- While a transmission is going on, its end is scheduled once, and frames that
are on their way arrive within the propagation delay after it. -/
structure Serial (cfg : Config ι ν) (i j : ι) (links : Links ι) : Prop where
  busy : ∀ e ∈ links.1.events, e.impl = .transmitComplete i → (links.2 i).txMachineState = .busy
  unique : ∀ e ∈ links.1.events, ∀ f ∈ links.1.events,
    e.impl = .transmitComplete i → f.impl = .transmitComplete i → e = f
  arrives : ∀ e ∈ links.1.events, e.impl.receivedBy j ≠ none →
    e.key.ts ≤ links.1.currentTs + cfg.delay i ∨
      ∃ f ∈ links.1.events, f.impl = .transmitComplete i ∧ e.key.ts ≤ f.key.ts + cfg.delay i
  kept : ∀ e ∈ links.1.events, e.impl.receivedBy j ≠ none → e.key.uid ∉ links.1.cancelled

/-- The same frames have been started and put on their way. -/
def Carries (i j : ι) (before after : Links ι) : Prop :=
  ∃ frames, (after.2 i).phyTxBegin.map (·.2) = (before.2 i).phyTxBegin.map (·.2) ++ frames ∧
    after.1.flight (Event.receivedBy j) = before.1.flight (Event.receivedBy j) ++ frames

theorem Carries.refl (links : Links ι) : Carries i j links links :=
  ⟨[], (List.append_nil _).symm, (List.append_nil _).symm⟩

theorem Carries.trans {first second third : Links ι} (one : Carries i j first second)
    (two : Carries i j second third) : Carries i j first third := by
  obtain ⟨frames, begun, flown⟩ := one
  obtain ⟨more, begun', flown'⟩ := two
  exact ⟨frames ++ more, by rw [begun', begun, List.append_assoc],
    by rw [flown', flown, List.append_assoc]⟩

namespace Serial

variable {links : Links ι} {bases : ι → PointToPointNetDevice}

/-- The device starts and ends no transmission, and the simulator stays as it is. -/
theorem rebase (serial : Serial cfg i j links)
    (state : (bases i).txMachineState = (links.2 i).txMachineState) :
    Serial cfg i j (links.1, bases) where
  busy e member complete := state.trans (serial.busy e member complete)
  unique := serial.unique
  arrives := serial.arrives
  kept := serial.kept

/-- Scheduling an event that has nothing to do with the channel. -/
theorem schedule (serial : Serial cfg i j links) (delay : Time) {event : Event ι}
    (other : event ≠ .transmitComplete i) (elsewhere : event.receivedBy j = none) :
    Serial cfg i j ((links.1.schedule delay event).2, links.2) := by
  refine ⟨fun e member complete => ?_, fun e he f hf complete complete' => ?_,
    fun e member arriving => ?_, fun e member arriving => ?_⟩
  · rcases (mem_schedule ..).mp member with rfl | member
    · exact absurd complete other
    · exact serial.busy e member complete
  · rcases (mem_schedule ..).mp he with rfl | he
    · exact absurd complete other
    · rcases (mem_schedule ..).mp hf with rfl | hf
      · exact absurd complete' other
      · exact serial.unique e he f hf complete complete'
  · rcases (mem_schedule ..).mp member with rfl | member
    · exact absurd elsewhere arriving
    · refine (serial.arrives e member arriving).imp_right fun ⟨f, pending, complete, le⟩ => ?_
      exact ⟨f, (mem_schedule ..).mpr (Or.inr pending), complete, le⟩
  · rcases (mem_schedule ..).mp member with rfl | member
    · exact absurd elsewhere arriving
    · exact serial.kept e member arriving

/-- A transmission starts when none is going on. -/
theorem transmitStart (serial : Serial cfg i j links) (peer : cfg.peer i = some j)
    (idle : ∀ e ∈ links.1.events, e.impl ≠ .transmitComplete i) (p : Packet)
    (d : PointToPointNetDevice) (begun : d.phyTxBegin = (links.2 i).phyTxBegin) :
    Serial cfg i j ((d.transmitStart cfg i p links.1).1,
        Function.update links.2 i (d.transmitStart cfg i p links.1).2) ∧
      Carries i j links ((d.transmitStart cfg i p links.1).1,
        Function.update links.2 i (d.transmitStart cfg i p links.1).2) := by
  let txTime := (cfg.attr i).calculateBytesTxTime p.getSize
  let completed := links.1.schedule (txTime + (cfg.attr i).interframeGap) (.transmitComplete i)
  let delivered := completed.2.schedule (txTime + cfg.delay i) (.receive j p)
  have sim : (d.transmitStart cfg i p links.1).1 = delivered.2 := by
    simp [PointToPointNetDevice.transmitStart, peer, delivered, completed, txTime]
  have near : ∀ e ∈ links.1.events, e.impl.receivedBy j ≠ none →
      e.key.ts ≤ links.1.currentTs + cfg.delay i := by
    intro e member arriving
    refine (serial.arrives e member arriving).resolve_right ?_
    rintro ⟨f, pending, complete, -⟩
    exact idle f pending complete
  have member_cases : ∀ e ∈ delivered.2.events,
      e = ⟨⟨links.1.currentTs + (txTime + cfg.delay i), completed.2.uid⟩, .receive j p⟩ ∨
      e = ⟨⟨links.1.currentTs + (txTime + (cfg.attr i).interframeGap), links.1.uid⟩,
        .transmitComplete i⟩ ∨ e ∈ links.1.events :=
    fun e member => ((mem_schedule ..).mp member).imp_right (mem_schedule ..).mp
  have complete_pending : ⟨⟨links.1.currentTs + (txTime + (cfg.attr i).interframeGap), links.1.uid⟩,
      .transmitComplete i⟩ ∈ delivered.2.events :=
    (mem_schedule ..).mpr (Or.inr ((mem_schedule ..).mpr (Or.inl rfl)))
  rw [sim]
  refine ⟨⟨fun _ _ _ => by simp [PointToPointNetDevice.transmitStart], ?_, ?_, ?_⟩, [p], ?_, ?_⟩
  · intro e he f hf complete complete'
    rcases member_cases e he with rfl | rfl | he
    · cases complete
    · rcases member_cases f hf with rfl | rfl | hf
      · cases complete'
      · rfl
      · exact absurd complete' (idle f hf)
    · exact absurd complete (idle e he)
  · intro e member arriving
    rcases member_cases e member with rfl | rfl | member
    · refine Or.inr ⟨_, complete_pending, rfl, ?_⟩
      dsimp only
      omega
    · exact absurd rfl arriving
    · exact Or.inl (near e member arriving)
  · intro e member arriving gone
    rcases member_cases e member with rfl | rfl | member
    · have fresh := links.1.cancelled_lt _ gone
      exact Nat.lt_irrefl _ (Nat.lt_trans (Nat.lt_succ_self _) fresh)
    · exact absurd rfl arriving
    · exact serial.kept e member arriving gone
  · simp [PointToPointNetDevice.transmitStart, begun]
  · have first : completed.2.flight (Event.receivedBy j) = links.1.flight (Event.receivedBy j) :=
      flight_schedule_none _ _ rfl
    rw [← first]
    refine flight_schedule_last _ _ (by simp [Event.receivedBy]) fun e member arriving => ?_
    rcases (mem_schedule ..).mp member with rfl | member
    · exact absurd rfl arriving
    · have le := near e member arriving
      change _ ≤ links.1.currentTs + (txTime + cfg.delay i)
      omega

/-- A transmission of another device, which is not the peer of `j`. -/
theorem transmitStart_other {k : ι} (serial : Serial cfg i j links) (peer : cfg.peer i = some j)
    (other : k ≠ i) (p : Packet) (d : PointToPointNetDevice) :
    Serial cfg i j ((d.transmitStart cfg k p links.1).1,
        Function.update links.2 k (d.transmitStart cfg k p links.1).2) ∧
      Carries i j links ((d.transmitStart cfg k p links.1).1,
        Function.update links.2 k (d.transmitStart cfg k p links.1).2) := by
  have base : Function.update links.2 k (d.transmitStart cfg k p links.1).2 i = links.2 i :=
    Function.update_of_ne other.symm ..
  have foreign : (Event.transmitComplete k : Event ι) ≠ .transmitComplete i := by simpa using other
  let completed := links.1.schedule
    ((cfg.attr k).calculateBytesTxTime p.getSize + (cfg.attr k).interframeGap) (.transmitComplete k)
  have first := serial.schedule ((cfg.attr k).calculateBytesTxTime p.getSize +
    (cfg.attr k).interframeGap) foreign rfl
  have flown : completed.2.flight (Event.receivedBy j) = links.1.flight (Event.receivedBy j) :=
    flight_schedule_none _ _ rfl
  cases delivered : cfg.peer k with
  | none =>
    have sim : (d.transmitStart cfg k p links.1).1 = completed.2 := by
      simp [PointToPointNetDevice.transmitStart, delivered, completed]
    rw [sim]
    exact ⟨first.rebase (by rw [base]), [], by simp [base], by simp [flown]⟩
  | some receiver =>
    let arriving := completed.2.schedule ((cfg.attr k).calculateBytesTxTime p.getSize + cfg.delay k)
      (.receive receiver p)
    have sim : (d.transmitStart cfg k p links.1).1 = arriving.2 := by
      simp [PointToPointNetDevice.transmitStart, delivered, completed, arriving]
    have elsewhere : (Event.receive receiver p).receivedBy j = none := by
      refine if_neg fun same => other ?_
      have back := cfg.peer_symm k receiver delivered
      rw [same, cfg.peer_symm i j peer] at back
      exact (Option.some.inj back).symm
    have second := first.schedule ((cfg.attr k).calculateBytesTxTime p.getSize + cfg.delay k)
      (by simp : Event.receive receiver p ≠ .transmitComplete i) elsewhere
    have flown' : arriving.2.flight (Event.receivedBy j) = completed.2.flight (Event.receivedBy j) :=
      flight_schedule_none _ _ elsewhere
    rw [sim]
    exact ⟨second.rebase (by rw [base]), [], by simp [base], by simp [flown, flown']⟩

/-- Cancelling a timer. -/
theorem cancel {id : EventId} (serial : Serial cfg i j links)
    (armed : links.1.isExpired id = false →
      ∃ e, links.1.Live e ∧ id = some e.key ∧ e.impl.receivedBy j = none) :
    Serial cfg i j (links.1.cancel id, links.2) := by
  refine ⟨?_, ?_, ?_, ?_⟩
  · rw [cancel_events]
    exact serial.busy
  · rw [cancel_events]
    exact serial.unique
  · rw [cancel_events, cancel_currentTs]
    exact serial.arrives
  · rw [cancel_events]
    intro e member arriving
    cases pending : links.1.isExpired id with
    | true =>
      rw [cancel_of_expired pending]
      exact serial.kept e member arriving
    | false =>
      obtain ⟨timer, live, rfl, elsewhere⟩ := armed pending
      rw [live.cancel_eq.2, List.mem_cons, not_or]
      refine ⟨fun same => arriving ?_, serial.kept e member arriving⟩
      rw [eq_of_uid member live.1 same]
      exact elsewhere

/-- The next event is taken out: it ends the transmission, brings the first frame
of the flight, or has nothing to do with the channel. -/
theorem processOneEvent {impl : Option (Event ι)} {sim : Simulator (Event ι)}
    (serial : Serial cfg i j links) (popped : links.1.processOneEvent = some (impl, sim)) :
    Serial cfg i j (sim, links.2) ∧
      links.1.flight (Event.receivedBy j) =
        (impl.bind (Event.receivedBy j)).toList ++ sim.flight (Event.receivedBy j) ∧
      (impl = some (.transmitComplete i) → ∀ e ∈ sim.events, e.impl ≠ .transmitComplete i) := by
  obtain ⟨next, events, ts, uid, cancelled, -, handler⟩ := processOneEvent_eq popped
  have old : ∀ e ∈ sim.events, e ∈ links.1.events := fun e member => events ▸ List.mem_cons_of_mem _ member
  have first : next ∈ links.1.events := events ▸ List.mem_cons_self
  have later := processOneEvent_mono popped
  refine ⟨⟨fun e member => serial.busy e (old e member),
    fun e he f hf => serial.unique e (old e he) f (old f hf), fun e member arriving => ?_,
    fun e member arriving => ?_⟩, ?_, fun complete e member complete' => ?_⟩
  · rcases serial.arrives e (old e member) arriving with le | ⟨f, pending, complete, le⟩
    · exact Or.inl (Nat.le_trans le (Nat.add_le_add_right later _))
    · rw [events] at pending
      rcases List.mem_cons.mp pending with rfl | pending
      · exact Or.inl (by rw [ts]; exact le)
      · exact Or.inr ⟨f, pending, complete, le⟩
  · rw [cancelled]
    exact serial.kept e (old e member) arriving
  · have brought : next.impl.receivedBy j = impl.bind (Event.receivedBy j) := by
      rw [handler]
      split
      · rename_i gone
        by_contra arriving
        exact serial.kept next first arriving gone
      · rfl
    rw [← brought, flight, events, List.filterMap_cons, flight]
    cases next.impl.receivedBy j <;> rfl
  · have own : next.impl = .transmitComplete i := by
      rw [complete] at handler
      split at handler
      · cases handler
      · exact (Option.some.inj handler).symm
    have twice := serial.unique next first e (old e member) own complete'
    have fresh := links.1.distinct
    rw [events, List.map_cons, List.nodup_cons] at fresh
    exact fresh.1 (twice ▸ List.mem_map_of_mem member)

theorem elapse {t : Time} {sim : Simulator (Event ι)} (serial : Serial cfg i j links)
    (elapsed : links.1.elapse t = some sim) :
    Serial cfg i j (sim, links.2) ∧
      sim.flight (Event.receivedBy j) = links.1.flight (Event.receivedBy j) := by
  obtain ⟨later, ts, events, cancelled, -⟩ := elapse_eq elapsed
  refine ⟨⟨?_, ?_, ?_, ?_⟩, by rw [flight, events, flight]⟩ <;> dsimp only <;> rw [events]
  · exact serial.busy
  · exact serial.unique
  · intro e member arriving
    refine (serial.arrives e member arriving).imp_left fun le => Nat.le_trans le ?_
    omega
  · rw [cancelled]
    exact serial.kept

/-- The end of a transmission starts the next one, if a frame is queued. -/
theorem transmitComplete (serial : Serial cfg i j links) (peer : cfg.peer i = some j) (k : ι)
    (ended : k = i → ∀ e ∈ links.1.events, e.impl ≠ .transmitComplete i) :
    Serial cfg i j (((links.2 k).transmitComplete cfg k links.1).1,
        Function.update links.2 k ((links.2 k).transmitComplete cfg k links.1).2) ∧
      Carries i j links (((links.2 k).transmitComplete cfg k links.1).1,
        Function.update links.2 k ((links.2 k).transmitComplete cfg k links.1).2) := by
  unfold PointToPointNetDevice.transmitComplete
  dsimp only
  split
  · rcases eq_or_ne k i with rfl | other
    · refine ⟨⟨fun e member complete => absurd complete (ended rfl e member), serial.unique,
        serial.arrives, serial.kept⟩, [], by simp, by simp⟩
    · exact ⟨serial.rebase (by rw [Function.update_of_ne other.symm]), [],
        by simp [Function.update_of_ne other.symm], by simp⟩
  · rename_i first rest _
    rcases eq_or_ne k i with rfl | other
    · exact serial.transmitStart peer (ended rfl) first
        { links.2 k with txMachineState := .ready, currentPkt := none, queue := rest } rfl
    · exact serial.transmitStart_other peer other first
        { links.2 k with txMachineState := .ready, currentPkt := none, queue := rest }

end Serial

theorem Event.TimerOf.elsewhere {k : ι} {event : Event ι} (own : event.TimerOf k) :
    event ≠ .transmitComplete i ∧ event.receivedBy j = none := by
  cases event with
  | transmitComplete | receive | hookL3Divert => exact False.elim own
  | tryDequeue | doIngressDrain | resumeFromPause | refillMacQueueFromHold => exact ⟨nofun, rfl⟩

theorem LinkEdit.serial {before after : Links ι} (edit : LinkEdit cfg before after)
    (peer : cfg.peer i = some j) (serial : Serial cfg i j before) :
    Serial cfg i j after ∧ Carries i j before after := by
  cases edit with
  | @device k after edit =>
    have begun_of {d : PointToPointNetDevice} (same : d.phyTxBegin = (before.2 k).phyTxBegin) :
        (Function.update before.2 k d i).phyTxBegin = (before.2 i).phyTxBegin := by
      rcases eq_or_ne i k with rfl | other
      · rw [Function.update_self, same]
      · rw [Function.update_of_ne other]
    have state_of {d : PointToPointNetDevice}
        (same : d.txMachineState = (before.2 k).txMachineState) :
        (Function.update before.2 k d i).txMachineState = (before.2 i).txMachineState := by
      rcases eq_or_ne i k with rfl | other
      · rw [Function.update_self, same]
      · rw [Function.update_of_ne other]
    cases edit with
    | @schedule _ _ event delay own =>
      have elsewhere : event ≠ .transmitComplete i ∧ event.receivedBy j = none := by
        rcases own with timer | rfl
        · exact timer.elsewhere
        · exact ⟨nofun, rfl⟩
      dsimp only
      rw [Function.update_eq_self]
      exact ⟨serial.schedule delay elsewhere.1 elsewhere.2, [], by simp,
        by simp [flight_schedule_none _ _ elsewhere.2]⟩
    | @cancel _ _ id armed =>
      dsimp only
      rw [Function.update_eq_self]
      refine ⟨serial.cancel fun pending => ?_, [], by simp, by simp⟩
      obtain ⟨e, live, key, timer⟩ := armed pending
      exact ⟨e, live, key, (Event.TimerOf.elsewhere (i := i) timer).2⟩
    | requeue queue queueDrop =>
      exact ⟨serial.rebase (state_of rfl), [], by simp [begun_of], by simp⟩
    | note rxCallback phyRxDrop =>
      exact ⟨serial.rebase (state_of rfl), [], by simp [begun_of], by simp⟩
    | @send _ _ p protocol =>
      rcases PointToPointNetDevice.send_cases cfg k p protocol before.1 (before.2 k) with
        ⟨-, sent⟩ | ⟨-, -, sent⟩ | ⟨-, q, -, ⟨-, sent⟩ | ⟨state, first, rest, -, sent⟩⟩ <;> rw [sent]
      · exact ⟨serial.rebase (state_of rfl), [], by simp [begun_of], by simp⟩
      · exact ⟨serial.rebase (state_of rfl), [], by simp [begun_of], by simp⟩
      · exact ⟨serial.rebase (state_of rfl), [], by simp [begun_of], by simp⟩
      · rcases eq_or_ne k i with rfl | other
        · refine serial.transmitStart peer (fun e member complete => ?_) first
            { before.2 k with queue := rest } rfl
          have busy := serial.busy e member complete
          rw [state] at busy
          cases busy
        · exact serial.transmitStart_other peer other first { before.2 k with queue := rest }

theorem LinkEdits.serial {before after : Links ι} (edits : LinkEdits cfg before after)
    (peer : cfg.peer i = some j) (serial : Serial cfg i j before) :
    Serial cfg i j after ∧ Carries i j before after := by
  induction edits with
  | refl => exact ⟨serial, .refl _⟩
  | tail _ edit ih =>
    obtain ⟨next, carried⟩ := edit.serial peer ih.1
    exact ⟨next, ih.2.trans carried⟩

section Net

variable [DecidableEq ν] {s t : Net ι ν} {action : Action ι ν}

/-- The frame that the channel brings to device `j` in a step. -/
def Net.arrival (j : ι) (s : Net ι ν) : Action ι ν → Option Packet
  | .event _ =>
      match s.sim.processOneEvent with
      | some (some event, _) => event.receivedBy j
      | _ => none
  | _ => none

/-- Whether the receive error model corrupts the frame that a step brings. -/
def Action.corrupts : Action ι ν → Bool
  | .event up => up.corrupt
  | .deliver _ _ corrupt => corrupt
  | _ => false

/-- When the handlers of a step begin, what has arrived is no longer on its way. -/
theorem Net.begun_serial (possible : s.step cfg action = some t) (serial : Serial cfg i j s.links) :
    Serial cfg i j (s.begun action).links ∧
      s.sim.flight (Event.receivedBy j) =
        (s.arrival j action).toList ++ (s.begun action).sim.flight (Event.receivedBy j) ∧
      (s.completes action = some i →
        ∀ e ∈ (s.begun action).sim.events, e.impl ≠ .transmitComplete i) := by
  cases action with
  | event up =>
    simp only [Net.step] at possible
    cases popped : s.sim.processOneEvent with
    | none => simp [popped] at possible
    | some next =>
      obtain ⟨impl, sim⟩ := next
      obtain ⟨after, flown, ended⟩ := serial.processOneEvent popped
      have begun : s.begun (.event up) = { s with sim } := by rw [Net.begun, popped]
      rw [begun]
      refine ⟨after, ?_, fun completes => ended ?_⟩
      · rw [Net.arrival, popped]
        cases impl <;> exact flown
      · rw [Net.completes, popped] at completes
        split at completes
        · rename_i k _ same
          cases completes
          cases same
          rfl
        · cases completes
  | elapse ts =>
    simp only [Net.step, Option.map_eq_some_iff] at possible
    obtain ⟨sim, elapsed, -⟩ := possible
    have begun : s.begun (.elapse ts) = { s with sim } := by rw [Net.begun, elapsed]
    obtain ⟨after, flown⟩ := serial.elapse elapsed
    rw [begun]
    exact ⟨after, flown.symm, fun completes => by cases completes⟩
  | _ => exact ⟨serial, rfl, fun completes => by cases completes⟩

/-- A step puts the frames it starts on their way, behind those that were there. -/
theorem Net.step_channel (reachable : Net.Reachable cfg s) (step : s.step cfg action = some t)
    (peer : cfg.peer i = some j) (serial : Serial cfg i j s.links) :
    Serial cfg i j t.links ∧ ∃ frames,
      (t.dev i).phyTxBegin.map (·.2) = (s.dev i).phyTxBegin.map (·.2) ++ frames ∧
      s.sim.flight (Event.receivedBy j) ++ frames =
        (s.arrival j action).toList ++ t.sim.flight (Event.receivedBy j) := by
  obtain ⟨begun, flown, ended⟩ := Net.begun_serial step serial
  have stepped := reachable.stepped step
  have handled : Serial cfg i j t.links ∧ Carries i j (s.begun action).links t.links := by
    cases completes : s.completes action with
    | none => exact (stepped.edits completes).serial peer begun
    | some k =>
      have links : t.links =
          ((((s.begun action).links.2 k).transmitComplete cfg k (s.begun action).links.1).1,
            Function.update (s.begun action).links.2 k
              (((s.begun action).links.2 k).transmitComplete cfg k (s.begun action).links.1).2) := by
        rw [stepped.completed k completes, Net.on, Net.put_links]
        rfl
      rw [links]
      exact begun.transmitComplete peer k fun same => ended (same ▸ completes)
  obtain ⟨after, frames, started, carried⟩ := handled
  refine ⟨after, frames, ?_, ?_⟩
  · rw [← Net.begun_dev (s := s) action]
    exact started
  · rw [flown, List.append_assoc]
    exact congrArg _ carried.symm

omit [DecidableEq ν] in
theorem Net.init_serial (linkUp : ι → Bool) (stack : ν → Bool) :
    Serial cfg i j (Net.init cfg linkUp stack).links :=
  ⟨fun _ => nofun, fun _ => nofun, fun _ => nofun, fun _ => nofun⟩

theorem Net.reachable_serial (reachable : Net.Reachable cfg s) (peer : cfg.peer i = some j) :
    Serial cfg i j s.links := by
  obtain ⟨start, actions, initial, run⟩ := reachable
  induction run with
  | nil =>
    obtain ⟨linkUp, stack, rfl⟩ := initial
    exact Net.init_serial linkUp stack
  | snoc before _ step ih =>
    exact (Net.step_channel ⟨start, _, initial, before⟩ step peer ih).1

end Net

end QbbNet
