import QbbNet.DeviceStep

set_option autoImplicit false

/- Runs of the network, seen as runs of one device's classed sender. -/
namespace QbbNet

open ClassedSender

/-- The quanta that a handler reads for a class in a PFC frame. -/
def Duty.pfcQuanta (prio : Fin 8) : Duty → Option UInt16
  | .handleMacRx p => QbbNet.pfcQuanta prio p
  | _ => none

/-- The classes whose hold a handler moves back to the queue. -/
def Duty.Refills (prio : Fin 8) (duty : Duty) : Prop :=
  duty = .resumeFromPause prio ∨ duty = .refillMacQueueFromHold prio ∨
    duty.pfcQuanta prio = some 0

/-- The classes that a handler is told to pause. -/
def Duty.Pauses (prio : Fin 8) (duty : Duty) : Prop := ∃ quanta ∈ duty.pfcQuanta prio, quanta ≠ 0

instance (prio : Fin 8) (duty : Duty) : Decidable (duty.Refills prio) :=
  inferInstanceAs (Decidable (_ ∨ _ ∨ _))

instance (prio : Fin 8) (duty : Duty) : Decidable (duty.Pauses prio) :=
  inferInstanceAs (Decidable (∃ quanta ∈ duty.pfcQuanta prio, quanta ≠ 0))

/-- The moves that a handler needs, in a sender where no other class of the same
PFC frame has made a difference to the one the move is about. -/
structure Permits (ok : Move Packet (Fin 8) → Sender Packet (Fin 8) → Prop) (now : Time)
    (d : QbbNetDevice) (due : Option Duty) : Prop where
  accept : ∀ (dg : Datagram) s, ok (.accept dg.frame) s
  control : ∀ prio quanta s, ok (.control (pfcFrame prio quanta)) s
  complete : ∀ s, ok .complete s
  lapse : ∀ s, ok .lapse s
  transfer : due = some .tryDequeue → ∀ prio, d.transfers now = some prio →
    ok (.transfer prio) (d.sender now)
  refill : ∀ duty ∈ due, ∀ prio, duty.Refills prio →
    ∀ s, Untouched frameClass prio (d.sender now) s → ok (.refill prio) s
  pause : ∀ duty ∈ due, ∀ prio, duty.Pauses prio →
    ∀ s, Untouched frameClass prio (d.sender now) s → ok (.pause prio) s

variable {ι ν : Type} {cfg : Config ι ν} {i : ι}
  {ok : Move Packet (Fin 8) → Sender Packet (Fin 8) → Prop} {now : Time}
  {start : Sender Packet (Fin 8)} {h : Host ι}

/-- The moves so far of a handler that runs at time `now`. -/
def Tracked (ok : Move Packet (Fin 8) → Sender Packet (Fin 8) → Prop) (now : Time)
    (start : Sender Packet (Fin 8)) (h : Host ι) : Prop :=
  h.now = now ∧ Steps frameClass ok start (h.dev.sender now)

namespace Tracked

/-- A handler whose moves are known goes on from here. -/
theorem andThen {f : Host ι → Host ι} (tracked : Tracked ok now start h) (kept : (f h).now = h.now)
    (steps : Steps frameClass ok (h.dev.sender h.now) ((f h).dev.sender h.now)) :
    Tracked ok now start (f h) :=
  ⟨kept.trans tracked.1, tracked.2.trans (tracked.1 ▸ steps)⟩

variable (tracked : Tracked ok now start h)
  (control : ∀ prio quanta s, ok (.control (pfcFrame prio quanta)) s)
include tracked control

theorem signals (signals : List PfcSignal) :
    Tracked ok now start (signals.foldl (sendSignal cfg i) h) := by
  induction signals generalizing h with
  | nil => exact tracked
  | cons signal signals ih =>
    exact ih (andThen (h := h.update _) (f := fun h => (ptpSend cfg i _ _ h).2) tracked
      (ptpSend_now ..) (ptpSend_pfc_steps cfg i signal.prio signal.quanta (control ..)))

theorem onDataRx (prio : Fin 8) : Tracked ok now start (QbbNet.onDataRx cfg i prio h) := by
  have counted : (h.dev.counted (cfg.attr i) prio).sender now = h.dev.sender now := by
    unfold QbbNetDevice.counted
    split <;> rfl
  rw [onDataRx_eq]
  exact signals (h := h.update _) ⟨tracked.1, counted ▸ tracked.2⟩ control _

theorem handleDataFrame (p : Packet) :
    Tracked ok now start (QbbNet.handleDataFrame cfg i p h) := by
  have ensured : Tracked ok now start (ensureTokenManager cfg i h) := by
    unfold ensureTokenManager
    split <;> exact tracked
  have counted : Tracked ok now start
      (QbbNet.onDataRx cfg i (getPrioFromPacket p) (queueIngress cfg i p h)) :=
    onDataRx (h := queueIngress cfg i p h) ensured control _
  unfold QbbNet.handleDataFrame
  dsimp only
  split <;> exact counted

theorem drainPop (prio : Fin 8) : Tracked ok now start (QbbNet.drainPop cfg i prio h) := by
  rw [drainPop_eq]
  exact signals (h := h.update _) tracked control _

end Tracked

theorem handlePfcFrame_steps (p : Packet) (framed : Framed h.dev)
    (lawful : Lawful frameClass (h.dev.sender h.now))
    (allowed : ∀ ph ∈ pfcHeader p, ∀ prio s, Untouched frameClass prio (h.dev.sender h.now) s →
      PfcAllowed ok ph prio s) :
    Steps frameClass ok (h.dev.sender h.now)
      ((handlePfcFrame cfg i p h).dev.sender h.now) := by
  unfold handlePfcFrame
  split
  · rename_i ph header
    rw [Host.wakeTxEvent_sender]
    exact foldl_handlePfcClass_steps cfg i ph classes classes_nodup framed lawful
      fun prio _ s => allowed ph header prio s
  · exact .refl

/-- Every handler is a sequence of moves. -/
theorem duty_steps (duty : Duty) (framed : Framed h.dev)
    (lawful : Lawful frameClass (h.dev.sender h.now))
    (permits : Permits ok h.now h.dev (some duty)) :
    Steps frameClass ok (h.dev.sender h.now) ((duty.run cfg i h).dev.sender h.now) := by
  cases duty with
  | tryDequeue => exact tryDequeue_steps cfg i fun prio picked => permits.transfer rfl prio picked
  | transmitComplete => exact transmitComplete_steps cfg i (permits.complete _)
  | resumeFromPause prio =>
    exact resumeFromPause_steps i prio (permits.refill _ rfl prio (Or.inl rfl) _ .refl)
  | refillMacQueueFromHold prio =>
    exact refillMacQueueFromHold_steps i prio
      (permits.refill _ rfl prio (Or.inr (Or.inl rfl)) _ .refl)
  | handleMacRx p =>
    change Steps frameClass ok _ ((handleMacRx cfg i p h).dev.sender h.now)
    have traced : Tracked ok h.now (h.dev.sender h.now)
        (h.update fun d => { d with macRx := d.macRx ++ [(h.now, p)] }) := ⟨rfl, .refl⟩
    unfold handleMacRx
    dsimp only
    split
    · rename_i control
      refine handlePfcFrame_steps
        (h := h.update fun d => { d with macRx := d.macRx ++ [(h.now, p)] }) p framed lawful
        fun ph header prio s same on => ?_
      have quanta : pfcQuanta prio p = some (ph.quanta prio) := by
        simp [pfcQuanta, control, Option.mem_def.mp header, on]
      refine ⟨fun zero => ⟨permits.lapse s, permits.refill _ rfl prio (Or.inr (Or.inr ?_)) s same⟩,
        fun nonzero => permits.pause _ rfl prio ⟨_, quanta, nonzero⟩ s same⟩
      exact quanta.trans (congrArg some zero)
    · exact (Tracked.handleDataFrame (h := h.update _) traced permits.control p).2
  | drainPop prio => exact (Tracked.drainPop ⟨rfl, .refl⟩ permits.control prio).2

section Run

variable [DecidableEq ι] [DecidableEq ν] {s t : Net ι ν} {action : Action ι ν}

theorem Quiet.sender {d e : QbbNetDevice} (quiet : Quiet d e) (now : Time) :
    e.sender now = d.sender now := by
  have paused : e.pausing now = d.pausing now := by
    funext prio
    simp only [QbbNetDevice.pausing, quiet.sending]
  simp only [QbbNetDevice.sender, quiet.queue, quiet.txMachineState, quiet.phyTxBegin,
    quiet.sending, paused]

theorem lapse_step (d : QbbNetDevice) {now later : Time} (le : now ≤ later) :
    Step frameClass .lapse (d.sender now) (d.sender later) := by
  change Step frameClass .lapse (d.sender now) { d.sender now with paused := d.pausing later }
  refine .lapse fun prio paused => ?_
  simp only [QbbNetDevice.pausing, Bool.and_eq_true, decide_eq_true_eq] at paused
  simp only [QbbNetDevice.sender, QbbNetDevice.pausing, Bool.and_eq_true, decide_eq_true_eq]
  exact ⟨paused.1, Nat.lt_of_le_of_lt le paused.2⟩

/-- A step of the network is a sequence of moves of the device's sender. -/
theorem step_steps (step : s.step cfg action = some t) (framed : Framed (s.dev i))
    (lawful : Lawful frameClass ((s.dev i).sender s.sim.currentTs))
    (permits : Permits ok t.sim.currentTs (s.dev i) (s.duty cfg i action)) :
    Steps frameClass ok ((s.dev i).sender s.sim.currentTs) ((t.dev i).sender t.sim.currentTs) := by
  have lapsed := lapse_step (s.dev i) (Net.step_does cfg step i).2.1
  refine (Steps.single frameClass lapsed (permits.lapse _)).trans ?_
  have lawful_now := lapsed.lawful lawful
  refine Net.step_lift cfg (R := fun d e => Steps frameClass ok (d.sender t.sim.currentTs)
    (e.sender t.sim.currentTs)) step .trans (fun quiet => quiet.sender _ ▸ .refl)
    (fun dg h clock => ?_) fun duty h due clock quiet => ?_
  · exact clock ▸ send_steps i dg (permits.accept dg _)
  · have same := quiet.sender t.sim.currentTs
    rw [due] at permits
    rw [← clock] at permits lawful_now same ⊢
    refine duty_steps duty ?_ (same ▸ lawful_now) ?_
    · exact Framed.of_sender (same ▸ framed.sender h.now)
    · have picks : h.dev.transfers h.now = (s.dev i).transfers h.now := by
        simp only [QbbNetDevice.transfers, pickNextPrio, QbbNetDevice.pausing, quiet.sending,
          quiet.linkUp, quiet.queue]
      refine ⟨permits.accept, permits.control, permits.complete, permits.lapse, ?_, ?_, ?_⟩
      · intro due prio picked
        rw [same]
        exact permits.transfer due prio (picks ▸ picked)
      · rw [same]
        exact permits.refill
      · rw [same]
        exact permits.pause

theorem pfcFrame_pos (prio : Fin 8) (quanta : UInt16) : 0 < (pfcFrame prio quanta).getSize :=
  Packet.addPpp_pos _ _

/-- Every frame the network brings to a sender has a header. -/
theorem Permits.framed {d : QbbNetDevice} {due : Option Duty} (permits : Permits ok now d due) :
    Permits (fun move s => ok move s ∧ move.Brings fun p : Packet => 0 < p.getSize) now d due where
  accept dg s := ⟨permits.accept dg s, Packet.addPpp_pos _ _⟩
  control prio quanta s := ⟨permits.control prio quanta s, pfcFrame_pos prio quanta⟩
  complete s := ⟨permits.complete s, trivial⟩
  lapse s := ⟨permits.lapse s, trivial⟩
  transfer due prio picked := ⟨permits.transfer due prio picked, trivial⟩
  refill duty due prio refills s same := ⟨permits.refill duty due prio refills s same, trivial⟩
  pause duty due prio pauses s same := ⟨permits.pause duty due prio pauses s same, trivial⟩

/-- The sender of a device as Install leaves it: nothing anywhere, and ready. -/
def idleSender : Sender Packet (Fin 8) where
  accepted := []
  backlog _ := []
  queue := []
  hold _ := []
  started := []
  paused _ := false
  ready := true

theorem idleSender_lawful : Lawful frameClass idleSender :=
  ⟨fun _ _ => nofun, fun _ _ => nofun, fun _ => nofun⟩

theorem idleSender_everywhere (F : Packet → Prop) : Everywhere F idleSender :=
  ⟨fun _ _ => nofun, fun _ => nofun, fun _ _ => nofun⟩

/-- What idle senders satisfy and every move allowed along the run preserves
holds of the device's sender at the end of it. -/
theorem run_sender {allowed : Net ι ν → Action ι ν → Prop} {P : Sender Packet (Fin 8) → Prop}
    (idle : P idleSender)
    (preserved : ∀ move s t, ok move s → Step frameClass move s t → Lawful frameClass s → P s → P t)
    (permits : ∀ (s t : Net ι ν) action, allowed s action → s.step cfg action = some t →
      Permits ok t.sim.currentTs (s.dev i) (s.duty cfg i action))
    {start : Net ι ν} {actions : List (Action ι ν)} (initial : Net.Initial cfg start)
    (run : Net.RunWhere cfg allowed start actions s) :
    Framed (s.dev i) ∧ Lawful frameClass ((s.dev i).sender s.sim.currentTs) ∧
      P ((s.dev i).sender s.sim.currentTs) := by
  induction run with
  | nil =>
    obtain ⟨linkUp, stack, rfl⟩ := initial
    exact ⟨idleSender_everywhere _, idleSender_lawful, idle⟩
  | snoc before holds step ih =>
    obtain ⟨framed, lawful, property⟩ := ih
    have steps := step_steps step framed lawful (permits _ _ _ holds step).framed
    refine ⟨.of_sender (steps.everywhere (framed.sender _) fun _ _ both => both.2), ?_⟩
    refine steps.preserves frameClass (P := fun s => Lawful frameClass s ∧ P s) ?_ ⟨lawful, property⟩
    exact fun move s t both step holds =>
      ⟨step.lawful holds.1, preserved move s t both.1 step holds.1 holds.2⟩

theorem permits_all (now : Time) (d : QbbNetDevice) (due : Option Duty) :
    Permits (fun _ _ => True) now d due where
  accept _ _ := trivial
  control _ _ _ := trivial
  complete _ := trivial
  lapse _ := trivial
  transfer _ _ _ := trivial
  refill _ _ _ _ _ _ := trivial
  pause _ _ _ _ _ _ := trivial

/-- In every reachable state a device's sender is lawful. -/
theorem reachable_lawful (reachable : Net.Reachable cfg s) (i : ι) :
    Framed (s.dev i) ∧ Lawful frameClass ((s.dev i).sender s.sim.currentTs) := by
  obtain ⟨start, actions, initial, run⟩ := reachable
  have holds := run_sender (i := i) (P := fun _ => True) trivial
    (fun _ _ _ _ _ _ _ => trivial) (fun _ _ _ _ _ => permits_all _ _ _) initial run
  exact ⟨holds.1, holds.2.1⟩

/-- What a handler finds is lawful too: only time has passed. -/
theorem lawful_later (reachable : Net.Reachable cfg s) {h : Host ι}
    (later : s.sim.currentTs ≤ h.now) (quiet : Quiet (s.dev i) h.dev) :
    Framed h.dev ∧ Lawful frameClass (h.dev.sender h.now) := by
  have before := reachable_lawful reachable i
  have framed : Framed h.dev :=
    ⟨quiet.sender 0 ▸ before.1.1, quiet.sender 0 ▸ before.1.2, quiet.sender 0 ▸ before.1.3⟩
  refine ⟨framed, ?_⟩
  rw [quiet.sender]
  exact (lapse_step (s.dev i) later).lawful before.2

end Run

end QbbNet
