import QbbNet.Hysteresis
import QbbNet.PfcSignalRun
import QbbNet.Receiving

set_option autoImplicit false

/- The watermarks of a class as a switch with two thresholds. -/
namespace QbbNet

open Hysteresis

/-- The XOFF and XON signals of a class, `true` for XOFF. -/
def ReceivingSide.issued (r : ReceivingSide) (prio : Fin 8) : List Bool :=
  (r.pfcSent.filter fun signal => decide (signal.prio = prio)).map PfcSignal.congests

def ReceivingSide.switch (r : ReceivingSide) (prio : Fin 8) : Switch where
  level := r.rxOccPkts prio
  on := r.localCongested prio
  flips := r.issued prio

namespace ReceivingSide

variable {r r' : ReceivingSide} {attr : Attributes} {prio other : Fin 8}

theorem noted_switch_self (signal : PfcSignal) :
    (r.noted signal).switch signal.prio = (r.switch signal.prio).flip signal.congests := by
  simp [noted, switch, issued, Switch.flip, List.filter_append]

theorem noted_switch_other {signal : PfcSignal} (different : signal.prio ≠ other) :
    (r.noted signal).switch other = r.switch other := by
  simp [noted, switch, issued, List.filter_append, different, different.symm]

theorem foldl_noted_switch_self {signals : List PfcSignal}
    (of_prio : ∀ signal ∈ signals, signal.prio = prio) :
    (signals.foldl noted r).switch prio =
      (signals.map PfcSignal.congests).foldl Switch.flip (r.switch prio) := by
  induction signals generalizing r with
  | nil => rfl
  | cons signal signals ih =>
    have ⟨first, rest⟩ := List.forall_mem_cons.mp of_prio
    rw [List.foldl_cons, ih rest, ← first, noted_switch_self]
    rfl

theorem foldl_noted_switch_other {signals : List PfcSignal}
    (of_prio : ∀ signal ∈ signals, signal.prio = prio) (different : prio ≠ other) :
    (signals.foldl noted r).switch other = r.switch other := by
  induction signals generalizing r with
  | nil => rfl
  | cons signal signals ih =>
    have ⟨first, rest⟩ := List.forall_mem_cons.mp of_prio
    rw [List.foldl_cons, ih rest, noted_switch_other (first ▸ different)]

theorem foldl_noted_queue (signals : List PfcSignal) :
    (signals.foldl noted r).rxOccPkts = r.rxOccPkts ∧
      (signals.foldl noted r).ingressQ = r.ingressQ := by
  have ⟨_, _, _, _, rest⟩ := foldl_noted_rest r signals
  rw [rest]
  exact ⟨rfl, rfl⟩

theorem rxSignals_prio {congested : Bool} {occ : Nat} :
    ∀ signal ∈ attr.rxSignals prio congested occ, signal.prio = prio := by
  intro signal member
  unfold Attributes.rxSignals at member
  dsimp only at member
  split at member
  · rcases List.mem_append.mp member with high | low
    · split at high
      · rw [List.mem_singleton.mp high]
        rfl
      · cases high
    · split at low
      · rw [List.mem_singleton.mp low]
        rfl
      · cases low
  · cases member

theorem drainSignals_prio {congested : Bool} {occ : Nat} :
    ∀ signal ∈ attr.drainSignals prio congested occ, signal.prio = prio := by
  intro signal member
  unfold Attributes.drainSignals at member
  split at member
  · rw [List.mem_singleton.mp member]
    rfl
  · cases member

variable (prio) in
/-- The signals of a packet that arrives are the flips of a switch that rises. -/
theorem rxSignals_flips (enabled : attr.pfcEnable = true) (occ : Nat) (on : Bool) (flips : List Bool) :
    ((attr.rxSignals prio on (occ + 1)).map PfcSignal.congests).foldl Switch.flip
        ⟨occ + 1, on, flips⟩ =
      Switch.rise attr.pfcHighPkts attr.pfcLowPkts ⟨occ, on, flips⟩ := by
  unfold Switch.rise Switch.trip Switch.release Attributes.rxSignals
  rw [if_pos enabled]
  by_cases low : occ + 1 ≤ attr.pfcLowPkts
  · cases on with
    | true => simp [low, Switch.flip, PfcSignal.congests]
    | false =>
      by_cases high : attr.pfcHighPkts ≤ occ + 1
      · simp [low, high, Switch.flip, PfcSignal.congests]
      · simp [high]
  · cases on with
    | true => simp [low]
    | false =>
      by_cases high : attr.pfcHighPkts ≤ occ + 1
      · simp [low, high, Switch.flip, PfcSignal.congests]
      · simp [high]

variable (prio) in
theorem drainSignals_flips (enabled : attr.pfcEnable = true) (occ : Nat) (on : Bool)
    (flips : List Bool) :
    ((attr.drainSignals prio on (occ - 1)).map PfcSignal.congests).foldl Switch.flip
        ⟨occ - 1, on, flips⟩ = Switch.fall attr.pfcLowPkts ⟨occ, on, flips⟩ := by
  unfold Switch.fall Switch.release Attributes.drainSignals
  rw [enabled]
  cases on with
  | true =>
    by_cases low : occ - 1 ≤ attr.pfcLowPkts
    · simp [low, Switch.flip, PfcSignal.congests]
    · simp [low]
  | false => simp

/-- What holds of the counters, the flags and the signals of all classes. -/
structure Bookkept (attr : Attributes) (r : ReceivingSide) : Prop where
  noted : r.Noted
  occupied : ∀ prio, r.rxOccPkts prio = (r.ingressQ prio).length
  sound : ∀ prio, (r.switch prio).Sound attr.pfcHighPkts attr.pfcLowPkts

/-- Only what it speaks of matters. -/
theorem Bookkept.congr (kept : r.Bookkept attr) (ingressQ : r'.ingressQ = r.ingressQ)
    (rxOccPkts : r'.rxOccPkts = r.rxOccPkts) (localCongested : r'.localCongested = r.localCongested)
    (pfcTxXoff : r'.pfcTxXoff = r.pfcTxXoff) (pfcTxXon : r'.pfcTxXon = r.pfcTxXon)
    (pfcSent : r'.pfcSent = r.pfcSent) : r'.Bookkept attr := by
  refine ⟨⟨?_, ?_, ?_⟩, ?_, ?_⟩
  · rw [localCongested, pfcSent]
    exact kept.noted.1
  · rw [pfcTxXoff, pfcSent]
    exact kept.noted.2
  · rw [pfcTxXon, pfcSent]
    exact kept.noted.3
  · rw [rxOccPkts, ingressQ]
    exact kept.occupied
  · intro prio
    rw [switch, issued, rxOccPkts, localCongested, pfcSent]
    exact kept.sound prio

/-- A class gets or loses a packet, and its signals are noted. -/
theorem Bookkept.signals (kept : r.Bookkept attr) {signals : List PfcSignal} {occ : Nat}
    {packets : List Packet} (of_prio : ∀ signal ∈ signals, signal.prio = prio)
    (counted : occ = packets.length)
    (sound : ((signals.map PfcSignal.congests).foldl Switch.flip
      ⟨occ, r.localCongested prio, r.issued prio⟩).Sound attr.pfcHighPkts attr.pfcLowPkts) :
    (signals.foldl ReceivingSide.noted { r with
      ingressQ := Function.update r.ingressQ prio packets
      rxOccPkts := Function.update r.rxOccPkts prio occ }).Bookkept attr := by
  generalize moved : { r with
    ingressQ := Function.update r.ingressQ prio packets
    rxOccPkts := Function.update r.rxOccPkts prio occ } = r'
  have ⟨rxOccPkts, ingressQ⟩ := foldl_noted_queue (r := r') signals
  constructor
  · apply Noted.foldl
    subst moved
    exact ⟨kept.noted.1, kept.noted.2, kept.noted.3⟩
  · intro other
    rw [rxOccPkts, ingressQ, ← moved]
    by_cases same : other = prio
    · subst same
      simp [counted]
    · simpa [same] using kept.occupied other
  · intro other
    by_cases same : prio = other
    · subst same
      have start : r'.switch prio = ⟨occ, r.localCongested prio, r.issued prio⟩ := by
        simp [← moved, switch, issued]
      rw [foldl_noted_switch_self of_prio, start]
      exact sound
    · have start : r'.switch other = r.switch other := by
        simp [← moved, switch, issued, Ne.symm same]
      rw [foldl_noted_switch_other of_prio same, start]
      exact kept.sound other

end ReceivingSide

variable {ι ν : Type} {cfg : Config ι ν} {i : ι} {h : Host ι}

theorem handleMacRx_bookkept (enabled : (cfg.attr i).pfcEnable = true)
    (kept : h.dev.Bookkept (cfg.attr i)) (p : Packet) :
    (handleMacRx cfg i p h).dev.Bookkept (cfg.attr i) := by
  by_cases control : isPfcFrame p = true
  · rw [(handleMacRx_control cfg i h control).receiving]
    exact kept.congr rfl rfl rfl rfl rfl rfl
  · have ⟨start, _, queued, after⟩ :=
      handleMacRx_data cfg i h (Bool.eq_false_iff.mpr control)
    have ready : ({ h.dev.toReceivingSide with
        macRx := h.dev.macRx ++ [(h.now, p)]
        tokenMgr := true } : ReceivingSide).Bookkept (cfg.attr i) := kept.congr rfl rfl rfl rfl rfl rfl
    have room : h.dev.rxOccPkts (getPrioFromPacket p) + 1 =
        (h.dev.ingressQ (getPrioFromPacket p) ++ [p]).length := by
      rw [List.length_append, kept.occupied]
      rfl
    have risen := (kept.sound (getPrioFromPacket p)).rise
    rw [ReceivingSide.switch, ← ReceivingSide.rxSignals_flips (getPrioFromPacket p) enabled]
      at risen
    have counted := ready.signals ReceivingSide.rxSignals_prio room risen
    have same : start.dev.toReceivingSide = { h.dev.toReceivingSide with
        macRx := h.dev.macRx ++ [(h.now, p)]
        tokenMgr := true
        ingressQ := Function.update h.dev.ingressQ (getPrioFromPacket p)
          (h.dev.ingressQ (getPrioFromPacket p) ++ [p])
        rxOccPkts := Function.update h.dev.rxOccPkts (getPrioFromPacket p)
          (h.dev.rxOccPkts (getPrioFromPacket p) + 1) } := by
      rw [queued, QbbNetDevice.dataQueued, QbbNetDevice.counted, if_pos enabled]
    rw [← same, ← signals_receiving cfg i] at counted
    rw [after]
    exact counted.congr rfl rfl rfl rfl rfl rfl

theorem drainPop_bookkept (enabled : (cfg.attr i).pfcEnable = true)
    (kept : h.dev.Bookkept (cfg.attr i)) (prio : Fin 8) :
    (drainPop cfg i prio h).dev.Bookkept (cfg.attr i) := by
  have fewer : h.dev.rxOccPkts prio - 1 = (h.dev.ingressQ prio).tail.length := by
    rw [List.length_tail, kept.occupied]
  have fallen := (kept.sound prio).fall
  rw [ReceivingSide.switch, ← ReceivingSide.drainSignals_flips prio enabled] at fallen
  rw [drainPop_eq, signals_receiving]
  exact kept.signals ReceivingSide.drainSignals_prio fewer fallen

theorem duty_bookkept (enabled : (cfg.attr i).pfcEnable = true)
    (kept : h.dev.Bookkept (cfg.attr i)) (duty : Duty) :
    (duty.run cfg i h).dev.Bookkept (cfg.attr i) := by
  cases duty with
  | tryDequeue =>
    show (tryDequeue cfg i h).dev.Bookkept _
    rw [tryDequeue_sends.receiving]
    exact kept
  | transmitComplete => exact kept
  | resumeFromPause prio =>
    show (resumeFromPause i prio h).dev.Bookkept _
    rw [(resumeFromPause_obeys prio).receiving]
    exact kept
  | refillMacQueueFromHold prio =>
    show (refillMacQueueFromHold i prio h).dev.Bookkept _
    rw [(refillMacQueueFromHold_obeys prio).receiving]
    exact kept
  | handleMacRx p => exact handleMacRx_bookkept enabled kept p
  | drainPop prio => exact drainPop_bookkept enabled kept prio

theorem install_bookkept (attr : Attributes) (linkUp : Bool) :
    (QbbNetDevice.install attr linkUp).Bookkept attr := by
  constructor
  · exact install_noted attr linkUp
  · intro prio
    rfl
  · intro prio
    constructor
    · intro on
      cases on
    · intro _
      exact .inr (Nat.zero_le _)
    · exact .nil
    · rfl

section Net

variable [DecidableEq ι] [DecidableEq ν] {s t : Net ι ν} {action : Action ι ν}

theorem step_bookkept (enabled : (cfg.attr i).pfcEnable = true) (step : s.step cfg action = some t)
    (kept : (s.dev i).Bookkept (cfg.attr i)) : (t.dev i).Bookkept (cfg.attr i) := by
  refine Net.step_lift cfg (R := fun d e => d.Bookkept (cfg.attr i) → e.Bookkept (cfg.attr i)) step
    ?_ ?_ ?_ ?_ kept
  · intro d e f first second kept
    exact second (first kept)
  · intro d e quiet kept
    exact kept.congr quiet.ingressQ quiet.rxOccPkts quiet.localCongested quiet.pfcTxXoff
      quiet.pfcTxXon quiet.pfcSent
  · intro dg h _ kept
    rw [send_receiving]
    exact kept
  · intro duty h _ _ _ kept
    exact duty_bookkept enabled kept duty

theorem reachable_bookkept (reachable : Net.Reachable cfg s)
    (enabled : (cfg.attr i).pfcEnable = true) : (s.dev i).Bookkept (cfg.attr i) := by
  have ⟨start, actions, initial, run⟩ := reachable
  induction run with
  | nil =>
    have ⟨linkUp, stack, same⟩ := initial
    subst same
    exact install_bookkept _ _
  | snoc before _ step ih => exact step_bookkept enabled step (ih (before.reachable cfg initial))

theorem watermark_bookkeeping (reachable : Net.Reachable cfg s)
    (enabled : (cfg.attr i).pfcEnable = true) (prio : Fin 8) :
    (s.dev i).rxOccPkts prio = ((s.dev i).ingressQ prio).length ∧
    ((s.dev i).localCongested prio = true → (cfg.attr i).pfcLowPkts < (s.dev i).rxOccPkts prio) ∧
    ((s.dev i).localCongested prio = false →
      (s.dev i).rxOccPkts prio < (cfg.attr i).pfcHighPkts ∨
        (s.dev i).rxOccPkts prio ≤ (cfg.attr i).pfcLowPkts) ∧
    Alternating ((s.dev i).issued prio) ∧
    (s.dev i).pfcTxXoff prio =
      (s.dev i).pfcTxXon prio + if (s.dev i).localCongested prio then 1 else 0 := by
  have kept := reachable_bookkept reachable enabled
  have sound := kept.sound prio
  refine ⟨kept.occupied prio, sound.on_above, sound.off_below, sound.alternating, ?_⟩
  have counted := sound.count
  have xoffs : ((s.dev i).switch prio).flips.count true = (s.dev i).pfcTxXoff prio := by
    rw [kept.noted.pfcTxXoff]
    simp [ReceivingSide.switch, ReceivingSide.issued, List.count_eq_countP, List.countP_map,
      List.countP_filter, Function.comp_def, Bool.and_comm]
  have xons : ((s.dev i).switch prio).flips.count false = (s.dev i).pfcTxXon prio := by
    rw [kept.noted.pfcTxXon]
    simp [ReceivingSide.switch, ReceivingSide.issued, List.count_eq_countP, List.countP_map,
      List.countP_filter, Function.comp_def, Bool.and_comm]
  rw [xoffs, xons] at counted
  rw [counted, ReceivingSide.switch]
  cases (s.dev i).localCongested prio with
  | true => rfl
  | false => rfl

end Net

/-- A second packet arrives after the first was drained. -/
def crossedRun : List (Action (Fin 1) Unit) :=
  [receiveData 0 0 0x00, .event .sink, receiveData 0 1 0x00]

theorem watermark_bookkeeping_crossed :
    ∃ s, Net.Reachable tightQueue s ∧ (s.dev 0).issued 0 = [true, false, true] ∧
      (s.dev 0).localCongested 0 = true ∧
      (s.dev 0).rxOccPkts 0 = ((s.dev 0).ingressQ 0).length ∧
      (tightQueue.attr 0).pfcLowPkts < (s.dev 0).rxOccPkts 0 ∧
      (s.dev 0).pfcTxXoff 0 = (s.dev 0).pfcTxXon 0 + 1 := by
  have ⟨s, ran, issued, congested⟩ : ∃ s,
      (Net.started tightQueue).run tightQueue (fun _ _ => True) crossedRun = some s ∧
        (s.dev 0).issued 0 = [true, false, true] ∧ (s.dev 0).localCongested 0 = true :=
    exists_of_any (by decide +kernel)
  have reachable := Net.Reachable.of_run tightQueue (Net.started_initial _) ran
  have ⟨occupied, above, _, _, counted⟩ := watermark_bookkeeping reachable (i := 0) rfl 0
  rw [congested] at counted
  exact ⟨s, reachable, issued, congested, occupied, above congested, counted⟩

end QbbNet
