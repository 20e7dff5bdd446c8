import QbbNet.DeviceStep

set_option autoImplicit false

/- What the handlers do with the packets that a device receives. -/
namespace QbbNet

variable {ι ν : Type} {cfg : Config ι ν} {i : ι} {h : Host ι}

/- The handlers and the receive callback -/

theorem signals_rxCallback (signals : List PfcSignal) :
    (signals.foldl (sendSignal cfg i) h).dev.rxCallback = h.dev.rxCallback := by
  induction signals generalizing h with
  | nil => rfl
  | cons signal signals ih => rw [List.foldl_cons, ih, (sendSignal_below signal).2]

theorem handleMacRx_rxCallback (p : Packet) :
    (handleMacRx cfg i p h).dev.rxCallback = h.dev.rxCallback := by
  cases control : isPfcFrame p with
  | true => exact (handleMacRx_control cfg i h control).rxCallback
  | false =>
    obtain ⟨start, _, queued, after⟩ := handleMacRx_data cfg i h control
    rw [after]
    dsimp only
    rw [signals_rxCallback, queued, QbbNetDevice.dataQueued, QbbNetDevice.counted]
    split <;> rfl

/- The receiving side -/

def Duty.received : Duty → Option Packet
  | .handleMacRx p => some p
  | _ => none

theorem Duty.received_eq_some {duty : Duty} {p : Packet} :
    duty.received = some p ↔ duty = .handleMacRx p := by
  cases duty <;> simp [Duty.received]

/-- The ingress queues after a handler. -/
def Duty.queues (queues : Fin 8 → List Packet) : Duty → Fin 8 → List Packet
  | .handleMacRx p =>
      if isPfcFrame p then queues
      else Function.update queues (getPrioFromPacket p) (queues (getPrioFromPacket p) ++ [p])
  | .drainPop prio => Function.update queues prio (queues prio).tail
  | _ => queues

/-- A handler records what is received, moves the ingress queues, and hands nothing up. -/
structure Receives (duty : Duty) (now : Time) (d e : QbbNetDevice) : Prop where
  macRx : e.macRx = d.macRx ++ duty.received.toList.map (now, ·)
  ingressQ : e.ingressQ = duty.queues d.ingressQ
  tokenMgr : e.tokenMgr = (d.tokenMgr || duty.received.any fun p => !isPfcFrame p)
  ipv4Rx : e.ipv4Rx = d.ipv4Rx

/-- A handler that leaves the receiving side alone. -/
theorem Receives.of_receiving {duty : Duty} {now : Time} {d e : QbbNetDevice}
    (received : duty.received = none) (queues : duty.queues d.ingressQ = d.ingressQ)
    (same : e.toReceivingSide = d.toReceivingSide) : Receives duty now d e where
  macRx := by rw [same, received]; exact (List.append_nil _).symm
  ingressQ := by rw [same, queues]
  tokenMgr := by rw [same, received]; exact (Bool.or_false _).symm
  ipv4Rx := by rw [same]

theorem foldl_noted_rest (r : ReceivingSide) (signals : List PfcSignal) :
    ∃ localCongested pfcTxXoff pfcTxXon pfcSent, signals.foldl ReceivingSide.noted r =
      { r with
        localCongested := localCongested
        pfcTxXoff := pfcTxXoff
        pfcTxXon := pfcTxXon
        pfcSent := pfcSent } := by
  induction signals generalizing r with
  | nil => exact ⟨_, _, _, _, rfl⟩
  | cons signal signals ih =>
    obtain ⟨localCongested, pfcTxXoff, pfcTxXon, pfcSent, rest⟩ := ih (r.noted signal)
    exact ⟨localCongested, pfcTxXoff, pfcTxXon, pfcSent, rest⟩

variable (cfg i h) in
theorem drainPop_rest (prio : Fin 8) :
    ∃ localCongested pfcTxXoff pfcTxXon pfcSent,
      (drainPop cfg i prio h).dev.toReceivingSide =
        { (h.dev.popped prio).toReceivingSide with
          localCongested := localCongested
          pfcTxXoff := pfcTxXoff
          pfcTxXon := pfcTxXon
          pfcSent := pfcSent } := by
  rw [drainPop_eq, signals_receiving]
  exact foldl_noted_rest _ _

theorem handleMacRx_receives (p : Packet) :
    Receives (.handleMacRx p) h.now h.dev (handleMacRx cfg i p h).dev := by
  cases control : isPfcFrame p with
  | true =>
    have obeys := handleMacRx_control cfg i h control
    constructor
    · rw [obeys.receiving]
      rfl
    · rw [obeys.receiving, Duty.queues, control]
      rfl
    · rw [obeys.receiving]
      simp [Duty.received, control, Host.update]
    · rw [obeys.receiving]
      rfl
  | false =>
    obtain ⟨start, _, queued, after⟩ := handleMacRx_data cfg i h control
    obtain ⟨rxOccPkts, counted⟩ := dataQueued_receiving h.dev (cfg.attr i) h.now p
    obtain ⟨localCongested, pfcTxXoff, pfcTxXon, pfcSent, rest⟩ := foldl_noted_rest
      start.dev.toReceivingSide ((cfg.attr i).rxSignals (getPrioFromPacket p)
        (h.dev.localCongested (getPrioFromPacket p)) (h.dev.rxOccPkts (getPrioFromPacket p) + 1))
    rw [← signals_receiving cfg i, queued, counted] at rest
    rw [after]
    constructor
    · exact congrArg ReceivingSide.macRx rest
    · rw [Duty.queues, control]
      exact congrArg ReceivingSide.ingressQ rest
    · simpa [Duty.received, control] using congrArg ReceivingSide.tokenMgr rest
    · have handed := congrArg ReceivingSide.ipv4Rx rest
      exact handed

variable (cfg i h) in
theorem duty_receives (duty : Duty) : Receives duty h.now h.dev (duty.run cfg i h).dev := by
  cases duty with
  | tryDequeue => exact .of_receiving rfl rfl tryDequeue_sends.receiving
  | transmitComplete => exact .of_receiving rfl rfl rfl
  | resumeFromPause prio => exact .of_receiving rfl rfl (resumeFromPause_obeys prio).receiving
  | refillMacQueueFromHold prio =>
    exact .of_receiving rfl rfl (refillMacQueueFromHold_obeys prio).receiving
  | handleMacRx p => exact handleMacRx_receives p
  | drainPop prio =>
    obtain ⟨localCongested, pfcTxXoff, pfcTxXon, pfcSent, rest⟩ := drainPop_rest cfg i h prio
    change Receives _ _ _ (drainPop cfg i prio h).dev
    refine ⟨?_, by rw [rest]; rfl, ?_, by rw [rest]; rfl⟩
    · rw [rest]
      exact (List.append_nil _).symm
    · rw [rest]
      exact (Bool.or_false _).symm

section Net

variable [DecidableEq ι] [DecidableEq ν] {s t : Net ι ν} {action : Action ι ν}

/-- What a device has received, what waits for its ingress drain, and whether
it has ensured a token manager. -/
theorem Net.step_received (step : s.step cfg action = some t) (i : ι) :
    (t.dev i).macRx = (s.dev i).macRx ++
      ((s.duty cfg i action).bind Duty.received).toList.map (t.sim.currentTs, ·) ∧
    (t.dev i).ingressQ = (s.duty cfg i action).elim (s.dev i).ingressQ
      (fun duty => duty.queues (s.dev i).ingressQ) ∧
    (t.dev i).tokenMgr = ((s.dev i).tokenMgr ||
      ((s.duty cfg i action).bind Duty.received).any fun p => !isPfcFrame p) := by
  have aside : ∀ {d e : QbbNetDevice}, Asides i t.sim.currentTs d e →
      e.macRx = d.macRx ∧ e.ingressQ = d.ingressQ ∧ e.tokenMgr = d.tokenMgr := by
    intro d e asides
    induction asides with
    | refl => exact ⟨rfl, rfl, rfl⟩
    | tail _ last ih =>
      cases last with
      | quiet kept =>
        exact ⟨kept.macRx.trans ih.1, kept.ingressQ.trans ih.2.1, kept.tokenMgr.trans ih.2.2⟩
      | send dg h clock dev =>
        rw [send_receiving, dev]
        exact ih
  have does := (Net.step_does cfg step i).2.2
  cases due : s.duty cfg i action with
  | none =>
    rw [due] at does
    obtain ⟨macRx, ingressQ, tokenMgr⟩ := aside does
    exact ⟨macRx.trans (List.append_nil _).symm, ingressQ, tokenMgr.trans (Bool.or_false _).symm⟩
  | some duty =>
    rw [due] at does
    obtain ⟨h, clock, quiet, after⟩ := does
    obtain ⟨macRx, ingressQ, tokenMgr⟩ := aside after
    obtain ⟨received, queued, ensured, -⟩ := duty_receives cfg i h duty
    rw [macRx, ingressQ, tokenMgr, received, queued, ensured, quiet.macRx, quiet.ingressQ,
      quiet.tokenMgr, clock]
    exact ⟨rfl, rfl, rfl⟩

end Net

end QbbNet
