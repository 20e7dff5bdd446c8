import QbbNet.SenderRefinement

set_option autoImplicit false

/- Crossing a watermark, as the list of signals it sends. -/
namespace QbbNet

variable {ι ν : Type} (cfg : Config ι ν) (i : ι)

namespace PfcSignal

def prio : PfcSignal → Fin 8
  | .xoff prio _ => prio
  | .xon prio => prio

/-- The pause time of the signal's frame. -/
def quanta : PfcSignal → UInt16
  | .xoff _ quanta => quanta
  | .xon _ => 0

def congests : PfcSignal → Bool
  | .xoff _ _ => true
  | .xon _ => false

def frame (signal : PfcSignal) : Packet := pfcFrame signal.prio signal.quanta

end PfcSignal

/-- The flag and the counters that go with a signal. -/
def ReceivingSide.noted (r : ReceivingSide) (signal : PfcSignal) : ReceivingSide :=
  { r with
    localCongested := Function.update r.localCongested signal.prio signal.congests
    pfcTxXoff := if signal.congests then
        Function.update r.pfcTxXoff signal.prio (r.pfcTxXoff signal.prio + 1)
      else r.pfcTxXoff
    pfcTxXon := if signal.congests then r.pfcTxXon
      else Function.update r.pfcTxXon signal.prio (r.pfcTxXon signal.prio + 1)
    pfcSent := r.pfcSent ++ [signal] }

def QbbNetDevice.noted (d : QbbNetDevice) (signal : PfcSignal) : QbbNetDevice :=
  { d with toReceivingSide := d.toReceivingSide.noted signal }

def sendSignal (h : Host ι) (signal : PfcSignal) : Host ι :=
  (ptpSend cfg i (pfcPacket signal.prio signal.quanta) pfcPppProto (h.update (·.noted signal))).2

theorem sendSignal_xoff (prio : Fin 8) (quanta : UInt16) (h : Host ι) :
    sendPfcXoff cfg i prio quanta (h.update (·.setCongested prio true)) =
      sendSignal cfg i h (.xoff prio quanta) := rfl

theorem sendSignal_xon (prio : Fin 8) (h : Host ι) :
    sendPfcXon cfg i prio (h.update (·.setCongested prio false)) =
      sendSignal cfg i h (.xon prio) := rfl

@[simp] theorem foldl_noted_pfcSent (r : ReceivingSide) (signals : List PfcSignal) :
    (signals.foldl ReceivingSide.noted r).pfcSent = r.pfcSent ++ signals := by
  induction signals generalizing r with
  | nil => exact (List.append_nil _).symm
  | cons signal signals ih => simp [ih, ReceivingSide.noted]

/-- The flags and the counters tell of the signals that were to be sent. -/
structure ReceivingSide.Noted (r : ReceivingSide) : Prop where
  localCongested : ∀ prio, r.localCongested prio =
    (r.pfcSent.filter fun signal => decide (signal.prio = prio)).getLast?.any PfcSignal.congests
  pfcTxXoff : ∀ prio, r.pfcTxXoff prio =
    r.pfcSent.countP fun signal => decide (signal.prio = prio) && signal.congests
  pfcTxXon : ∀ prio, r.pfcTxXon prio =
    r.pfcSent.countP fun signal => decide (signal.prio = prio) && !signal.congests

theorem ReceivingSide.Noted.noted {r : ReceivingSide} (noted : r.Noted) (signal : PfcSignal) :
    (r.noted signal).Noted where
  localCongested prio := by
    rcases eq_or_ne signal.prio prio with rfl | other
    · simp [ReceivingSide.noted, List.filter_append]
    · simp [ReceivingSide.noted, List.filter_append, other, other.symm, noted.localCongested prio]
  pfcTxXoff prio := by
    rcases eq_or_ne signal.prio prio with rfl | other
    · cases xoff : signal.congests <;>
        simp [ReceivingSide.noted, List.countP_append, xoff, noted.pfcTxXoff]
    · cases xoff : signal.congests <;>
        simp [ReceivingSide.noted, List.countP_append, xoff, other, other.symm, noted.pfcTxXoff]
  pfcTxXon prio := by
    rcases eq_or_ne signal.prio prio with rfl | other
    · cases xoff : signal.congests <;>
        simp [ReceivingSide.noted, List.countP_append, xoff, noted.pfcTxXon]
    · cases xoff : signal.congests <;>
        simp [ReceivingSide.noted, List.countP_append, xoff, other, other.symm, noted.pfcTxXon]

theorem ReceivingSide.Noted.foldl {r : ReceivingSide} (noted : r.Noted) (signals : List PfcSignal) :
    (signals.foldl ReceivingSide.noted r).Noted := by
  induction signals generalizing r with
  | nil => exact noted
  | cons signal signals ih => exact ih (noted.noted signal)

/-- The signals of a packet that arrives: `occ` counts it already. -/
def Attributes.rxSignals (attr : Attributes) (prio : Fin 8) (congested : Bool) (occ : Nat) :
    List PfcSignal :=
  let high := !congested && decide (attr.pfcHighPkts ≤ occ)
  if attr.pfcEnable then
    (if high then [.xoff prio attr.defaultQuanta] else []) ++
      if (congested || high) && decide (occ ≤ attr.pfcLowPkts) then [.xon prio] else []
  else []

/-- The signals of a packet that leaves: `occ` does not count it any more. -/
def Attributes.drainSignals (attr : Attributes) (prio : Fin 8) (congested : Bool) (occ : Nat) :
    List PfcSignal :=
  if attr.pfcEnable && congested && decide (occ ≤ attr.pfcLowPkts) then [.xon prio] else []

/-- The counting that comes before the watermarks, which goes with PfcEnable. -/
def QbbNetDevice.counted (d : QbbNetDevice) (attr : Attributes) (prio : Fin 8) : QbbNetDevice :=
  if attr.pfcEnable then
    { d with rxOccPkts := Function.update d.rxOccPkts prio (d.rxOccPkts prio + 1) }
  else d

def QbbNetDevice.popped (d : QbbNetDevice) (prio : Fin 8) : QbbNetDevice :=
  { d with
    ingressQ := Function.update d.ingressQ prio (d.ingressQ prio).tail
    rxOccPkts := Function.update d.rxOccPkts prio (d.rxOccPkts prio - 1) }

variable {i}

theorem sendSignal_receiving (h : Host ι) (signal : PfcSignal) :
    (sendSignal cfg i h signal).dev.toReceivingSide = h.dev.toReceivingSide.noted signal := rfl

variable (i)

theorem onDataRx_eq (prio : Fin 8) (h : Host ι) :
    onDataRx cfg i prio h =
      ((cfg.attr i).rxSignals prio (h.dev.localCongested prio) (h.dev.rxOccPkts prio + 1)).foldl
        (sendSignal cfg i) (h.update (·.counted (cfg.attr i) prio)) := by
  unfold onDataRx Attributes.rxSignals
  cases enabled : (cfg.attr i).pfcEnable with
  | false => simp [Host.update, QbbNetDevice.counted, enabled]
  | true =>
    simp only [Bool.true_eq_false, ↓reduceIte]
    have counted : (h.update fun d =>
        { d with rxOccPkts := Function.update d.rxOccPkts prio (d.rxOccPkts prio + 1) }) =
        h.update (·.counted (cfg.attr i) prio) := by
      simp [Host.update, QbbNetDevice.counted, enabled]
    rw [counted, sendSignal_xoff]
    generalize start : h.update (·.counted (cfg.attr i) prio) = h'
    have flag : h'.dev.localCongested prio = h.dev.localCongested prio := by
      simp [← start, Host.update, QbbNetDevice.counted, enabled]
    have occ : h'.dev.rxOccPkts prio = h.dev.rxOccPkts prio + 1 := by
      simp [← start, Host.update, QbbNetDevice.counted, enabled]
    rw [flag, occ, sendSignal_xon]
    by_cases high : h.dev.localCongested prio = false ∧
        (cfg.attr i).pfcHighPkts ≤ h.dev.rxOccPkts prio + 1
    · rw [if_pos high]
      have congested : (sendSignal cfg i h' (.xoff prio (cfg.attr i).defaultQuanta)).dev.localCongested
          prio = true := by simp [sendSignal_receiving, ReceivingSide.noted, PfcSignal.prio, PfcSignal.congests]
      have counter : (sendSignal cfg i h' (.xoff prio (cfg.attr i).defaultQuanta)).dev.rxOccPkts
          prio = h.dev.rxOccPkts prio + 1 := by rw [sendSignal_receiving]; exact occ
      simp only [congested, counter, high, true_and, decide_true, Bool.not_false, Bool.and_self,
        ↓reduceIte, Bool.or_true, Bool.true_and, decide_eq_true_eq]
      split <;> rfl
    · rw [if_neg high, flag, occ]
      have low : (!h.dev.localCongested prio &&
          decide ((cfg.attr i).pfcHighPkts ≤ h.dev.rxOccPkts prio + 1)) = false := by
        simpa using high
      simp only [low, Bool.false_eq_true, ↓reduceIte, Bool.or_false, List.nil_append,
        Bool.and_eq_true, decide_eq_true_eq]
      split <;> rfl

theorem drainPop_eq (prio : Fin 8) (h : Host ι) :
    drainPop cfg i prio h =
      ((cfg.attr i).drainSignals prio (h.dev.localCongested prio) (h.dev.rxOccPkts prio - 1)).foldl
        (sendSignal cfg i) (h.update (·.popped prio)) := by
  have occ : (h.update (·.popped prio)).dev.rxOccPkts prio = h.dev.rxOccPkts prio - 1 := by
    simp [Host.update, QbbNetDevice.popped]
  change (if (cfg.attr i).pfcEnable = true ∧ h.dev.localCongested prio = true ∧
      (h.update (·.popped prio)).dev.rxOccPkts prio ≤ (cfg.attr i).pfcLowPkts then
    sendPfcXon cfg i prio ((h.update (·.popped prio)).update (·.setCongested prio false))
    else h.update (·.popped prio)) = _
  rw [sendSignal_xon, occ, Attributes.drainSignals]
  simp only [Bool.and_eq_true, decide_eq_true_eq, and_assoc]
  split <;> rfl

end QbbNet
