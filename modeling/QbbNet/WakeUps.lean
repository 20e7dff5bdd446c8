import QbbNet.Timers
import QbbNet.DeviceStep

set_option autoImplicit false

/- Whatever waits outside the MAC queue has a timer pending that looks at it again. -/
namespace QbbNet

open Simulator

variable {ι ν : Type} {cfg : Config ι ν} {i j : ι} {h after : Host ι} {due due' : Set Timer}

/-- What the timers are pending for. The timers in `due` have run out, or are
about to be armed again, so that nothing is known of what they are for. -/
structure Awake (i : ι) (due : Set Timer) (h : Host ι) : Prop where
  slots : h.Slots i
  paused : ∀ prio, .refill prio ∉ due → h.dev.paused prio = true → h.Pending (.refill prio) ∧
    ∃ uid, h.dev.timer (.refill prio) = some ⟨h.dev.pauseUntil prio, uid⟩
  hold : ∀ prio, .refill prio ∉ due → h.dev.macHold prio ≠ [] → h.Pending (.refill prio)
  backlog : .tx ∉ due → ∀ prio, .refill prio ∉ due → h.dev.txq prio ≠ [] →
    h.Pending .tx ∨ h.Pending (.refill prio)
  ingress : .drain ∉ due → ∀ prio, h.dev.ingressQ prio ≠ [] → h.Pending .drain

namespace Awake

theorem mono (awake : Awake i due h) (sub : due ⊆ due') : Awake i due' h where
  slots := awake.slots
  paused prio known := awake.paused prio fun member => known (sub member)
  hold prio known := awake.hold prio fun member => known (sub member)
  backlog known prio known' :=
    awake.backlog (fun member => known (sub member)) prio fun member => known' (sub member)
  ingress known := awake.ingress fun member => known (sub member)

theorem still (awake : Awake i due h) (still : Still i h after) : Awake i due after := by
  have pending := still.pending awake.slots
  refine ⟨still.slots awake.slots, ?_, ?_, ?_, ?_⟩
  · intro prio known paused
    rw [still.work.paused] at paused
    rw [pending, still.timer, still.work.pauseUntil]
    exact awake.paused prio known paused
  · intro prio known waiting
    rw [still.work.macHold] at waiting
    exact (pending _).mpr (awake.hold prio known waiting)
  · intro known prio known' waiting
    rw [still.work.txq] at waiting
    rw [pending, pending]
    exact awake.backlog known prio known' waiting
  · intro known prio waiting
    rw [still.work.ingressQ] at waiting
    exact (pending _).mpr (awake.ingress known prio waiting)

/-- Arming a timer that has run out. -/
theorem arm {timer : Timer} {delay : Time} (awake : Awake i (insert timer due) h)
    (expired : ¬ h.Pending timer) (arms : Arms i timer delay h after)
    (ends : ∀ prio, timer = .refill prio → h.dev.paused prio = true →
      h.dev.pauseUntil prio = h.now + delay) : Awake i due after := by
  have own := arms.pending_self
  have kept : ∀ {other : Timer}, h.Pending other → after.Pending other := by
    intro other pending
    rcases eq_or_ne other timer with rfl | different
    · exact own
    · exact (arms.pending_other different).mpr pending
  refine ⟨arms.slots awake.slots expired, ?_, ?_, ?_, ?_⟩
  · intro prio known paused
    rw [arms.work.paused] at paused
    rw [arms.work.pauseUntil, arms.timers]
    rcases eq_or_ne (.refill prio) timer with rfl | different
    · refine ⟨own, h.sim.uid, ?_⟩
      rw [Function.update_self, ends prio rfl paused]
      rfl
    · have before := awake.paused prio (fun member => member.elim different known) paused
      rw [Function.update_of_ne different]
      exact ⟨kept before.1, before.2⟩
  · intro prio known waiting
    rw [arms.work.macHold] at waiting
    rcases eq_or_ne (.refill prio) timer with rfl | different
    · exact own
    · exact kept (awake.hold prio (fun member => member.elim different known) waiting)
  · intro known prio known' waiting
    rw [arms.work.txq] at waiting
    rcases eq_or_ne .tx timer with rfl | other
    · exact Or.inl own
    rcases eq_or_ne (.refill prio) timer with rfl | different
    · exact Or.inr own
    · exact (awake.backlog (fun member => member.elim other known) prio
        (fun member => member.elim different known') waiting).imp kept kept
  · intro known prio waiting
    rw [arms.work.ingressQ] at waiting
    rcases eq_or_ne .drain timer with rfl | different
    · exact own
    · exact kept (awake.ingress (fun member => member.elim different known) prio waiting)

/-- A pending timer stands for all that it alone has to be pending for. -/
theorem of_pending_tx (awake : Awake i (insert .tx due) h) (pending : h.Pending .tx) :
    Awake i due h where
  slots := awake.slots
  paused prio known := awake.paused prio (by simpa using known)
  hold prio known := awake.hold prio (by simpa using known)
  backlog _ _ _ _ := Or.inl pending
  ingress known := awake.ingress (by simpa using known)

theorem of_pending_drain (awake : Awake i (insert .drain due) h) (pending : h.Pending .drain) :
    Awake i due h where
  slots := awake.slots
  paused prio known := awake.paused prio (by simpa using known)
  hold prio known := awake.hold prio (by simpa using known)
  backlog known prio known' := awake.backlog (by simpa using known) prio (by simpa using known')
  ingress _ _ _ := pending

theorem scheduleTxEvent (awake : Awake i (insert .tx due) h) (expired : ¬ h.Pending .tx)
    (delay : Time) : Awake i due (h.scheduleTxEvent i delay) :=
  awake.arm expired (.tx delay) nofun

theorem scheduleIngressDrainEv (awake : Awake i (insert .drain due) h)
    (expired : ¬ h.Pending .drain) (delay : Time) :
    Awake i due (h.scheduleIngressDrainEv i delay) :=
  awake.arm expired (.drain delay) nofun

theorem wakeTxEvent (awake : Awake i (insert .tx due) h) : Awake i due (h.wakeTxEvent i) := by
  unfold Host.wakeTxEvent
  split
  · rename_i expired
    exact awake.scheduleTxEvent (by simpa [Host.Pending, QbbNetDevice.timer] using expired) 0
  · rename_i pending
    exact awake.of_pending_tx (by simpa [Host.Pending, QbbNetDevice.timer] using pending)

end Awake

/- The base device -/

theorem transmitStart_sameFor (p : Packet) (sim : Simulator (Event ι)) (d : PointToPointNetDevice) :
    SameFor (Event.TimerOf j) sim (d.transmitStart cfg i p sim).1 := by
  unfold PointToPointNetDevice.transmitStart
  dsimp only
  have completed : SameFor (Event.TimerOf j) sim (sim.schedule
      ((cfg.attr i).calculateBytesTxTime p.getSize + (cfg.attr i).interframeGap)
      (.transmitComplete i)).2 := .schedule _ _ id
  cases cfg.peer i with
  | none => exact completed
  | some other => exact completed.trans (.schedule _ _ id)

theorem ptpSend_still (cfg : Config ι ν) (i : ι) (p : Packet) (protocol : UInt16) (h : Host ι) :
    Still i h (ptpSend cfg i p protocol h).2 := by
  refine ⟨?_, rfl, ⟨rfl, rfl, rfl, rfl, rfl⟩⟩
  rcases PointToPointNetDevice.send_cases cfg i p protocol h.sim h.dev.toPointToPointNetDevice with
    ⟨-, sent⟩ | ⟨-, -, sent⟩ | ⟨-, _, -, ⟨-, sent⟩ | ⟨-, first, rest, -, sent⟩⟩ <;>
    rw [ptpSend, sent]
  · exact .refl _ _
  · exact .refl _ _
  · exact .refl _ _
  · exact transmitStart_sameFor first h.sim { h.dev.toPointToPointNetDevice with queue := rest }

theorem transmitComplete_sameFor :
    SameFor (Event.TimerOf j) h.sim (transmitComplete cfg i h).sim := by
  unfold transmitComplete PointToPointNetDevice.transmitComplete
  dsimp only
  split
  · exact .refl _ _
  · rename_i first rest _
    exact transmitStart_sameFor first h.sim
      { h.dev.toPointToPointNetDevice with
        txMachineState := .ready
        currentPkt := none
        queue := rest }

theorem signals_still (signals : List PfcSignal) :
    Still i h (signals.foldl (sendSignal cfg i) h) := by
  induction signals generalizing h with
  | nil => exact ⟨.refl _ _, rfl, ⟨rfl, rfl, rfl, rfl, rfl⟩⟩
  | cons signal signals ih =>
    have sent := ptpSend_still cfg i (pfcPacket signal.prio signal.quanta) pfcPppProto
      (h.update (·.noted signal))
    exact Still.trans ⟨sent.same, rfl, ⟨rfl, rfl, rfl, rfl, rfl⟩⟩ ih

theorem onDataRx_still (prio : Fin 8) : Still i h (onDataRx cfg i prio h) := by
  have counted : Still i h (h.update (·.counted (cfg.attr i) prio)) := by
    unfold Host.update QbbNetDevice.counted
    split <;> exact ⟨.refl _ _, rfl, ⟨rfl, rfl, rfl, rfl, rfl⟩⟩
  rw [onDataRx_eq]
  exact counted.trans (signals_still _)

/- The handlers -/

theorem just (timer : Timer) : insert timer ∅ = ({timer} : Set Timer) := insert_empty_eq timer

namespace Awake

/-- Work that only timers in `due` look at may change. -/
theorem update (awake : Awake i due h) {f : QbbNetDevice → QbbNetDevice}
    (timer : (f h.dev).timer = h.dev.timer)
    (paused : ∀ prio, .refill prio ∉ due → (f h.dev).paused prio = h.dev.paused prio ∧
      (f h.dev).pauseUntil prio = h.dev.pauseUntil prio)
    (hold : ∀ prio, .refill prio ∉ due → (f h.dev).macHold prio = h.dev.macHold prio)
    (backlog : .tx ∉ due → (f h.dev).txq = h.dev.txq)
    (ingress : .drain ∉ due → (f h.dev).ingressQ = h.dev.ingressQ) : Awake i due (h.update f) where
  slots := by
    intro other
    change Slot h.sim ((f h.dev).timer other) _
    rw [timer]
    exact awake.slots other
  paused prio known set := by
    change h.sim.isExpired ((f h.dev).timer _) = false ∧
      ∃ uid, (f h.dev).timer _ = some ⟨(f h.dev).pauseUntil prio, uid⟩
    obtain ⟨same, ends⟩ := paused prio known
    rw [timer, ends]
    exact awake.paused prio known (same ▸ set)
  hold prio known waiting := by
    change h.sim.isExpired ((f h.dev).timer _) = false
    rw [timer]
    exact awake.hold prio known (hold prio known ▸ waiting)
  backlog known prio known' waiting := by
    change h.sim.isExpired ((f h.dev).timer _) = false ∨ h.sim.isExpired ((f h.dev).timer _) = false
    rw [timer]
    exact awake.backlog known prio known' (backlog known ▸ waiting)
  ingress known prio waiting := by
    change h.sim.isExpired ((f h.dev).timer _) = false
    rw [timer]
    exact awake.ingress known prio (ingress known ▸ waiting)

/-- A change that no timer looks at. -/
theorem send (awake : Awake i due h) (dg : Datagram) : Awake i due (QbbNet.send i dg h) := by
  refine wakeTxEvent (update (awake.mono (Set.subset_insert _ _)) ?_ ?_ ?_ ?_ ?_)
  · rfl
  · exact fun _ _ => ⟨rfl, rfl⟩
  · exact fun _ _ => rfl
  · exact fun known => absurd (Set.mem_insert _ _) known
  · exact fun _ => rfl

theorem tryDequeue (awake : Awake i {.tx} h) (expired : ¬ h.Pending .tx) :
    Awake i ∅ (QbbNet.tryDequeue cfg i h) := by
  rcases tryDequeue_cases cfg i h with
    ⟨picked, same⟩ | ⟨prio, item, rest, -, -, -, ended⟩
  · rw [same]
    refine ⟨awake.slots, fun prio _ => awake.paused prio (by simp),
      fun prio _ => awake.hold prio (by simp), fun _ prio _ waiting => Or.inr ?_,
      fun _ => awake.ingress (by simp)⟩
    -- every class with a packet is paused, and its pause has an end
    have none_picked := List.find?_eq_none.mp picked prio (by simp)
    have pausing : h.dev.pausing h.now prio = true := by simpa [waiting] using none_picked
    simp only [QbbNetDevice.pausing, Bool.and_eq_true] at pausing
    exact (awake.paused prio (by simp) pausing.1).1
  · have still := ptpSend_still cfg i item.packet item.protocol h
    have sent := just .tx ▸ awake.still still
    have expired' : ¬ (ptpSend cfg i item.packet item.protocol h).2.Pending .tx :=
      fun pending => expired ((still.pending awake.slots .tx).mp pending)
    rcases ended with ⟨-, same⟩ | ⟨-, same⟩
    · rw [same]
      exact sent.scheduleTxEvent expired' _
    · rw [same]
      refine scheduleTxEvent (h := Host.update _ _) (sent.update ?_ ?_ ?_ ?_ ?_) ?_ _
      · rfl
      · exact fun _ _ => ⟨rfl, rfl⟩
      · exact fun _ _ => rfl
      · exact fun known => absurd (Set.mem_insert _ _) known
      · exact fun _ => rfl
      · exact expired'

theorem refillMacQueueFromHold {prio : Fin 8} (awake : Awake i (insert (.refill prio) due) h)
    (expired : ¬ h.Pending (.refill prio)) (running : h.dev.pausing h.now prio = false) :
    Awake i due (QbbNet.refillMacQueueFromHold i prio h) := by
  rcases refillMacQueueFromHold_cases i prio h with
    ⟨pausing, -⟩ | ⟨-, moved, rest, dropped, q, -, -, -, after⟩
  · rw [running] at pausing
    cases pausing
  have refilled : Awake i (insert (.refill prio) due)
      (h.update (·.refilled prio q rest dropped)) := by
    refine awake.update rfl ?_ ?_ (fun _ => rfl) fun _ => rfl
    · intro other known
      have different : other ≠ prio := fun same => known (same ▸ Set.mem_insert _ _)
      exact ⟨Function.update_of_ne different .., rfl⟩
    · intro other known
      have different : other ≠ prio := fun same => known (same ▸ Set.mem_insert _ _)
      exact Function.update_of_ne different ..
  have cleared : (h.dev.refilled prio q rest dropped).paused prio = false := Function.update_self ..
  rcases after with ⟨-, same⟩ | ⟨empty, same⟩
  · rw [same]
    refine refilled.arm expired (.refill prio _ (Or.inr rfl)) ?_
    rintro other ⟨⟩ paused
    exact absurd (cleared.symm.trans paused) Bool.false_ne_true
  · rw [same]
    have held : (h.dev.refilled prio q rest dropped).macHold prio = [] :=
      (Function.update_self ..).trans empty
    have known_of {other : Fin 8} (known : Timer.refill other ∉ insert Timer.tx due)
        (different : other ≠ prio) : Timer.refill other ∉ insert (Timer.refill prio) due := by
      simpa [different] using known
    refine wakeTxEvent ⟨refilled.slots, fun other known set => ?_, fun other known waiting => ?_,
      fun known => absurd (Set.mem_insert _ _) known, fun known => refilled.ingress ?_⟩
    · rcases eq_or_ne other prio with rfl | different
      · exact absurd set (by simp [cleared])
      · exact refilled.paused other (known_of known different) set
    · rcases eq_or_ne other prio with rfl | different
      · exact absurd held waiting
      · exact refilled.hold other (known_of known different) waiting
    · simpa using known

theorem resumeFromPause {prio : Fin 8} (awake : Awake i {.refill prio} h)
    (expired : ¬ h.Pending (.refill prio)) (lapsed : h.dev.pauseUntil prio ≤ h.now) :
    Awake i ∅ (QbbNet.resumeFromPause i prio h) := by
  unfold QbbNet.resumeFromPause
  rw [if_neg (Nat.not_lt.mpr lapsed)]
  refine refillMacQueueFromHold (h := h.update _) ?_ expired ?_
  · rw [just]
    refine awake.update rfl (fun other known => ?_) (fun _ _ => rfl) (fun _ => rfl) fun _ => rfl
    exact ⟨Function.update_of_ne (fun same => known (by rw [same]; rfl)) .., rfl⟩
  · simp [Host.update, QbbNetDevice.pausing]

theorem cancelRefillEvent {prio : Fin 8} (awake : Awake i (insert (.refill prio) due) h) :
    Awake i (insert (.refill prio) due) (h.cancelRefillEvent prio) ∧
      ¬ (h.cancelRefillEvent prio).Pending (.refill prio) := by
  unfold Host.cancelRefillEvent
  split
  · rename_i expired
    exact ⟨awake, by simp [Host.Pending, QbbNetDevice.timer, expired]⟩
  have own := awake.slots (.refill prio)
  have others : ∀ {other : Timer}, other ≠ .refill prio →
      SameFor (other.Runs i) h.sim (h.sim.cancel (h.dev.refillEvent prio)) :=
    fun different => .cancel own.armed fun _ first second => different (first.unique second)
  have kept : ∀ {other : Timer}, other ≠ .refill prio → h.Pending other →
      ({ h with sim := h.sim.cancel (h.dev.refillEvent prio) } : Host ι).Pending other :=
    fun different pending => ((others different).isExpired (awake.slots _)).trans pending
  have not_in {other : Fin 8} (known : Timer.refill other ∉ insert (Timer.refill prio) due) :
      Timer.refill other ≠ .refill prio := fun same => known (same ▸ Set.mem_insert _ _)
  refine ⟨⟨fun other => ?_, fun other known set => ?_, fun other known waiting => ?_,
    fun known other known' waiting => ?_, fun known other waiting => ?_⟩, ?_⟩
  · rcases eq_or_ne other (.refill prio) with rfl | different
    · exact own.cancel_own
    · exact (others different).slot (awake.slots other)
  · exact (awake.paused other known set).imp_left (kept (not_in known))
  · exact kept (not_in known) (awake.hold other known waiting)
  · exact (awake.backlog known other known' waiting).imp (kept (by simp)) (kept (not_in known'))
  · exact kept (by simp) (awake.ingress known other waiting)
  · have cancelled : (h.sim.cancel (h.dev.refillEvent prio)).isExpired (h.dev.refillEvent prio) = true :=
      own.cancel_expired
    simp [Host.Pending, QbbNetDevice.timer, cancelled]

theorem handlePfcClass (awake : Awake i due h) (ph : PfcHeader) (prio : Fin 8) :
    Awake i due (QbbNet.handlePfcClass cfg i ph h prio) := by
  have loose : Awake i (insert (.refill prio) due) h := awake.mono (Set.subset_insert _ _)
  have others {other : Fin 8} (known : Timer.refill other ∉ insert (Timer.refill prio) due) :
      other ≠ prio := fun same => known (same ▸ Set.mem_insert _ _)
  rcases handlePfcClass_cases cfg i ph prio h with ⟨-, same⟩ | ⟨-, -, same⟩ | ⟨-, -, same⟩
  · rw [same]
    exact awake
  · rw [same]
    have resumed := loose.update (f := (·.resumedAt prio h.now))
      rfl (fun other known => ⟨Function.update_of_ne (others known) ..,
        Function.update_of_ne (others known) ..⟩) (fun _ _ => rfl) (fun _ => rfl) fun _ => rfl
    obtain ⟨cancelled, expired⟩ := resumed.cancelRefillEvent
    refine refillMacQueueFromHold cancelled expired ?_
    simp [QbbNetDevice.pausing, QbbNetDevice.resumedAt, Host.update]
  · rw [same]
    obtain ⟨queue, dropped, held, rest⟩ := pausedFor_rest h.dev prio
      (h.now + (cfg.attr i).quantaTime (ph.quanta prio))
    have paused := loose.update (f := (·.pausedFor prio
      (h.now + (cfg.attr i).quantaTime (ph.quanta prio))))
      (by rw [rest]; rfl)
      (fun other known => by simp [rest, others known])
      (fun other known => by simp [rest, others known])
      (fun _ => by rw [rest]) fun _ => by rw [rest]
    obtain ⟨cancelled, expired⟩ := paused.cancelRefillEvent
    refine cancelled.arm expired (.refill prio _ (Or.inl rfl)) ?_
    rintro other ⟨⟩ -
    rw [Host.cancelRefillEvent_dev, Host.cancelRefillEvent_now]
    exact (congrFun (congrArg (·.pauseUntil) rest) prio).trans (Function.update_self ..)

theorem foldl_handlePfcClass (awake : Awake i due h) (ph : PfcHeader) (prios : List (Fin 8)) :
    Awake i due (prios.foldl (QbbNet.handlePfcClass cfg i ph) h) := by
  induction prios generalizing h with
  | nil => exact awake
  | cons prio prios ih => exact ih (awake.handlePfcClass ph prio)

theorem handlePfcFrame (awake : Awake i due h) (p : Packet) :
    Awake i due (QbbNet.handlePfcFrame cfg i p h) := by
  unfold QbbNet.handlePfcFrame
  split
  · rename_i ph _
    exact wakeTxEvent ((awake.foldl_handlePfcClass ph classes).mono (Set.subset_insert _ _))
  · exact awake

theorem handleDataFrame (awake : Awake i ∅ h) (p : Packet) :
    Awake i ∅ (QbbNet.handleDataFrame cfg i p h) := by
  have ensured : Still i h (ensureTokenManager cfg i h) := by
    unfold ensureTokenManager
    split <;> exact ⟨.refl _ _, rfl, ⟨rfl, rfl, rfl, rfl, rfl⟩⟩
  have loose : Awake i {.drain} (ensureTokenManager cfg i h) :=
    (awake.still ensured).mono (Set.empty_subset _)
  have queued : Awake i {.drain} (queueIngress cfg i p h) := by
    unfold queueIngress
    refine loose.update ?_ (fun _ _ => ⟨?_, ?_⟩) (fun _ _ => ?_) (fun _ => ?_) fun known => ?_
    rotate_right
    · exact absurd (Set.mem_singleton _) known
    all_goals rfl
  have counted : Awake i (insert .drain ∅) (onDataRx cfg i (getPrioFromPacket p)
      (queueIngress cfg i p h)) := just .drain ▸ queued.still (onDataRx_still _)
  unfold QbbNet.handleDataFrame
  dsimp only
  split
  · rename_i expired
    refine counted.scheduleIngressDrainEv ?_ 0
    simpa [Host.Pending, QbbNetDevice.timer] using expired
  · rename_i pending
    refine counted.of_pending_drain ?_
    simpa [Host.Pending, QbbNetDevice.timer] using pending

theorem handleMacRx (awake : Awake i ∅ h) (p : Packet) :
    Awake i ∅ (QbbNet.handleMacRx cfg i p h) := by
  have traced : Awake i ∅ (h.update fun d => { d with macRx := d.macRx ++ [(h.now, p)] }) :=
    awake.update rfl (fun _ _ => ⟨rfl, rfl⟩) (fun _ _ => rfl) (fun _ => rfl) fun _ => rfl
  unfold QbbNet.handleMacRx
  dsimp only
  split
  · exact traced.handlePfcFrame p
  · exact traced.handleDataFrame p

variable (cfg) in
/-- A device that is refused a token asks again later; otherwise nothing changes for it. -/
theorem drainToken (awake : Awake i {.drain} h) (expired : ¬ h.Pending .drain) (egressPort : Nat)
    (prio : Fin 8) :
    ((QbbNet.drainToken cfg i egressPort prio h).1 = false ∧
      Awake i ∅ (QbbNet.drainToken cfg i egressPort prio h).2) ∨
    ((QbbNet.drainToken cfg i egressPort prio h).1 = true ∧
      Still i h (QbbNet.drainToken cfg i egressPort prio h).2) := by
  unfold QbbNet.drainToken
  split
  · exact Or.inr ⟨rfl, .refl h⟩
  · dsimp only
    split
    · refine Or.inl ⟨rfl, ?_⟩
      dsimp only
      refine scheduleIngressDrainEv (h := { h with mgr := _ }) ?_ ?_ _
      · exact just .drain ▸ awake.still ⟨.refl _ _, rfl, ⟨rfl, rfl, rfl, rfl, rfl⟩⟩
      · exact expired
    · split <;> exact Or.inr ⟨rfl, .refl _ _, rfl, ⟨rfl, rfl, rfl, rfl, rfl⟩⟩

variable (cfg) in
theorem drainPop (awake : Awake i {.drain} h) (expired : ¬ h.Pending .drain) (prio : Fin 8) :
    Awake i {.drain} (QbbNet.drainPop cfg i prio h) ∧
      ¬ (QbbNet.drainPop cfg i prio h).Pending .drain := by
  have popped : Awake i {.drain} (h.update (·.popped prio)) := by
    refine awake.update rfl (fun _ _ => ⟨rfl, rfl⟩) (fun _ _ => rfl) (fun _ => rfl) fun known => ?_
    exact absurd (Set.mem_singleton _) known
  have signalled : Still i (h.update (·.popped prio)) (QbbNet.drainPop cfg i prio h) := by
    rw [drainPop_eq]
    exact signals_still _
  exact ⟨popped.still signalled, fun pending => expired ((signalled.pending popped.slots _).mp pending)⟩

/-- No packet waits for a drain. -/
theorem idle (awake : Awake i {.drain} h) (empty : ∀ prio, h.dev.ingressQ prio = []) :
    Awake i ∅ h where
  slots := awake.slots
  paused prio _ := awake.paused prio (by simp)
  hold prio _ := awake.hold prio (by simp)
  backlog _ prio _ := awake.backlog (by simp) prio (by simp)
  ingress _ prio waiting := absurd (empty prio) waiting

/-- The timer of the event that is taken out of the calendar has run out now. -/
theorem processOneEvent (awake : Awake i ∅ h) {impl : Option (Event ι)} {sim : Simulator (Event ι)}
    (popped : h.sim.processOneEvent = some (impl, sim)) :
    Awake i {timer | ∃ event ∈ impl, timer.Runs i event} { h with sim := sim } ∧
      ∀ timer : Timer, (∃ event ∈ impl, timer.Runs i event) →
        ¬ ({ h with sim := sim } : Host ι).Pending timer ∧ h.Pending timer ∧
          h.dev.timer timer = some ⟨sim.currentTs, sim.currentUid⟩ := by
  have kept : ∀ {timer : Timer}, timer ∉ {timer : Timer | ∃ event ∈ impl, timer.Runs i event} →
      h.Pending timer → ({ h with sim := sim } : Host ι).Pending timer := by
    intro timer foreign pending
    refine ((awake.slots timer).processOneEvent_other popped fun event same runs => ?_).trans pending
    exact foreign ⟨event, same, runs⟩
  refine ⟨⟨fun timer => (awake.slots timer).processOneEvent popped,
    fun prio known set => (awake.paused prio (by simp) set).imp_left (kept known),
    fun prio known waiting => kept known (awake.hold prio (by simp) waiting),
    fun known prio known' waiting =>
      (awake.backlog (by simp) prio (by simp) waiting).imp (kept known) (kept known'),
    fun known prio waiting => kept known (awake.ingress (by simp) prio waiting)⟩, ?_⟩
  rintro timer ⟨event, same, runs⟩
  have handler : impl = some event := same
  rw [handler] at popped
  obtain ⟨before, expired, key⟩ := (awake.slots timer).processOneEvent_own popped runs
  exact ⟨by simpa [Host.Pending] using expired, before, key⟩

theorem elapse (awake : Awake i ∅ h) {t : Time} {sim : Simulator (Event ι)}
    (elapsed : h.sim.elapse t = some sim) : Awake i ∅ { h with sim := sim } := by
  have kept : ∀ {timer : Timer}, h.Pending timer → ({ h with sim := sim } : Host ι).Pending timer :=
    fun pending => ((awake.slots _).elapse_isExpired elapsed).trans pending
  exact ⟨fun timer => (awake.slots timer).elapse elapsed,
    fun prio known set => (awake.paused prio known set).imp_left kept,
    fun prio known waiting => kept (awake.hold prio known waiting),
    fun known prio known' waiting => (awake.backlog known prio known' waiting).imp kept kept,
    fun known prio waiting => kept (awake.ingress known prio waiting)⟩

end Awake

/- Cancelling a timer is an edit, since the timer names an event of the device. -/
namespace Edits

variable {start : Simulator (Event ι) × PointToPointNetDevice}

theorem handlePfcClass (so_far : Edits cfg i start h.link) (slots : h.Slots i) (ph : PfcHeader)
    (prio : Fin 8) : Edits cfg i start (QbbNet.handlePfcClass cfg i ph h prio).link := by
  have armed (pending : h.sim.isExpired (h.dev.refillEvent prio) = false) :
      ∃ e, h.sim.Live e ∧ h.dev.refillEvent prio = some e.key ∧ e.impl.TimerOf i := by
    obtain ⟨e, live, same, runs⟩ := (slots (.refill prio)).armed pending
    exact ⟨e, live, same, Event.timerOf_iff.mpr ⟨_, runs⟩⟩
  rcases handlePfcClass_cases cfg i ph prio h with ⟨-, same⟩ | ⟨-, -, same⟩ | ⟨-, -, same⟩
  · rw [same]
    exact so_far
  · rw [same]
    refine refillMacQueueFromHold (cancelRefillEvent (h := h.update _) so_far prio ?_) prio
    exact armed
  · rw [same]
    obtain ⟨queue, dropped, held, rest⟩ := pausedFor_rest h.dev prio
      (h.now + (cfg.attr i).quantaTime (ph.quanta prio))
    have link : (h.update (·.pausedFor prio
        (h.now + (cfg.attr i).quantaTime (ph.quanta prio)))).link =
        (h.sim, { h.dev.toPointToPointNetDevice with queue := queue, queueDrop := dropped }) := by
      simp only [Host.link, Host.update, rest]
    have purged : Edits cfg i start (h.update (·.pausedFor prio
        (h.now + (cfg.attr i).quantaTime (ph.quanta prio)))).link :=
      link ▸ so_far.tail (.requeue queue dropped)
    refine (purged.cancelRefillEvent prio ?_).scheduleRefillEvent prio _ rfl
    have timer : (h.dev.pausedFor prio (h.now + (cfg.attr i).quantaTime (ph.quanta prio))).refillEvent =
        h.dev.refillEvent := by rw [rest]
    simpa only [Host.update, timer] using armed

theorem foldl_handlePfcClass (so_far : Edits cfg i start h.link) (awake : Awake i ∅ h)
    (ph : PfcHeader) (prios : List (Fin 8)) :
    Edits cfg i start (prios.foldl (QbbNet.handlePfcClass cfg i ph) h).link := by
  induction prios generalizing h with
  | nil => exact so_far
  | cons prio prios ih =>
    exact ih (so_far.handlePfcClass awake.slots ph prio) (awake.handlePfcClass ph prio)

theorem handleMacRx (so_far : Edits cfg i start h.link) (awake : Awake i ∅ h) (p : Packet) :
    Edits cfg i start (QbbNet.handleMacRx cfg i p h).link := by
  unfold QbbNet.handleMacRx
  dsimp only
  split
  · unfold QbbNet.handlePfcFrame
    split
    · rename_i ph _
      refine (foldl_handlePfcClass (h := h.update _) so_far ?_ ph classes).wakeTxEvent
      exact awake.update rfl (fun _ _ => ⟨rfl, rfl⟩) (fun _ _ => rfl) (fun _ => rfl) fun _ => rfl
    · exact so_far
  · exact handleDataFrame (h := h.update _) so_far p

/-- What one device does to the simulator leaves the timers of the others alone. -/
theorem sameFor {before after : Simulator (Event ι) × PointToPointNetDevice}
    (edits : Edits cfg i before after) (other : j ≠ i) :
    SameFor (Event.TimerOf j) before.1 after.1 := by
  induction edits with
  | refl => exact .refl _ _
  | tail _ edit ih =>
    refine ih.trans ?_
    cases edit with
    | schedule delay foreign =>
      refine .schedule _ _ fun own => ?_
      rcases foreign with timer | rfl
      · exact other (own.unique timer)
      · exact own
    | cancel armed => exact .cancel armed fun _ own foreign => other (own.unique foreign)
    | requeue | note => exact .refl _ _
    | @send sim base p protocol =>
      rcases PointToPointNetDevice.send_cases cfg i p protocol sim base with
        ⟨-, sent⟩ | ⟨-, -, sent⟩ | ⟨-, _, -, ⟨-, sent⟩ | ⟨-, first, rest, -, sent⟩⟩ <;> rw [sent]
      · exact .refl _ _
      · exact .refl _ _
      · exact .refl _ _
      · exact transmitStart_sameFor first sim { base with queue := rest }

end Edits

end QbbNet
