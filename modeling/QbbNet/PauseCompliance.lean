import QbbNet.SenderRun
import QbbNet.Topology

set_option autoImplicit false

/- No data frame of a class starts before the end of its pause. -/
namespace QbbNet

open ClassedSender

variable {ι ν : Type} {cfg : Config ι ν} {i : ι} {h : Host ι}

/- What handlers do to the pause of a class -/

def QbbNetDevice.pause (d : QbbNetDevice) (prio : Fin 8) : Bool × Time :=
  (d.paused prio, d.pauseUntil prio)

theorem Quiet.pause {d e : QbbNetDevice} (quiet : Quiet d e) : e.pause = d.pause := by
  funext prio
  simp only [QbbNetDevice.pause, quiet.sending]

@[simp] theorem wakeTxEvent_pause : (h.wakeTxEvent i).dev.pause = h.dev.pause := by
  unfold Host.wakeTxEvent
  split <;> rfl

theorem send_pause (dg : Datagram) : (send i dg h).dev.pause = h.dev.pause := by
  rw [send, wakeTxEvent_pause]
  rfl

theorem tryDequeue_pause : (tryDequeue cfg i h).dev.pause = h.dev.pause := by
  rcases tryDequeue_cases cfg i h with
    ⟨-, same⟩ | ⟨prio, item, rest, -, -, -, ⟨-, same⟩ | ⟨-, same⟩⟩ <;> rw [same] <;> rfl

theorem pause_of_sending {d e : QbbNetDevice} (same : e.toSendingSide = d.toSendingSide) :
    e.pause = d.pause := by
  funext prio
  simp only [QbbNetDevice.pause, same]

theorem refilled_pause (d : QbbNetDevice) {refilled prio : Fin 8} (other : prio ≠ refilled)
    (q : DropTailQueue) (rest dropped : List Packet) :
    (d.refilled refilled q rest dropped).pause prio = d.pause prio := by
  simp [QbbNetDevice.pause, QbbNetDevice.refilled, other]

theorem refillMacQueueFromHold_pause (refilled prio : Fin 8) :
    (refillMacQueueFromHold i refilled h).dev.pause prio = h.dev.pause prio ∨
      prio = refilled ∧ h.dev.pauseUntil prio ≤ h.now ∧
        (refillMacQueueFromHold i refilled h).dev.pause prio = (false, h.dev.pauseUntil prio) := by
  rcases refillMacQueueFromHold_cases i refilled h with
    ⟨-, same⟩ | ⟨running, moved, rest, dropped, q, -, -, -, after⟩
  · exact Or.inl (by rw [same])
  · have pause : (refillMacQueueFromHold i refilled h).dev.pause prio =
        (h.dev.refilled refilled q rest dropped).pause prio := by
      rcases after with ⟨-, same⟩ | ⟨-, same⟩
      · rw [same]
        rfl
      · rw [same, wakeTxEvent_pause]
    rw [pause]
    rcases eq_or_ne prio refilled with rfl | other
    · simp only [QbbNetDevice.pausing, Bool.and_eq_false_iff, decide_eq_false_iff_not,
        not_lt] at running
      rcases running with unset | lapsed
      · exact Or.inl (by simp [QbbNetDevice.pause, QbbNetDevice.refilled, unset])
      · exact Or.inr ⟨rfl, lapsed, by simp [QbbNetDevice.pause, QbbNetDevice.refilled]⟩
    · exact Or.inl (refilled_pause h.dev other q rest dropped)

theorem resumeFromPause_pause (resumed prio : Fin 8) :
    (resumeFromPause i resumed h).dev.pause prio = h.dev.pause prio ∨
      h.dev.pauseUntil prio ≤ h.now ∧
        (resumeFromPause i resumed h).dev.pause prio = (false, h.dev.pauseUntil prio) := by
  unfold resumeFromPause
  split
  · exact Or.inl rfl
  · rename_i lapsed
    let cleared := h.update fun d => { d with paused := Function.update d.paused resumed false }
    have after := refillMacQueueFromHold_pause (i := i) (h := cleared) resumed prio
    rcases eq_or_ne prio resumed with rfl | other
    · refine Or.inr ⟨Nat.le_of_not_lt lapsed, ?_⟩
      have flag : cleared.dev.pause prio = (false, h.dev.pauseUntil prio) := by
        simp [cleared, Host.update, QbbNetDevice.pause]
      rcases after with same | ⟨-, -, same⟩
      · exact same.trans flag
      · exact same
    · have flag : cleared.dev.pause prio = h.dev.pause prio := by
        simp [cleared, Host.update, QbbNetDevice.pause, other]
      exact Or.inl ((after.resolve_right fun both => other both.1).trans flag)

theorem purgeMacQueueForPrio_pause (prio : Fin 8) (d : QbbNetDevice) :
    (purgeMacQueueForPrio prio d).pause = d.pause := by
  obtain ⟨_, _, _, same⟩ := purgeMacQueueForPrio_rest prio d
  rw [same]
  rfl

/-- A class that a frame enables gets the pause that the frame says. -/
theorem handlePfcClass_pause (ph : PfcHeader) (prio : Fin 8) (enabled : ph.enables prio = true) :
    (handlePfcClass cfg i ph h prio).dev.pause prio =
      (decide (ph.quanta prio ≠ 0), h.now + (cfg.attr i).quantaTime (ph.quanta prio)) := by
  rcases handlePfcClass_cases cfg i ph prio h with
    ⟨disabled, -⟩ | ⟨-, zero, same⟩ | ⟨-, nonzero, same⟩
  · rw [enabled] at disabled
    cases disabled
  · let resumed := h.update (·.resumedAt prio h.now)
    have after := refillMacQueueFromHold_pause (i := i) (h := resumed.cancelRefillEvent prio) prio prio
    rw [Host.cancelRefillEvent_dev] at after
    have flag : resumed.dev.pause prio = (false, h.now) := by
      simp [resumed, Host.update, QbbNetDevice.resumedAt, QbbNetDevice.pause]
    have ended : resumed.dev.pauseUntil prio = h.now := congrArg Prod.snd flag
    rw [same, zero, (cfg.attr i).quantaTime_zero]
    rcases after with kept | ⟨-, -, refilled⟩
    · exact kept.trans flag
    · exact refilled.trans (by rw [ended]; rfl)
  · rw [same]
    change (Host.cancelRefillEvent _ prio).dev.pause prio = _
    rw [Host.cancelRefillEvent_dev, Host.update, QbbNetDevice.pausedFor, purgeMacQueueForPrio_pause]
    simp [QbbNetDevice.pause, nonzero]

/-- A frame leaves the pauses of other classes alone. -/
theorem handlePfcClass_pause_other (ph : PfcHeader) {handled prio : Fin 8}
    (other : prio = handled → ph.enables handled = false) :
    (handlePfcClass cfg i ph h handled).dev.pause prio = h.dev.pause prio := by
  have different (enabled : ph.enables handled = true) : prio ≠ handled := fun same => by
    simp [other same] at enabled
  rcases handlePfcClass_cases cfg i ph handled h with
    ⟨-, same⟩ | ⟨enabled, -, same⟩ | ⟨enabled, -, same⟩
  · rw [same]
  · rw [same]
    refine ((refillMacQueueFromHold_pause (i := i) handled prio).resolve_right
      fun both => different enabled both.1).trans ?_
    rw [Host.cancelRefillEvent_dev]
    simp [Host.update, QbbNetDevice.resumedAt, QbbNetDevice.pause, different enabled]
  · rw [same]
    change (Host.cancelRefillEvent _ handled).dev.pause prio = _
    rw [Host.cancelRefillEvent_dev, Host.update, QbbNetDevice.pausedFor, purgeMacQueueForPrio_pause]
    simp [QbbNetDevice.pause, different enabled]

theorem foldl_handlePfcClass_pause_other (ph : PfcHeader) (prios : List (Fin 8)) (prio : Fin 8)
    (other : prio ∈ prios → ph.enables prio = false) :
    (prios.foldl (handlePfcClass cfg i ph) h).dev.pause prio = h.dev.pause prio := by
  induction prios generalizing h with
  | nil => rfl
  | cons handled prios ih =>
    rw [List.foldl_cons, ih fun member => other (List.mem_cons_of_mem _ member)]
    exact handlePfcClass_pause_other ph fun same => same ▸ other (same ▸ List.mem_cons_self)

theorem foldl_handlePfcClass_pause (ph : PfcHeader) (prios : List (Fin 8)) (distinct : prios.Nodup)
    (prio : Fin 8) (member : prio ∈ prios) (enabled : ph.enables prio = true) :
    (prios.foldl (handlePfcClass cfg i ph) h).dev.pause prio =
      (decide (ph.quanta prio ≠ 0), h.now + (cfg.attr i).quantaTime (ph.quanta prio)) := by
  induction prios generalizing h with
  | nil => cases member
  | cons handled prios ih =>
    obtain ⟨fresh, distinct⟩ := List.nodup_cons.mp distinct
    rw [List.foldl_cons]
    rcases List.mem_cons.mp member with rfl | later
    · rw [foldl_handlePfcClass_pause_other ph prios prio fun again => absurd again fresh]
      exact handlePfcClass_pause ph prio enabled
    · rw [ih distinct later, handlePfcClass_now]

/-- A frame that carries quanta for a class sets its pause. Otherwise the end of
the pause stays, and the flag is cleared at the end at the earliest. -/
def PauseAfter (quantaTime : UInt16 → Time) (quanta : Option UInt16) (now : Time)
    (before after : Bool × Time) : Prop :=
  match quanta with
  | some quanta => after = (decide (quanta ≠ 0), now + quantaTime quanta)
  | none => after = before ∨ before.2 ≤ now ∧ after = (false, before.2)

theorem handleMacRx_pause (p : Packet) (prio : Fin 8) :
    PauseAfter (cfg.attr i).quantaTime (pfcQuanta prio p) h.now (h.dev.pause prio)
      ((handleMacRx cfg i p h).dev.pause prio) := by
  cases control : isPfcFrame p with
  | false =>
    have unread : pfcQuanta prio p = none := by simp [pfcQuanta, control]
    rw [handleMacRx_of_data cfg i h control, unread]
    exact Or.inl (congrFun (pause_of_sending (handleDataFrame_sending p)) prio)
  | true =>
    rw [handleMacRx_of_control cfg i h control, handlePfcFrame]
    cases header : pfcHeader p with
    | none =>
      have unread : pfcQuanta prio p = none := by simp [pfcQuanta, control, header]
      rw [unread]
      exact Or.inl rfl
    | some ph =>
      dsimp only
      rw [wakeTxEvent_pause]
      cases enabled : ph.enables prio with
      | true =>
        have read : pfcQuanta prio p = some (ph.quanta prio) := by
          simp [pfcQuanta, control, header, enabled]
        rw [read]
        exact foldl_handlePfcClass_pause ph classes classes_nodup prio
          (mem_classes prio) enabled
      | false =>
        have unread : pfcQuanta prio p = none := by simp [pfcQuanta, control, header, enabled]
        rw [unread]
        exact Or.inl (foldl_handlePfcClass_pause_other ph classes prio fun _ => enabled)

theorem duty_pause (duty : Duty) (prio : Fin 8) :
    PauseAfter (cfg.attr i).quantaTime (duty.pfcQuanta prio) h.now (h.dev.pause prio)
      ((duty.run cfg i h).dev.pause prio) := by
  cases duty with
  | tryDequeue => exact Or.inl (congrFun tryDequeue_pause prio)
  | transmitComplete => exact Or.inl rfl
  | resumeFromPause resumed => exact resumeFromPause_pause resumed prio
  | refillMacQueueFromHold refilled =>
    exact (refillMacQueueFromHold_pause refilled prio).imp_right And.right
  | handleMacRx p => exact handleMacRx_pause p prio
  | drainPop drained => exact Or.inl (congrFun (pause_of_sending (drainPop_sending drained)) prio)

/- What handlers start -/

theorem Edit.phyTxBegin {before after : Simulator (Event ι) × PointToPointNetDevice}
    (edit : Edit cfg i before after) :
    ∃ new, after.2.phyTxBegin = before.2.phyTxBegin ++ new ∧
      ∀ start ∈ new, start.1 = before.1.currentTs := by
  cases edit with
  | schedule | cancel | requeue | note => exact ⟨[], by simp, by simp⟩
  | @send sim base p protocol =>
    rcases PointToPointNetDevice.send_cases cfg i p protocol sim base with
      ⟨-, sent⟩ | ⟨-, -, sent⟩ | ⟨-, _, -, ⟨-, sent⟩ | ⟨-, first, _, -, sent⟩⟩
    · exact ⟨[], by simp [sent], by simp⟩
    · exact ⟨[], by simp [sent], by simp⟩
    · exact ⟨[], by simp [sent], by simp⟩
    · exact ⟨[(sim.currentTs, first)], by simp [sent, PointToPointNetDevice.transmitStart], by simp⟩

theorem Edits.phyTxBegin {before after : Simulator (Event ι) × PointToPointNetDevice}
    (edits : Edits cfg i before after) :
    ∃ new, after.2.phyTxBegin = before.2.phyTxBegin ++ new ∧
      ∀ start ∈ new, start.1 = before.1.currentTs := by
  induction edits with
  | refl => exact ⟨[], by simp, by simp⟩
  | tail so_far edit ih =>
    obtain ⟨new, begun, times⟩ := ih
    obtain ⟨more, begun', times'⟩ := edit.phyTxBegin
    refine ⟨new ++ more, by rw [begun', begun, List.append_assoc], fun start member => ?_⟩
    rcases List.mem_append.mp member with old | last
    · exact times start old
    · exact (times' start last).trans (Edits.currentTs so_far)

/-- The frames that a handler starts, with the time, are of classes that are not pausing. -/
def StartsUnpaused (d e : QbbNetDevice) (now : Time) : Prop :=
  ∃ new, e.phyTxBegin = d.phyTxBegin ++ new ∧ ∀ start ∈ new, start.1 = now ∧
    ∀ prio, frameClass start.2 = some prio → d.pausing now prio = false

theorem StartsUnpaused.of_eq {d e : QbbNetDevice} {now : Time}
    (same : e.phyTxBegin = d.phyTxBegin) : StartsUnpaused d e now :=
  ⟨[], by simp [same], by simp⟩

theorem StartsUnpaused.of_steps {after : Host ι}
    (lawful : Lawful frameClass (h.dev.sender h.now))
    (begun : ∃ new, after.dev.phyTxBegin = h.dev.phyTxBegin ++ new ∧ ∀ start ∈ new, start.1 = h.now)
    (steps : Steps frameClass (fun move _ => move.KeepsPauses) (h.dev.sender h.now)
      (after.dev.sender h.now)) : StartsUnpaused h.dev after.dev h.now := by
  obtain ⟨new, begun, times⟩ := begun
  obtain ⟨frames, started, running⟩ := steps.started lawful fun _ _ keeps => keeps
  have same : new.map (·.2) = frames := by
    have both : h.dev.phyTxBegin.map (·.2) ++ new.map (·.2) = h.dev.phyTxBegin.map (·.2) ++ frames := by
      rw [← List.map_append, ← begun]
      exact started
    exact List.append_cancel_left both
  exact ⟨new, begun, fun start member => ⟨times start member,
    running start.2 (same ▸ List.mem_map_of_mem member)⟩⟩

theorem handleMacRx_starts (p : Packet) (lawful : Lawful frameClass (h.dev.sender h.now)) :
    StartsUnpaused h.dev (handleMacRx cfg i p h).dev h.now := by
  cases control : isPfcFrame p with
  | false =>
    let traced := h.update fun d => { d with macRx := d.macRx ++ [(h.now, p)] }
    rw [handleMacRx_of_data cfg i h control]
    exact .of_steps lawful (Edits.handleDataFrame (h := traced) .refl p).phyTxBegin
      (Tracked.handleDataFrame (h := traced) ⟨rfl, .refl⟩ (fun _ _ _ => trivial) p).2
  | true => exact .of_eq (handleMacRx_control cfg i h control).phyTxBegin

theorem duty_starts (duty : Duty) (lawful : Lawful frameClass (h.dev.sender h.now)) :
    StartsUnpaused h.dev (duty.run cfg i h).dev h.now := by
  cases duty with
  | tryDequeue =>
    exact .of_steps lawful (Edits.tryDequeue .refl).phyTxBegin
      (tryDequeue_steps cfg i fun _ _ => trivial)
  | transmitComplete =>
    change StartsUnpaused h.dev (transmitComplete cfg i h).dev h.now
    refine .of_steps lawful ?_ (transmitComplete_steps cfg i trivial)
    unfold transmitComplete PointToPointNetDevice.transmitComplete
    dsimp only
    split
    · exact ⟨[], (List.append_nil _).symm, by simp⟩
    · rename_i first _ _
      exact ⟨[(h.now, first)], rfl, by simp⟩
  | resumeFromPause prio => exact .of_eq (resumeFromPause_obeys prio).phyTxBegin
  | refillMacQueueFromHold prio => exact .of_eq (refillMacQueueFromHold_obeys prio).phyTxBegin
  | handleMacRx p => exact handleMacRx_starts p lawful
  | drainPop prio =>
    exact .of_steps lawful (Edits.drainPop .refl prio).phyTxBegin
      (Tracked.drainPop ⟨rfl, .refl⟩ (fun _ _ _ => trivial) prio).2

section Net

variable [DecidableEq ι] [DecidableEq ν] {s t : Net ι ν} {action : Action ι ν}

/-- The quanta that a step reads for a class in a frame that device `i` receives. -/
def Net.readsQuanta (cfg : Config ι ν) (i : ι) (prio : Fin 8) (s : Net ι ν) (action : Action ι ν) :
    Option UInt16 := (s.duty cfg i action).bind (Duty.pfcQuanta prio)

theorem step_pause (step : s.step cfg action = some t) (i : ι) (prio : Fin 8) :
    PauseAfter (cfg.attr i).quantaTime (s.readsQuanta cfg i prio action) t.sim.currentTs
      ((s.dev i).pause prio) ((t.dev i).pause prio) := by
  have asides : ∀ {d e : QbbNetDevice}, Asides i t.sim.currentTs d e → e.pause = d.pause := by
    intro d e asides
    induction asides with
    | refl => rfl
    | tail _ last ih =>
      cases last with
      | quiet kept => exact kept.pause.trans ih
      | send dg h clock dev => exact (send_pause dg).trans (dev ▸ ih)
  have does := (Net.step_does cfg step i).2.2
  unfold Net.readsQuanta
  cases due : s.duty cfg i action with
  | none =>
    rw [due] at does
    exact Or.inl (congrFun (asides does) prio)
  | some duty =>
    rw [due] at does
    obtain ⟨h, clock, quiet, after⟩ := does
    have paused : PauseAfter _ _ _ _ ((duty.run cfg i h).dev.pause prio) := duty_pause duty prio
    rw [quiet.pause, clock] at paused
    rw [asides after]
    exact paused

/-- A class whose flag is clear has no pause left. -/
theorem pauseUntil_le_of_clear (reachable : Net.Reachable cfg s) (i : ι) (prio : Fin 8)
    (clear : (s.dev i).paused prio = false) : (s.dev i).pauseUntil prio ≤ s.sim.currentTs := by
  obtain ⟨start, actions, initial, run⟩ := reachable
  induction run with
  | nil =>
    obtain ⟨linkUp, stack, rfl⟩ := initial
    exact Nat.zero_le _
  | @snoc actions mid last action before _ step ih =>
    have later := (Net.step_does cfg step i).2.1
    have pause := step_pause step i prio
    have clear_after : ((last.dev i).pause prio).1 = false := clear
    change ((last.dev i).pause prio).2 ≤ _
    unfold PauseAfter at pause
    split at pause
    · rename_i quanta _
      rw [pause] at clear_after ⊢
      have zero : quanta = 0 := by simpa using clear_after
      rw [zero, (cfg.attr i).quantaTime_zero]
      exact Nat.le_refl _
    · rcases pause with same | ⟨lapsed, same⟩
      · rw [same] at clear_after ⊢
        exact Nat.le_trans (ih clear_after) later
      · rw [same]
        exact lapsed

/-- In a reachable state a class pauses exactly until `m_pauseUntil`. -/
theorem pausing_eq (reachable : Net.Reachable cfg s) (i : ι) (prio : Fin 8) :
    (s.dev i).pausing s.sim.currentTs prio = decide (s.sim.currentTs < (s.dev i).pauseUntil prio) := by
  unfold QbbNetDevice.pausing
  cases flag : (s.dev i).paused prio with
  | true => rfl
  | false =>
    have lapsed := pauseUntil_le_of_clear reachable i prio flag
    simp [Nat.not_lt.mpr lapsed]

/-- The frames that a step starts are of classes whose pauses are over. -/
theorem step_starts (reachable : Net.Reachable cfg s) (step : s.step cfg action = some t) (i : ι) :
    ∃ new, (t.dev i).phyTxBegin = (s.dev i).phyTxBegin ++ new ∧ ∀ start ∈ new,
      ∀ prio, frameClass start.2 = some prio → (s.dev i).pauseUntil prio ≤ start.1 := by
  have later := (Net.step_does cfg step i).2.1
  refine Net.step_lift cfg (R := fun d e => ∃ new, e.phyTxBegin = d.phyTxBegin ++ new ∧
    ∀ start ∈ new, ∀ prio, frameClass start.2 = some prio →
      (s.dev i).pauseUntil prio ≤ start.1) step ?_ ?_ ?_ ?_
  · rintro d e f ⟨new, begun, lapsed⟩ ⟨more, begun', lapsed'⟩
    refine ⟨new ++ more, by rw [begun', begun, List.append_assoc], fun start member => ?_⟩
    exact (List.mem_append.mp member).elim (lapsed start) (lapsed' start)
  · intro d e quiet
    exact ⟨[], by simp [quiet.phyTxBegin], by simp⟩
  · intro dg h _
    refine ⟨[], ?_, by simp⟩
    rw [List.append_nil]
    exact (wakeTxEvent_obeys (h := h.update _)).phyTxBegin
  · intro duty h _ clock quiet
    obtain ⟨-, lawful⟩ := lawful_later reachable (clock ▸ later) quiet
    have starts : StartsUnpaused h.dev (duty.run cfg i h).dev h.now := duty_starts duty lawful
    obtain ⟨new, begun, running⟩ := starts
    refine ⟨new, begun, fun start member prio classed => ?_⟩
    obtain ⟨time, unpaused⟩ := running start member
    have lapsed := unpaused prio classed
    simp only [QbbNetDevice.pausing, quiet.sending, Bool.and_eq_false_iff,
      decide_eq_false_iff_not, Nat.not_lt] at lapsed
    rw [time, clock]
    rcases lapsed with clear | lapsed
    · exact Nat.le_trans (pauseUntil_le_of_clear reachable i prio clear) later
    · exact clock ▸ lapsed

/-- No step of the run reads a pause of zero for the class, which would end its pause. -/
def Net.NoXon (cfg : Config ι ν) (i : ι) (prio : Fin 8) (s : Net ι ν) (action : Action ι ν) : Prop :=
  s.readsQuanta cfg i prio action ≠ some 0

def Net.NoPfc (cfg : Config ι ν) (i : ι) (prio : Fin 8) (s : Net ι ν) (action : Action ι ν) : Prop :=
  s.readsQuanta cfg i prio action = none

instance (cfg : Config ι ν) (i : ι) (prio : Fin 8) (s : Net ι ν) (action : Action ι ν) :
    Decidable (s.NoPfc cfg i prio action) := inferInstanceAs (Decidable (_ = _))

theorem run_pauseUntil {u : Net ι ν} {actions : List (Action ι ν)} {i : ι} {prio : Fin 8}
    (run : Net.RunWhere cfg (Net.NoPfc cfg i prio) t actions u) :
    (u.dev i).pauseUntil prio = (t.dev i).pauseUntil prio := by
  induction run with
  | nil => rfl
  | snoc _ silent step ih =>
    have pause := step_pause step i prio
    rw [silent] at pause
    rcases pause with same | ⟨-, same⟩
    · exact (congrArg Prod.snd same).trans ih
    · exact (congrArg Prod.snd same).trans ih

/-- While a class pauses, the MAC queue holds none of its data frames. After a
frame that pauses it, and until one that ends its pause, no data frame of the
class starts before `m_pauseUntil`, which that frame has set unless another one
has set it again. -/
theorem pause_compliance (reachable : Net.Reachable cfg s) (i : ι) (prio : Fin 8) :
    ((s.dev i).pausing s.sim.currentTs prio = true → ∀ p ∈ (s.dev i).queue.packets,
      ¬ (isPfcFrame p = false ∧ getPrioFromPacket p = prio)) ∧
    ∀ t action quanta, s.step cfg action = some t →
      s.readsQuanta cfg i prio action = some quanta → quanta ≠ 0 →
      ∀ actions u, Net.RunWhere cfg (Net.NoXon cfg i prio) t actions u →
        (∀ action w, u.step cfg action = some w →
          ∀ start ∈ (w.dev i).phyTxBegin.drop (u.dev i).phyTxBegin.length,
            isPfcFrame start.2 = false → getPrioFromPacket start.2 = prio →
              (u.dev i).pauseUntil prio ≤ start.1) ∧
        (Net.RunWhere cfg (Net.NoPfc cfg i prio) t actions u →
          (u.dev i).pauseUntil prio = t.sim.currentTs + (cfg.attr i).quantaTime quanta) := by
  refine ⟨fun paused p queued data => ?_, fun t action quanta step read nonzero actions u run => ?_⟩
  · have absent := (reachable_lawful reachable i).2.gate prio paused p queued
    exact absent (by simp [frameClass, data.1, data.2])
  have reachable_t : Net.Reachable cfg t := reachable.step cfg step
  have reachable_u : Net.Reachable cfg u := reachable_t.run cfg run
  refine ⟨fun action w step start member data class_eq => ?_, fun silent => ?_⟩
  · obtain ⟨new, begun, lapsed⟩ := step_starts reachable_u step i
    rw [begun, List.drop_left] at member
    exact lapsed start member prio (by simp [frameClass, data, class_eq])
  · have pause := step_pause step i prio
    rw [read] at pause
    rw [run_pauseUntil silent]
    exact congrArg Prod.snd pause

end Net

/-- A pause of one quantum, a packet sent meanwhile, and the end of the pause. -/
def pausedSend : List (Action (Fin 1) Unit) :=
  [sendClass 0 0x00, .event .sink, .event .sink, .event .sink]

theorem pause_compliance_sent :
    ∃ t u w, (Net.started shortQueue).step shortQueue (receivePfc 1) = some t ∧
      t.run shortQueue (Net.NoPfc shortQueue 0 0) pausedSend = some u ∧
      u.step shortQueue (.event .sink) = some w ∧ (w.dev 0).phyTxBegin.length = 1 ∧
      ∀ start ∈ (w.dev 0).phyTxBegin.drop (u.dev 0).phyTxBegin.length,
        isPfcFrame start.2 = false → getPrioFromPacket start.2 = 0 →
          t.sim.currentTs + (shortQueue.attr 0).quantaTime 1 ≤ start.1 := by
  have ran : ((Net.started shortQueue).step shortQueue (receivePfc 1)).any (fun t =>
      (t.run shortQueue (Net.NoPfc shortQueue 0 0) pausedSend).any fun u =>
        (u.step shortQueue (.event .sink)).any fun w =>
          decide ((w.dev 0).phyTxBegin.length = 1)) = true := by decide +kernel
  simp only [Option.any_eq_true, decide_eq_true_eq] at ran
  obtain ⟨t, step, u, ran, w, last, sent⟩ := ran
  have silent := Net.RunWhere.of_run _ ran
  have compliance := (pause_compliance ⟨_, _, Net.started_initial shortQueue, .nil⟩ 0 0).2 t _ 1 step
    (by decide +kernel) (by decide) pausedSend u
    (silent.mono _ fun _ _ none => by rw [Net.NoXon, none]; simp)
  refine ⟨t, u, w, step, ran, last, sent, ?_⟩
  rw [← compliance.2 silent]
  exact compliance.1 _ w last

end QbbNet
