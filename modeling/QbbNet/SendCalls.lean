import QbbNet.DeviceStep

set_option autoImplicit false

/- What Send is called with. -/
namespace QbbNet

variable {ι ν : Type} {cfg : Config ι ν} {i : ι} {h : Host ι}

theorem send_accepted (dg : Datagram) : (send i dg h).dev.accepted = h.dev.accepted ++ [dg] :=
  (wakeTxEvent_obeys (h := h.update _)).accepted

theorem handleMacRx_accepted (p : Packet) : (handleMacRx cfg i p h).dev.accepted = h.dev.accepted := by
  unfold handleMacRx
  dsimp only
  split
  · exact (handlePfcFrame_obeys (h := h.update _) p).accepted
  · rw [handleDataFrame_sending]
    rfl

theorem duty_accepted (duty : Duty) : (duty.run cfg i h).dev.accepted = h.dev.accepted := by
  cases duty with
  | tryDequeue => exact tryDequeue_sends.accepted
  | transmitComplete => rfl
  | resumeFromPause prio => exact (resumeFromPause_obeys prio).accepted
  | refillMacQueueFromHold prio => exact (refillMacQueueFromHold_obeys prio).accepted
  | handleMacRx p => exact handleMacRx_accepted p
  | drainPop prio =>
    change (drainPop cfg i prio h).dev.accepted = h.dev.accepted
    rw [drainPop_sending]

section Net

variable [DecidableEq ι] [DecidableEq ν] {s t : Net ι ν} {action : Action ι ν} {e : ι}

/-- What is sent through device `e` while an event is handled. -/
def Net.eventSent (cfg : Config ι ν) (e : ι) (s : Net ι ν) (up : Upcall ι) : Event ι → List Datagram
  | .doIngressDrain i =>
      if (s.drains cfg i up).isSome && (s.node (cfg.node i)).ipv4 then
        (up.sends.filter (·.1 = e)).map (·.2)
      else []
  | _ => []

def Net.sent (cfg : Config ι ν) (e : ι) (s : Net ι ν) : Action ι ν → List Datagram
  | .event up =>
      match s.sim.processOneEvent with
      | some (some event, sim) => { s with sim }.eventSent cfg e up event
      | _ => []
  | .send i dg => if i = e then [dg] else []
  | _ => []

theorem on_accepted {j : ι} {f : Host ι → Host ι}
    (kept : (f (s.host cfg j)).dev.accepted = (s.dev j).accepted) :
    ((s.on cfg j f).dev e).accepted = (s.dev e).accepted := by
  rcases eq_or_ne e j with rfl | other
  · rw [Net.on_dev_self, kept]
  · rw [Net.on_dev_ne other]

theorem sendAll_accepted (sends : List (ι × Datagram)) :
    ((s.sendAll cfg sends).dev e).accepted =
      (s.dev e).accepted ++ (sends.filter (·.1 = e)).map (·.2) := by
  induction sends generalizing s with
  | nil => exact (List.append_nil _).symm
  | cons call sends ih =>
    obtain ⟨j, dg⟩ := call
    refine (ih (s := s.on cfg j (QbbNet.send j dg))).trans ?_
    rcases eq_or_ne j e with rfl | other
    · rw [Net.on_dev_self, send_accepted, List.append_assoc]
      simp
    · rw [Net.on_dev_ne other.symm]
      simp [other]

theorem receive_accepted (j : ι) (p : Packet) (corrupt : Bool) :
    ((s.receive cfg j p corrupt).dev e).accepted = (s.dev e).accepted := by
  unfold Net.receive
  split
  · exact on_accepted rfl
  · dsimp only
    split
    · exact on_accepted (handleMacRx_accepted p)
    · exact (on_accepted rfl).trans (on_accepted (handleMacRx_accepted p))

theorem doIngressDrain_accepted (j : ι) (up : Upcall ι) :
    ((s.doIngressDrain cfg j up).dev e).accepted =
      (s.dev e).accepted ++ s.eventSent cfg e up (.doIngressDrain j) := by
  have token (p : Packet) (prio : Fin 8) :
      ((s.put cfg j (drainToken cfg j (up.egressPort p) prio (s.host cfg j)).2).dev e).accepted =
        (s.dev e).accepted := by
    rcases eq_or_ne e j with rfl | other
    · rw [Net.put_dev_self, (drainToken_quiet cfg _ prio (s.host cfg e)).sending, Net.host_dev]
    · rw [Net.put_dev_ne other]
  rcases s.doIngressDrain_cases cfg j up with
    ⟨-, none_due, same⟩ | ⟨prio, p, rest, -, -, ⟨-, none_due, same⟩ | ⟨-, drained, same⟩⟩
  · simp [same, Net.eventSent, none_due]
  · simp [same, Net.eventSent, none_due, token]
  · have popped (s : Net ι ν) : ((s.on cfg j (drainPop cfg j prio)).dev e).accepted =
        (s.dev e).accepted := on_accepted (duty_accepted (.drainPop prio))
    have handed (s : Net ι ν) : ((s.handUp cfg j p up).dev e).accepted = (s.dev e).accepted ++
        if (s.node (cfg.node j)).ipv4 then (up.sends.filter (·.1 = e)).map (·.2) else [] := by
      unfold Net.handUp
      split
      · rw [sendAll_accepted, on_accepted rfl]
      · exact (List.append_nil _).symm
    rw [same, on_accepted rfl, handed, popped, token, Net.on_node, Net.put_node]
    simp [Net.eventSent, drained]

theorem handle_accepted (up : Upcall ι) (event : Event ι) :
    ((s.handle cfg up event).dev e).accepted = (s.dev e).accepted ++ s.eventSent cfg e up event := by
  have silent {j : ι} (duty : Duty) : ((s.on cfg j (duty.run cfg j)).dev e).accepted =
      (s.dev e).accepted ++ [] := (on_accepted (duty_accepted duty)).trans (List.append_nil _).symm
  cases event with
  | tryDequeue j => exact silent .tryDequeue
  | doIngressDrain j => exact doIngressDrain_accepted j up
  | resumeFromPause j prio => exact silent (.resumeFromPause prio)
  | refillMacQueueFromHold j prio => exact silent (.refillMacQueueFromHold prio)
  | transmitComplete j => exact silent .transmitComplete
  | receive j p => exact (receive_accepted j p up.corrupt).trans (List.append_nil _).symm
  | hookL3Divert j =>
    exact (on_accepted (f := (·.update Net.hookL3Divert)) rfl).trans (List.append_nil _).symm

theorem step_accepted (step : s.step cfg action = some t) (e : ι) :
    (t.dev e).accepted = (s.dev e).accepted ++ s.sent cfg e action := by
  have nothing : (s.dev e).accepted = (s.dev e).accepted ++ [] := (List.append_nil _).symm
  cases Net.step_to cfg step with
  | event up popped =>
    simp only [Net.sent, popped]
    exact handle_accepted up _
  | skip up popped =>
    simp only [Net.sent, popped]
    exact nothing
  | elapse | installStack | addInterface => exact nothing
  | send j dg =>
    rw [Net.sent]
    split
    · rename_i same
      subst same
      rw [Net.on_dev_self, send_accepted, Net.host_dev]
    · rename_i other
      rw [Net.on_dev_ne (Ne.symm other), List.append_nil]
  | deliver j p corrupt => exact (receive_accepted j p corrupt).trans nothing
  | aggregate j =>
    unfold Net.notifyNewAggregate
    split <;> exact nothing

end Net

end QbbNet
