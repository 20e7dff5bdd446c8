import QbbNet.WakeUpRun
import QbbNet.Receiving

set_option autoImplicit false

/- What handlers and steps do to the token managers of the nodes. -/
namespace QbbNet

variable {ι ν : Type} {cfg : Config ι ν} {i : ι} {h : Host ι}

/- Handlers -/

theorem send_mgr (dg : Datagram) : (send i dg h).mgr = h.mgr :=
  (wakeTxEvent_obeys (h := h.update _)).mgr

theorem signals_mgr (signals : List PfcSignal) : (signals.foldl (sendSignal cfg i) h).mgr = h.mgr := by
  induction signals generalizing h with
  | nil => rfl
  | cons signal signals ih => exact ih

theorem drainPop_mgr (prio : Fin 8) : (drainPop cfg i prio h).mgr = h.mgr := by
  rw [drainPop_eq, signals_mgr]
  rfl

/-- The ports of the node's devices are registered, as the first call of EnsureTokenManager does. -/
def registerPorts (cfg : Config ι ν) (i : ι) (now : Time) (m : EgressTokenManager) :
    EgressTokenManager :=
  (cfg.devices (cfg.node i)).foldl
    (fun m j => m.registerEgressPort now (cfg.ifIndex j) (cfg.attr j).dataRate (cfg.attr i).avgPktSize) m

/-- Ports are registered: every bucket that is there stays, and the others are new. -/
structure Registers (now : Time) (m after : EgressTokenManager) : Prop where
  kept : ∀ port b, m.buckets port = some b → after.buckets port = some b
  fresh : ∀ port b, m.buckets port = none → after.buckets port = some b →
    ∃ pps burst, b = .new pps burst now
  arbiters : after.arbiters = m.arbiters

theorem Registers.trans {now : Time} {m mid after : EgressTokenManager}
    (first : Registers now m mid) (second : Registers now mid after) : Registers now m after where
  kept port b present := second.kept port b (first.kept port b present)
  fresh port b absent present := by
    cases before : mid.buckets port with
    | none => exact second.fresh port b before present
    | some other =>
      have same := second.kept port other before
      rw [present, Option.some.injEq] at same
      exact same ▸ first.fresh port other absent before
  arbiters := second.arbiters.trans first.arbiters

theorem registerEgressPort_registers (m : EgressTokenManager) (now : Time) (port rate avgPktSize : Nat) :
    Registers now m (m.registerEgressPort now port rate avgPktSize) ∧
      (m.registerEgressPort now port rate avgPktSize).buckets port ≠ none := by
  unfold EgressTokenManager.registerEgressPort
  cases before : m.buckets port with
  | some b =>
    refine ⟨⟨fun _ _ => id, fun other b absent present => ?_, rfl⟩, by simp [before]⟩
    rw [absent] at present
    cases present
  | none =>
    refine ⟨⟨fun other b present => ?_, fun other b absent present => ?_, rfl⟩,
      by simp [EgressTokenManager.setBucket]⟩
    · have different : other ≠ port := by
        rintro rfl
        rw [before] at present
        cases present
      simpa [EgressTokenManager.setBucket, different] using present
    · rcases eq_or_ne other port with rfl | different
      · exact ⟨_, _, by simpa [EgressTokenManager.setBucket, eq_comm] using present⟩
      · simp [EgressTokenManager.setBucket, different, absent] at present

theorem registerPorts_registers (cfg : Config ι ν) (i : ι) (now : Time) (m : EgressTokenManager) :
    Registers now m (registerPorts cfg i now m) ∧ ∀ j, cfg.node j = cfg.node i →
      (registerPorts cfg i now m).buckets (cfg.ifIndex j) ≠ none := by
  have folded (devices : List ι) (m : EgressTokenManager) :
      Registers now m (devices.foldl (fun m j => m.registerEgressPort now (cfg.ifIndex j)
          (cfg.attr j).dataRate (cfg.attr i).avgPktSize) m) ∧
        ∀ j ∈ devices, (devices.foldl (fun m j => m.registerEgressPort now (cfg.ifIndex j)
          (cfg.attr j).dataRate (cfg.attr i).avgPktSize) m).buckets (cfg.ifIndex j) ≠ none := by
    induction devices generalizing m with
    | nil =>
      refine ⟨⟨fun _ _ => id, fun _ _ absent present => ?_, rfl⟩, fun _ => nofun⟩
      rw [List.foldl_nil, absent] at present
      cases present
    | cons first devices ih =>
      obtain ⟨registers, present⟩ := registerEgressPort_registers m now (cfg.ifIndex first)
        (cfg.attr first).dataRate (cfg.attr i).avgPktSize
      obtain ⟨rest, others⟩ := ih (m.registerEgressPort now (cfg.ifIndex first)
        (cfg.attr first).dataRate (cfg.attr i).avgPktSize)
      refine ⟨registers.trans rest, fun j member => ?_⟩
      rcases List.mem_cons.mp member with rfl | member
      · obtain ⟨b, bucket⟩ := Option.ne_none_iff_exists'.mp present
        rw [List.foldl_cons, rest.kept _ b bucket]
        nofun
      · exact others j member
  exact ⟨(folded _ m).1, fun j own => (folded _ m).2 j ((cfg.mem_devices j _).mpr own)⟩

theorem ensureTokenManager_mgr : (ensureTokenManager cfg i h).mgr =
    if h.dev.tokenMgr then h.mgr else registerPorts cfg i h.now h.mgr := by
  unfold ensureTokenManager
  split <;> rfl

theorem handleMacRx_mgr (p : Packet) : (handleMacRx cfg i p h).mgr =
    if isPfcFrame p || h.dev.tokenMgr then h.mgr else registerPorts cfg i h.now h.mgr := by
  unfold handleMacRx
  dsimp only
  cases control : isPfcFrame p with
  | true =>
    rw [if_pos rfl, (handlePfcFrame_obeys p).mgr]
    rfl
  | false =>
    rw [if_neg (by simp)]
    have counted (h : Host ι) : (onDataRx cfg i (getPrioFromPacket p) (queueIngress cfg i p h)).mgr =
        (ensureTokenManager cfg i h).mgr := by
      rw [onDataRx_eq, signals_mgr]
      rfl
    have same : ∀ h : Host ι, (handleDataFrame cfg i p h).mgr = (ensureTokenManager cfg i h).mgr := by
      intro h
      unfold handleDataFrame
      dsimp only
      split <;> exact counted h
    rw [same, ensureTokenManager_mgr]
    rfl

/-- What is left of a manager when a device has asked for a token. -/
def askedMgr (cfg : Config ι ν) (i : ι) (port : Nat) (prio : Fin 8) (h : Host ι) :
    EgressTokenManager :=
  let asked := h.mgr.ask h.now port (cfg.ifIndex i)
  if asked.1 && decide ((h.dev.ingressQ prio).length = 1) then
    asked.2.unregisterDemand port (cfg.ifIndex i)
  else asked.2

variable (cfg i h) in
theorem drainToken_ask {port : Nat} (valid : port ≠ kInvalidPortId) (prio : Fin 8) :
    (drainToken cfg i port prio h).1 = (h.mgr.ask h.now port (cfg.ifIndex i)).1 ∧
      (drainToken cfg i port prio h).2.mgr = askedMgr cfg i port prio h := by
  unfold drainToken askedMgr
  rw [if_neg valid]
  dsimp only
  change (if (h.mgr.ask h.now port (cfg.ifIndex i)).1 = false then _ else _ : Bool × Host ι).1 = _ ∧
    (if (h.mgr.ask h.now port (cfg.ifIndex i)).1 = false then _ else _ : Bool × Host ι).2.mgr = _
  cases granted : (h.mgr.ask h.now port (cfg.ifIndex i)).1 with
  | false => exact ⟨rfl, rfl⟩
  | true =>
    simp only [Bool.true_eq_false, ↓reduceIte, Bool.true_and, decide_eq_true_eq]
    split <;> exact ⟨rfl, rfl⟩

section Asked

variable {port : Nat} (prio : Fin 8)

theorem askedMgr_buckets : (askedMgr cfg i port prio h).buckets =
    (h.mgr.ask h.now port (cfg.ifIndex i)).2.buckets := by
  rw [askedMgr]
  split <;> rfl

theorem askedMgr_others {other : Nat} (different : other ≠ port) :
    (askedMgr cfg i port prio h).arbiters other = h.mgr.arbiters other := by
  have asked := (EgressTokenManager.ask_others h.mgr h.now (cfg.ifIndex i) different).2
  rw [askedMgr]
  split
  · exact (Function.update_of_ne different ..).trans asked
  · exact asked

theorem askedMgr_refused (refused : (h.mgr.ask h.now port (cfg.ifIndex i)).1 = false) :
    askedMgr cfg i port prio h = (h.mgr.ask h.now port (cfg.ifIndex i)).2 := by
  simp [askedMgr, refused]

end Asked

section Net

variable [DecidableEq ι] [DecidableEq ν] {s t : Net ι ν} {action : Action ι ν} {v : ν}

/- Steps -/

/-- The device that asks for a token while an event is handled, and the port it asks for. -/
def Net.eventPoll (s : Net ι ν) (up : Upcall ι) : Event ι → Option (ι × Nat)
  | .doIngressDrain i =>
      ((ingressPick (s.dev i)).bind fun prio => ((s.dev i).ingressQ prio).head?).map fun p =>
        (i, up.egressPort p)
  | _ => none

def Net.poll (s : Net ι ν) : Action ι ν → Option (ι × Nat)
  | .event up =>
      match s.sim.processOneEvent with
      | some (some event, _) => s.eventPoll up event
      | _ => none
  | _ => none

/-- What becomes of a node's token manager in a step that asks for `poll` and has
each device do what is `due`: a device of the node asks for a token, or registers
the ports, or nothing happens. -/
inductive Managed (cfg : Config ι ν) (v : ν) (now : Time) (dev : ι → QbbNetDevice)
    (poll : Option (ι × Nat)) (due : ι → Option Duty) (m after : EgressTokenManager) : Prop
  | asked (i : ι) (port : Nat) (asks : poll = some (i, port)) (own : cfg.node i = v)
      (valid : port ≠ kInvalidPortId) (unread : ∀ j p, due j ≠ some (.handleMacRx p))
      (granted : (due i).isSome = (m.ask now port (cfg.ifIndex i)).1)
      (buckets : after.buckets = (m.ask now port (cfg.ifIndex i)).2.buckets)
      (others : ∀ other ≠ port, after.arbiters other = m.arbiters other)
      (refused : due i = none → after.arbiters = (m.ask now port (cfg.ifIndex i)).2.arbiters)
  | ensured (i : ι) (p : Packet) (unasked : poll = none) (own : cfg.node i = v)
      (received : due i = some (.handleMacRx p)) (data : isPfcFrame p = false)
      (registers : after = registerPorts cfg i now m)
  | idle (unasked : ∀ i port, poll = some (i, port) → cfg.node i = v → port = kInvalidPortId)
      (ensured : ∀ i p, cfg.node i = v → due i = some (.handleMacRx p) → isPfcFrame p = false →
        (dev i).tokenMgr = true)
      (same : after = m)

theorem on_mgr (j : ι) (f : Host ι → Host ι) :
    (s.on cfg j f).mgr v = if cfg.node j = v then (f (s.host cfg j)).mgr else s.mgr v := by
  split
  · rename_i own
    subst own
    exact Function.update_self ..
  · rename_i other
    exact Function.update_of_ne (fun same => other same.symm) ..

theorem on_mgr_same {j : ι} {f : Host ι → Host ι}
    (kept : (f (s.host cfg j)).mgr = s.mgr (cfg.node j)) : (s.on cfg j f).mgr = s.mgr := by
  rw [Net.on, Net.put, kept]
  exact Function.update_eq_self ..

theorem sendAll_mgr (sends : List (ι × Datagram)) : (s.sendAll cfg sends).mgr = s.mgr := by
  induction sends generalizing s with
  | nil => rfl
  | cons call sends ih =>
    exact (ih (s := s.on cfg call.1 _)).trans (on_mgr_same (send_mgr call.2))

theorem handUp_mgr (p : Packet) (up : Upcall ι) : (s.handUp cfg i p up).mgr = s.mgr := by
  unfold Net.handUp
  split
  · rw [sendAll_mgr]
    exact on_mgr_same rfl
  · rfl

theorem receive_managed (j : ι) (p : Packet) (corrupt : Bool) :
    Managed cfg v s.sim.currentTs s.dev none
      (fun i => if j = i ∧ corrupt = false then some (.handleMacRx p) else none) (s.mgr v)
      ((s.receive cfg j p corrupt).mgr v) := by
  have received : (s.receive cfg j p corrupt).mgr v =
      if corrupt then s.mgr v else (s.on cfg j (handleMacRx cfg j p)).mgr v := by
    unfold Net.receive
    split
    · rw [on_mgr_same rfl]
    · dsimp only
      split
      · rfl
      · rw [on_mgr_same rfl]
  rw [received]
  cases corrupt with
  | true => exact .idle (by simp) (fun _ _ _ due => by simp at due) rfl
  | false =>
    simp only [Bool.false_eq_true, ↓reduceIte, and_true, on_mgr, handleMacRx_mgr]
    split
    · rename_i own
      split
      · rename_i ensured
        refine .idle (by simp) (fun i q _ due data => ?_) (by rw [← own]; rfl)
        split at due
        · rename_i same
          obtain rfl : p = q := by simpa using due
          simpa [data, ← same] using ensured
        · cases due
      · rename_i unready
        refine .ensured j p rfl own (by simp) ?_ (by rw [← own]; rfl)
        exact (Bool.or_eq_false_iff.mp (by simpa using unready)).1
    · rename_i other
      refine .idle (by simp) (fun i q own due => ?_) rfl
      split at due
      · rename_i same
        exact absurd (same ▸ own) other
      · cases due

/-- Of what a drain does, only asking for a token reaches the token manager. -/
theorem doIngressDrain_mgr {j : ι} (up : Upcall ι) {prio : Fin 8} {p : Packet} {rest : List Packet}
    (picked : ingressPick (s.dev j) = some prio) (content : (s.dev j).ingressQ prio = p :: rest) :
    (s.doIngressDrain cfg j up).mgr =
      (s.put cfg j (drainToken cfg j (up.egressPort p) prio (s.host cfg j)).2).mgr := by
  unfold Net.doIngressDrain
  simp only [picked, content]
  split
  · rfl
  · rw [on_mgr_same rfl]
    change (Net.handUp cfg _ j p up).mgr = _
    rw [handUp_mgr, on_mgr_same (drainPop_mgr prio)]

theorem doIngressDrain_managed (j : ι) (up : Upcall ι) :
    Managed cfg v s.sim.currentTs s.dev (s.eventPoll up (.doIngressDrain j))
      (fun i => if j = i then (s.drains cfg i up).map .drainPop else none) (s.mgr v)
      ((s.doIngressDrain cfg j up).mgr v) := by
  have unreceived (i : ι) (p : Packet) :
      (if j = i then (s.drains cfg i up).map Duty.drainPop else none) ≠ some (.handleMacRx p) := by
    split
    · cases s.drains cfg i up <;> simp
    · simp
  -- what is asked of the manager when there is a packet to drain
  have asked {prio : Fin 8} {p : Packet} {rest : List Packet}
      (picked : ingressPick (s.dev j) = some prio) (content : (s.dev j).ingressQ prio = p :: rest)
      (granted : (s.drains cfg j up).isSome =
        (drainToken cfg j (up.egressPort p) prio (s.host cfg j)).1) :
      Managed cfg v s.sim.currentTs s.dev (s.eventPoll up (.doIngressDrain j))
        (fun i => if j = i then (s.drains cfg i up).map .drainPop else none) (s.mgr v)
        ((s.doIngressDrain cfg j up).mgr v) := by
    have asks : s.eventPoll up (.doIngressDrain j) = some (j, up.egressPort p) := by
      simp [Net.eventPoll, picked, content]
    have put : (s.put cfg j (drainToken cfg j (up.egressPort p) prio (s.host cfg j)).2).mgr v =
        if cfg.node j = v then (drainToken cfg j (up.egressPort p) prio (s.host cfg j)).2.mgr
        else s.mgr v :=
      on_mgr j fun _ => (drainToken cfg j (up.egressPort p) prio (s.host cfg j)).2
    rw [doIngressDrain_mgr up picked content, put]
    by_cases own : cfg.node j = v
    · subst own
      rw [if_pos rfl]
      by_cases valid : up.egressPort p = kInvalidPortId
      · refine .idle ?_ (fun i q _ due => absurd due (unreceived i q)) ?_
        · rintro i port poll -
          rw [asks, Option.some.injEq, Prod.mk.injEq] at poll
          exact poll.2 ▸ valid
        · rw [drainToken, if_pos valid]
          rfl
      · obtain ⟨answer, left⟩ := drainToken_ask cfg j (s.host cfg j) valid prio
        rw [left]
        refine .asked j (up.egressPort p) asks rfl valid unreceived ?_ (askedMgr_buckets prio)
          (fun other different => askedMgr_others prio different) fun none_due => ?_
        · rw [if_pos rfl, Option.isSome_map, granted, answer]
          rfl
        · rw [if_pos rfl, Option.map_eq_none_iff] at none_due
          rw [none_due, Option.isSome_none, answer] at granted
          rw [askedMgr_refused prio granted.symm]
          rfl
    · refine .idle ?_ (fun i q _ due => absurd due (unreceived i q)) (by rw [if_neg own])
      rintro i port poll own'
      rw [asks, Option.some.injEq, Prod.mk.injEq] at poll
      exact absurd (poll.1 ▸ own') own
  rcases s.doIngressDrain_cases cfg j up with
    ⟨picked, -, same⟩ | ⟨prio, p, rest, picked, content, ⟨refused, none_due, -⟩ | ⟨granted, due, -⟩⟩
  · refine .idle ?_ (fun i q _ due => absurd due (unreceived i q)) (by rw [same])
    simp [Net.eventPoll, picked]
  · exact asked picked content (by rw [none_due, refused]; rfl)
  · exact asked picked content (by rw [due, granted]; rfl)

theorem handle_managed (up : Upcall ι) (event : Event ι) :
    Managed cfg v s.sim.currentTs s.dev (s.eventPoll up event)
      (fun i => s.eventDuty cfg i up event) (s.mgr v) ((s.handle cfg up event).mgr v) := by
  have other {j : ι} (duty : Duty) (unread : duty.received = none)
      (kept : (duty.run cfg j (s.host cfg j)).mgr = s.mgr (cfg.node j)) :
      Managed cfg v s.sim.currentTs s.dev none (fun i => if j = i then some duty else none) (s.mgr v)
        ((s.on cfg j (duty.run cfg j)).mgr v) := by
    refine .idle (fun _ _ => nofun) (fun i p _ due => ?_) (by rw [on_mgr_same kept])
    split at due
    · rw [Option.some.inj due] at unread
      cases unread
    · cases due
  cases event with
  | tryDequeue j => exact other .tryDequeue rfl tryDequeue_sends.mgr
  | doIngressDrain j => exact doIngressDrain_managed j up
  | resumeFromPause j prio =>
    exact other (.resumeFromPause prio) rfl (resumeFromPause_obeys prio).mgr
  | refillMacQueueFromHold j prio =>
    exact other (.refillMacQueueFromHold prio) rfl (refillMacQueueFromHold_obeys prio).mgr
  | transmitComplete j => exact other .transmitComplete rfl rfl
  | receive j p => exact receive_managed j p up.corrupt
  | hookL3Divert j =>
    refine .idle (fun _ _ => nofun) (fun _ _ _ => nofun) ?_
    change (s.on cfg j (·.update Net.hookL3Divert)).mgr v = _
    rw [on_mgr_same rfl]

/-- What a step makes of the token manager of a node. -/
theorem step_managed (step : s.step cfg action = some t) (v : ν) :
    Managed cfg v t.sim.currentTs s.dev (s.poll action) (fun i => s.duty cfg i action) (s.mgr v)
      (t.mgr v) := by
  have idle {after : EgressTokenManager} (same : after = s.mgr v) :
      Managed cfg v t.sim.currentTs s.dev none (fun _ => none) (s.mgr v) after :=
    .idle (fun _ _ => nofun) (fun _ _ _ => nofun) same
  cases Net.step_to cfg step with
  | @event up event sim popped =>
    unfold Net.poll Net.duty
    simp only [popped]
    have clock : (Net.handle cfg { s with sim } up event).sim.currentTs = sim.currentTs := by
      obtain ⟨j⟩ : Nonempty ι := by cases event <;> exact ⟨‹ι›⟩
      exact (Net.Moves.handle up event : Net.Moves cfg j _ { s with sim } _).1
    rw [clock]
    exact handle_managed (s := { s with sim }) up event
  | skip up popped =>
    unfold Net.poll Net.duty
    simp only [popped]
    exact idle rfl
  | elapse | installStack | addInterface => exact idle rfl
  | send j dg => exact idle (congrFun (sendAll_mgr [(j, dg)]) v)
  | deliver j p corrupt =>
    have clock : (s.receive cfg j p corrupt).sim.currentTs = s.sim.currentTs :=
      (Net.step_does cfg step j).1
    rw [clock]
    exact receive_managed j p corrupt
  | aggregate j =>
    refine idle ?_
    unfold Net.notifyNewAggregate
    split <;> rfl

/- Runs -/

/-- Buckets hold no more than their capacity, a device with packets to drain has
ensured a token manager, and then every port of its node has a bucket. -/
structure Net.Tokens (cfg : Config ι ν) (s : Net ι ν) : Prop where
  sound : ∀ v port b, (s.mgr v).buckets port = some b → b.Sound s.sim.currentTs
  registered : ∀ i j, (s.dev i).tokenMgr = true → cfg.node j = cfg.node i →
    (s.mgr (cfg.node i)).buckets (cfg.ifIndex j) ≠ none
  queued : ∀ i prio, (s.dev i).ingressQ prio ≠ [] → (s.dev i).tokenMgr = true

/-- Asking for a token keeps every bucket in its place, and all but one as it is. -/
theorem ask_buckets {m : EgressTokenManager} {now : Time} {egress port : Nat} {b : TokenBucket}
    (ingress : Nat) (sound : ∀ b, m.buckets egress = some b → b.Sound now) :
    (m.buckets port = some b → ∃ after, (m.ask now egress ingress).2.buckets port = some after) ∧
    ((m.ask now egress ingress).2.buckets port = some b → b.Sound now ∨ m.buckets port = some b) := by
  cases bucket : m.buckets egress with
  | none =>
    rw [(EgressTokenManager.ask_unregistered now ingress bucket).2]
    exact ⟨fun present => ⟨b, present⟩, Or.inr⟩
  | some old =>
    obtain ⟨after, buckets, asked⟩ := EgressTokenManager.ask_bucket ingress bucket (sound old bucket)
    rw [buckets]
    rcases eq_or_ne port egress with rfl | other
    · simp only [Function.update_self, Option.some.injEq]
      exact ⟨fun _ => ⟨after, rfl⟩, fun same => Or.inl (same ▸ asked.sound)⟩
    · rw [Function.update_of_ne other]
      exact ⟨fun present => ⟨b, present⟩, Or.inr⟩

theorem Net.Tokens.step (tokens : s.Tokens cfg) (step : s.step cfg action = some t) : t.Tokens cfg := by
  have later := Net.step_later cfg step
  have sound (v : ν) (port : Nat) (b : TokenBucket) (present : (s.mgr v).buckets port = some b) :
      b.Sound t.sim.currentTs := (tokens.sound v port b present).mono later
  -- a bucket that is there stays there
  have kept (v : ν) (port : Nat) (present : (s.mgr v).buckets port ≠ none) :
      (t.mgr v).buckets port ≠ none := by
    obtain ⟨b, bucket⟩ := Option.ne_none_iff_exists'.mp present
    cases step_managed step v with
    | asked i egress _ _ _ _ _ buckets =>
      obtain ⟨after, same⟩ := (ask_buckets (cfg.ifIndex i) (sound v egress)).1 bucket
      rw [buckets, same]
      nofun
    | ensured i p _ _ _ _ registers =>
      rw [registers, (registerPorts_registers cfg i _ _).1.kept port b bucket]
      nofun
    | idle _ _ same => rwa [same]
  refine ⟨fun v port b present => ?_, fun i j ensured own => ?_, fun i prio waiting => ?_⟩
  · cases step_managed step v with
    | asked i egress _ _ _ _ _ buckets =>
      rw [buckets] at present
      exact ((ask_buckets (cfg.ifIndex i) (sound v egress)).2 present).elim id (sound v port b)
    | ensured i p _ _ _ _ registers =>
      rw [registers] at present
      cases before : (s.mgr v).buckets port with
      | none =>
        obtain ⟨pps, burst, rfl⟩ := (registerPorts_registers cfg i _ _).1.fresh port b before present
        exact .new
      | some old =>
        rw [(registerPorts_registers cfg i _ _).1.kept port old before, Option.some.injEq] at present
        exact present ▸ sound v port old before
    | idle _ _ same => exact sound v port b (same ▸ present)
  · rw [(Net.step_received step i).2.2, Bool.or_eq_true] at ensured
    rcases ensured with before | received
    · exact kept _ _ (tokens.registered i j before own)
    obtain ⟨p, read, data⟩ := (Option.any_eq_true ..).mp received
    have due : s.duty cfg i action = some (.handleMacRx p) := by
      obtain ⟨duty, due, read⟩ := Option.bind_eq_some_iff.mp read
      rw [due, Duty.received_eq_some.mp read]
    cases step_managed step (cfg.node i) with
    | asked _ _ _ _ _ unread => exact absurd due (unread i p)
    | ensured k q _ own' _ _ registers =>
      rw [registers]
      exact (registerPorts_registers cfg k _ _).2 j (own.trans own'.symm)
    | idle _ ensured same =>
      rw [same]
      exact tokens.registered i j (ensured i p rfl due (by simpa using data)) own
  · obtain ⟨-, ingressQ, tokenMgr⟩ := Net.step_received step i
    rw [tokenMgr, Bool.or_eq_true]
    have before (old : (s.dev i).ingressQ prio ≠ []) : (s.dev i).tokenMgr = true :=
      tokens.queued i prio old
    cases due : s.duty cfg i action with
    | none =>
      rw [due, Option.elim_none] at ingressQ
      exact Or.inl (before (by rwa [← ingressQ]))
    | some duty =>
      rw [due, Option.elim_some] at ingressQ
      rw [ingressQ] at waiting
      cases duty with
      | handleMacRx p =>
        cases control : isPfcFrame p with
        | true => exact Or.inl (before (by simpa [Duty.queues, control] using waiting))
        | false => exact Or.inr (by simp [Duty.received, control])
      | drainPop drained =>
        refine Or.inl (before fun empty => waiting ?_)
        rcases eq_or_ne prio drained with rfl | other
        · simp [Duty.queues, empty]
        · simp [Duty.queues, other, empty]
      | _ => exact Or.inl (before waiting)

theorem Net.reachable_tokens (reachable : Net.Reachable cfg s) : s.Tokens cfg := by
  obtain ⟨start, actions, initial, run⟩ := reachable
  induction run with
  | nil =>
    obtain ⟨linkUp, stack, rfl⟩ := initial
    exact ⟨fun _ _ _ => nofun, fun _ _ => nofun, fun _ _ waiting => absurd rfl waiting⟩
  | snoc _ _ step ih => exact ih.step step

end Net

end QbbNet
