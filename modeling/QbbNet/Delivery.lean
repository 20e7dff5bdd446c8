import QbbNet.Receiving
import QbbNet.Topology
import QbbNet.WakeUpRun

set_option autoImplicit false

/- What a device hands to IPv4, by the ingress drain and by the receive callback. -/
namespace QbbNet

variable {ι ν : Type} {cfg : Config ι ν} {i : ι}

def Packet.isIpv4 (p : Packet) : Bool := p.peekPpp = some 0x0021

/-- What Ipv4L3Protocol::Receive is called with for a frame that is drained. -/
def Packet.handedUp (p : Packet) : Packet := if p.isIpv4 then p.removePpp else p

/-- All packets that wait for the ingress drain. -/
def ReceivingSide.waiting (r : ReceivingSide) : List Packet := classes.flatMap r.ingressQ

/-- The datagrams of the frames that have one, with the PPP header removed. -/
def datagrams (frames : List Packet) : List Packet :=
  (frames.filter Packet.isIpv4).map Packet.removePpp

theorem datagrams_append (first second : List Packet) :
    datagrams (first ++ second) = datagrams first ++ datagrams second := by
  rw [datagrams, List.filter_append, List.map_append, datagrams, datagrams]

theorem datagrams_perm {first second : List Packet} (perm : first.Perm second) :
    (datagrams first).Perm (datagrams second) := (perm.filter _).map _

theorem flatMap_update_perm (queues : Fin 8 → List Packet) (prio : Fin 8) (packets : List Packet) :
    (classes.flatMap (Function.update queues prio packets)).Perm
      (packets ++ (classes.erase prio).flatMap queues) := by
  have first := (List.perm_cons_erase (mem_classes prio)).flatMap_right
    (Function.update queues prio packets)
  have others : (classes.erase prio).flatMap (Function.update queues prio packets) =
      (classes.erase prio).flatMap queues := List.flatMap_congr fun other member =>
    Function.update_of_ne (classes_nodup.mem_erase_iff.mp member).1 ..
  rwa [List.flatMap_cons, Function.update_self, others] at first

theorem flatMap_classes_perm (queues : Fin 8 → List Packet) (prio : Fin 8) :
    (classes.flatMap queues).Perm (queues prio ++ (classes.erase prio).flatMap queues) := by
  have same := flatMap_update_perm queues prio (queues prio)
  rwa [Function.update_eq_self] at same

theorem drained_waiting {queues : Fin 8 → List Packet} {prio : Fin 8} {p : Packet}
    {rest : List Packet} (content : queues prio = p :: rest) :
    (classes.flatMap queues).Perm
      ([p] ++ classes.flatMap ((Duty.drainPop prio).queues queues)) := by
  have whole := flatMap_classes_perm queues prio
  rw [content] at whole
  refine whole.trans (.cons p ?_)
  have left := flatMap_update_perm queues prio (queues prio).tail
  rw [content] at left
  rw [Duty.queues, content]
  exact left.symm

/-- A frame that is received waits for the ingress drain if it is a datagram. -/
theorem received_waiting (p : Packet) (queues : Fin 8 → List Packet) :
    (datagrams (classes.flatMap ((Duty.handleMacRx p).queues queues))).Perm
      (datagrams (classes.flatMap queues) ++ datagrams [p]) := by
  cases control : isPfcFrame p with
  | true =>
    have foreign : datagrams [p] = [] := by
      have ppp : p.peekPpp = some pfcPppProto := by simpa [isPfcFrame] using control
      simp [datagrams, Packet.isIpv4, ppp, show pfcPppProto ≠ 0x0021 by decide]
    rw [foreign, List.append_nil, Duty.queues, if_pos control]
  | false =>
    rw [← datagrams_append, Duty.queues, if_neg (by simp [control])]
    refine datagrams_perm ((flatMap_update_perm _ _ _).trans ?_)
    refine .trans ?_ ((flatMap_classes_perm queues (getPrioFromPacket p)).symm.append_right [p])
    rw [List.append_assoc, List.append_assoc]
    exact List.perm_append_comm.append_left _

/- The handlers of a node -/

/-- An entry for one protocol, which is not the traffic control layer's way round it. -/
def ProtocolHandlerEntry.ForIpv4 (entry : ProtocolHandlerEntry ι) : Prop :=
  entry.handler = .ipv4L3Protocol → entry.protocol = 0x0800

/-- IPv4 is registered for its own EtherType only. -/
structure NodeState.Registered (n : NodeState ι) : Prop where
  handlers : ∀ entry ∈ n.handlers, entry.handler ≠ .ipv4L3Protocol
  tcHandlers : ∀ entry ∈ n.tcHandlers, entry.ForIpv4

section Net

variable [DecidableEq ι] [DecidableEq ν] {s t : Net ι ν} {action : Action ι ν}

omit [DecidableEq ι] in
theorem NodeState.Registered.addInterface {n : NodeState ι} (registered : n.Registered) (i : ι) :
    (n.addInterface i).Registered where
  handlers := by
    simp only [NodeState.addInterface, List.mem_append, List.mem_cons, List.not_mem_nil, or_false]
    rintro entry (old | rfl | rfl)
    · exact registered.handlers entry old
    · nofun
    · nofun
  tcHandlers := by
    simp only [NodeState.addInterface, List.mem_append, List.mem_cons, List.not_mem_nil, or_false]
    rintro entry (old | rfl | rfl)
    · exact registered.tcHandlers entry old
    · exact fun _ => rfl
    · nofun

omit [DecidableEq ν] in
/-- A frame of another protocol is never for IPv4. -/
theorem NodeState.Registered.receiveFromDevice {n : NodeState ι} (registered : n.Registered)
    {protocol : UInt16} (called : .ipv4L3Protocol ∈ n.receiveFromDevice i protocol) :
    protocol = 0x0800 := by
  simp only [NodeState.receiveFromDevice, List.mem_flatMap, List.mem_filter] at called
  obtain ⟨entry, ⟨member, -⟩, called⟩ := called
  split at called
  · obtain ⟨inner, accepted, same⟩ := List.mem_map.mp called
    obtain ⟨member, accepted⟩ := List.mem_filter.mp accepted
    have own := registered.tcHandlers inner member same
    simp only [ProtocolHandlerEntry.accepts, own, Bool.and_eq_true, Bool.or_eq_true,
      decide_eq_true_eq] at accepted
    exact (accepted.2.resolve_left (by decide)).symm
  · exact absurd (List.mem_singleton.mp called).symm (registered.handlers entry member)

theorem pppToEther_ipv4 {protocol : UInt16} (same : pppToEther protocol = 0x0800) :
    protocol = 0x0021 := by
  unfold pppToEther at same
  split at same
  · assumption
  · split at same
    · cases same
    · split at same <;> cases same

/-- What a handler of device `i` hands to IPv4. -/
def Net.hands (cfg : Config ι ν) (i : ι) (s : Net ι ν) : Option Duty → List (L3Path × Packet)
  | some (.handleMacRx p) =>
      match (s.dev i).rxCallback with
      | .l3Swallow => []
      | .nonPromiscReceiveFromDevice =>
          (((s.node (cfg.node i)).receiveFromDevice i (pppToEther (p.peekPpp.getD 0))).filter
            (· = .ipv4L3Protocol)).map fun _ => (.rxCallback, p.removePpp)
  | some (.drainPop prio) =>
      if (s.node (cfg.node i)).ipv4 then
        ((s.dev i).ingressQ prio).head?.toList.map fun p => (.doIngressDrain, p.handedUp)
      else []
  | _ => []

theorem sendAll_ipv4Rx (sends : List (ι × Datagram)) :
    ((s.sendAll cfg sends).dev i).ipv4Rx = (s.dev i).ipv4Rx := by
  induction sends generalizing s with
  | nil => rfl
  | cons call sends ih =>
    refine (ih (s := s.on cfg call.1 (QbbNet.send call.1 call.2))).trans ?_
    rcases eq_or_ne i call.1 with rfl | other
    · rw [Net.on_dev_self, send_receiving, Net.host_dev]
    · rw [Net.on_dev_ne other]

theorem receive_ipv4Rx (j : ι) (p : Packet) (corrupt : Bool) :
    ((s.receive cfg j p corrupt).dev i).ipv4Rx = (s.dev i).ipv4Rx ++
      s.hands cfg i (if j = i ∧ corrupt = false then some (.handleMacRx p) else none) := by
  unfold Net.receive
  rcases eq_or_ne i j with rfl | other
  · cases corrupt with
    | true => simp [Net.on_dev_self, Net.hands, Host.update]
    | false =>
      have same : (handleMacRx cfg i p (s.host cfg i)).dev.ipv4Rx = (s.dev i).ipv4Rx :=
        (duty_receives cfg i (s.host cfg i) (.handleMacRx p)).ipv4Rx
      simp only [Bool.false_eq_true, ↓reduceIte, and_self, Net.on_dev_self, Net.hands,
        handleMacRx_rxCallback, Net.host_dev]
      cases (s.dev i).rxCallback with
      | l3Swallow =>
        rw [Net.on_dev_self, same]
        exact (List.append_nil _).symm
      | nonPromiscReceiveFromDevice =>
        simp only [Net.on_dev_self, Host.update, Net.host_dev, same, Net.on_node]
  · have idle : (if j = i ∧ corrupt = false then some (Duty.handleMacRx p) else none) = none :=
      if_neg fun both => other both.1.symm
    have unchanged : s.hands cfg i none = [] := rfl
    rw [idle, unchanged, List.append_nil]
    split
    · rw [Net.on_dev_ne other]
    · dsimp only
      split
      · rw [Net.on_dev_ne other]
      · rw [Net.on_dev_ne other, Net.on_dev_ne other]

omit [DecidableEq ι] [DecidableEq ν] in
theorem drainToken_ipv4Rx {h : Host ι} (egressPort : Nat) (prio : Fin 8) :
    (drainToken cfg i egressPort prio h).2.dev.ipv4Rx = h.dev.ipv4Rx := by
  unfold drainToken
  split
  · rfl
  · dsimp only
    split
    · rfl
    · split <;> rfl

theorem handUp_ipv4Rx (p : Packet) (up : Upcall ι) :
    ((s.handUp cfg i p up).dev i).ipv4Rx = (s.dev i).ipv4Rx ++
      if (s.node (cfg.node i)).ipv4 then [(.doIngressDrain, p.handedUp)] else [] := by
  unfold Net.handUp
  split
  · rw [sendAll_ipv4Rx, Net.on_dev_self]
    simp [Host.update, Packet.handedUp, Packet.isIpv4]
  · exact (List.append_nil _).symm

theorem doIngressDrain_ipv4Rx (j : ι) (up : Upcall ι) :
    ((s.doIngressDrain cfg j up).dev i).ipv4Rx = (s.dev i).ipv4Rx ++
      s.hands cfg i (if j = i then (s.drains cfg i up).map .drainPop else none) := by
  have undrained (none_due : s.drains cfg j up = none) :
      s.hands cfg i (if j = i then (s.drains cfg i up).map .drainPop else none) = [] := by
    split
    · rename_i own
      rw [← own, none_due]
      rfl
    · rfl
  have token (p : Packet) (prio : Fin 8) :
      ((s.put cfg j (drainToken cfg j (up.egressPort p) prio (s.host cfg j)).2).dev i).ipv4Rx =
        (s.dev i).ipv4Rx := by
    rcases eq_or_ne i j with rfl | other
    · rw [Net.put_dev_self, drainToken_ipv4Rx, Net.host_dev]
    · rw [Net.put_dev_ne other]
  rcases s.doIngressDrain_cases cfg j up with ⟨-, none_due, same⟩ | ⟨prio, p, rest, -, content, asked⟩
  · rw [undrained none_due, same, List.append_nil]
  rcases asked with ⟨-, none_due, same⟩ | ⟨-, drained, same⟩
  · rw [undrained none_due, same, List.append_nil, token]
  rw [same]
  rcases eq_or_ne i j with rfl | other
  · have popped (s : Net ι ν) : ((s.on cfg i (drainPop cfg i prio)).dev i).ipv4Rx =
        (s.dev i).ipv4Rx := by
      rw [Net.on_dev_self]
      exact (duty_receives cfg i (s.host cfg i) (.drainPop prio)).ipv4Rx
    have armed (s : Net ι ν) :
        ((s.on cfg i (·.scheduleIngressDrainEv i 0)).dev i).ipv4Rx = (s.dev i).ipv4Rx := by
      rw [Net.on_dev_self]
      rfl
    rw [armed, handUp_ipv4Rx, popped, token, if_pos rfl, drained, Net.on_node, Net.put_node]
    simp [Net.hands, content]
  · have unchanged : s.hands cfg i none = [] := rfl
    rw [Net.on_dev_ne other, if_neg other.symm, unchanged, List.append_nil, Net.handUp]
    split
    · rw [sendAll_ipv4Rx, Net.on_dev_ne other, Net.on_dev_ne other, token]
    · rw [Net.on_dev_ne other, token]

theorem handle_ipv4Rx (up : Upcall ι) (event : Event ι) :
    ((s.handle cfg up event).dev i).ipv4Rx =
      (s.dev i).ipv4Rx ++ s.hands cfg i (s.eventDuty cfg i up event) := by
  have silent {j : ι} (duty : Duty) (quiet : s.hands cfg i (some duty) = []) :
      ((s.on cfg j (duty.run cfg j)).dev i).ipv4Rx = (s.dev i).ipv4Rx ++
        s.hands cfg i (if j = i then some duty else none) := by
    have nothing : s.hands cfg i (if j = i then some duty else none) = [] := by
      split
      · exact quiet
      · rfl
    rw [nothing, List.append_nil]
    rcases eq_or_ne i j with rfl | other
    · rw [Net.on_dev_self]
      exact (duty_receives cfg i (s.host cfg i) duty).ipv4Rx
    · rw [Net.on_dev_ne other]
  cases event with
  | tryDequeue j => exact silent .tryDequeue rfl
  | doIngressDrain j => exact doIngressDrain_ipv4Rx j up
  | resumeFromPause j prio => exact silent (.resumeFromPause prio) rfl
  | refillMacQueueFromHold j prio => exact silent (.refillMacQueueFromHold prio) rfl
  | transmitComplete j => exact silent .transmitComplete rfl
  | receive j p => exact receive_ipv4Rx j p up.corrupt
  | hookL3Divert j =>
    refine Eq.trans ?_ (List.append_nil _).symm
    change ((s.on cfg j (·.update Net.hookL3Divert)).dev i).ipv4Rx = _
    rcases eq_or_ne i j with rfl | other
    · rw [Net.on_dev_self]
      rfl
    · rw [Net.on_dev_ne other]

theorem sendAll_node (sends : List (ι × Datagram)) : (s.sendAll cfg sends).node = s.node := by
  induction sends generalizing s with
  | nil => rfl
  | cons call sends ih => exact ih

theorem handle_node (up : Upcall ι) (event : Event ι) : (s.handle cfg up event).node = s.node := by
  cases event with
  | doIngressDrain j =>
    change (s.doIngressDrain cfg j up).node = s.node
    rcases s.doIngressDrain_cases cfg j up with
      ⟨-, -, same⟩ | ⟨prio, p, rest, -, -, ⟨-, -, same⟩ | ⟨-, -, same⟩⟩
    · rw [same]
    · rw [same, Net.put_node]
    · rw [same, Net.on_node, Net.handUp]
      split
      · rw [sendAll_node]
        rfl
      · rfl
  | receive j p =>
    change (s.receive cfg j p up.corrupt).node = s.node
    unfold Net.receive
    split
    · rfl
    · dsimp only
      split <;> rfl
  | _ => rfl

/-- What a step hands to IPv4 through device `i`. -/
theorem step_ipv4Rx (step : s.step cfg action = some t) (i : ι) :
    (t.dev i).ipv4Rx = (s.dev i).ipv4Rx ++ s.hands cfg i (s.duty cfg i action) := by
  have nothing : (s.dev i).ipv4Rx = (s.dev i).ipv4Rx ++ s.hands cfg i none :=
    (List.append_nil _).symm
  cases Net.step_to cfg step with
  | event up popped =>
    simp only [Net.duty, popped]
    exact handle_ipv4Rx up _
  | skip up popped =>
    simp only [Net.duty, popped]
    exact nothing
  | elapse | installStack | addInterface => exact nothing
  | send j dg => exact (sendAll_ipv4Rx [(j, dg)]).trans nothing
  | deliver j p corrupt => exact receive_ipv4Rx j p corrupt
  | aggregate j =>
    unfold Net.notifyNewAggregate
    split <;> exact nothing

theorem step_registered (registered : ∀ v, (s.node v).Registered)
    (step : s.step cfg action = some t) (v : ν) : (t.node v).Registered := by
  have placed {w : ν} {n : NodeState ι} (new : n.Registered) :
      ((s.setNode w n).node v).Registered := by
    rcases eq_or_ne v w with rfl | other
    · simpa [Net.setNode] using new
    · simpa [Net.setNode, other] using registered v
  cases Net.step_to cfg step with
  | event up =>
    rw [handle_node]
    exact registered v
  | skip | elapse | send => exact registered v
  | deliver j p corrupt =>
    have same : (s.receive cfg j p corrupt).node = s.node :=
      handle_node ⟨corrupt, fun _ => 0, []⟩ (.receive j p)
    rw [same]
    exact registered v
  | installStack w => exact placed ⟨(registered w).1, (registered w).2⟩
  | addInterface j => exact placed ((registered _).addInterface j)
  | aggregate j =>
    unfold Net.notifyNewAggregate
    split <;> exact registered v

theorem reachable_registered (reachable : Net.Reachable cfg s) (v : ν) : (s.node v).Registered := by
  obtain ⟨start, actions, initial, run⟩ := reachable
  induction run generalizing v with
  | nil =>
    obtain ⟨linkUp, stack, rfl⟩ := initial
    refine ⟨fun entry member => ?_, fun _ => nofun⟩
    obtain ⟨-, -, rfl⟩ := List.mem_map.mp member
    nofun
  | snoc _ _ step ih => exact step_registered ih step v

/-- The datagrams that a device has received are those it has handed to IPv4 in
its ingress drain and those that wait for that, and IPv4 gets nothing else from it. -/
structure Net.Delivered (i : ι) (s : Net ι ν) : Prop where
  path : ∀ call ∈ (s.dev i).ipv4Rx, call.1 = .doIngressDrain
  once : (datagrams ((s.dev i).macRx.map (·.2))).Perm
    ((s.dev i).ipv4Rx.map (·.2) ++ datagrams (s.dev i).waiting)

def Net.HandsOnce (cfg : Config ι ν) (i : ι) (s : Net ι ν) : Option Duty → Prop
  | some (.handleMacRx p) => p.isIpv4 = true → (s.dev i).rxCallback = .l3Swallow ∨
      .ipv4L3Protocol ∉ (s.node (cfg.node i)).receiveFromDevice i 0x0800
  | some (.drainPop prio) =>
      ∀ p ∈ ((s.dev i).ingressQ prio).head?, (s.node (cfg.node i)).ipv4 = p.isIpv4
  | _ => True

/-- A datagram arrives only when the receive callback calls no IPv4 handler for
it, and a packet is drained into IPv4 exactly if it is a datagram. -/
def Net.DeliversOnce (cfg : Config ι ν) (i : ι) (s : Net ι ν) (action : Action ι ν) : Prop :=
  s.HandsOnce cfg i (s.duty cfg i action)

instance (cfg : Config ι ν) (i : ι) (s : Net ι ν) : ∀ due, Decidable (s.HandsOnce cfg i due)
  | some (.handleMacRx p) => inferInstanceAs (Decidable (p.isIpv4 = true → _ ∨ _ ∉ _))
  | some (.drainPop prio) => inferInstanceAs (Decidable (∀ p ∈ ((s.dev i).ingressQ prio).head?, _ = _))
  | some .tryDequeue | some .transmitComplete | some (.resumeFromPause _)
  | some (.refillMacQueueFromHold _) | none => inferInstanceAs (Decidable True)

instance (cfg : Config ι ν) (i : ι) (s : Net ι ν) (action : Action ι ν) :
    Decidable (s.DeliversOnce cfg i action) := inferInstanceAs (Decidable (s.HandsOnce cfg i _))

omit [DecidableEq ν] in
/-- The receive callback hands up nothing exactly if the condition holds. -/
theorem hands_received (registered : (s.node (cfg.node i)).Registered) (p : Packet) :
    s.hands cfg i (some (.handleMacRx p)) = [] ↔ s.HandsOnce cfg i (some (.handleMacRx p)) := by
  simp only [Net.hands, Net.HandsOnce]
  cases (s.dev i).rxCallback with
  | l3Swallow => simp
  | nonPromiscReceiveFromDevice =>
    simp only [List.map_eq_nil_iff, List.filter_eq_nil_iff, decide_eq_true_eq, reduceCtorEq, false_or]
    constructor
    · intro uncalled datagram called
      refine uncalled _ ?_ rfl
      have protocol : p.peekPpp = some 0x0021 := by simpa [Packet.isIpv4] using datagram
      simpa [protocol, pppToEther] using called
    · rintro uncalled handler called rfl
      have ether := registered.receiveFromDevice called
      have protocol := pppToEther_ipv4 ether
      rw [ether] at called
      refine uncalled ?_ called
      cases ppp : p.peekPpp with
      | none => rw [ppp] at protocol; cases protocol
      | some number =>
        rw [ppp, Option.getD_some] at protocol
        simp [Packet.isIpv4, ppp, protocol]

omit [DecidableEq ν] in
/-- A packet that is drained is handed up as the datagram it is exactly if the condition holds. -/
theorem hands_drained {prio : Fin 8} {p : Packet} {rest : List Packet}
    (content : (s.dev i).ingressQ prio = p :: rest) :
    (datagrams [p]).Perm ((s.hands cfg i (some (.drainPop prio))).map (·.2)) ↔
      s.HandsOnce cfg i (some (.drainPop prio)) := by
  simp only [Net.hands, Net.HandsOnce, content]
  cases (s.node (cfg.node i)).ipv4 <;> cases ip : p.isIpv4 <;>
    simp [datagrams, Packet.handedUp, ip]

/-- A step delivers once exactly if the condition holds. -/
theorem delivered_step (reachable : Net.Reachable cfg s) (step : s.step cfg action = some t)
    (delivered : s.Delivered i) : t.Delivered i ↔ s.DeliversOnce cfg i action := by
  obtain ⟨macRx, ingressQ, -⟩ := Net.step_received step i
  have ipv4Rx := step_ipv4Rx step i
  have once := delivered.once
  have idle (silent : s.hands cfg i (s.duty cfg i action) = [])
      (unread : (s.duty cfg i action).bind Duty.received = none)
      (kept : (t.dev i).ingressQ = (s.dev i).ingressQ) : t.Delivered i := by
    rw [silent, List.append_nil] at ipv4Rx
    rw [unread, Option.toList_none, List.map_nil, List.append_nil] at macRx
    refine ⟨ipv4Rx ▸ delivered.path, ?_⟩
    rwa [macRx, ipv4Rx, ReceivingSide.waiting, kept]
  unfold Net.DeliversOnce
  cases due : s.duty cfg i action with
  | none =>
    rw [due] at idle ingressQ
    exact iff_of_true (idle rfl rfl ingressQ) trivial
  | some duty =>
    rw [due] at idle ingressQ macRx ipv4Rx
    cases duty with
    | tryDequeue | transmitComplete | resumeFromPause | refillMacQueueFromHold =>
      exact iff_of_true (idle rfl rfl ingressQ) trivial
    | handleMacRx p =>
      rw [← hands_received (reachable_registered reachable _)]
      have read : (t.dev i).macRx.map (·.2) = (s.dev i).macRx.map (·.2) ++ [p] := by
        simp [macRx, Duty.received]
      have waiting := received_waiting p (s.dev i).ingressQ
      constructor
      · intro after
        refine List.eq_nil_iff_forall_not_mem.mpr fun call member => ?_
        have path := after.path call (ipv4Rx ▸ List.mem_append_right _ member)
        simp only [Net.hands] at member
        split at member
        · cases member
        · obtain ⟨_, -, rfl⟩ := List.mem_map.mp member
          cases path
      · intro silent
        rw [silent, List.append_nil] at ipv4Rx
        refine ⟨ipv4Rx ▸ delivered.path, ?_⟩
        rw [read, ipv4Rx, datagrams_append, ReceivingSide.waiting, ingressQ]
        refine (once.append_right _).trans ?_
        rw [List.append_assoc]
        exact waiting.symm.append_left _
    | drainPop prio =>
      cases content : (s.dev i).ingressQ prio with
      | nil =>
        have silent : s.hands cfg i (some (.drainPop prio)) = [] := by simp [Net.hands, content]
        have kept : (Duty.drainPop prio).queues (s.dev i).ingressQ = (s.dev i).ingressQ := by
          rw [Duty.queues, content, List.tail_nil, ← content, Function.update_eq_self]
        exact iff_of_true (idle silent rfl (ingressQ.trans kept)) (by simp [Net.HandsOnce, content])
      | cons p rest =>
        rw [← hands_drained content]
        have read : (t.dev i).macRx = (s.dev i).macRx := by simp [macRx, Duty.received]
        have path : ∀ call ∈ (t.dev i).ipv4Rx, call.1 = .doIngressDrain := by
          intro call member
          rw [ipv4Rx] at member
          rcases List.mem_append.mp member with old | new
          · exact delivered.path call old
          · simp only [Net.hands] at new
            split at new
            · obtain ⟨_, -, rfl⟩ := List.mem_map.mp new
              rfl
            · cases new
        have waiting : (datagrams (s.dev i).waiting).Perm
            (datagrams [p] ++ datagrams (t.dev i).waiting) := by
          rw [← datagrams_append, ReceivingSide.waiting, ReceivingSide.waiting, ingressQ]
          exact datagrams_perm (drained_waiting content)
        have before := once.trans (waiting.append_left _)
        have handed : (t.dev i).ipv4Rx.map (·.2) = (s.dev i).ipv4Rx.map (·.2) ++
            (s.hands cfg i (some (.drainPop prio))).map (·.2) := by rw [ipv4Rx, List.map_append]
        constructor
        · intro after
          have both := before.symm.trans (read ▸ after.once)
          rw [handed, List.append_assoc, List.perm_append_left_iff, List.perm_append_right_iff] at both
          exact both
        · intro same
          refine ⟨path, ?_⟩
          rw [read, handed, List.append_assoc]
          exact before.trans ((same.append_right _).append_left _)

/-- In every run whose steps all deliver once, and in no other, every state
reached has delivered once; the packets that wait have a drain scheduled. -/
theorem exactly_once_delivery {start : Net ι ν} {actions : List (Action ι ν)}
    (initial : Net.Initial cfg start) (run : Net.Run cfg start actions s) :
    (Net.RunWhere cfg (Net.DeliversOnce cfg i) start actions s ↔
      Net.RunWhere cfg (fun s action => ∀ t ∈ s.step cfg action, t.Delivered i) start actions s) ∧
    ((s.dev i).waiting ≠ [] → s.Scheduled i .drain none) := by
  have installed : start.Delivered i := by
    obtain ⟨linkUp, stack, rfl⟩ := initial
    exact ⟨fun _ => nofun, .refl _⟩
  refine ⟨⟨fun delivers => ?_, fun delivers => ?_⟩, fun waiting => ?_⟩
  · have both : s.Delivered i ∧ Net.RunWhere cfg
        (fun s action => ∀ t ∈ s.step cfg action, t.Delivered i) start actions s := by
      clear run
      induction delivers with
      | nil => exact ⟨installed, .nil⟩
      | snoc before allowed step ih =>
        have after := (delivered_step (before.reachable cfg initial) step ih.1).mpr allowed
        exact ⟨after, ih.2.snoc (fun t same => Option.some.inj (step.symm.trans same) ▸ after) step⟩
    exact both.2
  · have both : s.Delivered i ∧
        Net.RunWhere cfg (Net.DeliversOnce cfg i) start actions s := by
      clear run
      induction delivers with
      | nil => exact ⟨installed, .nil⟩
      | snoc before allowed step ih =>
        have after := allowed _ step
        exact ⟨after, ih.2.snoc ((delivered_step (before.reachable cfg initial) step ih.1).mp after) step⟩
    exact both.2
  · have awake := Net.reachable_awake ⟨start, actions, initial, run⟩ i
    refine Net.scheduled_of_pending awake ?_
    obtain ⟨p, member⟩ := List.exists_mem_of_ne_nil _ waiting
    obtain ⟨prio, -, member⟩ := List.mem_flatMap.mp member
    exact awake.ingress (by simp) prio (List.ne_nil_of_mem member)

end Net

/-- The device's callback is replaced before a datagram arrives. -/
def divertedRun : List (Action (Fin 1) Unit) :=
  [.installStack (), .addInterface 0, .aggregate 0, .event .sink, receiveData 0 0 0x00, .event .sink]

theorem exactly_once_delivery_diverted :
    ∃ s, (Net.started shortQueue).run shortQueue (Net.DeliversOnce shortQueue 0) divertedRun = some s ∧
      Net.RunWhere shortQueue (fun s action => ∀ t ∈ s.step shortQueue action, t.Delivered 0)
        (Net.started shortQueue) divertedRun s ∧
      (s.dev 0).ipv4Rx = [(.doIngressDrain, (Datagram.ipv4 (.transit 0) 0x00).packet)] := by
  obtain ⟨s, ran, handed⟩ : ∃ s,
      (Net.started shortQueue).run shortQueue (Net.DeliversOnce shortQueue 0) divertedRun = some s ∧
        (s.dev 0).ipv4Rx = [(.doIngressDrain, (Datagram.ipv4 (.transit 0) 0x00).packet)] :=
    exists_of_any (by decide +kernel)
  have delivers := Net.RunWhere.of_run _ ran
  have once := exactly_once_delivery (i := 0) (Net.started_initial shortQueue)
    (delivers.mono _ fun _ _ _ => trivial)
  exact ⟨s, ran, once.1.mp delivers, handed⟩

/-- An IPv6 datagram in transit, of a header alone. -/
def Datagram.ipv6 (uid : Nat) : Datagram where
  packet := ⟨.transit uid, 0x60 :: List.replicate 39 0⟩
  protocol := 0x86DD
  valid := Or.inr ⟨rfl, ⟨0x60, rfl, by decide⟩, by simp⟩

/-- A node with addresses receives a frame of each protocol, and drains both. -/
def duplicatedRun : List (Action (Fin 1) Unit) :=
  [.installStack (), .addInterface 0, receiveData 0 0 0x00, .deliver 0 (Datagram.ipv6 1).frame false,
    .event .sink, .event .sink]

/-- The datagram is handed to IPv4 twice, and so is the frame of the other protocol once. -/
theorem delivered_twice :
    ∃ s, Net.Reachable shortQueue s ∧
      (s.dev 0).macRx.map (·.2) = [(Datagram.ipv4 (.transit 0) 0x00).frame, (Datagram.ipv6 1).frame] ∧
      (s.dev 0).ipv4Rx = [(.rxCallback, (Datagram.ipv4 (.transit 0) 0x00).packet),
        (.doIngressDrain, (Datagram.ipv4 (.transit 0) 0x00).packet),
        (.doIngressDrain, (Datagram.ipv6 1).frame)] := by
  obtain ⟨s, ran, received, handed⟩ : ∃ s,
      (Net.started shortQueue).run shortQueue (fun _ _ => True) duplicatedRun = some s ∧
        (s.dev 0).macRx.map (·.2) =
          [(Datagram.ipv4 (.transit 0) 0x00).frame, (Datagram.ipv6 1).frame] ∧
        (s.dev 0).ipv4Rx = [(.rxCallback, (Datagram.ipv4 (.transit 0) 0x00).packet),
          (.doIngressDrain, (Datagram.ipv4 (.transit 0) 0x00).packet),
          (.doIngressDrain, (Datagram.ipv6 1).frame)] := exists_of_any (by decide +kernel)
  exact ⟨s, .of_run _ (Net.started_initial _) ran, received, handed⟩

end QbbNet
