import QbbNet.FlowMonitor
import QbbNet.GlobalRouting

set_option autoImplicit false

/- The probes of the nodes, which classify the packets they see sent and report what
becomes of them to the monitor. -/
namespace QbbNet

open Ipv4FlowClassifier (tuplesOf classified tuplesOf_append length_tuplesOf_le)

variable {ι : Type}

/-- Ipv4L3Protocol::IsUnicast -/
def Ipv4Node.isUnicast (node : Ipv4Node ι) (ad : UInt32) : Bool :=
  !(isBroadcast ad || isMulticast ad) &&
    !(node.interfaces.any fun i => i.addresses.any fun ifAddr => ad == ifAddr.broadcast)

structure Ipv4FlowProbeTag where
  flowId : FlowId
  packetId : FlowPacketId
  packetSize : UInt32
  src : UInt32
  dst : UInt32
  deriving DecidableEq

def Ipv4FlowProbeTag.isSrcDstValid (tag : Ipv4FlowProbeTag) (src dst : UInt32) : Bool :=
  tag.src == src && tag.dst == dst

/-- Ipv4L3Protocol::DropReason -/
inductive DropReason
  | ttlExpired
  | noRoute
  | badChecksum
  | interfaceDown
  | routeError
  | fragmentTimeout
  | duplicate
  deriving DecidableEq

/-- The number that the probe has for a reason. A duplicate is a fatal error. -/
def DropReason.code : DropReason → Option Nat
  | .noRoute => some 0
  | .ttlExpired => some 1
  | .badChecksum => some 2
  | .interfaceDown => some 5
  | .routeError => some 6
  | .fragmentTimeout => some 7
  | .duplicate => none

abbrev dropQueue : Nat := 3
abbrev dropQueueDisc : Nat := 4

/-- What calls the probes: the traces of a node, of a packet whose tag is the first that is
found, and the program, which starts, stops and checks the monitor. -/
inductive ProbeEvent (ι : Type)
  | sendOutgoing (node : Ipv4Node ι) (ipHeader : FlowHeader) (ipPayload : List UInt8)
      (tag : Option Ipv4FlowProbeTag)
  | forward (ipHeader : FlowHeader) (tag : Option Ipv4FlowProbeTag)
  | forwardUp (ipHeader : FlowHeader) (ipPayload : List UInt8) (tag : Option Ipv4FlowProbeTag)
  | drop (ipHeader : FlowHeader) (ipPayload : List UInt8) (reason : DropReason)
      (tag : Option Ipv4FlowProbeTag)
  | queueDrop (tag : Option Ipv4FlowProbeTag)
  | queueDiscDrop (tag : Option Ipv4FlowProbeTag)
  | checkForLostPackets (maxDelay : Time)
  | startRightNow
  | stopRightNow

def ipSize (ipHeader : FlowHeader) (ipPayload : List UInt8) : UInt32 :=
  UInt32.ofNat (ipPayload.length + ipHeader.headerSize)

/-- The classifier and the monitor, with the tags that have been added to packets, and
when. The records are kept by the model only. -/
structure FlowMonitoring where
  classifier : Ipv4FlowClassifier
  monitor : FlowMonitor
  tags : List (Time × Ipv4FlowProbeTag)
  records : FlowId → FlowRecord

namespace FlowMonitoring

def new (attr : MonitorAttributes) : FlowMonitoring := ⟨.new, .new attr, [], fun _ => .empty⟩

variable (s : FlowMonitoring) (now : Time)

def report (report : FlowReport) : Option FlowMonitoring :=
  (s.monitor.report now report).map fun monitor =>
    { s with monitor := monitor, records := s.monitor.record now s.records report }

def sendOutgoingLogger (node : Ipv4Node ι) (ipHeader : FlowHeader) (ipPayload : List UInt8)
    (tag : Option Ipv4FlowProbeTag) : Option FlowMonitoring :=
  if node.isUnicast ipHeader.destination = false then some s
  else if tag.isSome then some s
  else
    let classified := s.classifier.classify ipHeader ipPayload
    let s := { s with classifier := classified.2 }
    match classified.1 with
    | none => some s
    | some (flowId, packetId) =>
        let size := ipSize ipHeader ipPayload
        (s.report now (.firstTx flowId packetId size)).map fun s =>
          { s with tags :=
              s.tags ++ [(now, ⟨flowId, packetId, size, ipHeader.source, ipHeader.destination⟩)] }

def forwardLogger (ipHeader : FlowHeader) (tag : Option Ipv4FlowProbeTag) : Option FlowMonitoring :=
  match tag with
  | none => some s
  | some fTag =>
      if ipHeader.lastFragment = false ∨ ipHeader.fragmentOffset ≠ 0 then some s
      else if fTag.isSrcDstValid ipHeader.source ipHeader.destination = false then some s
      else s.report now (.forwarding fTag.flowId fTag.packetId)

def forwardUpLogger (ipHeader : FlowHeader) (ipPayload : List UInt8)
    (tag : Option Ipv4FlowProbeTag) : Option FlowMonitoring :=
  match tag with
  | none => some s
  | some fTag =>
      if fTag.isSrcDstValid ipHeader.source ipHeader.destination = false then some s
      else s.report now (.lastRx fTag.flowId fTag.packetId (ipSize ipHeader ipPayload))

def dropLogger (ipHeader : FlowHeader) (ipPayload : List UInt8) (reason : DropReason)
    (tag : Option Ipv4FlowProbeTag) : Option FlowMonitoring :=
  match tag with
  | none => some s
  | some fTag =>
      reason.code.bind fun myReason =>
        s.report now (.drop fTag.flowId fTag.packetId (ipSize ipHeader ipPayload) myReason)

/-- QueueDropLogger and QueueDiscDropLogger, by their reason. -/
def queueDropLogger (reasonCode : Nat) (tag : Option Ipv4FlowProbeTag) : Option FlowMonitoring :=
  match tag with
  | none => some s
  | some fTag => s.report now (.drop fTag.flowId fTag.packetId fTag.packetSize reasonCode)

def step : ProbeEvent ι → Option FlowMonitoring
  | .sendOutgoing node ipHeader ipPayload tag => s.sendOutgoingLogger now node ipHeader ipPayload tag
  | .forward ipHeader tag => s.forwardLogger now ipHeader tag
  | .forwardUp ipHeader ipPayload tag => s.forwardUpLogger now ipHeader ipPayload tag
  | .drop ipHeader ipPayload reason tag => s.dropLogger now ipHeader ipPayload reason tag
  | .queueDrop tag => s.queueDropLogger now dropQueue tag
  | .queueDiscDrop tag => s.queueDropLogger now dropQueueDisc tag
  | .checkForLostPackets maxDelay => s.report now (.checkForLostPackets maxDelay)
  | .startRightNow => s.report now .startRightNow
  | .stopRightNow => s.report now .stopRightNow

def run (events : List (Time × ProbeEvent ι)) : Option FlowMonitoring :=
  events.foldlM (fun s event => s.step event.1 event.2) s

/-- The packets that carry a tag. -/
def tagged : List (PacketKey × Time) :=
  s.tags.map fun tag => ((tag.2.flowId, tag.2.packetId), tag.1)

/-- The packets that the classifier has seen have numbers of their own, and the figures are
those of the records. -/
structure Sound (n : Nat) : Prop where
  numbers : ∃ packets, packets.length ≤ n ∧
    s.classifier.Knows (tuplesOf packets) (classified packets) ∧
    ∀ tag ∈ s.tags, ∃ tuple ∈ tuplesOf packets, tag.2.flowId = numberOf (tuplesOf packets) tuple ∧
      ∃ k < (tuplesOf packets).count tuple, tag.2.packetId = UInt32.ofNat k
  distinct : (s.tagged.map (·.1)).Nodup
  audited : s.monitor.Audited s.records s.tagged n

variable {s : FlowMonitoring} {now : Time} {n : Nat}

theorem Sound.later (sound : s.Sound n) : s.Sound (n + 1) where
  numbers := by
    obtain ⟨packets, short, knows, numbers⟩ := sound.numbers
    exact ⟨packets, short.trans (Nat.le_succ n), knows, numbers⟩
  distinct := sound.distinct
  audited := sound.audited.same (Nat.le_succ n) s.monitor.enabled

theorem Sound.report (sound : s.Sound n) (few : n + 1 < 2 ^ 32) {report : FlowReport}
    (sends : report.sends now = []) :
    ∃ s', s.report now report = some s' ∧ s'.monitor.attr = s.monitor.attr ∧ s'.Sound (n + 1) := by
  obtain ⟨monitor, reported, attr, audited⟩ := sound.audited.report few report
    fun sent (mem : sent ∈ report.sends now) => by rw [sends] at mem; cases mem
  rw [sends, List.append_nil] at audited
  refine ⟨_, by unfold FlowMonitoring.report; rw [reported, Option.map_some], attr, ?_⟩
  exact ⟨sound.later.numbers, sound.distinct, audited⟩

/-- The number that a packet gets is not that of a packet before it. -/
theorem fresh_number {packets : List (FlowHeader × List UInt8)} {tags : List (Time × Ipv4FlowProbeTag)}
    {tuple : FiveTuple} (few : packets.length + 1 < 2 ^ 32)
    (numbers : ∀ tag ∈ tags, ∃ other ∈ tuplesOf packets,
      tag.2.flowId = numberOf (tuplesOf packets) other ∧
        ∃ k < (tuplesOf packets).count other, tag.2.packetId = UInt32.ofNat k)
    {tag : Time × Ipv4FlowProbeTag} (mem : tag ∈ tags) :
    (tag.2.flowId, tag.2.packetId) ≠ (numberOf (tuplesOf packets ++ [tuple]) tuple,
      UInt32.ofNat ((tuplesOf packets).count tuple)) := by
  intro same
  obtain ⟨other, seen, number, k, below, packet⟩ := numbers tag mem
  rw [Prod.mk.injEq, number, packet, ← numberOf_snoc seen tuple] at same
  have short := length_tuplesOf_le packets
  rw [numberOf_inj (by rw [List.length_append, List.length_singleton]; omega)
    (List.mem_append_left _ seen) List.mem_concat_self] at same
  obtain ⟨rfl, packets_same⟩ := same
  have count := List.count_le_length (a := other) (l := tuplesOf packets)
  have size : UInt32.size = 2 ^ 32 := rfl
  have numbers_same := congrArg UInt32.toNat packets_same
  rw [UInt32.toNat_ofNat_of_lt' (by omega), UInt32.toNat_ofNat_of_lt' (by omega)] at numbers_same
  omega

theorem Sound.sendOutgoingLogger (sound : s.Sound n) (few : n + 1 < 2 ^ 32) (node : Ipv4Node ι)
    (ipHeader : FlowHeader) (ipPayload : List UInt8) (tag : Option Ipv4FlowProbeTag) :
    ∃ s', s.sendOutgoingLogger now node ipHeader ipPayload tag = some s' ∧
      s'.monitor.attr = s.monitor.attr ∧ s'.Sound (n + 1) := by
  unfold FlowMonitoring.sendOutgoingLogger
  by_cases broadcast : node.isUnicast ipHeader.destination = false
  · rw [if_pos broadcast]
    exact ⟨s, rfl, rfl, sound.later⟩
  rw [if_neg broadcast]
  by_cases found : tag.isSome = true
  · rw [if_pos found]
    exact ⟨s, rfl, rfl, sound.later⟩
  rw [if_neg found]
  obtain ⟨packets, short, knows, numbers⟩ := sound.numbers
  obtain ⟨number, after⟩ := knows.next (ipHeader, ipPayload) (by omega)
  have length : (packets ++ [(ipHeader, ipPayload)]).length ≤ n + 1 := by
    rw [List.length_append, List.length_singleton]
    omega
  dsimp only at number ⊢
  cases read : fiveTuple ipHeader ipPayload with
  | none =>
    rw [read, Option.map_none] at number
    have alone : tuplesOf [(ipHeader, ipPayload)] = [] := List.filterMap_cons_none read
    rw [number]
    refine ⟨_, rfl, rfl, ⟨packets ++ [(ipHeader, ipPayload)], length, after, ?_⟩, sound.distinct,
      sound.later.audited⟩
    rw [tuplesOf_append, alone, List.append_nil]
    exact numbers
  | some tuple =>
    rw [read, Option.map_some] at number
    have alone : tuplesOf [(ipHeader, ipPayload)] = [tuple] := List.filterMap_cons_some read
    rw [tuplesOf_append, alone] at number
    have fresh : (numberOf (tuplesOf packets ++ [tuple]) tuple,
        UInt32.ofNat ((tuplesOf packets).count tuple)) ∉ s.tagged.map (·.1) := by
      intro mem
      obtain ⟨_, listed, same⟩ := List.mem_map.mp mem
      obtain ⟨tag, tag_mem, rfl⟩ := List.mem_map.mp listed
      exact fresh_number (by omega) numbers tag_mem same
    rw [number]
    obtain ⟨monitor, reported, attr, audited⟩ := sound.audited.report few
      (.firstTx (numberOf (tuplesOf packets ++ [tuple]) tuple)
        (UInt32.ofNat ((tuplesOf packets).count tuple)) (ipSize ipHeader ipPayload))
      fun sent (mem : sent ∈ [_]) => by rw [List.mem_singleton.mp mem]; exact fresh
    refine ⟨_, by unfold FlowMonitoring.report; dsimp only; rw [reported]; rfl, attr,
      ⟨packets ++ [(ipHeader, ipPayload)], length, after, fun tag mem => ?_⟩, ?_, ?_⟩
    · rw [tuplesOf_append, alone]
      rcases List.mem_append.mp mem with earlier | last
      · obtain ⟨other, seen, id, k, below, packet⟩ := numbers tag earlier
        refine ⟨other, List.mem_append_left _ seen, by rw [numberOf_snoc seen]; exact id, k, ?_, packet⟩
        rw [List.count_append]
        omega
      · rw [List.mem_singleton.mp last]
        refine ⟨tuple, List.mem_concat_self, rfl, (tuplesOf packets).count tuple, ?_, rfl⟩
        rw [List.count_append, List.count_singleton_self]
        omega
    · unfold tagged
      dsimp only
      rw [List.map_append, List.map_append, List.nodup_append]
      refine ⟨sound.distinct, List.nodup_singleton _, fun key mem other last => ?_⟩
      rw [List.mem_singleton.mp last]
      rintro rfl
      exact fresh mem
    · show monitor.Audited _ (List.map _ (s.tags ++ [_])) _
      rw [List.map_append]
      exact audited

end FlowMonitoring

/-- A duplicate that is dropped with its tag ends the program. -/
def ProbeEvent.fatal : ProbeEvent ι → Bool
  | .drop _ _ .duplicate (some _) => true
  | _ => false

namespace FlowMonitoring

variable {s s' : FlowMonitoring} {now : Time} {n : Nat}

theorem Sound.new (attr : MonitorAttributes) : (new attr).Sound 0 where
  numbers := ⟨[], le_rfl, .new, fun tag mem => absurd mem List.not_mem_nil⟩
  distinct := List.nodup_nil
  audited := {
    figures := fun _ => rfl
    known := fun key mem => absurd mem (AList.notMem_empty key)
    sent := fun key tracked found => by cases found
    balanced := fun _ => ⟨fun receipt mem => absurd mem List.not_mem_nil, le_rfl, le_rfl, rfl⟩ }

theorem step_fatal {event : ProbeEvent ι} (fatal : event.fatal = true) :
    s.step now event = none := by
  unfold ProbeEvent.fatal at fatal
  split at fatal
  · rfl
  · cases fatal

/-- A call that is not fatal succeeds, and keeps the figures right. -/
theorem Sound.step (sound : s.Sound n) (now : Time) (few : n + 1 < 2 ^ 32) {event : ProbeEvent ι}
    (alive : event.fatal = false) :
    ∃ s', s.step now event = some s' ∧ s'.monitor.attr = s.monitor.attr ∧ s'.Sound (n + 1) := by
  have ignored : ∃ s', some s = some s' ∧ s'.monitor.attr = s.monitor.attr ∧ s'.Sound (n + 1) :=
    ⟨s, rfl, rfl, sound.later⟩
  cases event with
  | sendOutgoing node ipHeader ipPayload tag =>
    exact sound.sendOutgoingLogger few node ipHeader ipPayload tag
  | forward ipHeader tag =>
    unfold FlowMonitoring.step forwardLogger
    cases tag with
    | none => exact ignored
    | some fTag =>
      dsimp only
      split
      · exact ignored
      split
      · exact ignored
      · exact sound.report few rfl
  | forwardUp ipHeader ipPayload tag =>
    unfold FlowMonitoring.step forwardUpLogger
    cases tag with
    | none => exact ignored
    | some fTag =>
      dsimp only
      split
      · exact ignored
      · exact sound.report few rfl
  | drop ipHeader ipPayload reason tag =>
    unfold FlowMonitoring.step dropLogger
    cases tag with
    | none => exact ignored
    | some fTag =>
      cases reason with
      | duplicate => cases alive
      | _ => exact sound.report few rfl
  | queueDrop tag =>
    unfold FlowMonitoring.step queueDropLogger
    cases tag with
    | none => exact ignored
    | some fTag => exact sound.report few rfl
  | queueDiscDrop tag =>
    unfold FlowMonitoring.step queueDropLogger
    cases tag with
    | none => exact ignored
    | some fTag => exact sound.report few rfl
  | checkForLostPackets maxDelay => exact sound.report few rfl
  | startRightNow => exact sound.report few rfl
  | stopRightNow => exact sound.report few rfl

theorem Sound.run (events : List (Time × ProbeEvent ι)) : ∀ {s : FlowMonitoring} {n : Nat},
    s.Sound n → n + events.length < 2 ^ 32 → (∀ event ∈ events, event.2.fatal = false) →
      ∃ s', s.run events = some s' ∧ s'.monitor.attr = s.monitor.attr ∧
        s'.Sound (n + events.length) := by
  induction events with
  | nil => exact fun sound _ _ => ⟨_, rfl, rfl, sound⟩
  | cons event events ih =>
    intro s n sound few alive
    rw [List.length_cons] at few
    obtain ⟨next, stepped, attr, after⟩ := sound.step event.1 (by omega)
      (alive event List.mem_cons_self)
    obtain ⟨last, ran, attr', end_sound⟩ := ih after (by omega)
      fun other mem => alive other (List.mem_cons_of_mem event mem)
    refine ⟨last, ?_, attr'.trans attr, ?_⟩
    · unfold FlowMonitoring.run
      rw [List.foldlM_cons, stepped]
      exact ran
    · rw [List.length_cons, Nat.add_comm events.length 1, ← Nat.add_assoc]
      exact end_sound

theorem run_fatal {events : List (Time × ProbeEvent ι)} {event : Time × ProbeEvent ι}
    (mem : event ∈ events) (fatal : event.2.fatal = true) : ∀ s : FlowMonitoring,
      s.run events = none := by
  induction events with
  | nil => cases mem
  | cons first events ih =>
    intro s
    unfold FlowMonitoring.run
    rw [List.foldlM_cons]
    rcases List.mem_cons.mp mem with rfl | later
    · rw [step_fatal fatal]
      rfl
    · cases stepped : s.step first.1 first.2 with
      | none => rfl
      | some next => exact ih later next

end FlowMonitoring

end QbbNet
