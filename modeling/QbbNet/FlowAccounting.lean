import QbbNet.FlowProbes
import Mathlib.Tactic.FieldSimp
import Mathlib.Tactic.Positivity
import Mathlib.Tactic.Ring

set_option autoImplicit false

/- The figures of the flows after a run, and the delay and the loss that GetStatus makes of
them. -/
namespace QbbNet

variable {ι : Type}

namespace FlowMonitoring

variable {s : FlowMonitoring} {attr : MonitorAttributes} {events : List (Time × ProbeEvent ι)}

theorem run_sound (few : events.length < 2 ^ 32) (ran : (new attr).run events = some s) :
    s.monitor.attr = attr ∧ s.Sound events.length := by
  have alive : ∀ event ∈ events, event.2.fatal = false := by
    intro event mem
    by_contra fatal
    rw [run_fatal mem (Bool.eq_true_of_not_eq_false fatal)] at ran
    cases ran
  obtain ⟨last, ran', same, sound⟩ := (Sound.new attr).run events (by omega) alive
  rw [ran, Option.some.injEq] at ran'
  rw [ran', ← Nat.zero_add events.length]
  exact ⟨same, sound⟩

/-- The counters of a flow are the lengths of its lists. -/
theorem counters (attr : MonitorAttributes) {seen : List (PacketKey × Time)} {n inFlight : Nat} {r : FlowRecord}
    {flowId : FlowId} (balanced : r.Balanced flowId seen n inFlight) (few : n < 2 ^ 32) :
    (r.stats attr).txPackets.toNat = r.sent.length ∧
      (r.stats attr).rxPackets.toNat = r.received.length ∧
      (r.stats attr).lostPackets.toNat = r.drops.length + r.expired := by
  have size : UInt32.size = 2 ^ 32 := rfl
  have short := balanced.few
  have balance := balanced.balance
  have late := balanced.late
  exact ⟨UInt32.toNat_ofNat_of_lt' (by omega), UInt32.toNat_ofNat_of_lt' (by omega),
    UInt32.toNat_ofNat_of_lt' (by omega)⟩

/- A packet that is received, and one that is refused by a queue three times before it is
received. -/

def probeNode : Ipv4Node Unit := ⟨0, [], [], false, false⟩

def probeHeader : FlowHeader where
  tos := 0
  headerSize := 20
  payloadSize := 12
  protocol := 17
  source := 0x0a000001
  destination := 0x0a000002
  fragmentOffset := 0
  lastFragment := true

def probePayload : List UInt8 := [0, 1, 0, 80, 0, 12, 0, 0, 1, 2, 3, 4]

def probeTag (packetId : FlowPacketId) : Ipv4FlowProbeTag :=
  ⟨1, packetId, 32, probeHeader.source, probeHeader.destination⟩

def refusedEvents : List (Time × ProbeEvent Unit) :=
  [(0, .startRightNow),
    (100, .sendOutgoing probeNode probeHeader probePayload none),
    (600, .forwardUp probeHeader probePayload (some (probeTag 0))),
    (700, .sendOutgoing probeNode probeHeader probePayload none),
    (800, .queueDrop (some (probeTag 1))),
    (850, .queueDrop (some (probeTag 1))),
    (900, .queueDrop (some (probeTag 1))),
    (1500, .forwardUp probeHeader probePayload (some (probeTag 1))),
    (2000, .checkForLostPackets MonitorAttributes.default.maxPerHopDelay)]

def refusedRun : FlowMonitoring :=
  ((new .default).run refusedEvents).get (by decide +kernel)

theorem refusedEvents_run : (new .default).run refusedEvents = some refusedRun :=
  (Option.some_get _).symm

/-- Of a flow the packets sent, with the drops that are late, are those received, lost and
still tracked. -/
theorem Sound.balance {n : Nat} (sound : s.Sound n) (few : n < 2 ^ 32) (flowId : FlowId) :
    let stats := s.monitor.getStatsForFlow flowId;
    stats.txPackets.toNat + (s.records flowId).late =
        stats.rxPackets.toNat + stats.lostPackets.toNat + s.monitor.inFlight flowId ∧
      (s.records flowId).late ≤ stats.lostPackets.toNat := by
  have balanced := sound.audited.balanced flowId
  have balance := balanced.balance
  have late := balanced.late
  obtain ⟨sent, received, lost⟩ := counters s.monitor.attr balanced few
  dsimp only
  rw [sound.audited.figures, sent, received, lost]
  exact ⟨by omega, by omega⟩

/-- A run fails only at a fatal call. After it no two tags are alike, and of each flow the
packets sent, with the drops that are late, are those received, lost and still tracked. -/
theorem run_balance (attr : MonitorAttributes) (events : List (Time × ProbeEvent ι))
    (few : events.length < 2 ^ 32) :
    ((∃ s, (new attr).run events = some s) ↔ ∀ event ∈ events, event.2.fatal = false) ∧
    ∀ s, (new attr).run events = some s →
      (s.tags.map fun tag => (tag.2.flowId, tag.2.packetId)).Nodup ∧
      ∀ flowId, let stats := s.monitor.getStatsForFlow flowId;
        stats.txPackets.toNat + (s.records flowId).late =
            stats.rxPackets.toNat + stats.lostPackets.toNat + s.monitor.inFlight flowId ∧
          (s.records flowId).late ≤ stats.lostPackets.toNat := by
  refine ⟨⟨fun ⟨s, ran⟩ event mem => ?_, fun alive => ?_⟩, fun s ran => ?_⟩
  · by_contra fatal
    rw [run_fatal mem (Bool.eq_true_of_not_eq_false fatal)] at ran
    cases ran
  · obtain ⟨s, ran, _⟩ := (Sound.new attr).run events (by omega) alive
    exact ⟨s, ran⟩
  · obtain ⟨_, sound⟩ := run_sound few ran
    have distinct := sound.distinct
    unfold tagged at distinct
    rw [List.map_map] at distinct
    exact ⟨distinct, sound.balance few⟩

theorem run_balance_refused : ∃ s, (new .default).run refusedEvents = some s :=
  (run_balance .default refusedEvents (by decide)).1.mpr (by decide)

end FlowMonitoring

/- What GetStatus makes of the figures -/

/-- The sums of GetStatus's loop over the flows. -/
structure FlowTotals where
  sumFlowAvgDelay : ℚ
  flowCountForDelay : Nat
  fmTxPkts : Nat
  fmRxPkts : Nat
  fmLostPkts : Nat

namespace FlowTotals

def zero : FlowTotals := ⟨0, 0, 0, 0, 0⟩

/-- `s.delaySum.GetSeconds() / s.rxPackets * 1000.0` -/
def avgDelayMs (s : FlowStats) : ℚ :=
  toDouble (toDouble (Time.getSeconds s.delaySum / s.rxPackets.toNat) * 1000)

def add (t : FlowTotals) (s : FlowStats) : FlowTotals where
  sumFlowAvgDelay :=
    if 0 < s.rxPackets then toDouble (t.sumFlowAvgDelay + avgDelayMs s) else t.sumFlowAvgDelay
  flowCountForDelay := if 0 < s.rxPackets then t.flowCountForDelay + 1 else t.flowCountForDelay
  fmTxPkts := t.fmTxPkts + s.txPackets.toNat
  fmRxPkts := t.fmRxPkts + s.rxPackets.toNat
  fmLostPkts := t.fmLostPkts + s.lostPackets.toNat

variable (t : FlowTotals)

def networkAvgDelayMs : ℚ :=
  if 0 < t.flowCountForDelay then toDouble (t.sumFlowAvgDelay / t.flowCountForDelay) else 0

/-- In exact arithmetic. -/
def e2eLossRatePct : ℚ := if 0 < t.fmTxPkts then 100 * t.fmLostPkts / t.fmTxPkts else 0

end FlowTotals

def flowTotals (stats : AList fun _ : FlowId => FlowStats) : FlowTotals :=
  stats.entries.foldl (fun t kv => t.add kv.2) .zero

theorem flowTotals_counts (entries : List (Sigma fun _ : FlowId => FlowStats)) :
    ∀ t : FlowTotals, let sums := entries.foldl (fun t kv => t.add kv.2) t;
      sums.fmTxPkts = t.fmTxPkts + (entries.map fun kv => kv.2.txPackets.toNat).sum ∧
      sums.fmRxPkts = t.fmRxPkts + (entries.map fun kv => kv.2.rxPackets.toNat).sum ∧
      sums.fmLostPkts = t.fmLostPkts + (entries.map fun kv => kv.2.lostPackets.toNat).sum := by
  induction entries with
  | nil => exact fun _ => ⟨rfl, rfl, rfl⟩
  | cons kv entries ih =>
    intro t
    obtain ⟨sent, received, lost⟩ := ih (t.add kv.2)
    dsimp only [List.foldl_cons, List.map_cons, List.sum_cons] at sent received lost ⊢
    rw [sent, received, lost]
    exact ⟨Nat.add_assoc _ _ _, Nat.add_assoc _ _ _, Nat.add_assoc _ _ _⟩

theorem sum_eq_count (flows : List FlowId) (flowId : FlowId) :
    (flows.map fun other => if decide (flowId = other) = true then 1 else 0).sum =
      flows.count flowId := by
  induction flows with
  | nil => rfl
  | cons first flows ih =>
    rw [List.map_cons, List.sum_cons, ih, List.count_cons, Nat.add_comm]
    by_cases same : flowId = first
    · rw [same, beq_self_eq_true, decide_eq_true rfl]
    · rw [if_neg (by simpa using same), if_neg (by simpa using Ne.symm same)]

/-- Every tracked packet is of one of the flows. -/
theorem sum_inFlight {flows : List FlowId} (distinct : flows.Nodup) (packets : List PacketKey)
    (known : ∀ key ∈ packets, key.1 ∈ flows) :
    (flows.map fun flowId => packets.countP fun key => decide (key.1 = flowId)).sum =
      packets.length := by
  induction packets with
  | nil => simp
  | cons key packets ih =>
    simp only [List.countP_cons, List.sum_map_add]
    rw [ih fun other mem => known other (List.mem_cons_of_mem key mem), sum_eq_count,
      List.count_eq_one_of_mem distinct (known key List.mem_cons_self), List.length_cons]

namespace FlowMonitoring

variable {s : FlowMonitoring} {attr : MonitorAttributes} {events : List (Time × ProbeEvent ι)}

/-- The late drops of all flows. -/
def lateDrops (s : FlowMonitoring) : Nat :=
  (s.monitor.flowStats.keys.map fun flowId => (s.records flowId).late).sum

theorem map_entries (m : FlowMonitor) (f : FlowStats → Nat) :
    (m.flowStats.entries.map fun kv => f kv.2) =
      m.flowStats.keys.map fun flowId => f (m.getStatsForFlow flowId) := by
  unfold AList.keys List.keys
  rw [List.map_map]
  refine List.map_congr_left fun kv mem => ?_
  have listed : m.flowStats.lookup kv.1 = some kv.2 := AList.mem_lookup_iff.mpr mem
  show f kv.2 = f (m.getStatsForFlow kv.1)
  rw [FlowMonitor.getStatsForFlow, listed, Option.getD_some]

/-- The packets sent, with the drops that are late, are those received, lost and still
tracked; so the loss is at most 100 per cent exactly if there are no more late drops than
packets received and packets still tracked. -/
theorem run_e2eLossRatePct (attr : MonitorAttributes) (events : List (Time × ProbeEvent ι))
    (few : events.length < 2 ^ 32) {s : FlowMonitoring} (ran : (new attr).run events = some s) :
    let totals := flowTotals s.monitor.flowStats
    totals.fmTxPkts + s.lateDrops =
        totals.fmRxPkts + totals.fmLostPkts + s.monitor.trackedPackets.keys.length ∧
      (0 < totals.fmTxPkts → (totals.e2eLossRatePct ≤ 100 ↔
        s.lateDrops ≤ totals.fmRxPkts + s.monitor.trackedPackets.keys.length)) := by
  obtain ⟨_, sound⟩ := run_sound few ran
  obtain ⟨sent, received, lost⟩ := flowTotals_counts s.monitor.flowStats.entries .zero
  rw [map_entries s.monitor fun stats => stats.txPackets.toNat] at sent
  rw [map_entries s.monitor fun stats => stats.rxPackets.toNat] at received
  rw [map_entries s.monitor fun stats => stats.lostPackets.toNat] at lost
  have tracked := sum_inFlight s.monitor.flowStats.keys_nodup s.monitor.trackedPackets.keys
    fun key mem => AList.mem_keys.mp (sound.audited.known key (AList.mem_keys.mpr mem))
  have balance := congrArg List.sum (List.map_congr_left fun flowId
    (_ : flowId ∈ s.monitor.flowStats.keys) => (sound.balance few flowId).1)
  rw [List.sum_map_add, List.sum_map_add, List.sum_map_add] at balance
  have total : (flowTotals s.monitor.flowStats).fmTxPkts + s.lateDrops =
      (flowTotals s.monitor.flowStats).fmRxPkts + (flowTotals s.monitor.flowStats).fmLostPkts +
        s.monitor.trackedPackets.keys.length := by
    unfold flowTotals lateDrops
    rw [sent, received, lost, ← tracked]
    show 0 + _ + _ = 0 + _ + (0 + _) + _
    rw [Nat.zero_add, Nat.zero_add, Nat.zero_add]
    exact balance
  refine ⟨total, fun positive => ?_⟩
  unfold FlowTotals.e2eLossRatePct
  rw [if_pos positive, div_le_iff₀ (by exact_mod_cast positive),
    mul_le_mul_iff_of_pos_left (by norm_num), Nat.cast_le]
  omega

/-- The drops of the packet that is refused again are late, and the loss is 150 per cent. -/
theorem run_e2eLossRatePct_refused :
    ¬(flowTotals refusedRun.monitor.flowStats).e2eLossRatePct ≤ 100 := by
  rw [(run_e2eLossRatePct .default refusedEvents (by decide) refusedEvents_run).2
    (by decide +kernel)]
  decide +kernel

end FlowMonitoring

/-- The sum of the average delays after some flows. -/
structure FlowTotals.Averaged (t : FlowTotals) (flows : Nat) (least greatest sum : ℚ) : Prop where
  counted : 0 < t.fmRxPkts → 0 < t.flowCountForDelay
  few : t.flowCountForDelay ≤ flows
  running : RunningSum t.flowCountForDelay least greatest t.sumFlowAvgDelay sum

theorem FlowTotals.Averaged.add {t : FlowTotals} {flows : Nat} {least greatest sum : ℚ}
    (averaged : t.Averaged flows least greatest sum) (room : flows < 2 ^ 32) {stats : FlowStats}
    (bounds : 0 < stats.rxPackets → least ≤ avgDelayMs stats ∧ avgDelayMs stats ≤ greatest ∧
      Moderate 128 (avgDelayMs stats)) :
    ∃ sum', (t.add stats).Averaged (flows + 1) least greatest sum' := by
  have few := averaged.few
  by_cases received : 0 < stats.rxPackets
  · obtain ⟨below, above, moderate⟩ := bounds received
    have running := averaged.running.add (by omega) moderate below above
    unfold FlowTotals.add
    rw [if_pos received, if_pos received]
    exact ⟨_, fun _ => Nat.succ_pos _, Nat.succ_le_succ few, running⟩
  · have none_here : stats.rxPackets.toNat = 0 := by
      rw [UInt32.lt_iff_toNat_lt] at received
      exact Nat.eq_zero_of_not_pos received
    unfold FlowTotals.add
    rw [if_neg received, if_neg received, none_here]
    exact ⟨sum, averaged.counted, Nat.le_succ_of_le few, averaged.running⟩

end QbbNet
