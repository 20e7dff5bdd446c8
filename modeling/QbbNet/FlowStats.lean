import QbbNet.TimeConversions
import QbbNet.FlowClassifier
import Mathlib.Algebra.Order.Floor.Ring
import Mathlib.Data.Rat.Floor
import Mathlib.Algebra.Order.BigOperators.Group.List
import Mathlib.Tactic.Linarith

set_option autoImplicit false

/- FlowMonitor's figures of a flow, as they grow with each report and as they follow from
all the reports. -/
namespace QbbNet

/-- `counts.resize(n, 0)` for a longer `n`. -/
def enlarge {α : Type} [OfNat α 0] (counts : List α) (n : Nat) : List α :=
  counts ++ List.replicate (n - counts.length) 0

/-- `counts[index]++`, with room made for the index first. -/
def countAt (counts : List UInt32) (index : Nat) : List UInt32 :=
  let counts := if counts.length ≤ index then enlarge counts (index + 1) else counts
  counts.modify index (· + 1)

structure Histogram where
  histogram : List UInt32
  binWidth : ℚ
  deriving DecidableEq

def Histogram.new (binWidth : ℚ) : Histogram := ⟨[], binWidth⟩

/-- The bin of a value. The quotient is a double, and its floor fits a uint32_t. -/
def Histogram.indexOf (h : Histogram) (value : ℚ) : Nat := ⌊toDouble (value / h.binWidth)⌋.toNat

def Histogram.addValue (h : Histogram) (value : ℚ) : Histogram :=
  { h with histogram := countAt h.histogram (h.indexOf value) }

/- 43 milliseconds are less than 43 bins of a millisecond. -/
example : (Histogram.new (toDouble (1 / 1000))).indexOf (Time.getSeconds 43000000) = 42 := by
  decide +kernel

/-- The greatest Time. -/
def Time.max : Time := 2 ^ 63 - 1

structure MonitorAttributes where
  maxPerHopDelay : Time
  delayBinWidth : ℚ
  jitterBinWidth : ℚ
  packetSizeBinWidth : ℚ
  flowInterruptionsBinWidth : ℚ
  flowInterruptionsMinTime : Time

def MonitorAttributes.default : MonitorAttributes where
  maxPerHopDelay := microSeconds 10000000
  delayBinWidth := toDouble (1 / 1000)
  jitterBinWidth := toDouble (1 / 1000)
  packetSizeBinWidth := 20
  flowInterruptionsBinWidth := 1 / 4
  flowInterruptionsMinTime := microSeconds 500000

structure TrackedPacket where
  firstSeenTime : Time
  lastSeenTime : Time
  timesForwarded : UInt32
  deriving DecidableEq

@[ext] structure FlowStats where
  timeFirstTxPacket : Time
  timeFirstRxPacket : Time
  timeLastTxPacket : Time
  timeLastRxPacket : Time
  delaySum : Time
  jitterSum : Time
  lastDelay : Time
  maxDelay : Time
  minDelay : Time
  txBytes : UInt64
  rxBytes : UInt64
  txPackets : UInt32
  rxPackets : UInt32
  lostPackets : UInt32
  timesForwarded : UInt32
  delayHistogram : Histogram
  jitterHistogram : Histogram
  packetSizeHistogram : Histogram
  packetsDropped : List UInt32
  bytesDropped : List UInt64
  flowInterruptionsHistogram : Histogram
  deriving DecidableEq

namespace FlowStats

variable (attr : MonitorAttributes) (stats : FlowStats) (now : Time) (packetSize : UInt32)

/-- What GetStatsForFlow makes of a flow it does not know. -/
def new : FlowStats where
  timeFirstTxPacket := 0
  timeFirstRxPacket := 0
  timeLastTxPacket := 0
  timeLastRxPacket := 0
  delaySum := 0
  jitterSum := 0
  lastDelay := 0
  maxDelay := 0
  minDelay := Time.max
  txBytes := 0
  rxBytes := 0
  txPackets := 0
  rxPackets := 0
  lostPackets := 0
  timesForwarded := 0
  delayHistogram := .new attr.delayBinWidth
  jitterHistogram := .new attr.jitterBinWidth
  packetSizeHistogram := .new attr.packetSizeBinWidth
  packetsDropped := []
  bytesDropped := []
  flowInterruptionsHistogram := .new attr.flowInterruptionsBinWidth

/-- The end of ReportFirstTx. -/
def countTx : FlowStats :=
  let txPackets := stats.txPackets + 1
  { stats with
    txBytes := stats.txBytes + packetSize.toUInt64
    txPackets := txPackets
    timeFirstTxPacket := if txPackets = 1 then now else stats.timeFirstTxPacket
    timeLastTxPacket := now }

/-- How far a delay is from the one before it. -/
def jitter (lastDelay delay : Time) : Time :=
  if delay < lastDelay then lastDelay - delay else delay - lastDelay

/-- The middle of ReportLastRx. -/
def countRx (tracked : TrackedPacket) : FlowStats :=
  let delay := now - tracked.firstSeenTime
  let rxPackets := stats.rxPackets + 1
  let interArrivalTime := now - stats.timeLastRxPacket
  { stats with
    delaySum := stats.delaySum + delay
    delayHistogram := stats.delayHistogram.addValue (Time.getSeconds delay)
    jitterSum :=
      if 0 < stats.rxPackets then stats.jitterSum + jitter stats.lastDelay delay
      else stats.jitterSum
    jitterHistogram :=
      if 0 < stats.rxPackets then
        stats.jitterHistogram.addValue (Time.getSeconds (jitter stats.lastDelay delay))
      else stats.jitterHistogram
    lastDelay := delay
    maxDelay := if stats.maxDelay < delay then delay else stats.maxDelay
    minDelay := if delay < stats.minDelay then delay else stats.minDelay
    rxBytes := stats.rxBytes + packetSize.toUInt64
    packetSizeHistogram := stats.packetSizeHistogram.addValue packetSize.toNat
    rxPackets := rxPackets
    timeFirstRxPacket := if rxPackets = 1 then now else stats.timeFirstRxPacket
    flowInterruptionsHistogram :=
      if rxPackets ≠ 1 ∧ attr.flowInterruptionsMinTime < interArrivalTime then
        stats.flowInterruptionsHistogram.addValue (Time.getSeconds interArrivalTime)
      else stats.flowInterruptionsHistogram
    timeLastRxPacket := now
    timesForwarded := stats.timesForwarded + tracked.timesForwarded }

/-- A drop counted in packetsDropped and in bytesDropped. -/
def addDrop (dropped : List UInt32 × List UInt64) (drop : Nat × UInt32) :
    List UInt32 × List UInt64 :=
  let dropped :=
    if dropped.1.length < drop.1 + 1 then
      (enlarge dropped.1 (drop.1 + 1), enlarge dropped.2 (drop.1 + 1))
    else dropped
  (dropped.1.modify drop.1 (· + 1), dropped.2.modify drop.1 (· + drop.2.toUInt64))

/-- The middle of ReportDrop. -/
def countDrop (reasonCode : Nat) : FlowStats :=
  let dropped := addDrop (stats.packetsDropped, stats.bytesDropped) (reasonCode, packetSize)
  { stats with
    lostPackets := stats.lostPackets + 1
    packetsDropped := dropped.1
    bytesDropped := dropped.2 }

end FlowStats

/- The figures that follow from all the reports -/

/-- A packet that was received while it was tracked. -/
structure Receipt where
  delay : Time
  time : Time
  size : UInt32
  timesForwarded : UInt32
  deriving DecidableEq

/-- What was reported of a flow: the packets sent, received and dropped, each in order,
how many of the drops were of packets that were not tracked any more, and how many packets
were given up. -/
structure FlowRecord where
  sent : List (Time × UInt32)
  received : List Receipt
  drops : List (Nat × UInt32)
  late : Nat
  expired : Nat
  deriving DecidableEq

/-- What a function makes of each two neighbours of a list. -/
def neighbours (f : Time → Time → Time) (times : List Time) : List Time :=
  List.zipWith f times times.tail

def totalSize (sizes : List UInt32) : UInt64 := UInt64.ofNat (sizes.map UInt32.toNat).sum

namespace FlowRecord

def empty : FlowRecord := ⟨[], [], [], 0, 0⟩

variable (attr : MonitorAttributes) (r : FlowRecord)

def delays : List Time := r.received.map (·.delay)

def times : List Time := r.received.map (·.time)

def jitters : List Time := neighbours FlowStats.jitter r.delays

def interruptions : List Time :=
  (neighbours (fun last now => now - last) r.times).filter (attr.flowInterruptionsMinTime < ·)

def stats : FlowStats where
  timeFirstTxPacket := (r.sent.map (·.1)).headD 0
  timeFirstRxPacket := r.times.headD 0
  timeLastTxPacket := (r.sent.map (·.1)).getLastD 0
  timeLastRxPacket := r.times.getLastD 0
  delaySum := r.delays.sum
  jitterSum := r.jitters.sum
  lastDelay := r.delays.getLastD 0
  maxDelay := r.delays.foldl max 0
  minDelay := r.delays.foldl min Time.max
  txBytes := totalSize (r.sent.map (·.2))
  rxBytes := totalSize (r.received.map (·.size))
  txPackets := UInt32.ofNat r.sent.length
  rxPackets := UInt32.ofNat r.received.length
  lostPackets := UInt32.ofNat (r.drops.length + r.expired)
  timesForwarded := UInt32.ofNat (r.received.map (·.timesForwarded.toNat)).sum
  delayHistogram := (r.delays.map Time.getSeconds).foldl .addValue (.new attr.delayBinWidth)
  jitterHistogram := (r.jitters.map Time.getSeconds).foldl .addValue (.new attr.jitterBinWidth)
  packetSizeHistogram :=
    (r.received.map fun receipt => (receipt.size.toNat : ℚ)).foldl .addValue
      (.new attr.packetSizeBinWidth)
  packetsDropped := (r.drops.foldl FlowStats.addDrop ([], [])).1
  bytesDropped := (r.drops.foldl FlowStats.addDrop ([], [])).2
  flowInterruptionsHistogram :=
    ((r.interruptions attr).map Time.getSeconds).foldl .addValue
      (.new attr.flowInterruptionsBinWidth)

end FlowRecord

section

variable {attr : MonitorAttributes} {r : FlowRecord} {now : Time} {packetSize : UInt32}

theorem neighbours_snoc (f : Time → Time → Time) (times : List Time) (now : Time) :
    neighbours f (times ++ [now]) =
      neighbours f times ++ if times = [] then [] else [f (times.getLastD 0) now] := by
  induction times with
  | nil => rfl
  | cons first times ih =>
    cases times with
    | nil => rfl
    | cons second rest =>
      have later := congrArg (f first second :: ·) ih
      simpa [neighbours] using later

theorem totalSize_snoc (sizes : List UInt32) (size : UInt32) :
    totalSize (sizes ++ [size]) = totalSize sizes + size.toUInt64 := by
  unfold totalSize
  rw [List.map_append, List.sum_append, UInt64.ofNat_add]
  simp

theorem ofNat_eq_one {n : Nat} (few : n + 1 < 2 ^ 32) : UInt32.ofNat n + 1 = 1 ↔ n = 0 := by
  rw [← UInt32.ofNat_one, ← UInt32.ofNat_add, ← UInt32.toNat_inj,
    UInt32.toNat_ofNat_of_lt' few, UInt32.toNat_ofNat_of_lt' (by decide)]
  omega

theorem ofNat_pos {n : Nat} (few : n < 2 ^ 32) : 0 < UInt32.ofNat n ↔ 0 < n := by
  rw [UInt32.lt_iff_toNat_lt, UInt32.toNat_ofNat_of_lt' few]
  rfl

theorem headD_snoc {times : List Time} {p : Prop} [Decidable p] (start : p ↔ times = []) :
    (times ++ [now]).headD 0 = if p then now else times.headD 0 := by
  cases times with
  | nil => rw [if_pos (start.mpr rfl)]; rfl
  | cons first rest => rw [if_neg fun first => by cases start.mp first]; rfl

theorem first_packet {α : Type} {packets : List α} (few : packets.length + 1 < 2 ^ 32) :
    UInt32.ofNat packets.length + 1 = 1 ↔ packets = [] := by
  rw [ofNat_eq_one few, List.length_eq_zero_iff]

namespace FlowRecord

theorem stats_countTx (few : r.sent.length + 1 < 2 ^ 32) :
    (r.stats attr).countTx now packetSize =
      { r with sent := r.sent ++ [(now, packetSize)] }.stats attr := by
  refine FlowStats.ext ?_ rfl ?_ rfl rfl rfl rfl rfl rfl ?_ rfl ?_ rfl rfl rfl rfl rfl rfl rfl rfl rfl
  · show (if UInt32.ofNat r.sent.length + 1 = 1 then now else (r.sent.map (·.1)).headD 0) =
      ((r.sent ++ [(now, packetSize)]).map (·.1)).headD 0
    rw [List.map_append, List.map_singleton,
      headD_snoc (List.map_eq_nil_iff.trans (first_packet few).symm).symm]
  · show now = ((r.sent ++ [(now, packetSize)]).map (·.1)).getLastD 0
    rw [List.map_append, List.map_singleton, List.getLastD_concat]
  · show totalSize (r.sent.map (·.2)) + packetSize.toUInt64 =
      totalSize ((r.sent ++ [(now, packetSize)]).map (·.2))
    rw [List.map_append, List.map_singleton, totalSize_snoc]
  · show UInt32.ofNat r.sent.length + 1 = UInt32.ofNat (r.sent ++ [(now, packetSize)]).length
    rw [List.length_append, List.length_singleton, UInt32.ofNat_add, UInt32.ofNat_one]

theorem stats_countDrop (reasonCode : Nat) (late : Nat) :
    (r.stats attr).countDrop packetSize reasonCode =
      { r with drops := r.drops ++ [(reasonCode, packetSize)], late := late }.stats attr := by
  have dropped : (r.drops ++ [(reasonCode, packetSize)]).foldl FlowStats.addDrop ([], []) =
      FlowStats.addDrop (r.drops.foldl FlowStats.addDrop ([], [])) (reasonCode, packetSize) := by
    rw [List.foldl_append, List.foldl_cons, List.foldl_nil]
  refine FlowStats.ext rfl rfl rfl rfl rfl rfl rfl rfl rfl rfl rfl rfl rfl ?_ rfl rfl rfl rfl
    (congrArg (·.1) dropped).symm (congrArg (·.2) dropped).symm rfl
  show UInt32.ofNat (r.drops.length + r.expired) + 1 =
    UInt32.ofNat ((r.drops ++ [(reasonCode, packetSize)]).length + r.expired)
  rw [List.length_append, List.length_singleton, ← UInt32.ofNat_one, ← UInt32.ofNat_add]
  congr 1
  omega

section

variable (receipt : Receipt)

theorem delays_snoc : ({ r with received := r.received ++ [receipt] } : FlowRecord).delays =
    r.delays ++ [receipt.delay] := by
  unfold delays
  rw [List.map_append, List.map_singleton]

theorem times_snoc : ({ r with received := r.received ++ [receipt] } : FlowRecord).times =
    r.times ++ [receipt.time] := by
  unfold times
  rw [List.map_append, List.map_singleton]

theorem jitters_snoc : ({ r with received := r.received ++ [receipt] } : FlowRecord).jitters =
    r.jitters ++
      if r.received = [] then [] else [FlowStats.jitter (r.delays.getLastD 0) receipt.delay] := by
  have none_yet : r.delays = [] ↔ r.received = [] := List.map_eq_nil_iff
  unfold jitters
  rw [delays_snoc, neighbours_snoc]
  simp only [none_yet]

theorem interruptions_snoc :
    ({ r with received := r.received ++ [receipt] } : FlowRecord).interruptions attr =
      r.interruptions attr ++
        if r.received ≠ [] ∧ attr.flowInterruptionsMinTime < receipt.time - r.times.getLastD 0 then
          [receipt.time - r.times.getLastD 0]
        else [] := by
  have none_yet : r.times = [] ↔ r.received = [] := List.map_eq_nil_iff
  unfold interruptions
  rw [times_snoc, neighbours_snoc, List.filter_append]
  simp only [none_yet]
  by_cases first : r.received = []
  · rw [if_pos first, if_neg fun both => both.1 first]
    rfl
  · rw [if_neg first, List.filter_singleton]
    simp only [first, ne_eq, not_false_eq_true, true_and, Bool.cond_decide]

end

theorem stats_countRx (few : r.received.length + 1 < 2 ^ 32) (tracked : TrackedPacket) :
    (r.stats attr).countRx attr now packetSize tracked =
      { r with received := r.received ++
        [(⟨now - tracked.firstSeenTime, now, packetSize, tracked.timesForwarded⟩ : Receipt)] }.stats
          attr := by
  generalize found :
    (⟨now - tracked.firstSeenTime, now, packetSize, tracked.timesForwarded⟩ : Receipt) = receipt
  have again : 0 < UInt32.ofNat r.received.length ↔ r.received ≠ [] := by
    rw [ofNat_pos (by omega), ← List.length_pos_iff]
  have first : UInt32.ofNat r.received.length + 1 = 1 ↔ r.received = [] := first_packet few
  have delay : now - tracked.firstSeenTime = receipt.delay := by rw [← found]
  have time : now = receipt.time := by rw [← found]
  have size : packetSize = receipt.size := by rw [← found]
  have hops : tracked.timesForwarded = receipt.timesForwarded := by rw [← found]
  refine FlowStats.ext rfl ?_ rfl ?_ ?_ ?_ ?_ ?_ ?_ rfl ?_ rfl ?_ rfl ?_ ?_ ?_ ?_ rfl rfl ?_
  all_goals unfold FlowStats.countRx stats; dsimp only
  · have none_yet : r.times = [] ↔ r.received = [] := List.map_eq_nil_iff
    rw [times_snoc, headD_snoc (first.trans none_yet.symm), time]
  · rw [times_snoc, List.getLastD_concat, time]
  · rw [delays_snoc, List.sum_append, List.sum_singleton, delay]
  · rw [jitters_snoc, delay]
    by_cases alone : r.received = []
    · rw [if_neg fun more => again.mp more alone, if_pos alone, List.append_nil]
    · rw [if_pos (again.mpr alone), if_neg alone, List.sum_append, List.sum_singleton]
  · rw [delays_snoc, List.getLastD_concat, delay]
  · rw [delays_snoc, List.foldl_append, delay]
    exact (max_def_lt _ _).symm
  · rw [delays_snoc, List.foldl_append, delay]
    exact ((min_comm _ _).trans (min_def_lt _ _)).symm
  · rw [List.map_append, List.map_singleton, totalSize_snoc, size]
  · rw [List.length_append, List.length_singleton, UInt32.ofNat_add, UInt32.ofNat_one]
  · rw [List.map_append, List.map_singleton, List.sum_append, List.sum_singleton,
      UInt32.ofNat_add, UInt32.ofNat_toNat, hops]
  · rw [delays_snoc, List.map_append, List.map_singleton, List.foldl_append, delay]
    rfl
  · rw [jitters_snoc, delay]
    by_cases alone : r.received = []
    · rw [if_neg fun more => again.mp more alone, if_pos alone, List.append_nil]
    · rw [if_pos (again.mpr alone), if_neg alone, List.map_append, List.map_singleton,
        List.foldl_append]
      rfl
  · rw [List.map_append, List.map_singleton, List.foldl_append, size]
    rfl
  · rw [interruptions_snoc, time]
    by_cases gap : r.received ≠ [] ∧
        attr.flowInterruptionsMinTime < receipt.time - r.times.getLastD 0
    · rw [if_pos gap, if_pos ⟨fun one => gap.1 (first.mp one), gap.2⟩, List.map_append,
        List.map_singleton, List.foldl_append]
      rfl
    · rw [if_neg gap, if_neg fun both => gap ⟨fun none_yet => both.1 (first.mpr none_yet), both.2⟩,
        List.append_nil]

end FlowRecord

end

/- What the figures say of the packets -/

end QbbNet
