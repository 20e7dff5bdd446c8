import Mathlib.Data.Rat.Defs
import Mathlib.Algebra.Order.Field.Rat
import Mathlib.Algebra.BigOperators.Group.List.Basic
import Mathlib.Tactic.Common

set_option autoImplicit false

/- The samples of the queue lengths that a run of GetStatus takes, and the totals that
are kept between them for the whole process. A double is the number it stands for. -/
namespace QbbNet

structure DevStats where
  txBytes : UInt64
  queueSnapshots : List ℚ

/-- What the samplers read and write of a link. A queue that is there has a number of
packets in it. -/
structure SampledLink where
  sa : DevStats
  sb : DevStats
  dataRateBps : UInt64
  queueA : Option UInt32
  queueB : Option UInt32
  lastTxBytesTotal : UInt64
  lastSampleTime : ℚ
  utilSnapshots : List ℚ
  sampleTimestamps : List ℚ

structure SubSampleAccumulator where
  queueA_sum : List UInt64
  queueB_sum : List UInt64
  count : UInt32

def SubSampleAccumulator.new : SubSampleAccumulator := ⟨[], [], 0⟩

/-- The two globals. -/
structure Samplers where
  g_allLinksPtr : Option (List SampledLink)
  g_subSampleAccum : SubSampleAccumulator

/-- `v.resize(n, 0)` -/
def resize (n : Nat) (v : List UInt64) : List UInt64 := v.take n ++ List.replicate (n - v.length) 0

/-- `sums[i] += lengths[i]` for each i. A length without a sum is an index out of range. -/
def addLengths : List UInt64 → List UInt32 → Option (List UInt64)
  | sums, [] => some sums
  | [], _ :: _ => none
  | sum :: sums, q :: lengths => (addLengths sums lengths).map ((sum + q.toUInt64) :: ·)

/-- The first sub-sample makes room for all links. -/
def SubSampleAccumulator.grow (a : SubSampleAccumulator) (size : Nat) : SubSampleAccumulator :=
  if a.queueA_sum = [] then
    { a with queueA_sum := resize size a.queueA_sum, queueB_sum := resize size a.queueB_sum }
  else a

def Samplers.recordAllQueuesAtSubPoint (s : Samplers) : Option Samplers :=
  match s.g_allLinksPtr with
  | none => some s
  | some links =>
      let a := s.g_subSampleAccum.grow links.length
      match addLengths a.queueA_sum (links.map (·.queueA.getD 0)),
          addLengths a.queueB_sum (links.map (·.queueB.getD 0)) with
      | some sumsA, some sumsB =>
          some { s with g_subSampleAccum := ⟨sumsA, sumsB, a.count + 1⟩ }
      | _, _ => none

/-- The queue length that is recorded: the mean of the sub-samples, the present length
if there are none. -/
def recordedLength (sums : List UInt64) (count : UInt32) (i : Nat) (queue : Option UInt32) :
    Option ℚ :=
  if 0 < count then (sums[i]?).map fun sum => (sum.toNat : ℚ) / count.toNat
  else some ((queue.getD 0).toNat : ℚ)

def SampledLink.utilStep (link : SampledLink) (now : ℚ) (currTxTotal : UInt64) : ℚ :=
  if link.lastSampleTime < 0 then 0
  else
    let dt := now - link.lastSampleTime
    let capBytesBoth := 2 * ((link.dataRateBps.toNat : ℚ) / 8 * dt)
    let deltaBytes := ((currTxTotal - link.lastTxBytesTotal).toNat : ℚ)
    if 0 < dt ∧ 0 < capBytesBoth then min 100 (max 0 (100 * deltaBytes / capBytesBoth)) else 0

/-- What RecordAllQueues does with a link, whose queues have the lengths qA and qB. -/
def SampledLink.record (link : SampledLink) (now qA qB : ℚ) : SampledLink :=
  let currTxTotal := link.sa.txBytes + link.sb.txBytes
  { link with
    sampleTimestamps := link.sampleTimestamps ++ [now]
    sa := { link.sa with queueSnapshots := link.sa.queueSnapshots ++ [qA] }
    sb := { link.sb with queueSnapshots := link.sb.queueSnapshots ++ [qB] }
    utilSnapshots := link.utilSnapshots ++ [link.utilStep now currTxTotal]
    lastSampleTime := now
    lastTxBytesTotal := currTxTotal }

/-- The loop of RecordAllQueues from link i on. -/
def recordLinks (a : SubSampleAccumulator) (now : ℚ) :
    Nat → List SampledLink → Option (List SampledLink)
  | _, [] => some []
  | i, link :: links =>
      match recordedLength a.queueA_sum a.count i link.queueA,
          recordedLength a.queueB_sum a.count i link.queueB with
      | some qA, some qB => (recordLinks a now (i + 1) links).map (link.record now qA qB :: ·)
      | _, _ => none

def Samplers.recordAllQueues (s : Samplers) (now : ℚ) : Option Samplers :=
  match s.g_allLinksPtr with
  | none => some s
  | some links =>
      (recordLinks s.g_subSampleAccum now 0 links).map fun recorded =>
        { g_allLinksPtr := some recorded
          g_subSampleAccum :=
            { queueA_sum := List.replicate links.length 0
              queueB_sum := List.replicate links.length 0
              count := 0 } }

/-- What the simulation makes of a link between two samples. -/
structure Traffic where
  queueA : Option UInt32
  queueB : Option UInt32
  txBytesA : UInt64
  txBytesB : UInt64

def SampledLink.carry (link : SampledLink) (traffic : Traffic) : SampledLink :=
  { link with
    queueA := traffic.queueA
    queueB := traffic.queueB
    sa := { link.sa with txBytes := traffic.txBytesA }
    sb := { link.sb with txBytes := traffic.txBytesB } }

inductive SamplingEvent where
  | simulate (traffic : Nat → Traffic)
  | recordAllQueuesAtSubPoint
  | recordAllQueues (now : ℚ)

def SamplingEvent.samples : SamplingEvent → Bool
  | .simulate _ => false
  | .recordAllQueuesAtSubPoint => true
  | .recordAllQueues _ => true

def Samplers.step (s : Samplers) : SamplingEvent → Option Samplers
  | .simulate traffic =>
      some { s with g_allLinksPtr :=
        s.g_allLinksPtr.map (·.mapIdx fun i link => link.carry (traffic i)) }
  | .recordAllQueuesAtSubPoint => s.recordAllQueuesAtSubPoint
  | .recordAllQueues now => s.recordAllQueues now

/-- A call of GetStatus that simulates: its links, and the events until it returns. -/
structure GetStatusRun where
  links : List SampledLink
  events : List SamplingEvent

/-- The events of a run, of which the totals are there at its start. -/
def Samplers.simulate (a : SubSampleAccumulator) (links : List SampledLink)
    (events : List SamplingEvent) : Option Samplers :=
  events.foldlM Samplers.step ⟨some links, a⟩

/-- `g_allLinksPtr = nullptr` ends a run. Only the totals stay. -/
def GetStatusRun.execute (a : SubSampleAccumulator) (run : GetStatusRun) :
    Option SubSampleAccumulator :=
  (Samplers.simulate a run.links run.events).map (·.g_subSampleAccum)

/-- The runs of a process, one after the other. -/
def executeRuns (runs : List GetStatusRun) : Option SubSampleAccumulator :=
  runs.foldlM GetStatusRun.execute .new

/- What the samples ought to be -/

inductive Side where
  | A
  | B

def SampledLink.queue (link : SampledLink) : Side → Option UInt32
  | .A => link.queueA
  | .B => link.queueB

def SampledLink.stats (link : SampledLink) : Side → DevStats
  | .A => link.sa
  | .B => link.sb

def Traffic.queue (traffic : Traffic) : Side → Option UInt32
  | .A => traffic.queueA
  | .B => traffic.queueB

def SubSampleAccumulator.sums (a : SubSampleAccumulator) : Side → List UInt64
  | .A => a.queueA_sum
  | .B => a.queueB_sum

/-- One queue in a run: its length, the sub-samples since the last record, and the
snapshots that are due. -/
structure QueueHistory where
  length : UInt32
  subSamples : List UInt32
  snapshots : List ℚ

def QueueHistory.snapshot (h : QueueHistory) : ℚ :=
  if h.subSamples = [] then h.length.toNat
  else ((h.subSamples.map UInt32.toNat).sum : ℚ) / h.subSamples.length

def QueueHistory.start (side : Side) : Option SampledLink → QueueHistory
  | none => ⟨0, [], []⟩
  | some link => ⟨(link.queue side).getD 0, [], (link.stats side).queueSnapshots⟩

def QueueHistory.next (side : Side) (i : Nat) (h : QueueHistory) : SamplingEvent → QueueHistory
  | .simulate traffic => { h with length := ((traffic i).queue side).getD 0 }
  | .recordAllQueuesAtSubPoint => { h with subSamples := h.subSamples ++ [h.length] }
  | .recordAllQueues _ => { h with subSamples := [], snapshots := h.snapshots ++ [h.snapshot] }

def history (side : Side) (links : List SampledLink) (events : List SamplingEvent) (i : Nat) :
    QueueHistory :=
  events.foldl (QueueHistory.next side i) (.start side links[i]?)

/-- The sub-samples since the last record. -/
def pending (events : List SamplingEvent) : Nat :=
  events.foldl (fun n event =>
    match event with
    | .simulate _ => n
    | .recordAllQueuesAtSubPoint => n + 1
    | .recordAllQueues _ => 0) 0

/-- In every state of the run the indices are in range, each total has as many entries
as there are links as soon as it is used, and every snapshot is the one due. -/
def GetStatusRun.Exact (run : GetStatusRun) (a : SubSampleAccumulator) : Prop :=
  ∀ done rest, run.events = done ++ rest →
    ∃ s links, Samplers.simulate a run.links done = some s ∧ s.g_allLinksPtr = some links ∧
      (done.any SamplingEvent.samples = true → run.links ≠ [] →
        ∀ side, (s.g_subSampleAccum.sums side).length = run.links.length) ∧
      links.length = run.links.length ∧
      ∀ i link, links[i]? = some link → ∀ side,
        (link.stats side).queueSnapshots = (history side run.links done i).snapshots

/-- A run's first sample finds no sub-samples, and totals of no entries or of one for
each link unless it is a record. -/
def SubSampleAccumulator.ready (a : SubSampleAccumulator) (links : List SampledLink) :
    SamplingEvent → Prop
  | .simulate _ => True
  | .recordAllQueuesAtSubPoint =>
      a.count = 0 ∧ (links = [] ∨ a.queueA_sum = [] ∨ a.queueA_sum.length = links.length)
  | .recordAllQueues _ => a.count = 0

/-- The run starts its samples with clean totals, and takes fewer than 2^32 sub-samples
between two records. -/
def GetStatusRun.Clean (run : GetStatusRun) (a : SubSampleAccumulator) : Prop :=
  ∀ done event rest, run.events = done ++ event :: rest →
    (done.any SamplingEvent.samples = false → a.ready run.links event) ∧
      pending (done ++ [event]) < 4294967296

end QbbNet
