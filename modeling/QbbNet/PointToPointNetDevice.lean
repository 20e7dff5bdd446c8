import QbbNet.Simulator
import QbbNet.DropTailQueue
import QbbNet.TimeConversions

set_option autoImplicit false

namespace QbbNet

/-- PointToPointNetDevice::EtherToPpp. Any other protocol number fails an assertion. -/
def etherToPpp (proto : UInt16) : UInt16 :=
  if proto = 0x0800 then 0x0021
  else if proto = 0x86DD then 0x0057
  else if proto = 0x9000 then 0x9000
  else 0

/-- PointToPointNetDevice::PppToEther -/
def pppToEther (proto : UInt16) : UInt16 :=
  if proto = 0x0021 then 0x0800
  else if proto = 0x0057 then 0x86DD
  else if proto = 0x9000 then 0x9000
  else 0

inductive TxMachineState
  | ready
  | busy
  deriving DecidableEq

/-- Where the base device hands received packets up. -/
inductive RxCallback
  | nonPromiscReceiveFromDevice
  | l3Swallow
  deriving DecidableEq

/-- The attributes of a device, and the limits of its transmit queue. -/
structure Attributes where
  pfcEnable : Bool
  pfcHighPkts : Nat
  pfcLowPkts : Nat
  defaultQuanta : UInt16
  avgPktSize : Nat
  dataRate : Nat
  interframeGap : Time
  maxSize : QueueSize

namespace Attributes

def calculateBytesTxTime (attr : Attributes) (bytes : Nat) : Time :=
  DataRate.calculateBytesTxTime attr.dataRate bytes

/-- QbbNetDevice::GetBitTime -/
def getBitTime (attr : Attributes) : ℚ :=
  let br := toDouble attr.dataRate
  toDouble (if 0 < br then 1 / br else 1 / 1000000000)

/-- The pause that HandleMacRx takes quanta for, `Seconds(q * 512.0 * bt)`. -/
def quantaTime (attr : Attributes) (quanta : UInt16) : Time :=
  Time.seconds (toDouble (quanta.toNat * 512 * attr.getBitTime))

/-- What a bit takes, in nanoseconds. Without a data rate it is taken for one. -/
def bitTime (attr : Attributes) : ℚ :=
  if attr.dataRate = 0 then 1 else 1000000000 / attr.dataRate

variable {attr : Attributes}

@[simp] theorem quantaTime_zero (attr : Attributes) : attr.quantaTime 0 = 0 := by
  simp [quantaTime]

/-- The bit time comes out of two roundings, that of the data rate and that of its inverse. -/
theorem getBitTime_rounded (fits : attr.dataRate < 2 ^ 64) :
    Rounded 2 (attr.bitTime / 1000000000) attr.getBitTime ∧ Moderate 66 attr.getBitTime := by
  rcases Nat.eq_zero_or_pos attr.dataRate with none_given | positive
  · have same : attr.getBitTime = toDouble (1 / 1000000000) := by simp [getBitTime, none_given]
    have moderate : Moderate 64 (1 / 1000000000) := .inr ⟨by norm_num, by norm_num⟩
    obtain ⟨rounded, moderate⟩ := moderate.toDouble (by norm_num)
    rw [same, bitTime, if_pos none_given]
    exact ⟨rounded.mono (by norm_num) (by norm_num), moderate.mono (by norm_num)⟩
  · have least : (1 : ℚ) ≤ attr.dataRate := by exact_mod_cast positive
    have most : (attr.dataRate : ℚ) ≤ 2 ^ 64 := by exact_mod_cast fits.le
    have exact : attr.bitTime / 1000000000 = 1 / attr.dataRate := by
      rw [bitTime, if_neg positive.ne']
      ring
    have moderate : Moderate 64 (attr.dataRate : ℚ) := .inr ⟨by linarith, most⟩
    obtain ⟨rate, moderate⟩ := moderate.toDouble (by norm_num)
    have br : 0 < toDouble attr.dataRate := rate.pos (by linarith)
    obtain ⟨inverse, moderate⟩ := moderate.one_div.toDouble (by norm_num)
    rw [exact, getBitTime, if_pos br]
    exact ⟨(rate.one_div (by linarith) br).trans inverse, moderate⟩

/-- A pause is as many nanoseconds as its bits take, but for half a nanosecond, what
the fixed point loses and three roundings. -/
theorem quantaTime_near (quanta : UInt16) (fits : attr.dataRate < 2 ^ 64) :
    |(attr.quantaTime quanta : ℚ) - 512 * quanta.toNat * attr.bitTime| ≤
      1 / 2 + 1 / 2 ^ 35 + 512 * quanta.toNat * attr.bitTime / 2 ^ 50 := by
  obtain ⟨rounded, moderate⟩ := getBitTime_rounded fits
  have bits : Moderate 25 ((quanta.toNat : ℚ) * 512) := by
    rcases Nat.eq_zero_or_pos quanta.toNat with zero | positive
    · exact .inl (by rw [zero, Nat.cast_zero, zero_mul])
    · have least : (1 : ℚ) ≤ quanta.toNat := by exact_mod_cast positive
      have most : (quanta.toNat : ℚ) ≤ 65535 := by exact_mod_cast Nat.le_of_lt_succ quanta.toNat_lt
      exact .inr ⟨by linarith, by linarith⟩
  have bit_nonneg : 0 ≤ attr.bitTime / 1000000000 := by
    unfold bitTime
    split <;> positivity
  have nonneg : 0 ≤ quanta.toNat * 512 * (attr.bitTime / 1000000000) :=
    mul_nonneg bits.nonneg bit_nonneg
  obtain ⟨last, pause⟩ := (bits.mul moderate).toDouble (by norm_num)
  have near := abs_le.mp (((rounded.mul_left bits.nonneg).trans last).abs_sub_le nonneg)
  have factor : roundingFactor ^ (2 + 1) - 1 ≤ 1 / 2 ^ 50 := by norm_num [roundingFactor]
  have lost := mul_le_mul_of_nonneg_left factor nonneg
  have converted := abs_le.mp (Time.abs_seconds_sub_le pause.nonneg)
  rw [quantaTime, abs_le]
  constructor <;> linarith

end Attributes

/-- The devices, the node each is installed on, and the channels between them.
A device without a `peer` receives from something outside the model. -/
structure Config (ι ν : Type) where
  attr : ι → Attributes
  node : ι → ν
  ifIndex : ι → Nat
  devices : ν → List ι
  peer : ι → Option ι
  delay : ι → Time
  mem_devices : ∀ i v, i ∈ devices v ↔ node i = v
  ifIndex_injective : ∀ i j, node i = node j → ifIndex i = ifIndex j → i = j
  peer_symm : ∀ i j, peer i = some j → peer j = some i
  peer_ne : ∀ i j, peer i = some j → i ≠ j

inductive Event (ι : Type)
  | tryDequeue (i : ι)
  | doIngressDrain (i : ι)
  | resumeFromPause (i : ι) (prio : Fin 8)
  | refillMacQueueFromHold (i : ι) (prio : Fin 8)
  | transmitComplete (i : ι)
  | receive (i : ι) (p : Packet)
  | hookL3Divert (i : ι)
  deriving DecidableEq

/-- The fields from `phyTxBegin` on are what the trace sources have recorded so
far; nothing reads them. -/
structure PointToPointNetDevice where
  linkUp : Bool
  txMachineState : TxMachineState
  currentPkt : Option Packet
  queue : DropTailQueue
  rxCallback : RxCallback
  phyTxBegin : List (Time × Packet)
  macTxDrop : List Packet
  queueDrop : List Packet
  phyRxDrop : List Packet

namespace PointToPointNetDevice

variable {ι ν : Type} (cfg : Config ι ν) (i : ι)

/-- The channel delivers a copy to the other end after the transmission and
propagation times, and always reports success. -/
def transmitStart (p : Packet) (sim : Simulator (Event ι)) (d : PointToPointNetDevice) :
    Simulator (Event ι) × PointToPointNetDevice :=
  let txTime := (cfg.attr i).calculateBytesTxTime p.getSize
  let completed := (sim.schedule (txTime + (cfg.attr i).interframeGap) (.transmitComplete i)).2
  let delivered := match cfg.peer i with
    | some other => (completed.schedule (txTime + cfg.delay i) (.receive other p)).2
    | none => completed
  (delivered, { d with
    txMachineState := .busy
    currentPkt := some p
    phyTxBegin := d.phyTxBegin ++ [(sim.currentTs, p)] })

def transmitComplete (sim : Simulator (Event ι)) (d : PointToPointNetDevice) :
    Simulator (Event ι) × PointToPointNetDevice :=
  let d := { d with txMachineState := .ready, currentPkt := none }
  match d.queue.dequeue with
  | none => (sim, d)
  | some (p, q) => transmitStart cfg i p sim { d with queue := q }

/-- The result is false when the packet was not queued. -/
def send (p : Packet) (protocol : UInt16) (sim : Simulator (Event ι)) (d : PointToPointNetDevice) :
    Bool × Simulator (Event ι) × PointToPointNetDevice :=
  if d.linkUp = false then (false, sim, { d with macTxDrop := d.macTxDrop ++ [p] })
  else
    let p := p.addPpp (etherToPpp protocol)
    match d.queue.enqueue p with
    | some q =>
        match d.txMachineState, q.dequeue with
        | .ready, some (first, q) => (true, transmitStart cfg i first sim { d with queue := q })
        | _, _ => (true, sim, { d with queue := q })
    | none =>
        (false, sim, { d with
          queueDrop := d.queueDrop ++ [p]
          macTxDrop := d.macTxDrop ++ [p] })

end PointToPointNetDevice

end QbbNet
