import QbbNet.FlowStats

set_option autoImplicit false

/- FlowMonitor: the packets on their way and the figures of their flows. -/
namespace QbbNet

abbrev PacketKey := FlowId × FlowPacketId

structure FlowMonitor where
  attr : MonitorAttributes
  enabled : Bool
  flowStats : AList fun _ : FlowId => FlowStats
  trackedPackets : AList fun _ : PacketKey => TrackedPacket

/-- The calls that the probes and the program make. -/
inductive FlowReport
  | firstTx (flowId : FlowId) (packetId : FlowPacketId) (packetSize : UInt32)
  | forwarding (flowId : FlowId) (packetId : FlowPacketId)
  | lastRx (flowId : FlowId) (packetId : FlowPacketId) (packetSize : UInt32)
  | drop (flowId : FlowId) (packetId : FlowPacketId) (packetSize : UInt32) (reasonCode : Nat)
  | checkForLostPackets (maxDelay : Time)
  | startRightNow
  | stopRightNow
  deriving DecidableEq

namespace FlowMonitor

def new (attr : MonitorAttributes) : FlowMonitor := ⟨attr, false, ∅, ∅⟩

variable (m : FlowMonitor) (now : Time) (flowId : FlowId) (packetId : FlowPacketId)
  (packetSize : UInt32)

def getStatsForFlow : FlowStats := (m.flowStats.lookup flowId).getD (.new m.attr)

def reportFirstTx : FlowMonitor :=
  if m.enabled = false then m
  else
    { m with
      trackedPackets := m.trackedPackets.insert (flowId, packetId) ⟨now, now, 0⟩
      flowStats := m.flowStats.insert flowId ((m.getStatsForFlow flowId).countTx now packetSize) }

/-- The size goes to the probe's own figures only. -/
def reportForwarding : FlowMonitor :=
  if m.enabled = false then m
  else
    match m.trackedPackets.lookup (flowId, packetId) with
    | none => m
    | some tracked =>
        let tracked :=
          { tracked with timesForwarded := tracked.timesForwarded + 1, lastSeenTime := now }
        { m with trackedPackets := m.trackedPackets.insert (flowId, packetId) tracked }

def reportLastRx : FlowMonitor :=
  if m.enabled = false then m
  else
    match m.trackedPackets.lookup (flowId, packetId) with
    | none => m
    | some tracked =>
        { m with
          flowStats := m.flowStats.insert flowId
            ((m.getStatsForFlow flowId).countRx m.attr now packetSize tracked)
          trackedPackets := m.trackedPackets.erase (flowId, packetId) }

def reportDrop (reasonCode : Nat) : FlowMonitor :=
  if m.enabled = false then m
  else
    { m with
      flowStats :=
        m.flowStats.insert flowId ((m.getStatsForFlow flowId).countDrop packetSize reasonCode)
      trackedPackets := m.trackedPackets.erase (flowId, packetId) }

/-- A packet is considered lost. A flow without figures fails an assertion. -/
def giveUp (key : PacketKey) : Option FlowMonitor :=
  (m.flowStats.lookup key.1).map fun stats =>
    { m with
      flowStats := m.flowStats.insert key.1 { stats with lostPackets := stats.lostPackets + 1 }
      trackedPackets := m.trackedPackets.erase key }

def overdue (maxDelay : Time) (tracked : TrackedPacket) : Bool :=
  decide (maxDelay ≤ now - tracked.lastSeenTime)

def checkForLostPackets (maxDelay : Time) : Option FlowMonitor :=
  m.trackedPackets.entries.foldlM
    (fun (m : FlowMonitor) entry => if overdue now maxDelay entry.2 then m.giveUp entry.1 else some m)
    m

def startRightNow : FlowMonitor := if m.enabled then m else { m with enabled := true }

def stopRightNow : Option FlowMonitor :=
  if m.enabled = false then some m
  else { m with enabled := false }.checkForLostPackets now m.attr.maxPerHopDelay

def report : FlowReport → Option FlowMonitor
  | .firstTx flowId packetId packetSize => some (m.reportFirstTx now flowId packetId packetSize)
  | .forwarding flowId packetId => some (m.reportForwarding now flowId packetId)
  | .lastRx flowId packetId packetSize => some (m.reportLastRx now flowId packetId packetSize)
  | .drop flowId packetId packetSize reasonCode =>
      some (m.reportDrop flowId packetId packetSize reasonCode)
  | .checkForLostPackets maxDelay => m.checkForLostPackets now maxDelay
  | .startRightNow => some m.startRightNow
  | .stopRightNow => m.stopRightNow now

/- The records that the figures are of -/

variable (records : FlowId → FlowRecord)

/-- How many packets of a flow are overdue. -/
def givenUp (maxDelay : Time) : Nat :=
  m.trackedPackets.entries.countP fun entry =>
    decide (entry.1.1 = flowId) && overdue now maxDelay entry.2

def inFlight : Nat := m.trackedPackets.keys.countP fun key => decide (key.1 = flowId)

def expire (maxDelay : Time) : FlowId → FlowRecord := fun flowId =>
  { records flowId with expired := (records flowId).expired + m.givenUp now flowId maxDelay }

def record : FlowReport → FlowId → FlowRecord
  | .firstTx flowId _ packetSize =>
      if m.enabled = false then records
      else Function.update records flowId
        { records flowId with sent := (records flowId).sent ++ [(now, packetSize)] }
  | .lastRx flowId packetId packetSize =>
      if m.enabled = false then records
      else
        match m.trackedPackets.lookup (flowId, packetId) with
        | none => records
        | some tracked => Function.update records flowId
            { records flowId with
              received := (records flowId).received ++
                [⟨now - tracked.firstSeenTime, now, packetSize, tracked.timesForwarded⟩] }
  | .drop flowId packetId packetSize reasonCode =>
      if m.enabled = false then records
      else Function.update records flowId
        { records flowId with
          drops := (records flowId).drops ++ [(reasonCode, packetSize)]
          late := (records flowId).late +
            if (flowId, packetId) ∈ m.trackedPackets then 0 else 1 }
  | .checkForLostPackets maxDelay => m.expire now records maxDelay
  | .stopRightNow => if m.enabled = false then records else m.expire now records m.attr.maxPerHopDelay
  | .forwarding _ _ | .startRightNow => records

end FlowMonitor

/-- The record accounts for every packet of its flow: one that was sent is received, dropped,
given up or still tracked, except that a late drop counts once more. `seen` are the packets
that were reported as sent, and `n` is the number of reports. -/
structure FlowRecord.Balanced (r : FlowRecord) (flowId : FlowId) (seen : List (PacketKey × Time))
    (n inFlight : Nat) : Prop where
  receipts : ∀ receipt ∈ r.received, ∃ packetId sentAt,
    ((flowId, packetId), sentAt) ∈ seen ∧ receipt.delay = receipt.time - sentAt
  few : r.sent.length + r.received.length + r.drops.length ≤ n
  late : r.late ≤ r.drops.length
  balance : r.sent.length + r.late = r.received.length + r.drops.length + r.expired + inFlight

/-- The figures are those of the records, and the records account for every packet. -/
structure FlowMonitor.Audited (m : FlowMonitor) (records : FlowId → FlowRecord)
    (seen : List (PacketKey × Time)) (n : Nat) : Prop where
  figures : ∀ flowId, m.getStatsForFlow flowId = (records flowId).stats m.attr
  known : ∀ key ∈ m.trackedPackets, key.1 ∈ m.flowStats
  sent : ∀ key tracked, m.trackedPackets.lookup key = some tracked →
    (key, tracked.firstSeenTime) ∈ seen
  balanced : ∀ flowId, (records flowId).Balanced flowId seen n (m.inFlight flowId)

section

variable {α β : Type} [DecidableEq α] {tracked : AList fun _ : α => β} {key : α} {p : α → Bool}

theorem countP_insert_new (fresh : key ∉ tracked) (packet : β) :
    (tracked.insert key packet).keys.countP p = tracked.keys.countP p + if p key then 1 else 0 := by
  rw [AList.keys_insert, List.erase_of_not_mem (fun mem => fresh (AList.mem_keys.mpr mem)),
    List.countP_cons]

theorem countP_insert_old (old : key ∈ tracked) (packet : β) :
    (tracked.insert key packet).keys.countP p = tracked.keys.countP p := by
  rw [AList.keys_insert]
  exact (List.perm_cons_erase (AList.mem_keys.mp old)).countP_eq p |>.symm

theorem countP_erase_old (old : key ∈ tracked) :
    tracked.keys.countP p = (tracked.erase key).keys.countP p + if p key then 1 else 0 := by
  rw [AList.keys_erase, (List.perm_cons_erase (AList.mem_keys.mp old)).countP_eq p, List.countP_cons]

theorem erase_new (fresh : key ∉ tracked) : tracked.erase key = tracked := by
  apply AList.ext
  exact List.kerase_of_notMem_keys fun mem => fresh (AList.mem_keys.mpr mem)

end

theorem FlowRecord.Balanced.later {r : FlowRecord} {flowId : FlowId}
    {seen : List (PacketKey × Time)} {n inFlight : Nat}
    (balanced : r.Balanced flowId seen n inFlight) (more : List (PacketKey × Time)) {k : Nat}
    (le : n ≤ k) : r.Balanced flowId (seen ++ more) k inFlight where
  receipts receipt mem := by
    obtain ⟨packetId, sentAt, sent, delay⟩ := balanced.receipts receipt mem
    exact ⟨packetId, sentAt, List.mem_append_left more sent, delay⟩
  few := balanced.few.trans le
  late := balanced.late
  balance := balanced.balance

namespace FlowMonitor

variable {m : FlowMonitor} {now : Time} {records : FlowId → FlowRecord}
  {seen : List (PacketKey × Time)} {n : Nat} {flowId : FlowId} {packetId : FlowPacketId}
  {packetSize : UInt32}

theorem figures_update {attr : MonitorAttributes} {flowStats : AList fun _ : FlowId => FlowStats}
    {stats : FlowStats} {r : FlowRecord}
    (figures : ∀ flowId, (flowStats.lookup flowId).getD (.new attr) = (records flowId).stats attr)
    (same : stats = r.stats attr) (other : FlowId) :
    ((flowStats.insert flowId stats).lookup other).getD (.new attr) =
      (Function.update records flowId r other).stats attr := by
  by_cases here : other = flowId
  · rw [here, AList.lookup_insert, Function.update_self, Option.getD_some, same]
  · rw [AList.lookup_insert_ne here, Function.update_of_ne here, figures]

/-- What holds of the record that is changed and of the others holds of all. -/
theorem forall_update {r : FlowRecord} (p : FlowId → FlowRecord → Prop)
    (others : ∀ other, other ≠ flowId → p other (records other)) (here : p flowId r)
    (other : FlowId) : p other (Function.update records flowId r other) := by
  by_cases same : other = flowId
  · rw [same, Function.update_self]
    exact here
  · rw [Function.update_of_ne same]
    exact others other same

/-- A report that changes nothing. -/
theorem Audited.ignore (audited : m.Audited records seen n) (more : List (PacketKey × Time)) :
    m.Audited records (seen ++ more) (n + 1) where
  figures := audited.figures
  known := audited.known
  sent := fun key tracked found => List.mem_append_left more (audited.sent key tracked found)
  balanced := fun flowId => (audited.balanced flowId).later more (Nat.le_succ n)

/-- A packet that is sent is tracked from then on. -/
theorem Audited.send (audited : m.Audited records seen n) (few : n + 1 < 2 ^ 32)
    (fresh : (flowId, packetId) ∉ m.trackedPackets) :
    Audited
      { m with
        trackedPackets := m.trackedPackets.insert (flowId, packetId) ⟨now, now, 0⟩
        flowStats := m.flowStats.insert flowId ((m.getStatsForFlow flowId).countTx now packetSize) }
      (Function.update records flowId
        { records flowId with sent := (records flowId).sent ++ [(now, packetSize)] })
      (seen ++ [((flowId, packetId), now)]) (n + 1) := by
  have before := audited.balanced flowId
  have short := before.few
  have tracks (other : FlowId) :
      (m.trackedPackets.insert (flowId, packetId) ⟨now, now, 0⟩).keys.countP
        (fun key => decide (key.1 = other)) = m.inFlight other + if flowId = other then 1 else 0 := by
    rw [countP_insert_new fresh]
    simp [inFlight]
  refine ⟨figures_update audited.figures ?_, fun key mem => ?_, fun key tracked found => ?_,
    forall_update (fun other r => r.Balanced other _ _ (FlowMonitor.inFlight _ other))
      (fun other differ => ?_) ?_⟩
  · rw [audited.figures]
    exact FlowRecord.stats_countTx (by omega)
  · rcases (AList.mem_insert _).mp mem with rfl | mem
    · exact (AList.mem_insert _).mpr (Or.inl rfl)
    · exact (AList.mem_insert _).mpr (Or.inr (audited.known key mem))
  · by_cases same : key = (flowId, packetId)
    · rw [same, AList.lookup_insert, Option.some.injEq] at found
      rw [same, ← found]
      exact List.mem_concat_self
    · rw [AList.lookup_insert_ne same] at found
      exact List.mem_append_left _ (audited.sent key tracked found)
  · unfold inFlight
    rw [tracks, if_neg (Ne.symm differ)]
    exact (audited.balanced other).later _ (Nat.le_succ n)
  · unfold inFlight
    rw [tracks, if_pos rfl]
    refine ⟨(before.later _ (Nat.le_succ n)).receipts, ?_, before.late, ?_⟩
    all_goals
      dsimp only
      rw [List.length_append, List.length_singleton]
    · omega
    · have balance := before.balance
      omega

/-- A packet that is forwarded stays tracked. -/
theorem Audited.forward (audited : m.Audited records seen n) {tracked packet : TrackedPacket}
    (found : m.trackedPackets.lookup (flowId, packetId) = some tracked)
    (same_time : packet.firstSeenTime = tracked.firstSeenTime) :
    Audited { m with trackedPackets := m.trackedPackets.insert (flowId, packetId) packet } records
      seen (n + 1) := by
  have old : (flowId, packetId) ∈ m.trackedPackets := by
    rw [← AList.lookup_isSome, found]
    rfl
  refine ⟨audited.figures, fun key mem => ?_, fun key other found' => ?_, fun other => ?_⟩
  · rcases (AList.mem_insert _).mp mem with rfl | mem
    · exact audited.known _ old
    · exact audited.known key mem
  · by_cases same : key = (flowId, packetId)
    · rw [same, AList.lookup_insert, Option.some.injEq] at found'
      rw [same, ← found', same_time]
      exact audited.sent _ tracked found
    · rw [AList.lookup_insert_ne same] at found'
      exact audited.sent key other found'
  · unfold inFlight
    dsimp only
    rw [countP_insert_old old]
    have later := (audited.balanced other).later [] (Nat.le_succ n)
    rw [List.append_nil] at later
    exact later

/-- The figures of a flow change, and a packet of it is tracked no longer. -/
theorem Audited.settle (audited : m.Audited records seen n) {stats : FlowStats} {r : FlowRecord}
    (left : Nat) {k : Nat} (le : n ≤ k) (same : stats = r.stats m.attr)
    (balanced : r.Balanced flowId seen k left)
    (settled : m.inFlight flowId =
      left + if (flowId, packetId) ∈ m.trackedPackets then 1 else 0) :
    Audited
      { m with
        flowStats := m.flowStats.insert flowId stats
        trackedPackets := m.trackedPackets.erase (flowId, packetId) }
      (Function.update records flowId r) seen k := by
  have tracks (other : FlowId) : m.inFlight other =
      (m.trackedPackets.erase (flowId, packetId)).keys.countP (fun key => decide (key.1 = other)) +
        if (flowId, packetId) ∈ m.trackedPackets ∧ flowId = other then 1 else 0 := by
    by_cases old : (flowId, packetId) ∈ m.trackedPackets
    · unfold inFlight
      rw [countP_erase_old old]
      simp [old]
    · rw [erase_new old, if_neg fun both => old both.1]
      rfl
  refine ⟨figures_update audited.figures same, fun key mem => ?_, fun key tracked found => ?_,
    forall_update (fun other r => r.Balanced other _ _ (FlowMonitor.inFlight _ other))
      (fun other differ => ?_) ?_⟩
  · exact (AList.mem_insert _).mpr (Or.inr (audited.known key (AList.mem_erase.mp mem).2))
  · by_cases erased : key = (flowId, packetId)
    · rw [erased, AList.lookup_erase] at found
      cases found
    · rw [AList.lookup_erase_ne erased] at found
      exact audited.sent key tracked found
  · have later := (audited.balanced other).later [] le
    have kept := tracks other
    rw [if_neg fun both => differ both.2.symm] at kept
    rw [List.append_nil, kept] at later
    exact later
  · have here := tracks flowId
    rw [settled] at here
    simp only [and_true] at here
    have same_left := Nat.add_right_cancel here
    rw [same_left] at balanced
    exact balanced

/-- A packet that is received is tracked no longer. -/
theorem Audited.receive (audited : m.Audited records seen n) (few : n + 1 < 2 ^ 32)
    {tracked : TrackedPacket} (found : m.trackedPackets.lookup (flowId, packetId) = some tracked) :
    Audited
      { m with
        flowStats := m.flowStats.insert flowId
          ((m.getStatsForFlow flowId).countRx m.attr now packetSize tracked)
        trackedPackets := m.trackedPackets.erase (flowId, packetId) }
      (Function.update records flowId
        { records flowId with
          received := (records flowId).received ++
            [⟨now - tracked.firstSeenTime, now, packetSize, tracked.timesForwarded⟩] })
      seen (n + 1) := by
  have before := audited.balanced flowId
  have short := before.few
  have balance := before.balance
  have old : (flowId, packetId) ∈ m.trackedPackets := by
    rw [← AList.lookup_isSome, found]
    rfl
  have on_way : 0 < m.inFlight flowId :=
    List.countP_pos_iff.mpr ⟨(flowId, packetId), AList.mem_keys.mp old, decide_eq_true rfl⟩
  refine audited.settle (m.inFlight flowId - 1) (Nat.le_succ n) ?_ ⟨fun receipt mem => ?_, ?_, before.late, ?_⟩ ?_
  · rw [audited.figures]
    exact FlowRecord.stats_countRx (by omega) tracked
  · rcases List.mem_append.mp mem with earlier | last
    · exact before.receipts receipt earlier
    · rw [List.mem_singleton.mp last]
      exact ⟨packetId, tracked.firstSeenTime, audited.sent _ tracked found, rfl⟩
  · dsimp only
    rw [List.length_append, List.length_singleton]
    omega
  · dsimp only
    rw [List.length_append, List.length_singleton]
    omega
  · rw [if_pos old]
    omega

/-- A packet that is dropped is lost, and tracked no longer. -/
theorem Audited.drop (audited : m.Audited records seen n) (reasonCode : Nat) :
    Audited
      { m with
        flowStats :=
          m.flowStats.insert flowId ((m.getStatsForFlow flowId).countDrop packetSize reasonCode)
        trackedPackets := m.trackedPackets.erase (flowId, packetId) }
      (Function.update records flowId
        { records flowId with
          drops := (records flowId).drops ++ [(reasonCode, packetSize)]
          late := (records flowId).late +
            if (flowId, packetId) ∈ m.trackedPackets then 0 else 1 })
      seen (n + 1) := by
  have before := audited.balanced flowId
  have short := before.few
  have balance := before.balance
  have late := before.late
  have on_way (old : (flowId, packetId) ∈ m.trackedPackets) : 0 < m.inFlight flowId :=
    List.countP_pos_iff.mpr ⟨(flowId, packetId), AList.mem_keys.mp old, decide_eq_true rfl⟩
  refine audited.settle
    (m.inFlight flowId - if (flowId, packetId) ∈ m.trackedPackets then 1 else 0)
    (Nat.le_succ n) ?_ ⟨before.receipts, ?_, ?_, ?_⟩ ?_
  · rw [audited.figures]
    exact FlowRecord.stats_countDrop reasonCode _
  · dsimp only
    rw [List.length_append, List.length_singleton]
    omega
  · dsimp only
    rw [List.length_append, List.length_singleton]
    split <;> omega
  · dsimp only
    rw [List.length_append, List.length_singleton]
    split
    · next old =>
      have positive := on_way old
      omega
    · omega
  · split
    · next old =>
      have positive := on_way old
      omega
    · omega

/-- A packet that is given up is lost, and tracked no longer. -/
theorem Audited.giveUp (audited : m.Audited records seen n) {key : PacketKey}
    (old : key ∈ m.trackedPackets) : ∃ m', m.giveUp key = some m' ∧
      m'.attr = m.attr ∧ m'.trackedPackets = m.trackedPackets.erase key ∧
      m'.Audited (Function.update records key.1
        { records key.1 with expired := (records key.1).expired + 1 }) seen n := by
  obtain ⟨flowId, packetId⟩ := key
  have before := audited.balanced flowId
  have short := before.few
  have balance := before.balance
  have on_way : 0 < m.inFlight flowId :=
    List.countP_pos_iff.mpr ⟨(flowId, packetId), AList.mem_keys.mp old, decide_eq_true rfl⟩
  obtain ⟨stats, listed⟩ := Option.isSome_iff_exists.mp
    (AList.lookup_isSome.mpr (audited.known _ old))
  have figures : stats = (records flowId).stats m.attr := by
    rw [← audited.figures, getStatsForFlow, listed, Option.getD_some]
  have given : m.giveUp (flowId, packetId) = some
      { m with
        flowStats := m.flowStats.insert flowId { stats with lostPackets := stats.lostPackets + 1 }
        trackedPackets := m.trackedPackets.erase (flowId, packetId) } := by
    unfold FlowMonitor.giveUp
    rw [listed, Option.map_some]
  refine ⟨_, given, rfl, rfl,
    audited.settle (m.inFlight flowId - 1) le_rfl ?_ ⟨before.receipts, short, before.late, ?_⟩ ?_⟩
  · rw [figures]
    refine FlowStats.ext rfl rfl rfl rfl rfl rfl rfl rfl rfl rfl rfl rfl rfl ?_ rfl rfl rfl rfl rfl
      rfl rfl
    show UInt32.ofNat ((records flowId).drops.length + (records flowId).expired) + 1 =
      UInt32.ofNat ((records flowId).drops.length + ((records flowId).expired + 1))
    rw [← Nat.add_assoc, UInt32.ofNat_add (_ + _) 1, UInt32.ofNat_one]
  · dsimp only
    omega
  · rw [if_pos old]
    omega

/-- The packets that are overdue are given up one after another. -/
theorem Audited.foldlM_giveUp (maxDelay : Time)
    (entries : List (Sigma fun _ : PacketKey => TrackedPacket)) :
    ∀ {m : FlowMonitor} {records : FlowId → FlowRecord}, m.Audited records seen n →
      entries.NodupKeys → (∀ entry ∈ entries, entry.1 ∈ m.trackedPackets) →
      ∃ m', entries.foldlM (fun (m : FlowMonitor) entry =>
            if overdue now maxDelay entry.2 then m.giveUp entry.1 else some m) m = some m' ∧
        m'.attr = m.attr ∧
        m'.Audited (fun flowId => { records flowId with
          expired := (records flowId).expired + entries.countP fun entry =>
            decide (entry.1.1 = flowId) && overdue now maxDelay entry.2 }) seen n := by
  induction entries with
  | nil => exact fun audited _ _ => ⟨_, rfl, rfl, audited⟩
  | cons entry entries ih =>
    intro m records audited distinct tracked
    rw [List.nodupKeys_cons] at distinct
    cases lapsed : overdue now maxDelay entry.2 with
    | false =>
      obtain ⟨m', folded, attr, after⟩ := ih audited distinct.2
        fun other mem => tracked other (List.mem_cons_of_mem entry mem)
      refine ⟨m', ?_, attr, ?_⟩
      · rw [List.foldlM_cons, lapsed]
        exact folded
      · simp only [List.countP_cons, lapsed, Bool.and_false, Bool.false_eq_true, if_false,
          Nat.add_zero]
        exact after
    | true =>
      obtain ⟨next, given, attr, left, given_up⟩ := audited.giveUp (tracked entry List.mem_cons_self)
      obtain ⟨m', folded, attr', after⟩ := ih given_up distinct.2 fun other mem => by
        rw [left, AList.mem_erase]
        refine ⟨fun same => distinct.1 ?_, tracked other (List.mem_cons_of_mem entry mem)⟩
        rw [← same]
        exact List.mem_keys_of_mem mem
      refine ⟨m', ?_, attr'.trans attr, ?_⟩
      · rw [List.foldlM_cons, lapsed, if_pos rfl, given]
        exact folded
      · convert after using 2 with flowId
        rw [List.countP_cons, lapsed, Bool.and_true]
        by_cases here : flowId = entry.1.1
        · rw [here, Function.update_self, if_pos (decide_eq_true rfl), FlowRecord.mk.injEq]
          refine ⟨rfl, rfl, rfl, rfl, ?_⟩
          dsimp only
          omega
        · rw [Function.update_of_ne here, if_neg (by simpa using Ne.symm here), Nat.add_zero]

/-- Checking for lost packets gives up exactly those that are overdue. -/
theorem Audited.check (audited : m.Audited records seen n) (now maxDelay : Time) :
    ∃ m', m.checkForLostPackets now maxDelay = some m' ∧ m'.attr = m.attr ∧
      m'.Audited (m.expire now records maxDelay) seen n :=
  audited.foldlM_giveUp maxDelay m.trackedPackets.entries m.trackedPackets.nodupKeys
    fun _ mem => AList.mem_keys.mpr (List.mem_keys_of_mem mem)

theorem Audited.same (audited : m.Audited records seen n) {k : Nat} (le : n ≤ k) (enabled : Bool) :
    Audited { m with enabled := enabled } records seen k where
  figures := audited.figures
  known := audited.known
  sent := audited.sent
  balanced := fun flowId => by
    have later := (audited.balanced flowId).later [] le
    rw [List.append_nil] at later
    exact later

end FlowMonitor

/-- The packet that a report says is sent. -/
def FlowReport.sends (now : Time) : FlowReport → List (PacketKey × Time)
  | .firstTx flowId packetId _ => [((flowId, packetId), now)]
  | _ => []

/-- Every report keeps the figures those of the records. -/
theorem FlowMonitor.Audited.report {m : FlowMonitor} {now : Time} {records : FlowId → FlowRecord}
    {seen : List (PacketKey × Time)} {n : Nat} (audited : m.Audited records seen n)
    (few : n + 1 < 2 ^ 32) (report : FlowReport)
    (fresh : ∀ sent ∈ report.sends now, sent.1 ∉ seen.map (·.1)) :
    ∃ m', m.report now report = some m' ∧ m'.attr = m.attr ∧
      m'.Audited (m.record now records report) (seen ++ report.sends now) (n + 1) := by
  have untracked {key : PacketKey} (fresh : key ∉ seen.map (·.1)) : key ∉ m.trackedPackets := by
    intro mem
    obtain ⟨tracked, found⟩ := Option.isSome_iff_exists.mp (AList.lookup_isSome.mpr mem)
    exact fresh (List.mem_map.mpr ⟨_, audited.sent key tracked found, rfl⟩)
  have ignored := audited.ignore (report.sends now)
  cases report with
  | firstTx flowId packetId packetSize =>
    refine ⟨_, rfl, ?_⟩
    unfold reportFirstTx record
    by_cases disabled : m.enabled = false
    · simp only [if_pos disabled]
      exact ⟨trivial, ignored⟩
    · simp only [if_neg disabled]
      exact ⟨trivial, audited.send few (untracked (fresh _ (List.mem_singleton_self _)))⟩
  | forwarding flowId packetId =>
    refine ⟨_, rfl, ?_⟩
    unfold reportForwarding record
    by_cases disabled : m.enabled = false
    · rw [if_pos disabled]
      exact ⟨rfl, ignored⟩
    · rw [if_neg disabled]
      cases found : m.trackedPackets.lookup (flowId, packetId) with
      | none => exact ⟨rfl, ignored⟩
      | some tracked =>
        show _ ∧ Audited _ _ (seen ++ []) _
        rw [List.append_nil]
        exact ⟨rfl, audited.forward found rfl⟩
  | lastRx flowId packetId packetSize =>
    refine ⟨_, rfl, ?_⟩
    unfold reportLastRx record
    by_cases disabled : m.enabled = false
    · simp only [if_pos disabled]
      exact ⟨trivial, ignored⟩
    · simp only [if_neg disabled]
      cases found : m.trackedPackets.lookup (flowId, packetId) with
      | none => exact ⟨rfl, ignored⟩
      | some tracked =>
        show _ ∧ Audited _ _ (seen ++ []) _
        rw [List.append_nil]
        exact ⟨rfl, audited.receive few found⟩
  | drop flowId packetId packetSize reasonCode =>
    refine ⟨_, rfl, ?_⟩
    unfold reportDrop record
    by_cases disabled : m.enabled = false
    · simp only [if_pos disabled]
      exact ⟨trivial, ignored⟩
    · simp only [if_neg disabled]
      show _ ∧ Audited _ _ (seen ++ []) _
      rw [List.append_nil]
      exact ⟨trivial, audited.drop reasonCode⟩
  | checkForLostPackets maxDelay =>
    obtain ⟨m', checked, attr, after⟩ := audited.check now maxDelay
    refine ⟨m', checked, attr, ?_⟩
    show m'.Audited _ (seen ++ []) _
    rw [List.append_nil]
    exact after.same (Nat.le_succ n) m'.enabled
  | startRightNow =>
    refine ⟨_, rfl, ?_⟩
    unfold startRightNow
    split
    · exact ⟨rfl, ignored⟩
    · show _ ∧ Audited _ _ (seen ++ []) _
      rw [List.append_nil]
      exact ⟨rfl, audited.same (Nat.le_succ n) true⟩
  | stopRightNow =>
    unfold FlowMonitor.report stopRightNow record
    by_cases disabled : m.enabled = false
    · simp only [if_pos disabled]
      exact ⟨m, rfl, rfl, ignored⟩
    · simp only [if_neg disabled]
      show ∃ m', _ ∧ _ ∧ Audited m' _ (seen ++ []) _
      rw [List.append_nil]
      obtain ⟨m', checked, attr, after⟩ := (audited.same le_rfl false).check now m.attr.maxPerHopDelay
      exact ⟨m', checked, attr, after.same (Nat.le_succ n) m'.enabled⟩

end QbbNet
