import QbbNet.PfcFrames

set_option autoImplicit false

/- PurgeMacQueueForPrio parts the MAC queue by class. Its two loops run through
the queue once each, and the second finds room for all that the first has kept. -/
namespace QbbNet

/-- What the first loop keeps for the queue. -/
def QbbNetDevice.kept (prio : Fin 8) (d : QbbNetDevice) : List Packet :=
  (purgeLoop prio d.queue.packets.length d.queue [] (d.macHold prio)).2.1

/-- The device between the two loops. -/
def QbbNetDevice.emptied (prio : Fin 8) (d : QbbNetDevice) : QbbNetDevice :=
  let purged := purgeLoop prio d.queue.packets.length d.queue [] (d.macHold prio)
  { d with
    queue := purged.1
    macHold := Function.update d.macHold prio purged.2.2 }

theorem purgeMacQueueForPrio_loops (prio : Fin 8) (d : QbbNetDevice) :
    purgeMacQueueForPrio prio d =
      (d.kept prio).foldl (fun d p => (d.enqueue p).2) (d.emptied prio) := rfl

section Purge

variable {prio : Fin 8} {d : QbbNetDevice}

/-- Neither a PFC frame nor a frame of another class is purged. -/
theorem frameClass_ne (p : Packet) (prio : Fin 8) :
    decide (frameClass p ≠ some prio) = (isPfcFrame p || decide (getPrioFromPacket p ≠ prio)) := by
  unfold frameClass
  cases isPfcFrame p <;> simp

theorem frameClass_eq (p : Packet) (prio : Fin 8) :
    decide (frameClass p = some prio) = (!isPfcFrame p && decide (getPrioFromPacket p = prio)) := by
  unfold frameClass
  cases isPfcFrame p <;> simp

/-- The first loop is done when it has taken out every frame; more rounds change nothing. -/
theorem purgeLoop_done (prio : Fin 8) (macq : DropTailQueue) (hold : List Packet) (rounds : Nat)
    (enough : macq.packets.length ≤ rounds)
    (counts : ∀ p ∈ macq.packets, 0 < macq.maxSize.unit.measure [p]) :
    (purgeLoop prio rounds macq [] hold).1.getCurrentSize = 0 ∧
      purgeLoop prio rounds macq [] hold = purgeLoop prio macq.packets.length macq [] hold := by
  obtain ⟨left, empty, maxSize, purged⟩ := purgeLoop_eq prio rounds macq [] hold enough counts
  obtain ⟨left', empty', maxSize', purged'⟩ :=
    purgeLoop_eq prio macq.packets.length macq [] hold (Nat.le_refl _) counts
  have same : left = left' :=
    DropTailQueue.ext (maxSize.trans maxSize'.symm) (empty.trans empty'.symm)
  rw [purged, purged', same]
  refine ⟨?_, rfl⟩
  rw [DropTailQueue.getCurrentSize, empty', QueueSizeUnit.measure_nil]

/-- Of frames that fit into a queue together, each finds room behind those before it. -/
theorem enqueue_each {keep : List Packet} {d : QbbNetDevice}
    (room : d.queue.maxSize.unit.measure (d.queue.packets ++ keep) ≤ d.queue.maxSize.value)
    {front back : List Packet} {p : Packet} (split : keep = front ++ p :: back) :
    ((front.foldl (fun d p => (d.enqueue p).2) d).enqueue p).1 = true := by
  rw [split] at room
  have front_room : d.queue.maxSize.unit.measure (d.queue.packets ++ front) ≤
      d.queue.maxSize.value := by
    simp only [QueueSizeUnit.measure_append] at room ⊢
    omega
  obtain ⟨q, content, maxSize, queued⟩ := foldl_enqueue front d front_room
  have next_room : q.maxSize.unit.measure (q.packets ++ p :: back) ≤ q.maxSize.value := by
    rw [maxSize, content, List.append_assoc]
    exact room
  obtain ⟨after, accepted, -⟩ := q.enqueue_front next_room
  rw [queued, QbbNetDevice.enqueue, accepted]

/-- What the first loop has kept fits into the queue that it has emptied. -/
theorem kept_room (counts : ∀ p ∈ d.queue.packets, 0 < d.queue.maxSize.unit.measure [p]) :
    (d.emptied prio).queue.maxSize.unit.measure ((d.emptied prio).queue.packets ++ d.kept prio) ≤
      (d.emptied prio).queue.maxSize.value := by
  obtain ⟨left, empty, maxSize, purged⟩ :=
    purgeLoop_eq prio _ d.queue [] (d.macHold prio) (Nat.le_refl _) counts
  have part : (d.kept prio).Sublist d.queue.packets := by
    rw [QbbNetDevice.kept, purged, List.nil_append]
    exact List.filter_sublist
  have queue : (d.emptied prio).queue = left := by rw [QbbNetDevice.emptied, purged]
  rw [queue, empty, List.nil_append, maxSize]
  exact Nat.le_trans (QueueSizeUnit.measure_sublist _ part) d.queue.fits

end Purge

/-- Every frame in a MAC queue has its header, so that it counts in the queue's unit. -/
theorem Net.Reachable.counts {ι ν : Type} [DecidableEq ι] [DecidableEq ν] {cfg : Config ι ν}
    {s : Net ι ν} (reachable : Net.Reachable cfg s) (i : ι) :
    ∀ p ∈ (s.dev i).queue.packets, 0 < (s.dev i).queue.maxSize.unit.measure [p] :=
  fun p member =>
    QueueSizeUnit.measure_pos _ ((reachable_lawful reachable i).1.queue p member)

/-- Purging a class leaves the PFC frames and the frames of other classes in the
queue and puts the frames of the class behind those held already, all in order.
Each frame that is queued again is accepted, and the first loop ends. -/
theorem purge_partition (prio : Fin 8) (d : QbbNetDevice)
    (counts : ∀ p ∈ d.queue.packets, 0 < d.queue.maxSize.unit.measure [p]) :
    (purgeMacQueueForPrio prio d).queue.packets =
      d.queue.packets.filter (fun p => isPfcFrame p || decide (getPrioFromPacket p ≠ prio)) ∧
    (purgeMacQueueForPrio prio d).macHold prio = d.macHold prio ++
      d.queue.packets.filter (fun p => !isPfcFrame p && decide (getPrioFromPacket p = prio)) ∧
    (∀ other ≠ prio, (purgeMacQueueForPrio prio d).macHold other = d.macHold other) ∧
    (∃ queue macHold, purgeMacQueueForPrio prio d = { d with queue, macHold }) ∧
    purgeMacQueueForPrio prio d =
      (d.kept prio).foldl (fun d p => (d.enqueue p).2) (d.emptied prio) ∧
    (∀ front p back, d.kept prio = front ++ p :: back →
      ((front.foldl (fun d p => (d.enqueue p).2) (d.emptied prio)).enqueue p).1 = true) ∧
    ∀ rounds, d.queue.packets.length ≤ rounds →
      (purgeLoop prio rounds d.queue [] (d.macHold prio)).1.getCurrentSize = 0 ∧
        purgeLoop prio rounds d.queue [] (d.macHold prio) =
          purgeLoop prio d.queue.packets.length d.queue [] (d.macHold prio) := by
  obtain ⟨q, -, content, purged⟩ := purgeMacQueueForPrio_eq prio d counts
  simp only [frameClass_ne, frameClass_eq] at content purged
  refine ⟨?_, ?_, fun other different => ?_, ⟨q, _, purged⟩, purgeMacQueueForPrio_loops prio d,
    fun front p back split => ?_,
    fun rounds enough => purgeLoop_done prio d.queue (d.macHold prio) rounds enough counts⟩
  · rw [purged, content]
  · rw [purged]
    exact Function.update_self ..
  · rw [purged]
    exact Function.update_of_ne different ..
  · exact enqueue_each (kept_room counts) split

/-- A queue of 108 bytes that is full: a frame of class 1, a PFC frame, and a frame each
of classes 0 and 1. One frame of class 1 is held already. -/
def fullQueue : QbbNetDevice :=
  { QbbNetDevice.install (Attributes.default 100000000) true with
    queue :=
      { maxSize := ⟨.bytes, 108⟩
        packets := [(Datagram.ipv4 (.host 1) 0x20).frame, pfcFrame 0 0,
          (Datagram.ipv4 (.host 2) 0x00).frame, (Datagram.ipv4 (.host 3) 0x3F).frame]
        fits := by decide }
    macHold := Function.update (fun _ => []) 1 [(Datagram.ipv4 (.host 0) 0x20).frame] }

theorem purge_partition_full :
    (purgeMacQueueForPrio 1 fullQueue).queue.packets =
        [pfcFrame 0 0, (Datagram.ipv4 (.host 2) 0x00).frame] ∧
      (purgeMacQueueForPrio 1 fullQueue).macHold 1 =
        [(Datagram.ipv4 (.host 0) 0x20).frame, (Datagram.ipv4 (.host 1) 0x20).frame,
          (Datagram.ipv4 (.host 3) 0x3F).frame] := by
  obtain ⟨queue, hold, -⟩ := purge_partition 1 fullQueue (by decide)
  exact ⟨queue.trans (by decide), hold.trans (by decide)⟩

end QbbNet
