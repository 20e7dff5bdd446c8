import QbbNet.SenderRefinement

set_option autoImplicit false

namespace QbbNet

open ClassedSender

variable {ι ν : Type} (cfg : Config ι ν) (i : ι)

/-- The pause time that a frame carries for a class, in quanta. -/
def pfcQuanta (prio : Fin 8) (p : Packet) : Option UInt16 :=
  if isPfcFrame p then
    (pfcHeader p).bind fun ph => if ph.enables prio then some (ph.quanta prio) else none
  else none

/- Clearing the queue and filling it again -/

section Purge

/-- Every frame leaves the queue, for the hold if it is data of the class. -/
theorem purgeLoop_eq (prio : Fin 8) (rounds : Nat) (macq : DropTailQueue) (keep hold : List Packet)
    (enough : macq.packets.length ≤ rounds)
    (counts : ∀ p ∈ macq.packets, 0 < macq.maxSize.unit.measure [p]) :
    ∃ emptied : DropTailQueue, emptied.packets = [] ∧ emptied.maxSize = macq.maxSize ∧
      purgeLoop prio rounds macq keep hold = (emptied,
        keep ++ macq.packets.filter (fun p => decide (frameClass p ≠ some prio)),
        hold ++ macq.packets.filter fun p => decide (frameClass p = some prio)) := by
  induction rounds generalizing macq keep hold with
  | zero =>
    have empty : macq.packets = [] := List.length_eq_zero_iff.mp (Nat.le_zero.mp enough)
    exact ⟨macq, empty, rfl, by simp [purgeLoop, empty]⟩
  | succ rounds ih =>
    cases content : macq.packets with
    | nil =>
      have size : macq.getCurrentSize = 0 := by simp [DropTailQueue.getCurrentSize, content]
      exact ⟨macq, content, rfl, by simp [purgeLoop, size]⟩
    | cons p rest =>
      have size : 0 < macq.getCurrentSize := by
        rw [DropTailQueue.getCurrentSize, content, QueueSizeUnit.measure_cons]
        exact Nat.add_pos_left (counts p (by simp [content])) _
      cases head : macq.dequeue with
      | none => simp [DropTailQueue.dequeue_eq_none.mp head] at content
      | some taken =>
        obtain ⟨first, left⟩ := taken
        obtain ⟨whole, maxSize⟩ := DropTailQueue.dequeue_eq_some.mp head
        obtain ⟨rfl, rfl⟩ : first = p ∧ left.packets = rest := by simpa [whole] using content
        have fewer : left.packets.length ≤ rounds := by
          rw [whole, List.length_cons] at enough
          omega
        have counts_left : ∀ p ∈ left.packets, 0 < left.maxSize.unit.measure [p] :=
          fun p member => maxSize ▸ counts p (whole ▸ List.mem_cons_of_mem _ member)
        rw [purgeLoop, if_pos size, head]
        dsimp only
        cases control : isPfcFrame first with
        | true =>
          obtain ⟨emptied, empty, same, eq⟩ := ih left (keep ++ [first]) hold fewer counts_left
          refine ⟨emptied, empty, same.trans maxSize, ?_⟩
          rw [if_pos rfl, eq]
          simp [frameClass, control]
        | false =>
          rw [if_neg (by simp)]
          by_cases same_class : getPrioFromPacket first = prio
          · obtain ⟨emptied, empty, same, eq⟩ := ih left keep (hold ++ [first]) fewer counts_left
            refine ⟨emptied, empty, same.trans maxSize, ?_⟩
            rw [if_pos same_class, eq]
            simp [frameClass, control, same_class]
          · obtain ⟨emptied, empty, same, eq⟩ := ih left (keep ++ [first]) hold fewer counts_left
            refine ⟨emptied, empty, same.trans maxSize, ?_⟩
            rw [if_neg same_class, eq]
            simp [frameClass, control, same_class]

/-- Frames that fit together are all queued again. -/
theorem foldl_enqueue (keep : List Packet) (d : QbbNetDevice)
    (room : d.queue.maxSize.unit.measure (d.queue.packets ++ keep) ≤ d.queue.maxSize.value) :
    ∃ q : DropTailQueue, q.packets = d.queue.packets ++ keep ∧ q.maxSize = d.queue.maxSize ∧
      keep.foldl (fun d p => (d.enqueue p).2) d = { d with queue := q } := by
  induction keep generalizing d with
  | nil => exact ⟨d.queue, (List.append_nil _).symm, rfl, rfl⟩
  | cons p keep ih =>
    obtain ⟨q, queued, maxSize, packets⟩ := d.queue.enqueue_front room
    obtain ⟨all, content, same, eq⟩ := ih { d with queue := q } (by
      simp only [maxSize, packets, List.append_assoc, List.singleton_append]
      exact room)
    refine ⟨all, ?_, same.trans maxSize, ?_⟩
    · rw [content, packets, List.append_assoc, List.singleton_append]
    · rw [List.foldl_cons, QbbNetDevice.enqueue, queued]
      exact eq

/-- Purging only moves the class's frames; what is kept always fits. -/
theorem purgeMacQueueForPrio_eq (prio : Fin 8) (d : QbbNetDevice)
    (counts : ∀ p ∈ d.queue.packets, 0 < d.queue.maxSize.unit.measure [p]) :
    ∃ q : DropTailQueue, q.maxSize = d.queue.maxSize ∧
      q.packets = d.queue.packets.filter (fun p => decide (frameClass p ≠ some prio)) ∧
      purgeMacQueueForPrio prio d = { d with
        queue := q
        macHold := Function.update d.macHold prio (d.macHold prio ++
          d.queue.packets.filter fun p => decide (frameClass p = some prio)) } := by
  obtain ⟨emptied, empty, maxSize, purged⟩ :=
    purgeLoop_eq prio _ d.queue [] (d.macHold prio) (Nat.le_refl _) counts
  rw [List.nil_append] at purged
  rw [purgeMacQueueForPrio, purged]
  obtain ⟨q, content, same, eq⟩ := foldl_enqueue
    (d.queue.packets.filter fun p => decide (frameClass p ≠ some prio))
    { d with
      queue := emptied
      macHold := Function.update d.macHold prio (d.macHold prio ++
        d.queue.packets.filter fun p => decide (frameClass p = some prio)) } (by
      simp only [empty, List.nil_append, maxSize]
      exact Nat.le_trans (QueueSizeUnit.measure_sublist _ List.filter_sublist) d.queue.fits)
  refine ⟨q, same.trans maxSize, ?_, eq⟩
  rw [content]
  simp only [empty, List.nil_append]

/-- Whatever a purge does, it touches nothing but the queue, its drops and the class's hold. -/
theorem purgeMacQueueForPrio_rest (prio : Fin 8) (d : QbbNetDevice) :
    ∃ queue dropped held, purgeMacQueueForPrio prio d = { d with
      queue := queue
      queueDrop := dropped
      macHold := Function.update d.macHold prio held } := by
  have requeued : ∀ (keep : List Packet) (d : QbbNetDevice), ∃ queue dropped,
      keep.foldl (fun d p => (d.enqueue p).2) d =
        { d with queue := queue, queueDrop := dropped } := by
    intro keep
    induction keep with
    | nil => exact fun d => ⟨d.queue, d.queueDrop, rfl⟩
    | cons p keep ih =>
      intro d
      rw [List.foldl_cons, QbbNetDevice.enqueue]
      split
      · exact (ih _).imp fun queue after => after.imp fun dropped same => same.trans rfl
      · exact (ih _).imp fun queue after => after.imp fun dropped same => same.trans rfl
  obtain ⟨queue, dropped, same⟩ := requeued _ _
  exact ⟨queue, dropped, _, same.trans rfl⟩

/-- Refilling moves a front part of the hold behind the queue. -/
theorem refillLoop_eq (hold : List Packet) (d : QbbNetDevice) :
    ∃ (moved dropped : List Packet) (q : DropTailQueue),
      hold = moved ++ (refillLoop hold d).1 ∧
      q.packets = d.queue.packets ++ moved ∧ q.maxSize = d.queue.maxSize ∧
      (refillLoop hold d).2 = { d with queue := q, queueDrop := dropped } := by
  induction hold generalizing d with
  | nil => exact ⟨[], d.queueDrop, d.queue, rfl, (List.append_nil _).symm, rfl, rfl⟩
  | cons p hold ih =>
    cases queued : d.queue.enqueue p with
    | none =>
      refine ⟨[], d.queueDrop ++ [p], d.queue, ?_, (List.append_nil _).symm, rfl, ?_⟩ <;>
        simp [refillLoop, QbbNetDevice.enqueue, queued]
    | some q =>
      obtain ⟨-, maxSize, packets⟩ := DropTailQueue.enqueue_eq_some.mp queued
      obtain ⟨moved, dropped, all, held, content, same, eq⟩ := ih { d with queue := q }
      refine ⟨p :: moved, dropped, all, ?_, ?_, same.trans maxSize, ?_⟩
      · simp only [refillLoop, QbbNetDevice.enqueue, queued, ↓reduceIte, List.cons_append]
        rw [← held]
      · rw [content, packets, List.append_assoc, List.singleton_append]
      · simp only [refillLoop, QbbNetDevice.enqueue, queued, ↓reduceIte]
        rw [eq]

/-- A hold that fits as a whole is moved back as a whole. -/
theorem refillLoop_whole (hold : List Packet) (d : QbbNetDevice)
    (room : d.queue.maxSize.unit.measure (d.queue.packets ++ hold) ≤ d.queue.maxSize.value) :
    ∃ q : DropTailQueue, q.packets = d.queue.packets ++ hold ∧ q.maxSize = d.queue.maxSize ∧
      refillLoop hold d = ([], { d with queue := q }) := by
  induction hold generalizing d with
  | nil => exact ⟨d.queue, (List.append_nil _).symm, rfl, rfl⟩
  | cons p hold ih =>
    obtain ⟨q, queued, maxSize, packets⟩ := d.queue.enqueue_front room
    obtain ⟨all, content, same, eq⟩ := ih { d with queue := q } (by
      simp only [maxSize, packets, List.append_assoc, List.singleton_append]
      exact room)
    refine ⟨all, ?_, same.trans maxSize, ?_⟩
    · rw [content, packets, List.append_assoc, List.singleton_append]
    · rw [refillLoop, QbbNetDevice.enqueue, queued]
      exact eq

/-- What a refill leaves in the hold found no room, and the first of it was dropped there. -/
theorem refillLoop_full (hold : List Packet) (d : QbbNetDevice) :
    (refillLoop hold d).2.queueDrop = d.queueDrop ++ (refillLoop hold d).1.head?.toList ∧
      ∀ p ∈ (refillLoop hold d).1.head?, (refillLoop hold d).2.queue.hasRoom p = false := by
  induction hold generalizing d with
  | nil => simp [refillLoop]
  | cons p hold ih =>
    cases queued : d.queue.enqueue p with
    | none => simp [refillLoop, QbbNetDevice.enqueue, queued, DropTailQueue.enqueue_eq_none.mp queued]
    | some q => simpa [refillLoop, QbbNetDevice.enqueue, queued] using ih { d with queue := q }

end Purge

/- The handlers -/

section Moves

variable {ok : Move Packet (Fin 8) → Sender Packet (Fin 8) → Prop} {h : Host ι}

/-- The device after a refill that left `rest` in the hold. -/
def QbbNetDevice.refilled (d : QbbNetDevice) (prio : Fin 8) (q : DropTailQueue)
    (rest dropped : List Packet) : QbbNetDevice :=
  { d with
    paused := Function.update d.paused prio false
    queue := q
    queueDrop := dropped
    macHold := Function.update d.macHold prio rest }

/-- Outside a pause the flag is clear before the hold is moved back. -/
theorem refillMacQueueFromHold_eq (prio : Fin 8) (running : h.dev.pausing h.now prio = false) :
    refillMacQueueFromHold i prio h =
      let refilled := refillLoop (h.dev.macHold prio)
        { h.dev with paused := Function.update h.dev.paused prio false }
      let after := { h with dev :=
        { refilled.2 with macHold := Function.update refilled.2.macHold prio refilled.1 } }
      if refilled.1 ≠ [] then
        after.scheduleRefillEvent prio (microSeconds 5) (.refillMacQueueFromHold i prio)
      else after.wakeTxEvent i := by
  have cleared : (if h.dev.paused prio && decide (h.dev.pauseUntil prio ≤ h.now) then
        h.update fun d => { d with paused := Function.update d.paused prio false }
      else h) = h.update fun d => { d with paused := Function.update d.paused prio false } := by
    split
    · rfl
    · rename_i kept
      have already : h.dev.paused prio = false := by
        simp only [QbbNetDevice.pausing, Bool.and_eq_false_iff, decide_eq_false_iff_not,
          not_lt] at running
        simp only [Bool.and_eq_true, decide_eq_true_eq, not_and] at kept
        rcases running with unset | lapsed
        · exact unset
        · exact Bool.eq_false_iff.mpr fun set => kept set lapsed
      rw [Host.update, ← already, Function.update_eq_self]
  unfold refillMacQueueFromHold
  rw [if_neg (by simp [running]), cleared]
  rfl

/-- A refill does nothing during a pause. Otherwise it clears the pause flag,
moves a front part of the hold, and arms one of the two timers. -/
theorem refillMacQueueFromHold_cases (prio : Fin 8) (h : Host ι) :
    (h.dev.pausing h.now prio = true ∧ refillMacQueueFromHold i prio h = h) ∨
    (h.dev.pausing h.now prio = false ∧ ∃ moved rest dropped q,
      h.dev.macHold prio = moved ++ rest ∧ q.packets = h.dev.queue.packets ++ moved ∧
      q.maxSize = h.dev.queue.maxSize ∧
      (rest ≠ [] ∧ refillMacQueueFromHold i prio h =
          { h with dev := h.dev.refilled prio q rest dropped }.scheduleRefillEvent prio
            (microSeconds 5) (.refillMacQueueFromHold i prio) ∨
        rest = [] ∧ refillMacQueueFromHold i prio h =
          Host.wakeTxEvent i { h with dev := h.dev.refilled prio q rest dropped })) := by
  cases running : h.dev.pausing h.now prio with
  | true => exact Or.inl ⟨rfl, by simp [refillMacQueueFromHold, running]⟩
  | false =>
    refine Or.inr ⟨rfl, ?_⟩
    obtain ⟨moved, dropped, q, held, content, maxSize, eq⟩ := refillLoop_eq (h.dev.macHold prio)
      { h.dev with paused := Function.update h.dev.paused prio false }
    refine ⟨moved, _, dropped, q, held, content, maxSize, ?_⟩
    rw [refillMacQueueFromHold_eq i prio running]
    dsimp only
    rw [eq]
    split
    · rename_i left
      exact Or.inl ⟨left, rfl⟩
    · rename_i done
      exact Or.inr ⟨not_not.mp done, rfl⟩

/-- Outside a pause, whatever is still held found no room, and the first of it was
dropped by the queue. -/
theorem refillMacQueueFromHold_full (prio : Fin 8) (running : h.dev.pausing h.now prio = false) :
    let after := (refillMacQueueFromHold i prio h).dev
    after.queueDrop = h.dev.queueDrop ++ (after.macHold prio).head?.toList ∧
      ∀ p ∈ (after.macHold prio).head?, after.queue.hasRoom p = false := by
  have full := refillLoop_full (h.dev.macHold prio)
    { h.dev with paused := Function.update h.dev.paused prio false }
  rw [refillMacQueueFromHold_eq i prio running]
  dsimp only
  split
  · simpa [Host.scheduleRefillEvent] using full
  · unfold Host.wakeTxEvent
    split <;> simpa [Host.scheduleTxEvent] using full

theorem refillMacQueueFromHold_now (prio : Fin 8) :
    (refillMacQueueFromHold i prio h).now = h.now := by
  rcases refillMacQueueFromHold_cases i prio h with
    ⟨-, same⟩ | ⟨-, _, _, _, _, -, -, -, ⟨-, same⟩ | ⟨-, same⟩⟩ <;> rw [same]
  · rfl
  · exact Host.wakeTxEvent_now ..

/-- Clearing the flag of a pause that has run out changes nothing for the sender. -/
theorem pausing_cleared {d : QbbNetDevice} {now : Time} {prio : Fin 8}
    (running : d.pausing now prio = false) :
    ({ d with paused := Function.update d.paused prio false } : QbbNetDevice).pausing now =
      d.pausing now := by
  funext other
  rcases eq_or_ne other prio with rfl | different
  · simp [QbbNetDevice.pausing] at running ⊢
    exact running
  · simp [QbbNetDevice.pausing, different]

theorem refillMacQueueFromHold_steps (prio : Fin 8)
    (allowed : ok (.refill prio) (h.dev.sender h.now)) :
    Steps frameClass ok (h.dev.sender h.now)
      ((refillMacQueueFromHold i prio h).dev.sender h.now) := by
  rcases refillMacQueueFromHold_cases i prio h with
    ⟨-, same⟩ | ⟨running, moved, rest, dropped, q, held, content, -, after⟩
  · rw [same]
  · have refilled : (refillMacQueueFromHold i prio h).dev.sender h.now =
        { h.dev.sender h.now with
          queue := (h.dev.sender h.now).queue ++ moved
          hold := Function.update (h.dev.sender h.now).hold prio rest } := by
      have paused := pausing_cleared running
      rcases after with ⟨-, same⟩ | ⟨-, same⟩
      · rw [same, Host.scheduleRefillEvent_sender]
        simp only [QbbNetDevice.sender, QbbNetDevice.refilled, content, ← paused]
        rfl
      · rw [same, Host.wakeTxEvent_sender]
        simp only [QbbNetDevice.sender, QbbNetDevice.refilled, content, ← paused]
        rfl
    rw [refilled]
    exact Steps.single frameClass (.refill held running) allowed

theorem resumeFromPause_steps (prio : Fin 8)
    (allowed : ok (.refill prio) (h.dev.sender h.now)) :
    Steps frameClass ok (h.dev.sender h.now) ((resumeFromPause i prio h).dev.sender h.now) := by
  unfold resumeFromPause
  split
  · exact .refl
  · rename_i lapsed
    have running : h.dev.pausing h.now prio = false := by simp [QbbNetDevice.pausing, lapsed]
    have same : (h.update fun d =>
        { d with paused := Function.update d.paused prio false }).dev.sender h.now =
        h.dev.sender h.now := by
      simp only [QbbNetDevice.sender, Host.update, ← pausing_cleared running]
      rfl
    rw [← same] at allowed ⊢
    exact refillMacQueueFromHold_steps i (h := h.update _) prio allowed

theorem resumeFromPause_now (prio : Fin 8) : (resumeFromPause i prio h).now = h.now := by
  unfold resumeFromPause
  split
  · rfl
  · exact refillMacQueueFromHold_now i prio

/-- The device after a frame that pauses a class, before its timer is armed. -/
def QbbNetDevice.pausedFor (d : QbbNetDevice) (prio : Fin 8) (until_ : Time) : QbbNetDevice :=
  purgeMacQueueForPrio prio
    { d with
      pfcRxXoff := Function.update d.pfcRxXoff prio (d.pfcRxXoff prio + 1)
      paused := Function.update d.paused prio true
      pauseUntil := Function.update d.pauseUntil prio until_ }

/-- The device after a frame that ends the pause of a class, before its hold is moved back. -/
def QbbNetDevice.resumedAt (d : QbbNetDevice) (prio : Fin 8) (now : Time) : QbbNetDevice :=
  { d with
    pfcRxXon := Function.update d.pfcRxXon prio (d.pfcRxXon prio + 1)
    paused := Function.update d.paused prio false
    pauseUntil := Function.update d.pauseUntil prio now }

/-- A class is left alone, goes on, or pauses. -/
theorem handlePfcClass_cases (ph : PfcHeader) (prio : Fin 8) (h : Host ι) :
    ph.enables prio = false ∧ handlePfcClass cfg i ph h prio = h ∨
    ph.enables prio = true ∧ ph.quanta prio = 0 ∧
      handlePfcClass cfg i ph h prio = refillMacQueueFromHold i prio
        ((h.update (·.resumedAt prio h.now)).cancelRefillEvent prio) ∨
    ph.enables prio = true ∧ ph.quanta prio ≠ 0 ∧
      handlePfcClass cfg i ph h prio = ((h.update (·.pausedFor prio
        (h.now + (cfg.attr i).quantaTime (ph.quanta prio)))).cancelRefillEvent prio).scheduleRefillEvent
          prio ((cfg.attr i).quantaTime (ph.quanta prio)) (.resumeFromPause i prio) := by
  unfold handlePfcClass
  split
  · rename_i disabled
    exact Or.inl ⟨disabled, rfl⟩
  · rename_i enabled
    have enabled : ph.enables prio = true := by simpa using enabled
    split
    · rename_i zero
      exact Or.inr (Or.inl ⟨enabled, zero, rfl⟩)
    · rename_i nonzero
      exact Or.inr (Or.inr ⟨enabled, nonzero, rfl⟩)

/-- Beside the queue, a pause changes only what concerns its class. -/
theorem pausedFor_rest (d : QbbNetDevice) (prio : Fin 8) (until_ : Time) :
    ∃ queue dropped held, d.pausedFor prio until_ = { d with
      queue := queue
      queueDrop := dropped
      macHold := Function.update d.macHold prio held
      pfcRxXoff := Function.update d.pfcRxXoff prio (d.pfcRxXoff prio + 1)
      paused := Function.update d.paused prio true
      pauseUntil := Function.update d.pauseUntil prio until_ } := by
  obtain ⟨queue, dropped, held, same⟩ := purgeMacQueueForPrio_rest prio
    { d with
      pfcRxXoff := Function.update d.pfcRxXoff prio (d.pfcRxXoff prio + 1)
      paused := Function.update d.paused prio true
      pauseUntil := Function.update d.pauseUntil prio until_ }
  exact ⟨queue, dropped, held, same⟩

/-- A pause moves the class's frames to the hold and keeps the others in order. -/
theorem pausedFor_eq (d : QbbNetDevice) (prio : Fin 8) (until_ : Time) (framed : Framed d) :
    ∃ q : DropTailQueue, q.maxSize = d.queue.maxSize ∧
      q.packets = d.queue.packets.filter (fun p => decide (frameClass p ≠ some prio)) ∧
      d.pausedFor prio until_ = { d with
        queue := q
        macHold := Function.update d.macHold prio (d.macHold prio ++
          d.queue.packets.filter fun p => decide (frameClass p = some prio))
        pfcRxXoff := Function.update d.pfcRxXoff prio (d.pfcRxXoff prio + 1)
        paused := Function.update d.paused prio true
        pauseUntil := Function.update d.pauseUntil prio until_ } := by
  obtain ⟨q, maxSize, content, same⟩ := purgeMacQueueForPrio_eq prio
    { d with
      pfcRxXoff := Function.update d.pfcRxXoff prio (d.pfcRxXoff prio + 1)
      paused := Function.update d.paused prio true
      pauseUntil := Function.update d.pauseUntil prio until_ }
    fun p member => QueueSizeUnit.measure_pos _ (framed.queue p member)
  exact ⟨q, maxSize, content, same⟩

theorem pausedFor_sender (d : QbbNetDevice) (prio : Fin 8) (until_ now : Time) (framed : Framed d) :
    ∃ paused, (∀ other, paused other = true → other = prio ∨ d.pausing now other = true) ∧
      (d.pausedFor prio until_).sender now =
        { d.sender now with
          paused := paused
          hold := Function.update d.macHold prio
            (d.macHold prio ++ d.queue.packets.filter fun p => decide (frameClass p = some prio))
          queue := d.queue.packets.filter fun p => decide (frameClass p ≠ some prio) } := by
  obtain ⟨q, -, content, same⟩ := pausedFor_eq d prio until_ framed
  refine ⟨(d.pausedFor prio until_).pausing now, fun other paused => ?_, ?_⟩
  · rcases eq_or_ne other prio with rfl | different
    · exact Or.inl rfl
    · right
      rw [same] at paused
      simpa [QbbNetDevice.pausing, different] using paused
  · rw [same]
    simp only [QbbNetDevice.sender, content]

/-- What a class of a received PFC frame must be allowed to do to the sender. -/
def PfcAllowed (ok : Move Packet (Fin 8) → Sender Packet (Fin 8) → Prop) (ph : PfcHeader)
    (prio : Fin 8) (s : Sender Packet (Fin 8)) : Prop :=
  ph.enables prio = true →
    (ph.quanta prio = 0 → ok .lapse s ∧ ok (.refill prio) s) ∧
    (ph.quanta prio ≠ 0 → ok (.pause prio) s)

theorem handlePfcClass_steps (ph : PfcHeader) (prio : Fin 8) (framed : Framed h.dev)
    (allowed : ∀ t, Untouched frameClass prio (h.dev.sender h.now) t → PfcAllowed ok ph prio t) :
    Steps frameClass (fun move s => move.Concerns prio ∧ ok move s) (h.dev.sender h.now)
      ((handlePfcClass cfg i ph h prio).dev.sender h.now) := by
  rcases handlePfcClass_cases cfg i ph prio h with
    ⟨-, same⟩ | ⟨enabled, zero, same⟩ | ⟨enabled, nonzero, same⟩
  · rw [same]
  · rw [same]
    have now := (allowed _ .refl enabled).1 zero
    let resumed := h.update (·.resumedAt prio h.now)
    have lapsed : resumed.dev.sender h.now =
        { h.dev.sender h.now with paused := resumed.dev.pausing h.now } := rfl
    have fewer : ∀ other, resumed.dev.pausing h.now other = true →
        (h.dev.sender h.now).paused other = true := by
      intro other paused
      rcases eq_or_ne other prio with rfl | different
      · simp [resumed, Host.update, QbbNetDevice.resumedAt, QbbNetDevice.pausing] at paused
      · simpa [resumed, Host.update, QbbNetDevice.resumedAt, QbbNetDevice.sender,
          QbbNetDevice.pausing, different] using paused
    have first : Steps frameClass (fun move s => move.Concerns prio ∧ ok move s)
        (h.dev.sender h.now) (resumed.dev.sender h.now) :=
      lapsed ▸ Steps.single frameClass (.lapse fewer) ⟨trivial, now.1⟩
    have untouched : Untouched frameClass prio (h.dev.sender h.now) (resumed.dev.sender h.now) :=
      ⟨rfl, rfl, rfl, rfl⟩
    have second : Steps frameClass (fun move s => move.Concerns prio ∧ ok move s)
        (resumed.dev.sender h.now)
        ((refillMacQueueFromHold i prio (resumed.cancelRefillEvent prio)).dev.sender h.now) := by
      have refill := @refillMacQueueFromHold_steps ι i
        (fun move s => move.Concerns prio ∧ ok move s) (resumed.cancelRefillEvent prio) prio
      rw [Host.cancelRefillEvent_dev, Host.cancelRefillEvent_now] at refill
      exact refill ⟨rfl, ((allowed _ untouched enabled).1 zero).2⟩
    exact first.trans second
  · obtain ⟨paused, others, after⟩ := pausedFor_sender h.dev prio
      (h.now + (cfg.attr i).quantaTime (ph.quanta prio)) h.now framed
    rw [same, Host.scheduleRefillEvent_sender, Host.cancelRefillEvent_dev]
    change Steps frameClass _ _ ((h.dev.pausedFor prio _).sender h.now)
    rw [after]
    exact Steps.single frameClass (.pause others)
      ⟨rfl, (allowed _ .refl enabled).2 nonzero⟩

theorem handlePfcClass_now (ph : PfcHeader) (prio : Fin 8) :
    (handlePfcClass cfg i ph h prio).now = h.now := by
  rcases handlePfcClass_cases cfg i ph prio h with ⟨-, same⟩ | ⟨-, -, same⟩ | ⟨-, -, same⟩
  · rw [same]
  · rw [same, refillMacQueueFromHold_now, Host.cancelRefillEvent_now]
    rfl
  · rw [same, Host.scheduleRefillEvent_now, Host.cancelRefillEvent_now]
    rfl

/-- No class of a PFC frame disturbs what the frame does to a later one. -/
theorem foldl_handlePfcClass_steps (ph : PfcHeader) (prios : List (Fin 8)) (distinct : prios.Nodup)
    (framed : Framed h.dev) (lawful : Lawful frameClass (h.dev.sender h.now))
    (allowed : ∀ prio ∈ prios, ∀ t, Untouched frameClass prio (h.dev.sender h.now) t →
      PfcAllowed ok ph prio t) :
    Steps frameClass ok (h.dev.sender h.now)
      ((prios.foldl (handlePfcClass cfg i ph) h).dev.sender h.now) := by
  induction prios generalizing h with
  | nil => exact .refl
  | cons prio prios ih =>
    have first := handlePfcClass_steps cfg i ph prio framed (allowed prio List.mem_cons_self)
    have now := handlePfcClass_now cfg i (h := h) ph prio
    have framed_after : Framed (handlePfcClass cfg i ph h prio).dev :=
      .of_sender (first.everywhere (framed.sender h.now) fun _ _ concerns => concerns.1.brings)
    have lawful_after := first.preserves frameClass (fun _ _ _ _ step => step.lawful) lawful
    have rest := ih (List.nodup_cons.mp distinct).2 framed_after (now.symm ▸ lawful_after) (by
      intro later member t untouched
      have other : later ≠ prio := fun same => (List.nodup_cons.mp distinct).1 (same ▸ member)
      have kept := first.untouched lawful (fun _ _ concerns => concerns.1) other
      rw [now] at untouched
      exact allowed later (List.mem_cons_of_mem _ member) t (kept.trans untouched))
    rw [now] at rest
    exact (first.mono frameClass fun _ _ concerns => concerns.2).trans rest

theorem foldl_handlePfcClass_now (ph : PfcHeader) (prios : List (Fin 8)) :
    (prios.foldl (handlePfcClass cfg i ph) h).now = h.now := by
  induction prios generalizing h with
  | nil => rfl
  | cons prio prios ih => rw [List.foldl_cons, ih, handlePfcClass_now]

end Moves

end QbbNet
