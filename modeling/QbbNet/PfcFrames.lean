import QbbNet.PfcRounds

set_option autoImplicit false

/- All that a received PFC frame does. The classes of its mask are served one after
another on one MAC queue; none of them disturbs another. -/
namespace QbbNet

open ClassedSender Simulator

variable {ι ν : Type} {cfg : Config ι ν} {i : ι} {h mid after : Host ι} {prio other : Fin 8}

/- The MAC queue after the rounds of some classes -/

/-- The frames of the pausing classes are taken out, and behind the others stand those that
were moved out of the holds. What is left in the hold of a resuming class found no room
behind what was queued by then, and the first of it is counted as a drop. -/
structure PfcHeader.MacQueue (ph : PfcHeader) (done : List (Fin 8)) (moved : Fin 8 → List Packet)
    (d e : QbbNetDevice) : Prop where
  packets : e.queue.packets =
    d.queue.packets.filter (fun p => !done.any (ph.stops · p)) ++ done.flatMap moved
  maxSize : e.queue.maxSize = d.queue.maxSize
  queueDrop : e.queueDrop = d.queueDrop ++
    done.flatMap fun prio => if ph.resumes prio then (e.macHold prio).head?.toList else []
  resumed : ∀ prio ∈ done, ph.resumes prio = true → d.macHold prio = moved prio ++ e.macHold prio
  unmoved : ∀ prio ∈ done, ph.resumes prio = false → moved prio = []
  full : ∀ front prio back, done = front ++ prio :: back → ph.resumes prio = true →
    ∀ p ∈ (e.macHold prio).head?, d.queue.maxSize.value < d.queue.maxSize.unit.measure
      (d.queue.packets.filter (fun p => !front.any (ph.stops · p)) ++
        (front ++ [prio]).flatMap moved ++ [p])

namespace PfcHeader.MacQueue

variable {ph : PfcHeader} {done : List (Fin 8)} {moved : Fin 8 → List Packet} {m : List Packet}
variable {d e f : QbbNetDevice}

theorem nil (ph : PfcHeader) (moved : Fin 8 → List Packet) (d : QbbNetDevice) :
    ph.MacQueue [] moved d d where
  packets := by simp
  maxSize := rfl
  queueDrop := by simp
  resumed := by simp
  unmoved := by simp
  full := by simp

theorem moved_own (macQueue : ph.MacQueue done moved d e)
    (own : ∀ prio, ∀ p ∈ d.macHold prio, frameClass p = some prio) (member : prio ∈ done) :
    ∀ p ∈ moved prio, frameClass p = some prio := by
  intro p inside
  cases resumes : ph.resumes prio with
  | true =>
    refine own prio p ?_
    rw [macQueue.resumed prio member resumes]
    exact List.mem_append_left _ inside
  | false =>
    rw [macQueue.unmoved prio member resumes] at inside
    cases inside

theorem update_flatMap (fresh : prio ∉ done) :
    done.flatMap (Function.update moved prio m) = done.flatMap moved :=
  List.flatMap_congr fun c member =>
    Function.update_of_ne (fun same : c = prio => fresh (same ▸ member)) ..

/-- One more class is served. -/
theorem snoc (macQueue : ph.MacQueue done moved d e) (fresh : prio ∉ done)
    (own : ∀ prio, ∀ p ∈ d.macHold prio, frameClass p = some prio)
    (first : e.macHold prio = d.macHold prio)
    (others : ∀ other ∈ done, f.macHold other = e.macHold other)
    (round : ph.Requeued prio m e f) :
    ph.MacQueue (done ++ [prio]) (Function.update moved prio m) d f where
  packets := by
    have stays : (done.flatMap moved).filter (fun p => !ph.stops prio p) = done.flatMap moved := by
      refine List.filter_eq_self.mpr fun p inside => ?_
      obtain ⟨c, member, inside⟩ := List.mem_flatMap.mp inside
      have different : c ≠ prio := fun same => fresh (same ▸ member)
      simp [stops, macQueue.moved_own own member p inside, different]
    rw [round.packets, macQueue.packets, List.filter_append, stays, List.filter_filter,
      List.flatMap_append, update_flatMap fresh, List.append_assoc]
    simp [Bool.and_comm]
  maxSize := round.maxSize.trans macQueue.maxSize
  queueDrop := by
    have same : (done.flatMap fun c => if ph.resumes c then (f.macHold c).head?.toList else []) =
        done.flatMap fun c => if ph.resumes c then (e.macHold c).head?.toList else [] :=
      List.flatMap_congr fun c member => by rw [others c member]
    rw [round.queueDrop, macQueue.queueDrop, List.flatMap_append, same, List.append_assoc]
    simp
  resumed := by
    intro c member resumes
    rcases List.mem_append.mp member with before | last
    · have different : c ≠ prio := fun same => fresh (same ▸ before)
      rw [Function.update_of_ne different, others c before]
      exact macQueue.resumed c before resumes
    · obtain rfl := List.mem_singleton.mp last
      rw [Function.update_self, ← first]
      exact (round.resumed resumes).1
  unmoved := by
    intro c member resumes
    rcases List.mem_append.mp member with before | last
    · have different : c ≠ prio := fun same => fresh (same ▸ before)
      rw [Function.update_of_ne different]
      exact macQueue.unmoved c before resumes
    · obtain rfl := List.mem_singleton.mp last
      rw [Function.update_self]
      exact round.unmoved resumes
  full := by
    intro front c back split resumes p left
    rcases List.eq_nil_or_concat back with rfl | ⟨back, last, rfl⟩
    · obtain ⟨rfl, same⟩ := List.append_inj' split rfl
      obtain rfl : prio = c := by simpa using same
      have refused := (round.resumed resumes).2 p left
      have running : ∀ q, ph.stops prio q = false := by
        simp only [PfcHeader.resumes, Bool.and_eq_true, decide_eq_true_eq] at resumes
        simp [stops, resumes.2]
      rw [DropTailQueue.hasRoom, decide_eq_false_iff_not, not_le, DropTailQueue.getCurrentSize,
        ← QueueSizeUnit.measure_append, round.maxSize, macQueue.maxSize, round.packets,
        macQueue.packets] at refused
      simpa [running, update_flatMap fresh, List.flatMap_append] using refused
    · have parts : done ++ [prio] = (front ++ c :: back) ++ [last] := by simpa using split
      obtain ⟨rfl, -⟩ := List.append_inj' parts rfl
      have member : c ∈ front ++ c :: back := by simp
      have absent : prio ∉ front ++ [c] := fun inside => fresh (by
        rcases List.mem_append.mp inside with before | here
        · exact List.mem_append_left _ before
        · exact List.mem_singleton.mp here ▸ member)
      rw [others c member] at left
      rw [update_flatMap absent]
      exact macQueue.full front c back rfl resumes p left

end PfcHeader.MacQueue

/- The rounds of some classes -/

/-- The events that a PFC frame has nothing to do with. -/
def Foreign (i : ι) (event : Event ι) : Prop :=
  ¬ Timer.tx.Runs i event ∧ ∀ prio, ¬ (Timer.refill prio).Runs i event

/-- The classes of the list have been served, and the others are spared. -/
structure PfcHeader.Served (ph : PfcHeader) (attr : Attributes) (i : ι) (done : List (Fin 8))
    (h after : Host ι) : Prop where
  orderly : Orderly i after
  clock : after.now = h.now
  obeys : Obeys h after
  classes : ∀ prio ∈ done, ph.Obeyed attr i h after prio
  spared : ∀ prio ∉ done, Spared i prio h after
  macQueue : ∃ moved, ph.MacQueue done moved h.dev after.dev
  tx : MayWake i h after
  foreign : SameFor (Foreign i) h.sim after.sim

namespace PfcHeader.Served

variable {ph : PfcHeader} {done : List (Fin 8)}

theorem nil (attr : Attributes) (orderly : Orderly i h) : ph.Served attr i [] h h where
  orderly := orderly
  clock := rfl
  obeys := .refl h
  classes := by simp
  spared prio _ := .refl i prio h
  macQueue := ⟨fun _ => [], .nil ph _ h.dev⟩
  tx := .inl (.refl i h)
  foreign := .refl _ h.sim

/-- Every class is served in its own round and spared in the others. -/
theorem snoc (orderly : Orderly i h) (served : ph.Served (cfg.attr i) i done h mid)
    (fresh : prio ∉ done) :
    ph.Served (cfg.attr i) i (done ++ [prio]) h (handlePfcClass cfg i ph mid prio) where
  orderly := served.orderly.handlePfcClass cfg ph prio
  clock := (handlePfcClass_now cfg i ph prio).trans served.clock
  obeys := served.obeys.trans (handlePfcClass_obeys ph prio)
  classes c member := by
    rcases List.mem_append.mp member with before | last
    · have different : c ≠ prio := fun same => fresh (same ▸ before)
      exact (served.classes c before).andThen (handlePfcClass_spared cfg ph served.orderly different)
    · obtain rfl := List.mem_singleton.mp last
      exact .precede (served.spared c fresh) served.clock
        (handlePfcClass_obeyed cfg ph c served.orderly)
  spared c absent := by
    obtain ⟨before, different⟩ : c ∉ done ∧ c ≠ prio := by simpa using absent
    exact (served.spared c before).trans (handlePfcClass_spared cfg ph served.orderly different)
  macQueue := by
    obtain ⟨moved, macQueue⟩ := served.macQueue
    obtain ⟨m, round⟩ := handlePfcClass_requeued cfg ph prio served.orderly.framed
    refine ⟨_, macQueue.snoc fresh orderly.lawful.hold (served.spared prio fresh).macHold
      (fun c member => ?_) round⟩
    have different : c ≠ prio := fun same => fresh (same ▸ member)
    exact (handlePfcClass_spared cfg ph served.orderly different).macHold
  tx := served.tx.trans (handlePfcClass_mayWake cfg ph prio served.orderly.slots) orderly.slots
    served.clock
  foreign := served.foreign.trans (handlePfcClass_sameFor cfg ph served.orderly.slots
    (fun _ foreign => foreign.2 prio) fun foreign => foreign.1 rfl)

variable (cfg) in
theorem foldl (ph : PfcHeader) (orderly : Orderly i h) (prios : List (Fin 8))
    (distinct : prios.Nodup) :
    ph.Served (cfg.attr i) i prios h (prios.foldl (handlePfcClass cfg i ph) h) := by
  induction prios using List.reverseRecOn with
  | nil => exact .nil (cfg.attr i) orderly
  | append_singleton prios prio ih =>
    obtain ⟨distinct, -, apart⟩ := List.nodup_append.mp distinct
    rw [List.foldl_append]
    exact (ih distinct).snoc orderly fun member =>
      apart prio member prio (List.mem_singleton_self prio) rfl

end PfcHeader.Served

variable (cfg i) in
/-- A header that enables no class is not acted on by any round. -/
theorem foldl_handlePfcClass_disabled (ph : PfcHeader) (disabled : ∀ prio, ph.enables prio = false)
    (prios : List (Fin 8)) : prios.foldl (handlePfcClass cfg i ph) h = h := by
  induction prios with
  | nil => rfl
  | cons prio prios ih => rw [List.foldl_cons, handlePfcClass, if_pos (disabled prio), ih]

/- The whole frame -/

/-- A PFC frame: the header behind its PPP header, and whatever follows. -/
def PfcHeader.frame (ph : PfcHeader) (origin : Origin) (payload : List UInt8) : Packet :=
  Packet.addPpp ⟨origin, ph.serialize ++ payload⟩ pfcPppProto

theorem PfcHeader.isPfcFrame_frame (ph : PfcHeader) (origin : Origin) (payload : List UInt8) :
    isPfcFrame (ph.frame origin payload) = true := decide_eq_true (Packet.peekPpp_addPpp _ _)

theorem PfcHeader.pfcHeader_frame (ph : PfcHeader) (origin : Origin) (payload : List UInt8) :
    pfcHeader (ph.frame origin payload) = if ph.classEnable = 0 then none else some ph := by
  rw [pfcHeader, frame, Packet.removePpp_addPpp, deserialize_serialize, Option.filter_some]
  split <;> simp_all

/-- All that HandleMacRx does with a frame that carries the header. Every class is served
or spared. Of the device the packets that wait, the receiving side but for the trace of the
frame, the base device but for its queue, and the manager of the tokens stay. In the
calendar, the transmission is woken unless it is pending, and only this and the timers
of the classes change. -/
structure PfcHandled (attr : Attributes) (i : ι) (ph : PfcHeader) (p : Packet) (h after : Host ι) :
    Prop where
  classes : ∀ prio, ph.Obeyed attr i h after prio
  macQueue : ∃ moved, ph.MacQueue QbbNet.classes moved h.dev after.dev
  txq : after.dev.txq = h.dev.txq
  accepted : after.dev.accepted = h.dev.accepted
  receiving : after.dev.toReceivingSide =
    { h.dev.toReceivingSide with macRx := h.dev.macRx ++ [(h.now, p)] }
  base : ∃ queue queueDrop, after.dev.toPointToPointNetDevice =
    { h.dev.toPointToPointNetDevice with queue, queueDrop }
  mgr : after.mgr = h.mgr
  clock : after.now = h.now
  kept : h.Pending .tx → TxKept i h after
  woken : ph.classEnable ≠ 0 → ¬ h.Pending .tx → TxWoken i h after
  foreign : SameFor (Foreign i) h.sim after.sim
  zero : ph.classEnable = 0 →
    after = h.update fun d => { d with macRx := d.macRx ++ [(h.now, p)] }
  orderly : Orderly i after

variable (cfg) in
/-- The rounds of all classes and the wake-up after them. -/
theorem handlePfcFrame_served {p : Packet} {ph : PfcHeader} (header : pfcHeader p = some ph)
    (orderly : Orderly i h) :
    ph.Served (cfg.attr i) i classes h (handlePfcFrame cfg i p h) ∧
      (handlePfcFrame cfg i p h).Pending .tx := by
  have served := PfcHeader.Served.foldl cfg ph orderly classes classes_nodup
  let mid := classes.foldl (handlePfcClass cfg i ph) h
  have run : handlePfcFrame cfg i p h = mid.wakeTxEvent i := by rw [handlePfcFrame, header]
  have sender : (mid.wakeTxEvent i).dev.sender mid.now = mid.dev.sender mid.now :=
    Host.wakeTxEvent_sender ..
  have clock : (mid.wakeTxEvent i).now = mid.now := Host.wakeTxEvent_now ..
  have slots : (mid.wakeTxEvent i).Slots i := by
    rw [← run]
    exact (orderly.slots.awake.handlePfcFrame p).slots
  have macQueue : (mid.wakeTxEvent i).dev.queue = mid.dev.queue ∧
      (mid.wakeTxEvent i).dev.queueDrop = mid.dev.queueDrop ∧
      (mid.wakeTxEvent i).dev.macHold = mid.dev.macHold := by
    unfold Host.wakeTxEvent
    split <;> exact ⟨rfl, rfl, rfl⟩
  rw [run]
  refine ⟨⟨⟨slots, ?_, ?_⟩, clock.trans served.clock, served.obeys.trans wakeTxEvent_obeys, ?_, ?_,
    ?_, ?_, ?_⟩, wakeTxEvent_pending_tx i mid⟩
  · have framed := served.orderly.framed.sender mid.now
    rw [← sender] at framed
    exact .of_sender framed
  · rw [clock, sender]
    exact served.orderly.lawful
  · exact fun prio member => (served.classes prio member).andThen (.wakeTxEvent prio mid)
  · exact fun prio absent => absurd (mem_classes prio) absent
  · obtain ⟨moved, ⟨packets, maxSize, queueDrop, resumed, unmoved, full⟩⟩ := served.macQueue
    refine ⟨moved, ?_, ?_, ?_, ?_, unmoved, ?_⟩ <;> simp only [macQueue]
    · exact packets
    · exact maxSize
    · exact queueDrop
    · exact resumed
    · exact full
  · exact served.tx.trans (wakeTxEvent_mayWake i mid) orderly.slots served.clock
  · exact served.foreign.trans (wakeTxEvent_sameFor fun foreign => foreign.1 rfl)

variable (cfg) in
theorem handleMacRx_pfcHandled (ph : PfcHeader) (origin : Origin) (payload : List UInt8)
    (orderly : Orderly i h) :
    PfcHandled (cfg.attr i) i ph (ph.frame origin payload) h
      (handleMacRx cfg i (ph.frame origin payload) h) := by
  let p := ph.frame origin payload
  let traced := h.update fun d => { d with macRx := d.macRx ++ [(h.now, p)] }
  have noted : ∀ prio, Spared i prio h traced :=
    fun prio => ⟨⟨rfl, rfl, rfl, rfl, rfl, rfl, rfl⟩, .refl _ h.sim⟩
  have traced_orderly : Orderly i traced := ⟨orderly.slots, orderly.framed, orderly.lawful⟩
  have obeys := handleMacRx_control cfg i h (ph.isPfcFrame_frame origin payload)
  have run : handleMacRx cfg i p h = handlePfcFrame cfg i p traced := by
    rw [handleMacRx, if_pos (ph.isPfcFrame_frame origin payload)]
  have header := ph.pfcHeader_frame origin payload
  have zero (none_enabled : ph.classEnable = 0) : handleMacRx cfg i p h = traced := by
    rw [if_pos none_enabled] at header
    rw [run, handlePfcFrame, header]
  obtain ⟨served, awake⟩ : ph.Served (cfg.attr i) i classes traced (handleMacRx cfg i p h) ∧
      (ph.classEnable ≠ 0 → (handleMacRx cfg i p h).Pending .tx) := by
    by_cases none_enabled : ph.classEnable = 0
    · have disabled (prio : Fin 8) : ph.enables prio = false := by
        simp [PfcHeader.enables, none_enabled]
      have served := PfcHeader.Served.foldl cfg ph traced_orderly classes classes_nodup
      rw [foldl_handlePfcClass_disabled cfg i ph disabled] at served
      exact ⟨zero none_enabled ▸ served, absurd none_enabled⟩
    · rw [if_neg none_enabled] at header
      rw [run]
      obtain ⟨served, awake⟩ := handlePfcFrame_served cfg header traced_orderly
      exact ⟨served, fun _ => awake⟩
  obtain ⟨moved, macQueue⟩ := served.macQueue
  exact {
    classes := fun prio => .precede (noted prio) rfl (served.classes prio (mem_classes prio))
    macQueue := ⟨moved, { macQueue with }⟩
    txq := obeys.txq
    accepted := obeys.accepted
    receiving := obeys.receiving
    base := obeys.base
    mgr := obeys.mgr
    clock := served.clock
    kept := fun pending => by
      rcases served.tx with kept | ⟨ended, -⟩
      · exact ⟨kept.txEvent, kept.events⟩
      · exact absurd pending ended
    woken := fun some_enabled ended => by
      rcases served.tx with kept | ⟨-, woken⟩
      · exact absurd ((kept.pending orderly.slots).mp (awake some_enabled)) ended
      · exact woken
    foreign := served.foreign
    zero
    orderly := served.orderly }

section Run

variable [DecidableEq ι] [DecidableEq ν] {s : Net ι ν}

/-- Whenever handlers run, their device is orderly. -/
theorem Net.Reachable.orderly (reachable : Net.Reachable cfg s) (action : Action ι ν) (i : ι) :
    Orderly i ((s.begun action).host cfg i) := by
  have awake := Net.reachable_awake reachable i
  obtain ⟨slots, later⟩ : ((s.begun action).host cfg i).Slots i ∧
      s.sim.currentTs ≤ ((s.begun action).host cfg i).now := by
    cases action with
    | event up =>
      rw [Net.begun]
      split
      · rename_i impl sim popped
        exact ⟨(awake.processOneEvent popped).1.slots, Simulator.processOneEvent_mono popped⟩
      · exact ⟨awake.slots, Nat.le_refl _⟩
    | elapse t =>
      rw [Net.begun]
      split
      · rename_i sim elapsed
        obtain ⟨past, ts, -⟩ := Simulator.elapse_eq elapsed
        exact ⟨(awake.elapse elapsed).slots,
          Nat.le_trans (Nat.le_of_lt past) (Nat.le_of_eq ts.symm)⟩
      · exact ⟨awake.slots, Nat.le_refl _⟩
    | _ => exact ⟨awake.slots, Nat.le_refl _⟩
  have same : ((s.begun action).host cfg i).dev = s.dev i := by
    rw [Net.host_dev, Net.begun_dev]
  have quiet : Quiet (s.dev i) ((s.begun action).host cfg i).dev := by
    rw [same]
    exact .refl _
  obtain ⟨framed, lawful⟩ := lawful_later reachable later quiet
  exact ⟨slots, framed, lawful⟩

end Run

/-- A PFC header is read as it was written, and in every orderly state its frame does
exactly what the header orders. A pause takes the time of 512 bits for each quantum, but for
half a nanosecond and what doubles lose; and every state in which handlers run is orderly. -/
theorem pfc_frame_meaning [DecidableEq ι] [DecidableEq ν] (cfg : Config ι ν) (i : ι) (ph : PfcHeader)
    (origin : Origin) (payload : List UInt8) :
    ph.serialize.length = 20 ∧ PfcHeader.deserialize (ph.serialize ++ payload) = some ph ∧
    (∀ h : Host ι, Orderly i h → PfcHandled (cfg.attr i) i ph (ph.frame origin payload) h
      (handleMacRx cfg i (ph.frame origin payload) h)) ∧
    ((cfg.attr i).dataRate < 2 ^ 64 → ∀ quanta : UInt16,
      |((cfg.attr i).quantaTime quanta : ℚ) - 512 * quanta.toNat * (cfg.attr i).bitTime| ≤
        1 / 2 + 1 / 2 ^ 35 + 512 * quanta.toNat * (cfg.attr i).bitTime / 2 ^ 50) ∧
    ∀ s : Net ι ν, Net.Reachable cfg s → ∀ action : Action ι ν,
      Orderly i ((s.begun action).host cfg i) :=
  ⟨ph.serialize_length, ph.deserialize_serialize payload,
    fun _ orderly => handleMacRx_pfcHandled cfg ph origin payload orderly,
    fun fits quanta => Attributes.quantaTime_near quanta fits,
    fun _ reachable action => reachable.orderly action i⟩

/-- A frame of class 0 is held, and frames of classes 1 and 2 fill the queue. -/
def mixedRun : List (Action (Fin 1) Unit) :=
  [sendClass 0 0x00, sendClass 1 0x00, .event .sink, .event .sink, .event .sink, receivePfc 1,
    sendClass 2 0x20, sendClass 3 0x40, .event .sink, .event .sink]

/-- Class 0 may go on, and class 1 pauses. -/
def mixedHeader : PfcHeader where
  classEnable := 0b011
  quanta := Function.update (fun _ => 0) 1 1

theorem pfc_frame_meaning_mixed :
    ∃ s, (Net.started shortQueue).run shortQueue (fun _ _ => True) mixedRun = some s ∧
      (s.dev 0).macHold 0 ≠ [] ∧ (s.dev 0).queued 1 ≠ [] ∧ (s.dev 0).queued 2 ≠ [] ∧
      PfcHandled (shortQueue.attr 0) 0 mixedHeader (mixedHeader.frame .control [])
        (s.host shortQueue 0)
        (handleMacRx shortQueue 0 (mixedHeader.frame .control []) (s.host shortQueue 0)) ∧
      |((shortQueue.attr 0).quantaTime 1 : ℚ) - 512 * 1 * (shortQueue.attr 0).bitTime| ≤
        1 / 2 + 1 / 2 ^ 35 + 512 * 1 * (shortQueue.attr 0).bitTime / 2 ^ 50 := by
  obtain ⟨s, ran, held, first, second⟩ : ∃ s,
      (Net.started shortQueue).run shortQueue (fun _ _ => True) mixedRun = some s ∧
        (s.dev 0).macHold 0 ≠ [] ∧ (s.dev 0).queued 1 ≠ [] ∧ (s.dev 0).queued 2 ≠ [] :=
    exists_of_any (by decide +kernel)
  obtain ⟨-, -, handled, near, orderly⟩ :=
    pfc_frame_meaning shortQueue 0 mixedHeader .control []
  have reachable : Net.Reachable shortQueue s := .of_run _ (Net.started_initial _) ran
  have start := orderly s reachable (.deliver 0 (mixedHeader.frame .control []) false)
  have quantum := near (by decide) 1
  rw [show (1 : UInt16).toNat = 1 from rfl, Nat.cast_one] at quantum
  exact ⟨s, ran, held, first, second, handled _ start, quantum⟩

end QbbNet
