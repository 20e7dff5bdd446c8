import QbbNet.Reassembly
import QbbNet.SimulatorSlots
import QbbNet.TokenBucket
import QbbNet.Topology
import Mathlib.Data.List.AList

set_option autoImplicit false

/- Ipv4L3Protocol::LocalDeliver and ProcessFragment: the fragments that a host receives of
many datagrams, and the timeouts of those that stay incomplete. -/
namespace QbbNet

open Ipv4PayloadHeaderPair

/-- The loop of GetPartialPacket. Of a fragment that ends within what there is already
CreateFragment leaves nothing. -/
def Fragments.partialFrom (p : List UInt8) (lastEndOffset : UInt16) :
    List (List UInt8 × UInt16) → List UInt8
  | [] => p
  | it :: rest =>
      let p :=
        if it.2 < lastEndOffset then p ++ it.1.drop (lastEndOffset - it.2).toNat
        else if lastEndOffset = it.2 then p ++ it.1
        else p
      partialFrom p (UInt16.ofNat p.length) rest

/-- GetPartialPacket, which is only called once a fragment has been added. -/
def Fragments.getPartialPacket (f : Fragments) : Option (List UInt8) :=
  match f.fragments with
  | [] => none
  | it :: _ => if 0 < it.2 then some [] else some (partialFrom [] 0 f.fragments)

structure FragmentKey where
  first : UInt64
  second : UInt32
  deriving DecidableEq

def fragmentKey (ipHeader : FragmentHeader) : FragmentKey where
  first := ipHeader.source.toUInt64 <<< 32 ||| ipHeader.destination.toUInt64
  second := ipHeader.identification.toUInt32 <<< 16 ||| ipHeader.protocol.toUInt32

structure FragmentsTimeout where
  time : Time
  key : FragmentKey
  ipHeader : FragmentHeader
  iif : UInt32

/-- What is reported of a datagram whose fragments are given up, and whether an ICMP message
goes to its source. -/
structure FragmentDrop where
  ipHeader : FragmentHeader
  packet : List UInt8
  iif : UInt32
  timeExceeded : Bool

inductive FragmentEvent where
  | handleTimeout

/-- The protocol as far as it handles fragments, with what it has delivered and dropped.
The iterator that a Fragments object has is the entry of its key in the list of timeouts. -/
structure Ipv4L3Protocol where
  sim : Simulator FragmentEvent
  fragments : AList fun _ : FragmentKey => Fragments
  timeoutEventList : List FragmentsTimeout
  delivered : List Ipv4PayloadHeaderPair
  dropped : List FragmentDrop

/-- A piece that is a whole datagram is the datagram. -/
theorem Ipv4PayloadHeaderPair.PieceOf.whole {original piece : Ipv4PayloadHeaderPair}
    (of : PieceOf original piece) (unfragmented : Unfragmented original)
    (first : piece.2.fragmentOffset = 0) (last : piece.2.lastFragment = true) :
    piece.1 = original.1 := by
  have start_eq : start piece = 0 := by
    rw [start, first]
    rfl
  have stop_eq : stop piece = stop original := by
    have flag := of.last
    rw [last, unfragmented.last, Bool.true_and] at flag
    exact of_decide_eq_true flag.symm
  rw [stop, start_eq, Nat.zero_add, unfragmented.stop_eq] at stop_eq
  have items : piece.1 = (original.1.drop (start piece - start original)).take piece.1.length :=
    of.part.items_eq
  rw [items, start_eq, Nat.zero_sub, List.drop_zero, stop_eq, List.take_length]

namespace Ipv4L3Protocol

def init : Ipv4L3Protocol := ⟨.init, ∅, [], [], []⟩

variable (fragmentExpirationTimeout : Time)

def setTimeout (s : Ipv4L3Protocol) (key : FragmentKey) (ipHeader : FragmentHeader)
    (iif : UInt32) : Ipv4L3Protocol :=
  { s with
    sim := if s.timeoutEventList.isEmpty then
      (s.sim.schedule fragmentExpirationTimeout .handleTimeout).2 else s.sim
    timeoutEventList := s.timeoutEventList ++
      [⟨s.sim.currentTs + fragmentExpirationTimeout, key, ipHeader, iif⟩] }

/-- The fragments of a key, which ProcessFragment makes room for if there are none. -/
def fragmentsOf (s : Ipv4L3Protocol) (ipHeader : FragmentHeader) (iif : UInt32) :
    Fragments × Ipv4L3Protocol :=
  match s.fragments.lookup (fragmentKey ipHeader) with
  | none =>
      (.new, { s.setTimeout fragmentExpirationTimeout (fragmentKey ipHeader) ipHeader iif with
        fragments := s.fragments.insert (fragmentKey ipHeader) .new })
  | some fragments => (fragments, s)

/-- ProcessFragment, with the packet if it is complete now. -/
def processFragment (s : Ipv4L3Protocol) (packet : List UInt8) (ipHeader : FragmentHeader)
    (iif : UInt32) : Option (List UInt8) × Ipv4L3Protocol :=
  let key := fragmentKey ipHeader
  let found := s.fragmentsOf fragmentExpirationTimeout ipHeader iif
  let fragments := found.1.addFragment packet ipHeader.fragmentOffset !ipHeader.lastFragment
  if fragments.isEntire then
    (fragments.getPacket, { found.2 with
      timeoutEventList := found.2.timeoutEventList.eraseP fun t => decide (t.key = key)
      fragments := found.2.fragments.erase key })
  else (none, { found.2 with fragments := found.2.fragments.insert key fragments })

/-- LocalDeliver up to the call of the transport protocol. -/
def localDeliver (s : Ipv4L3Protocol) (datagram : Ipv4PayloadHeaderPair) (iif : UInt32) :
    Ipv4L3Protocol :=
  if datagram.2.lastFragment = false ∨ datagram.2.fragmentOffset ≠ 0 then
    let processed := s.processFragment fragmentExpirationTimeout datagram.1 datagram.2 iif
    match processed.1 with
    | none => processed.2
    | some p =>
        { processed.2 with delivered := processed.2.delivered ++
            [(p, { datagram.2 with
              fragmentOffset := 0
              payloadSize := UInt16.ofNat p.length
              aligned := rfl })] }
  else { s with delivered := s.delivered ++ [datagram] }

/-- HandleFragmentsTimeout. There have to be fragments of the key. -/
def handleFragmentsTimeout (fragments : AList fun _ : FragmentKey => Fragments)
    (t : FragmentsTimeout) :
    Option (FragmentDrop × AList fun _ : FragmentKey => Fragments) :=
  match fragments.lookup t.key with
  | none => none
  | some f => f.getPartialPacket.map fun packet =>
      (⟨t.ipHeader, packet, t.iif, decide (8 < packet.length)⟩, fragments.erase t.key)

/-- The loop of HandleTimeout. -/
def handleDue (now : Time) (fragments : AList fun _ : FragmentKey => Fragments) :
    List FragmentsTimeout → Option (List FragmentDrop ×
      (AList fun _ : FragmentKey => Fragments) × List FragmentsTimeout)
  | [] => some ([], fragments, [])
  | t :: rest =>
      if t.time = now then
        match handleFragmentsTimeout fragments t with
        | none => none
        | some (drop, fragments) =>
            (handleDue now fragments rest).map fun left => (drop :: left.1, left.2)
      else some ([], fragments, t :: rest)

/-- The end of HandleTimeout, which comes again for the next timeout. -/
def scheduleNext (sim : Simulator FragmentEvent) :
    List FragmentsTimeout → Simulator FragmentEvent
  | [] => sim
  | t :: _ => (sim.schedule (t.time - sim.currentTs) .handleTimeout).2

def handleTimeout (s : Ipv4L3Protocol) : Option Ipv4L3Protocol :=
  match handleDue s.sim.currentTs s.fragments s.timeoutEventList with
  | none => none
  | some (drops, fragments, timeoutEventList) =>
      some { s with
        sim := scheduleNext s.sim timeoutEventList
        fragments
        timeoutEventList
        dropped := s.dropped ++ drops }

/-- What happens at a host: a datagram comes for it, time passes, an event is due. -/
inductive Action where
  | localDeliver (datagram : Ipv4PayloadHeaderPair) (iif : UInt32)
  | elapse (ts : Time)
  | processOneEvent

def step (s : Ipv4L3Protocol) : Action → Option Ipv4L3Protocol
  | .localDeliver datagram iif => some (s.localDeliver fragmentExpirationTimeout datagram iif)
  | .elapse ts => (s.sim.elapse ts).map fun sim => { s with sim }
  | .processOneEvent =>
      match s.sim.processOneEvent with
      | none => none
      | some (none, sim) => some { s with sim }
      | some (some .handleTimeout, sim) => handleTimeout { s with sim }

def run : Ipv4L3Protocol → List Action → Option Ipv4L3Protocol
  | s, [] => some s
  | s, action :: actions => (s.step fragmentExpirationTimeout action).bind (run · actions)

/- The timeouts -/

/-- Each buffer has one timeout, that is not past and has been set for the time that fragments
are kept, and HandleTimeout is scheduled for it, or for an earlier one. -/
structure Timed (s : Ipv4L3Protocol) : Prop where
  keys : (s.timeoutEventList.map (·.key)).Perm s.fragments.keys
  sorted : s.timeoutEventList.Pairwise fun t other => t.time ≤ other.time
  window : ∀ t ∈ s.timeoutEventList, s.sim.currentTs ≤ t.time ∧
    t.time ≤ s.sim.currentTs + fragmentExpirationTimeout
  armed : ∀ t ∈ s.timeoutEventList, ∃ e ∈ s.sim.events, e.key.ts ≤ t.time
  uncancelled : s.sim.cancelled = []

variable {fragmentExpirationTimeout : Time} {s t : Ipv4L3Protocol}

theorem Timed.init : Timed fragmentExpirationTimeout .init where
  keys := .refl _
  sorted := .nil
  window := fun _ => nofun
  armed := fun _ => nofun
  uncancelled := rfl

theorem mem_events_schedule (sim : Simulator FragmentEvent) (delay : Nat) (impl : FragmentEvent)
    {e : Scheduled FragmentEvent} : e ∈ (sim.schedule delay impl).2.events ↔
      e = ⟨⟨sim.currentTs + delay, sim.uid⟩, impl⟩ ∨ e ∈ sim.events :=
  List.mem_orderedInsert _

/-- Room is made for the fragments of a key. -/
theorem Timed.fragmentsOf (timed : s.Timed fragmentExpirationTimeout) (ipHeader : FragmentHeader)
    (iif : UInt32) : (s.fragmentsOf fragmentExpirationTimeout ipHeader iif).2.Timed
      fragmentExpirationTimeout := by
  unfold Ipv4L3Protocol.fragmentsOf
  split
  · rename_i absent
    have fresh : fragmentKey ipHeader ∉ s.fragments.keys := AList.lookup_eq_none.mp absent
    refine ⟨?keys, ?sorted, ?window, ?armed, ?uncancelled⟩
    case keys =>
      show ((s.timeoutEventList ++ [_]).map FragmentsTimeout.key).Perm (s.fragments.insert _ _).keys
      rw [AList.keys_insert, List.erase_of_not_mem fresh, List.map_append, List.map_singleton]
      exact (List.perm_append_singleton _ _).trans (timed.keys.cons _)
    case sorted =>
      refine List.pairwise_append.mpr ⟨timed.sorted, List.pairwise_singleton _ _, ?_⟩
      intro old mem
      exact List.forall_mem_singleton.mpr (timed.window old mem).2
    case window =>
      have clock : (s.setTimeout fragmentExpirationTimeout (fragmentKey ipHeader) ipHeader
          iif).sim.currentTs = s.sim.currentTs := by
        unfold setTimeout
        dsimp only
        split <;> rfl
      dsimp only
      rw [clock]
      refine List.forall_mem_append.mpr ⟨timed.window, List.forall_mem_singleton.mpr ?_⟩
      exact ⟨Nat.le_add_right _ _, Nat.le_refl _⟩
    case armed =>
      show ∀ t ∈ s.timeoutEventList ++ [_], ∃ e ∈ (ite _ _ _ : Simulator _).events, _
      cases waiting : s.timeoutEventList with
      | nil =>
        refine List.forall_mem_singleton.mpr ⟨_, (mem_events_schedule _ _ _).mpr (.inl rfl), ?_⟩
        exact Nat.le_refl _
      | cons first rest =>
        have first_mem : first ∈ s.timeoutEventList := waiting ▸ List.mem_cons_self
        rw [← waiting]
        have later : s.timeoutEventList.isEmpty = false := by rw [waiting]; rfl
        rw [later, if_neg Bool.false_ne_true]
        refine List.forall_mem_append.mpr ⟨timed.armed, List.forall_mem_singleton.mpr ?_⟩
        obtain ⟨e, mem, before⟩ := timed.armed first first_mem
        exact ⟨e, mem, before.trans (timed.window first first_mem).2⟩
    case uncancelled =>
      show (ite _ _ _ : Simulator _).cancelled = []
      split <;> exact timed.uncancelled
  · exact timed

theorem mem_fragmentsOf (ipHeader : FragmentHeader) (iif : UInt32) : fragmentKey ipHeader ∈
    (s.fragmentsOf fragmentExpirationTimeout ipHeader iif).2.fragments.keys := by
  unfold Ipv4L3Protocol.fragmentsOf
  split
  · dsimp only
    rw [AList.keys_insert]
    exact List.mem_cons_self
  · rename_i found
    exact AList.lookup_isSome.mp (Option.isSome_iff_exists.mpr ⟨_, found⟩)

theorem Timed.processFragment (timed : s.Timed fragmentExpirationTimeout) (packet : List UInt8)
    (ipHeader : FragmentHeader) (iif : UInt32) :
    (s.processFragment fragmentExpirationTimeout packet ipHeader iif).2.Timed
      fragmentExpirationTimeout := by
  have opened := timed.fragmentsOf ipHeader iif
  have known := @mem_fragmentsOf fragmentExpirationTimeout s ipHeader iif
  unfold Ipv4L3Protocol.processFragment
  dsimp only
  generalize s.fragmentsOf fragmentExpirationTimeout ipHeader iif = found at opened known
  split
  · have fewer : (found.2.timeoutEventList.eraseP fun t =>
        decide (t.key = fragmentKey ipHeader)).Sublist found.2.timeoutEventList :=
      List.eraseP_sublist
    refine ⟨?_, opened.sorted.sublist fewer, fun t mem => opened.window t (fewer.subset mem),
      fun t mem => opened.armed t (fewer.subset mem), opened.uncancelled⟩
    dsimp only
    rw [AList.keys_erase]
    have erased : (found.2.timeoutEventList.eraseP fun t =>
        decide (t.key = fragmentKey ipHeader)).map (·.key) =
          (found.2.timeoutEventList.map (·.key)).erase (fragmentKey ipHeader) := by
      rw [List.erase_eq_eraseP, List.eraseP_map]
      refine congrArg (List.map _) (congrArg (List.eraseP · _) ?_)
      funext t
      simp only [Function.comp_apply, eq_comm, Bool.beq_eq_decide_eq]
    rw [erased]
    exact opened.keys.erase _
  · refine ⟨?_, opened.sorted, opened.window, opened.armed, opened.uncancelled⟩
    dsimp only
    rw [AList.keys_insert]
    exact opened.keys.trans (List.perm_cons_erase known)

theorem Timed.localDeliver (timed : s.Timed fragmentExpirationTimeout)
    (datagram : Ipv4PayloadHeaderPair) (iif : UInt32) :
    (s.localDeliver fragmentExpirationTimeout datagram iif).Timed fragmentExpirationTimeout := by
  have processed := timed.processFragment datagram.1 datagram.2 iif
  unfold Ipv4L3Protocol.localDeliver
  split
  · dsimp only
    split
    · exact processed
    · exact { processed with }
  · exact { timed with }

theorem Timed.elapse (timed : s.Timed fragmentExpirationTimeout) {ts : Time}
    {sim : Simulator FragmentEvent} (elapsed : s.sim.elapse ts = some sim) :
    Timed fragmentExpirationTimeout { s with sim } := by
  obtain ⟨later, now, events, cancelled, pending⟩ := Simulator.elapse_eq elapsed
  refine ⟨timed.keys, timed.sorted, fun t mem => ?_, fun t mem => ?_, ?_⟩
  · obtain ⟨e, e_mem, before⟩ := timed.armed t mem
    dsimp only
    rw [now]
    exact ⟨(pending e e_mem).trans before,
      (timed.window t mem).2.trans (Nat.add_le_add_right later.le _)⟩
  · dsimp only
    rw [events]
    exact timed.armed t mem
  · exact cancelled.trans timed.uncancelled

theorem scheduleNext_currentTs (sim : Simulator FragmentEvent) (rest : List FragmentsTimeout) :
    (scheduleNext sim rest).currentTs = sim.currentTs := by
  cases rest <;> rfl

theorem scheduleNext_cancelled (sim : Simulator FragmentEvent) (rest : List FragmentsTimeout) :
    (scheduleNext sim rest).cancelled = sim.cancelled := by
  cases rest <;> rfl

/-- There is a fragment in every buffer. -/
def Filled (fragments : AList fun _ : FragmentKey => Fragments) : Prop :=
  ∀ key f, fragments.lookup key = some f → f.fragments ≠ []

/-- The timeouts that are due find their fragments, and the fragments of the others stay. -/
theorem handleDue_eq {now : Time} {timeouts : List FragmentsTimeout} :
    ∀ {fragments : AList fun _ : FragmentKey => Fragments},
      (timeouts.map (·.key)).Perm fragments.keys → Filled fragments →
      ∃ drops left, handleDue now fragments timeouts =
          some (drops, left, timeouts.dropWhile fun t => decide (t.time = now)) ∧
        ((timeouts.dropWhile fun t => decide (t.time = now)).map (·.key)).Perm left.keys ∧
        ∀ key f, left.lookup key = some f → fragments.lookup key = some f := by
  induction timeouts with
  | nil =>
    intro fragments keys _
    exact ⟨[], fragments, rfl, keys, fun _ _ => id⟩
  | cons t rest ih =>
    intro fragments keys filled
    by_cases due : t.time = now
    · have known : t.key ∈ fragments.keys := keys.subset List.mem_cons_self
      obtain ⟨f, found⟩ := Option.isSome_iff_exists.mp (AList.lookup_isSome.mpr known)
      obtain ⟨packet, assembled⟩ : ∃ packet, f.getPartialPacket = some packet := by
        unfold Fragments.getPartialPacket
        split
        · rename_i empty
          exact absurd empty (filled t.key f found)
        · split <;> exact ⟨_, rfl⟩
      have others : ∀ key f, (fragments.erase t.key).lookup key = some f →
          fragments.lookup key = some f := by
        intro key f stays
        by_cases same : key = t.key
        · rw [same, AList.lookup_erase] at stays
          cases stays
        · rwa [AList.lookup_erase_ne same] at stays
      obtain ⟨drops, left, ran, left_keys, kept⟩ := @ih (fragments.erase t.key)
        (by rw [AList.keys_erase]; exact (List.cons_perm_iff_perm_erase.mp keys).2)
        fun key f stays => filled key f (others key f stays)
      rw [List.dropWhile_cons_of_pos (by rw [due]; exact decide_eq_true rfl)]
      refine ⟨⟨t.ipHeader, packet, t.iif, decide (8 < packet.length)⟩ :: drops, left, ?_,
        left_keys, fun key f stays => others key f (kept key f stays)⟩
      unfold handleDue handleFragmentsTimeout
      rw [if_pos due, found]
      dsimp only
      rw [assembled]
      dsimp only [Option.map_some]
      rw [ran]
      rfl
    · rw [List.dropWhile_cons_of_neg (by rwa [decide_eq_true_eq])]
      refine ⟨[], fragments, ?_, keys, fun _ _ => id⟩
      unfold handleDue
      rw [if_neg due]

/-- No timeout is past when the first event runs. -/
theorem Timed.not_past (timed : s.Timed fragmentExpirationTimeout)
    {first : Scheduled FragmentEvent} {rest : List (Scheduled FragmentEvent)}
    (events : s.sim.events = first :: rest) :
    ∀ t ∈ s.timeoutEventList, first.key.ts ≤ t.time := by
  intro t mem
  obtain ⟨e, e_mem, before⟩ := timed.armed t mem
  refine Nat.le_trans ?_ before
  rw [events] at e_mem
  rcases List.mem_cons.mp e_mem with rfl | later
  · exact Nat.le_refl _
  · have order := List.rel_of_pairwise_cons (events ▸ s.sim.sorted) later
    simp only [Scheduled.le, EventKey.le] at order
    omega

/-- What comes of the next event: a HandleTimeout that finds what it looks for. -/
structure TimedOut (s t : Ipv4L3Protocol) : Prop where
  clock : s.sim.currentTs ≤ t.sim.currentTs
  kept : ∀ key f, t.fragments.lookup key = some f → s.fragments.lookup key = some f
  delivered : t.delivered = s.delivered

theorem Timed.processOneEvent (timed : s.Timed fragmentExpirationTimeout)
    (filled : Filled s.fragments) {impl : Option FragmentEvent} {sim : Simulator FragmentEvent}
    (next : s.sim.processOneEvent = some (impl, sim)) :
    ∃ t, s.step fragmentExpirationTimeout .processOneEvent = some t ∧
      t.Timed fragmentExpirationTimeout ∧ s.TimedOut t := by
  obtain ⟨first, events, now, -, cancelled, -, runs⟩ := Simulator.processOneEvent_eq next
  rw [timed.uncancelled, if_neg List.not_mem_nil] at runs
  have mono := Simulator.processOneEvent_mono next
  have not_past := timed.not_past events
  rw [← now] at not_past
  obtain ⟨drops, left, ran, keys, kept⟩ := @handleDue_eq sim.currentTs _ _ timed.keys filled
  have fewer : (s.timeoutEventList.dropWhile fun t => decide (t.time = sim.currentTs)).Sublist
      s.timeoutEventList := List.dropWhile_sublist _
  generalize s.timeoutEventList.dropWhile (fun t => decide (t.time = sim.currentTs)) = rest
    at ran keys fewer
  have sorted := timed.sorted.sublist fewer
  refine ⟨{ s with
      sim := scheduleNext sim rest
      fragments := left
      timeoutEventList := rest
      dropped := s.dropped ++ drops }, ?stepped,
    ⟨keys, sorted, fun t mem => ?window, fun t mem => ?armed, ?uncancelled⟩,
    ⟨?clock, kept, rfl⟩⟩
  case window =>
    dsimp only
    rw [scheduleNext_currentTs]
    exact ⟨not_past t (fewer.subset mem),
      (timed.window t (fewer.subset mem)).2.trans (Nat.add_le_add_right mono _)⟩
  case armed =>
    dsimp only at mem ⊢
    cases rest with
    | nil => cases mem
    | cons head others =>
      refine ⟨_, (mem_events_schedule _ _ _).mpr (.inl rfl), ?_⟩
      have not_early := Nat.add_sub_cancel' (not_past head (fewer.subset List.mem_cons_self))
      have earliest : head.time ≤ t.time := by
        rcases List.mem_cons.mp mem with rfl | later
        · exact Nat.le_refl _
        · exact List.rel_of_pairwise_cons sorted later
      dsimp only
      rw [not_early]
      exact earliest
  case uncancelled =>
    dsimp only
    rw [scheduleNext_cancelled, cancelled, timed.uncancelled]
  case clock =>
    dsimp only
    rw [scheduleNext_currentTs]
    exact mono
  case stepped =>
    unfold Ipv4L3Protocol.step
    dsimp only
    rw [next, runs]
    dsimp only
    unfold handleTimeout
    dsimp only
    rw [ran]

/- The buffers -/

/-- The fragments that a datagram is added to, with it. -/
def added (s : Ipv4L3Protocol) (datagram : Ipv4PayloadHeaderPair) : Fragments :=
  ((s.fragments.lookup (fragmentKey datagram.2)).getD .new).addFragment datagram.1
    datagram.2.fragmentOffset !datagram.2.lastFragment

theorem fragmentsOf_spec (ipHeader : FragmentHeader) (iif : UInt32) :
    let found := s.fragmentsOf fragmentExpirationTimeout ipHeader iif
    found.1 = (s.fragments.lookup (fragmentKey ipHeader)).getD .new ∧
      (∀ key, key ≠ fragmentKey ipHeader →
        found.2.fragments.lookup key = s.fragments.lookup key) ∧
      found.2.delivered = s.delivered := by
  unfold Ipv4L3Protocol.fragmentsOf
  dsimp only
  split
  · rename_i absent
    rw [absent]
    exact ⟨rfl, fun key other => AList.lookup_insert_ne other, rfl⟩
  · rename_i found
    rw [found]
    exact ⟨rfl, fun _ _ => rfl, rfl⟩

/-- A packet is complete when what it is added to is entire. Otherwise this waits under its key;
the fragments of other keys are left alone. -/
theorem processFragment_spec (datagram : Ipv4PayloadHeaderPair) (iif : UInt32) :
    let processed := s.processFragment fragmentExpirationTimeout datagram.1 datagram.2 iif
    processed.1 = (if (s.added datagram).isEntire then (s.added datagram).getPacket else none) ∧
      processed.2.delivered = s.delivered ∧
      ∀ key f, processed.2.fragments.lookup key = some f → s.fragments.lookup key = some f ∨
        key = fragmentKey datagram.2 ∧ f = s.added datagram ∧ f.isEntire = false := by
  obtain ⟨found_fst, found_other, found_delivered⟩ :=
    @fragmentsOf_spec fragmentExpirationTimeout s datagram.2 iif
  unfold Ipv4L3Protocol.processFragment added
  dsimp only
  rw [found_fst]
  split
  · refine ⟨rfl, found_delivered, fun key f stays => Or.inl ?_⟩
    dsimp only at stays
    by_cases same : key = fragmentKey datagram.2
    · rw [same, AList.lookup_erase] at stays
      cases stays
    · rwa [AList.lookup_erase_ne same, found_other key same] at stays
  · rename_i incomplete
    refine ⟨rfl, found_delivered, fun key f stays => ?_⟩
    dsimp only at stays
    by_cases same : key = fragmentKey datagram.2
    · rw [same, AList.lookup_insert] at stays
      rw [← Option.some.inj stays]
      exact Or.inr ⟨same, rfl, Bool.eq_false_iff.mpr incomplete⟩
    · rw [AList.lookup_insert_ne same, found_other key same] at stays
      exact Or.inl stays

/-- What LocalDeliver keeps, and what it gives to the transport protocol: the datagram itself,
or the packet that its fragments make. -/
theorem localDeliver_spec (datagram : Ipv4PayloadHeaderPair) (iif : UInt32) :
    let t := s.localDeliver fragmentExpirationTimeout datagram iif
    (∀ key f, t.fragments.lookup key = some f → s.fragments.lookup key = some f ∨
      key = fragmentKey datagram.2 ∧ f = s.added datagram ∧ f.isEntire = false) ∧
    ∀ d ∈ t.delivered, d ∈ s.delivered ∨ fragmentKey d.2 = fragmentKey datagram.2 ∧
      (d.1 = datagram.1 ∧ datagram.2.lastFragment = true ∧ datagram.2.fragmentOffset = 0 ∨
        (s.added datagram).isEntire = true ∧ (s.added datagram).getPacket = some d.1) := by
  obtain ⟨packet, delivered, kept⟩ :=
    @processFragment_spec fragmentExpirationTimeout s datagram iif
  unfold Ipv4L3Protocol.localDeliver
  dsimp only
  split
  · split
    · refine ⟨kept, fun d mem => Or.inl ?_⟩
      rwa [delivered] at mem
    · rename_i p complete
      refine ⟨kept, fun d mem => ?_⟩
      rw [packet] at complete
      split at complete
      · rename_i entire
        dsimp only at mem
        rw [delivered, List.mem_append, List.mem_singleton] at mem
        rcases mem with before | rfl
        · exact Or.inl before
        · exact Or.inr ⟨rfl, Or.inr ⟨entire, complete⟩⟩
      · cases complete
  · rename_i whole
    rw [not_or, Bool.not_eq_false, not_not] at whole
    refine ⟨fun key f stays => Or.inl stays, fun d mem => ?_⟩
    dsimp only at mem
    rw [List.mem_append, List.mem_singleton] at mem
    rcases mem with before | rfl
    · exact Or.inl before
    · exact Or.inr ⟨rfl, Or.inl ⟨rfl, whole⟩⟩

theorem Filled.localDeliver (filled : Filled s.fragments) (datagram : Ipv4PayloadHeaderPair)
    (iif : UInt32) :
    Filled (s.localDeliver fragmentExpirationTimeout datagram iif).fragments := by
  intro key f stays
  rcases (localDeliver_spec datagram iif).1 key f stays with before | ⟨-, rfl, -⟩
  · exact filled key f before
  · exact List.append_ne_nil_of_right_ne_nil _ (List.cons_ne_nil _ _)

/- Runs -/

theorem run_preserves {P : Ipv4L3Protocol → Prop} {actions : List Action} :
    ∀ {s : Ipv4L3Protocol}, (∀ s t, ∀ action ∈ actions, P s →
      s.step fragmentExpirationTimeout action = some t → P t) → P s →
      s.run fragmentExpirationTimeout actions = some t → P t := by
  induction actions with
  | nil =>
    intro s _ start ran
    cases ran
    exact start
  | cons action actions ih =>
    intro s each start ran
    obtain ⟨mid, stepped, ran⟩ := Option.bind_eq_some_iff.mp ran
    exact ih (fun s t action mem => each s t action (List.mem_cons_of_mem _ mem))
      (each s mid action List.mem_cons_self start stepped) ran

/-- The invariant of the timeouts. -/
def InTime (fragmentExpirationTimeout : Time) (s : Ipv4L3Protocol) : Prop :=
  s.Timed fragmentExpirationTimeout ∧ Filled s.fragments

theorem InTime.init : InTime fragmentExpirationTimeout .init :=
  ⟨.init, fun _ _ => nofun⟩

theorem InTime.processOneEvent (inTime : s.InTime fragmentExpirationTimeout)
    (stepped : s.step fragmentExpirationTimeout .processOneEvent = some t) :
    t.InTime fragmentExpirationTimeout ∧ s.TimedOut t := by
  obtain ⟨timed, filled⟩ := inTime
  cases next : s.sim.processOneEvent with
  | none =>
    unfold Ipv4L3Protocol.step at stepped
    dsimp only at stepped
    rw [next] at stepped
    cases stepped
  | some ran =>
    obtain ⟨t', stepped', timed', timedOut⟩ := timed.processOneEvent filled next
    obtain rfl := Option.some.inj (stepped.symm.trans stepped')
    exact ⟨⟨timed', fun key f stays => filled key f (timedOut.kept key f stays)⟩, timedOut⟩

theorem InTime.step (inTime : s.InTime fragmentExpirationTimeout) {action : Action}
    (stepped : s.step fragmentExpirationTimeout action = some t) :
    t.InTime fragmentExpirationTimeout := by
  cases action with
  | localDeliver datagram iif =>
    obtain rfl := Option.some.inj stepped
    exact ⟨inTime.1.localDeliver datagram iif, inTime.2.localDeliver datagram iif⟩
  | elapse ts =>
    obtain ⟨sim, elapsed, rfl⟩ := Option.map_eq_some_iff.mp stepped
    exact ⟨inTime.1.elapse elapsed, inTime.2⟩
  | processOneEvent => exact (inTime.processOneEvent stepped).1

theorem run_inTime {actions : List Action}
    (ran : init.run fragmentExpirationTimeout actions = some s) :
    s.InTime fragmentExpirationTimeout :=
  run_preserves (fun _ _ _ _ inTime stepped => inTime.step stepped)
    .init ran

/-- Whatever comes in a run, each incomplete datagram has one timeout. The clock does not pass
it and it is no further away than fragments are kept, so that no fragment is kept for longer;
and HandleTimeout never looks for fragments that are gone. -/
theorem fragments_expire {actions : List Action}
    (ran : init.run fragmentExpirationTimeout actions = some s) :
    (s.timeoutEventList.map (·.key)).Perm s.fragments.keys ∧
      (∀ t ∈ s.timeoutEventList, s.sim.currentTs ≤ t.time ∧
        t.time ≤ s.sim.currentTs + fragmentExpirationTimeout) ∧
      (s.step fragmentExpirationTimeout .processOneEvent).isSome =
        s.sim.processOneEvent.isSome := by
  obtain ⟨timed, filled⟩ := run_inTime ran
  refine ⟨timed.keys, timed.window, ?_⟩
  cases next : s.sim.processOneEvent with
  | none =>
    unfold Ipv4L3Protocol.step
    dsimp only
    rw [next]
    rfl
  | some ran =>
    obtain ⟨t, stepped, -⟩ := timed.processOneEvent filled next
    rw [stepped]
    rfl

/-- The last part of a datagram comes, and what is before it does not come in time. -/
theorem fragments_expire_missing :
    ∃ s, init.run 30 [.localDeliver (fortyBytes 16 24 true rfl) 1, .elapse 7,
        .localDeliver (fortyBytes 0 8 false rfl) 1, .processOneEvent] = some s ∧
      (s.dropped.map (·.packet.length) = [8] ∧ s.sim.currentTs = 30) ∧
      (s.timeoutEventList.map (·.key)).Perm s.fragments.keys := by
  obtain ⟨s, ran, given_up⟩ : ∃ s,
      init.run 30 [.localDeliver (fortyBytes 16 24 true rfl) 1, .elapse 7,
        .localDeliver (fortyBytes 0 8 false rfl) 1, .processOneEvent] = some s ∧
      s.dropped.map (·.packet.length) = [8] ∧ s.sim.currentTs = 30 :=
    exists_of_any (by decide +kernel)
  exact ⟨s, ran, given_up, (fragments_expire ran).1⟩

/-- The fragments of a key are pieces of one datagram that do not make it up yet. -/
structure Buffers (originals : FragmentKey → Ipv4PayloadHeaderPair) (s : Ipv4L3Protocol) :
    Prop where
  held : ∀ key f, s.fragments.lookup key = some f → f.isEntire = false ∧
    ∃ pieces, f.Holds pieces ∧ ∀ piece ∈ pieces, PieceOf (originals key) piece
  delivered : ∀ d ∈ s.delivered, d.1 = (originals (fragmentKey d.2)).1

variable {originals : FragmentKey → Ipv4PayloadHeaderPair}

theorem Buffers.added (buffers : s.Buffers originals) {datagram : Ipv4PayloadHeaderPair}
    (of : PieceOf (originals (fragmentKey datagram.2)) datagram) :
    ∃ pieces, (s.added datagram).Holds pieces ∧
      ∀ piece ∈ pieces, PieceOf (originals (fragmentKey datagram.2)) piece := by
  have before : ∃ pieces,
      ((s.fragments.lookup (fragmentKey datagram.2)).getD .new).Holds pieces ∧
      ∀ piece ∈ pieces, PieceOf (originals (fragmentKey datagram.2)) piece := by
    cases found : s.fragments.lookup (fragmentKey datagram.2) with
    | none => exact ⟨[], .new, fun _ => nofun⟩
    | some f => exact (buffers.held _ f found).2
  obtain ⟨pieces, holds, each⟩ := before
  exact ⟨pieces ++ [datagram], holds.addFragment datagram,
    List.forall_mem_append.mpr ⟨each, List.forall_mem_singleton.mpr of⟩⟩

theorem Buffers.localDeliver (buffers : s.Buffers originals) {datagram : Ipv4PayloadHeaderPair}
    (unfragmented : Unfragmented (originals (fragmentKey datagram.2)))
    (of : PieceOf (originals (fragmentKey datagram.2)) datagram) (iif : UInt32) :
    (s.localDeliver fragmentExpirationTimeout datagram iif).Buffers originals := by
  obtain ⟨kept, given⟩ := @localDeliver_spec fragmentExpirationTimeout s datagram iif
  obtain ⟨pieces, holds, each⟩ := buffers.added of
  refine ⟨fun key f stays => ?_, fun d mem => ?_⟩
  · rcases kept key f stays with before | ⟨rfl, rfl, incomplete⟩
    · exact buffers.held key f before
    · exact ⟨incomplete, pieces, holds, each⟩
  · rcases given d mem with before | ⟨key, ⟨same, last, first⟩ | ⟨entire, packet⟩⟩
    · exact buffers.delivered d before
    · rw [key, same]
      exact of.whole unfragmented first last
    · have complete := (holds.isEntire_iff unfragmented each).mp entire
      rw [holds.getPacket_eq unfragmented each complete] at packet
      rw [key]
      exact (Option.some.inj packet).symm

/-- Fragments of many datagrams may come in between, in any order, again and again, and be given
up and begun anew: as long as one datagram goes by each key, what is delivered is the payload
of a whole datagram, and nothing that is complete is kept. -/
theorem delivers_whole {actions : List Action}
    (pieces : ∀ datagram iif, .localDeliver datagram iif ∈ actions →
      Unfragmented (originals (fragmentKey datagram.2)) ∧
        PieceOf (originals (fragmentKey datagram.2)) datagram)
    (ran : init.run fragmentExpirationTimeout actions = some s) :
    (∀ d ∈ s.delivered, d.1 = (originals (fragmentKey d.2)).1) ∧
      ∀ key f, s.fragments.lookup key = some f → f.isEntire = false := by
  have start : InTime fragmentExpirationTimeout init ∧ Buffers originals init :=
    ⟨.init, ⟨fun _ _ => nofun, fun _ => nofun⟩⟩
  have kept : s.InTime fragmentExpirationTimeout ∧ s.Buffers originals := by
    refine run_preserves (P := fun s => s.InTime fragmentExpirationTimeout ∧ s.Buffers originals)
      (fun s t action mem before stepped => ⟨before.1.step stepped, ?_⟩) start ran
    cases action with
    | localDeliver datagram iif =>
      obtain rfl := Option.some.inj stepped
      obtain ⟨unfragmented, of⟩ := pieces datagram iif mem
      exact before.2.localDeliver unfragmented of iif
    | elapse ts =>
      obtain ⟨sim, elapsed, rfl⟩ := Option.map_eq_some_iff.mp stepped
      exact ⟨before.2.held, before.2.delivered⟩
    | processOneEvent =>
      have timedOut := (before.1.processOneEvent stepped).2
      refine ⟨fun key f stays => before.2.held key f (timedOut.kept key f stays), ?_⟩
      rw [timedOut.delivered]
      exact before.2.delivered
  exact ⟨kept.2.delivered, fun key f found => (kept.2.held key f found).1⟩

/-- A fragment comes too late for the ones before it, and then they come once more. -/
def lateRun : List Action :=
  [.localDeliver (fortyBytes 0 24 false rfl) 1, .processOneEvent,
    .localDeliver (fortyBytes 16 24 true rfl) 1, .localDeliver (fortyBytes 0 24 false rfl) 1]

theorem delivers_whole_late :
    ∃ s, init.run 30 lateRun = some s ∧ (s.delivered.length = 1 ∧ s.dropped.length = 1) ∧
      ∀ d ∈ s.delivered, d.1 = (fortyBytes 0 40 true rfl).1 := by
  obtain ⟨s, ran, once⟩ : ∃ s, init.run 30 lateRun = some s ∧
      s.delivered.length = 1 ∧ s.dropped.length = 1 := exists_of_any (by decide +kernel)
  refine ⟨s, ran, once, (@delivers_whole _ _ (fun _ => fortyBytes 0 40 true rfl) lateRun
    (fun datagram iif mem => ⟨fortyBytes_unfragmented, ?_⟩) ran).1⟩
  simp only [lateRun, List.mem_cons, List.not_mem_nil, or_false, reduceCtorEq, false_or,
    Action.localDeliver.injEq] at mem
  rcases mem with ⟨rfl, -⟩ | ⟨rfl, -⟩ | ⟨rfl, -⟩
  · exact ⟨rfl, by decide, ⟨by decide, by decide⟩, by decide, by decide⟩
  · exact ⟨rfl, by decide, ⟨by decide, by decide⟩, by decide, by decide⟩
  · exact ⟨rfl, by decide, ⟨by decide, by decide⟩, by decide, by decide⟩

end Ipv4L3Protocol

end QbbNet
