import QbbNet.HandlerEdits
import QbbNet.Network

set_option autoImplicit false

/- What one step of the network does to one device: at most one handler of the
device runs, then packets may be sent through it. -/
namespace QbbNet

/-- The handlers that do more to a device than note something. -/
inductive Duty
  | tryDequeue
  | transmitComplete
  | resumeFromPause (prio : Fin 8)
  | refillMacQueueFromHold (prio : Fin 8)
  | handleMacRx (p : Packet)
  | drainPop (prio : Fin 8)
  deriving DecidableEq

variable {ι ν : Type} (cfg : Config ι ν)

def Duty.run (i : ι) : Duty → Host ι → Host ι
  | .tryDequeue => QbbNet.tryDequeue cfg i
  | .transmitComplete => QbbNet.transmitComplete cfg i
  | .resumeFromPause prio => QbbNet.resumeFromPause i prio
  | .refillMacQueueFromHold prio => QbbNet.refillMacQueueFromHold i prio
  | .handleMacRx p => QbbNet.handleMacRx cfg i p
  | .drainPop prio => QbbNet.drainPop cfg i prio

theorem Duty.run_now {i : ι} (duty : Duty) (h : Host ι) : (duty.run cfg i h).now = h.now := by
  cases duty with
  | tryDequeue => exact (Edits.tryDequeue .refl).now
  | transmitComplete => exact transmitComplete_now cfg i
  | resumeFromPause prio => exact resumeFromPause_now i prio
  | refillMacQueueFromHold prio => exact refillMacQueueFromHold_now i prio
  | handleMacRx p => exact handleMacRx_now p
  | drainPop prio => exact (Edits.drainPop .refl prio).now

/-- `e` is `d` but for what only the receive callback and the ingress drain's timer read. -/
structure Quiet (d e : QbbNetDevice) : Prop where
  linkUp : e.linkUp = d.linkUp
  txMachineState : e.txMachineState = d.txMachineState
  queue : e.queue = d.queue
  phyTxBegin : e.phyTxBegin = d.phyTxBegin
  macTxDrop : e.macTxDrop = d.macTxDrop
  queueDrop : e.queueDrop = d.queueDrop
  sending : e.toSendingSide = d.toSendingSide
  ingressQ : e.ingressQ = d.ingressQ
  rxOccPkts : e.rxOccPkts = d.rxOccPkts
  localCongested : e.localCongested = d.localCongested
  pfcTxXoff : e.pfcTxXoff = d.pfcTxXoff
  pfcTxXon : e.pfcTxXon = d.pfcTxXon
  tokenMgr : e.tokenMgr = d.tokenMgr
  macRx : e.macRx = d.macRx
  pfcSent : e.pfcSent = d.pfcSent

theorem Quiet.refl (d : QbbNetDevice) : Quiet d d := by
  constructor <;> rfl

theorem drainToken_quiet {i : ι} (egressPort : Nat) (prio : Fin 8) (h : Host ι) :
    Quiet h.dev (drainToken cfg i egressPort prio h).2.dev := by
  unfold drainToken
  split
  · exact .refl _
  · dsimp only
    split
    · constructor <;> rfl
    · split <;> exact .refl _

theorem Quiet.trans {d e f : QbbNetDevice} (first : Quiet d e) (second : Quiet e f) : Quiet d f where
  linkUp := second.linkUp.trans first.linkUp
  txMachineState := second.txMachineState.trans first.txMachineState
  queue := second.queue.trans first.queue
  phyTxBegin := second.phyTxBegin.trans first.phyTxBegin
  macTxDrop := second.macTxDrop.trans first.macTxDrop
  queueDrop := second.queueDrop.trans first.queueDrop
  sending := second.sending.trans first.sending
  ingressQ := second.ingressQ.trans first.ingressQ
  rxOccPkts := second.rxOccPkts.trans first.rxOccPkts
  localCongested := second.localCongested.trans first.localCongested
  pfcTxXoff := second.pfcTxXoff.trans first.pfcTxXoff
  pfcTxXon := second.pfcTxXon.trans first.pfcTxXon
  tokenMgr := second.tokenMgr.trans first.tokenMgr
  macRx := second.macRx.trans first.macRx
  pfcSent := second.pfcSent.trans first.pfcSent

/-- What happens to a device besides the handler that is due: it notes
something, or a packet is sent through it. -/
inductive Aside (i : ι) (now : Time) (d : QbbNetDevice) : QbbNetDevice → Prop
  | quiet {e : QbbNetDevice} (quiet : Quiet d e) : Aside i now d e
  | send (dg : Datagram) (h : Host ι) (clock : h.now = now) (dev : h.dev = d) :
      Aside i now d (send i dg h).dev

abbrev Asides (i : ι) (now : Time) : QbbNetDevice → QbbNetDevice → Prop :=
  Relation.ReflTransGen (Aside i now)

/-- A device goes from `d` to `e` in a step at time `now`, with the handler `due`. -/
def Does (i : ι) (now : Time) (due : Option Duty) (d e : QbbNetDevice) : Prop :=
  match due with
  | none => Asides i now d e
  | some duty => ∃ h : Host ι, h.now = now ∧ Quiet d h.dev ∧
      Asides i now (duty.run cfg i h).dev e

section Does

variable {cfg} {i : ι} {now : Time} {due : Option Duty} {d e f : QbbNetDevice}

theorem Asides.of_quiet (quiet : Quiet d e) : Asides i now d e := .single (.quiet quiet)

theorem Asides.of_eq (same : e = d) : Asides i now d e := same ▸ .refl

theorem Does.andThen (does : Does cfg i now due d e) (asides : Asides i now e f) :
    Does cfg i now due d f := by
  cases due with
  | none => exact Relation.ReflTransGen.trans does asides
  | some duty =>
    obtain ⟨h, clock, quiet, after⟩ := does
    exact ⟨h, clock, quiet, after.trans asides⟩

theorem Does.after (quiet : Quiet d e) (does : Does cfg i now due e f) :
    Does cfg i now due d f := by
  cases due with
  | none => exact (Asides.of_quiet quiet).trans does
  | some duty =>
    obtain ⟨h, clock, quiet', after⟩ := does
    exact ⟨h, clock, quiet.trans quiet', after⟩

/-- A relation that the due handler and everything else respect. -/
theorem Does.lift {R : QbbNetDevice → QbbNetDevice → Prop} (does : Does cfg i now due d e)
    (trans : ∀ {d e f}, R d e → R e f → R d f) (quiet : ∀ {d e}, Quiet d e → R d e)
    (send : ∀ (dg : Datagram) (h : Host ι), h.now = now → R h.dev (send i dg h).dev)
    (run : ∀ (duty : Duty) (h : Host ι), due = some duty → h.now = now → Quiet d h.dev →
      R h.dev (duty.run cfg i h).dev) : R d e := by
  have asides : ∀ {d e}, Asides i now d e → R d e := by
    intro d e asides
    induction asides with
    | refl => exact quiet (.refl _)
    | tail _ last ih =>
      cases last with
      | quiet kept => exact trans ih (quiet kept)
      | send dg h clock dev => exact trans ih (dev ▸ send dg h clock)
  cases due with
  | none => exact asides does
  | some duty =>
    obtain ⟨h, clock, kept, after⟩ := does
    exact trans (quiet kept) (trans (run duty h rfl clock kept) (asides after))

end Does

variable [DecidableEq ι] [DecidableEq ν]

/-- The class whose first packet an ingress drain takes, if the token is granted. -/
def Net.drains (s : Net ι ν) (i : ι) (up : Upcall ι) : Option (Fin 8) :=
  (ingressPick (s.dev i)).filter fun prio =>
    match (s.dev i).ingressQ prio with
    | [] => false
    | p :: _ => (drainToken cfg i (up.egressPort p) prio (s.host cfg i)).1

def Net.eventDuty (s : Net ι ν) (i : ι) (up : Upcall ι) : Event ι → Option Duty
  | .tryDequeue j => if j = i then some .tryDequeue else none
  | .doIngressDrain j => if j = i then (s.drains cfg i up).map .drainPop else none
  | .resumeFromPause j prio => if j = i then some (.resumeFromPause prio) else none
  | .refillMacQueueFromHold j prio => if j = i then some (.refillMacQueueFromHold prio) else none
  | .transmitComplete j => if j = i then some .transmitComplete else none
  | .receive j p => if j = i ∧ up.corrupt = false then some (.handleMacRx p) else none
  | .hookL3Divert _ => none

/-- The handler of device `i` that a step runs. -/
def Net.duty (s : Net ι ν) (i : ι) : Action ι ν → Option Duty
  | .event up =>
      match s.sim.processOneEvent with
      | some (some event, sim) => { s with sim }.eventDuty cfg i up event
      | _ => none
  | .deliver j p corrupt => if j = i ∧ corrupt = false then some (.handleMacRx p) else none
  | _ => none

theorem ingressPick_some {d : QbbNetDevice} {prio : Fin 8} (picked : ingressPick d = some prio) :
    ∃ p rest, d.ingressQ prio = p :: rest := by
  have waiting : d.ingressQ prio ≠ [] := by simpa using List.find?_some picked
  exact List.exists_cons_of_ne_nil waiting

/-- A packet that was drained is handed to IPv4, which sends what `up` says. -/
def Net.handUp (s : Net ι ν) (i : ι) (p : Packet) (up : Upcall ι) : Net ι ν :=
  if (s.node (cfg.node i)).ipv4 then
    (s.on cfg i (·.update fun d =>
      { d with ipv4Rx := d.ipv4Rx ++ [(.doIngressDrain,
          if p.peekPpp = some 0x0021 then p.removePpp else p)] })).sendAll cfg up.sends
  else s

/-- A drain finds nothing, or is refused a token, or takes a packet and hands it up. -/
theorem Net.doIngressDrain_cases (s : Net ι ν) (i : ι) (up : Upcall ι) :
    (ingressPick (s.dev i) = none ∧ s.drains cfg i up = none ∧ s.doIngressDrain cfg i up = s) ∨
    ∃ prio p rest, ingressPick (s.dev i) = some prio ∧ (s.dev i).ingressQ prio = p :: rest ∧
      ((drainToken cfg i (up.egressPort p) prio (s.host cfg i)).1 = false ∧
          s.drains cfg i up = none ∧ s.doIngressDrain cfg i up =
            s.put cfg i (drainToken cfg i (up.egressPort p) prio (s.host cfg i)).2 ∨
        (drainToken cfg i (up.egressPort p) prio (s.host cfg i)).1 = true ∧
          s.drains cfg i up = some prio ∧ s.doIngressDrain cfg i up =
            (((s.put cfg i (drainToken cfg i (up.egressPort p) prio (s.host cfg i)).2).on cfg i
              (drainPop cfg i prio)).handUp cfg i p up).on cfg i (·.scheduleIngressDrainEv i 0)) := by
  unfold Net.doIngressDrain Net.drains
  cases picked : ingressPick (s.dev i) with
  | none => exact Or.inl ⟨rfl, rfl, rfl⟩
  | some prio =>
    obtain ⟨p, rest, content⟩ := ingressPick_some picked
    refine Or.inr ⟨prio, p, rest, rfl, content, ?_⟩
    simp only [content, Option.filter_some]
    cases granted : (drainToken cfg i (up.egressPort p) prio (s.host cfg i)).1 with
    | false => exact Or.inl ⟨rfl, by simp, by simp⟩
    | true => exact Or.inr ⟨rfl, by simp, rfl⟩

namespace Net

variable {cfg} {s t : Net ι ν} {i j : ι}

@[simp] theorem put_dev_self (h : Host ι) : (s.put cfg i h).dev i = h.dev := by
  simp [put]

@[simp] theorem put_dev_ne (other : i ≠ j) (h : Host ι) : (s.put cfg j h).dev i = s.dev i := by
  simp [put, other]

@[simp] theorem put_sim (h : Host ι) : (s.put cfg i h).sim = h.sim := rfl

@[simp] theorem put_node (h : Host ι) : (s.put cfg i h).node = s.node := rfl

@[simp] theorem on_node (f : Host ι → Host ι) : (s.on cfg i f).node = s.node := rfl

omit [DecidableEq ι] [DecidableEq ν] in
@[simp] theorem host_dev : (s.host cfg i).dev = s.dev i := rfl

omit [DecidableEq ι] [DecidableEq ν] in
@[simp] theorem host_sim : (s.host cfg i).sim = s.sim := rfl

@[simp] theorem put_host_self : s.put cfg i (s.host cfg i) = s := by
  simp [put, host]

theorem on_dev_self (f : Host ι → Host ι) :
    (s.on cfg i f).dev i = (f (s.host cfg i)).dev := put_dev_self _

theorem on_dev_ne (other : i ≠ j) (f : Host ι → Host ι) : (s.on cfg j f).dev i = s.dev i :=
  put_dev_ne other _

end Net

namespace Net

variable {cfg} {s t u : Net ι ν} {i : ι} {due : Option Duty}

/-- The same moment, and what device `i` does. -/
def Moves (cfg : Config ι ν) (i : ι) (due : Option Duty) (s t : Net ι ν) : Prop :=
  t.sim.currentTs = s.sim.currentTs ∧ Does cfg i s.sim.currentTs due (s.dev i) (t.dev i)

omit [DecidableEq ι] [DecidableEq ν] in
theorem Moves.andThen (first : Moves cfg i due s t) (second : Moves cfg i none t u) :
    Moves cfg i due s u :=
  ⟨second.1.trans first.1, first.2.andThen (first.1 ▸ second.2)⟩

omit [DecidableEq ι] [DecidableEq ν] in
theorem Moves.after (ts : t.sim.currentTs = s.sim.currentTs) (quiet : Quiet (s.dev i) (t.dev i))
    (second : Moves cfg i due t u) : Moves cfg i due s u :=
  ⟨second.1.trans ts, Does.after quiet (ts ▸ second.2)⟩

omit [DecidableEq ι] [DecidableEq ν] in
theorem Moves.same (ts : t.sim.currentTs = s.sim.currentTs) (dev : t.dev i = s.dev i) :
    Moves cfg i none s t :=
  ⟨ts, .of_eq dev⟩

/-- A handler that is no duty of device `i` runs. -/
theorem Moves.on (j : ι) (f : Host ι → Host ι) (kept : (f (s.host cfg j)).now = s.sim.currentTs)
    (own : j = i → Asides i s.sim.currentTs (s.dev i) (f (s.host cfg i)).dev) :
    Moves cfg i none s (s.on cfg j f) := by
  refine ⟨kept, ?_⟩
  rcases eq_or_ne i j with rfl | other
  · rw [on_dev_self]
    exact own rfl
  · rw [on_dev_ne other]
    exact .refl

theorem Moves.quiet (j : ι) (f : Host ι → Host ι) (kept : (f (s.host cfg j)).now = s.sim.currentTs)
    (quiet : j = i → Quiet (s.dev i) (f (s.host cfg i)).dev) :
    Moves cfg i none s (s.on cfg j f) :=
  .on j f kept fun own => .of_quiet (quiet own)

theorem Moves.duty (j : ι) (duty : Duty) :
    Moves cfg i (if j = i then some duty else none) s (s.on cfg j (duty.run cfg j)) := by
  rcases eq_or_ne j i with rfl | other
  · rw [if_pos rfl]
    exact ⟨duty.run_now cfg _, s.host cfg j, rfl, .refl _, .of_eq (on_dev_self _)⟩
  · rw [if_neg other]
    exact .on j _ (duty.run_now cfg _) fun own => absurd own other

theorem Moves.sendAll (sends : List (ι × Datagram)) : Moves cfg i none s (s.sendAll cfg sends) := by
  induction sends generalizing s with
  | nil => exact .same rfl rfl
  | cons call sends ih =>
    have first : Moves cfg i none s (s.on cfg call.1 (QbbNet.send call.1 call.2)) :=
      .on call.1 _ (send_now call.2)
        fun own => own ▸ .single (.send call.2 (s.host cfg call.1) rfl rfl)
    exact first.andThen ih

theorem Moves.receive (j : ι) (p : Packet) (corrupt : Bool) :
    Moves cfg i (if j = i ∧ corrupt = false then some (.handleMacRx p) else none) s
      (s.receive cfg j p corrupt) := by
  unfold Net.receive
  cases corrupt with
  | true =>
    rw [if_pos rfl, if_neg (by simp)]
    exact .quiet j _ rfl fun _ => by constructor <;> rfl
  | false =>
    simp only [Bool.false_eq_true, ↓reduceIte, and_true]
    have received : Moves cfg i (if j = i then some (.handleMacRx p) else none) s
        (s.on cfg j (QbbNet.handleMacRx cfg j p)) := .duty j (.handleMacRx p)
    cases callback : ((s.on cfg j (QbbNet.handleMacRx cfg j p)).dev j).rxCallback with
    | l3Swallow => exact received
    | nonPromiscReceiveFromDevice =>
      refine received.andThen ?_
      exact .quiet j (·.update _) rfl fun _ => by constructor <;> rfl

theorem Moves.doIngressDrain (j : ι) (up : Upcall ι) :
    Moves cfg i (if j = i then (s.drains cfg i up).map .drainPop else none) s
      (s.doIngressDrain cfg j up) := by
  have due {drained : Option (Fin 8)} (same : s.drains cfg j up = drained) :
      (if j = i then (s.drains cfg i up).map Duty.drainPop else none) =
        if j = i then drained.map Duty.drainPop else none := by
    split
    · rename_i own
      rw [← same, own]
    · rfl
  have clock (p : Packet) (prio : Fin 8) :
      (s.put cfg j (drainToken cfg j (up.egressPort p) prio (s.host cfg j)).2).sim.currentTs =
        s.sim.currentTs :=
    Edits.now (h := s.host cfg j) (.drainToken .refl (up.egressPort p) prio)
  have quiet (p : Packet) (prio : Fin 8) : Quiet (s.dev i)
      ((s.put cfg j (drainToken cfg j (up.egressPort p) prio (s.host cfg j)).2).dev i) := by
    rcases eq_or_ne i j with rfl | other
    · rw [put_dev_self]
      exact drainToken_quiet cfg (up.egressPort p) prio (s.host cfg i)
    · rw [put_dev_ne other]
      exact .refl _
  rcases s.doIngressDrain_cases cfg j up with ⟨-, none_due, same⟩ | ⟨prio, p, rest, -, -, asked⟩
  · rw [due none_due, same, Option.map_none, ite_self]
    exact .same rfl rfl
  rcases asked with ⟨-, none_due, same⟩ | ⟨-, drained, same⟩
  · rw [due none_due, same, Option.map_none, ite_self]
    exact ⟨clock p prio, .of_quiet (quiet p prio)⟩
  rw [due drained, same]
  have popped (s : Net ι ν) : Moves cfg i (if j = i then some (.drainPop prio) else none) s
      (s.on cfg j (QbbNet.drainPop cfg j prio)) := .duty j (.drainPop prio)
  have handed (s : Net ι ν) : Moves cfg i none s (s.handUp cfg j p up) := by
    unfold Net.handUp
    split
    · exact (Moves.quiet j (·.update _) rfl fun _ => by constructor <;> rfl).andThen (.sendAll up.sends)
    · exact .same rfl rfl
  exact .after (clock p prio) (quiet p prio) (((popped _).andThen (handed _)).andThen
    (.quiet j _ rfl fun _ => by constructor <;> rfl))

theorem Moves.handle (up : Upcall ι) (event : Event ι) :
    Moves cfg i (s.eventDuty cfg i up event) s (s.handle cfg up event) := by
  cases event with
  | tryDequeue j => exact .duty j .tryDequeue
  | doIngressDrain j => exact .doIngressDrain j up
  | resumeFromPause j prio => exact .duty j (.resumeFromPause prio)
  | refillMacQueueFromHold j prio => exact .duty j (.refillMacQueueFromHold prio)
  | transmitComplete j => exact .duty j .transmitComplete
  | receive j p => exact .receive j p up.corrupt
  | hookL3Divert j => exact .quiet j (·.update _) rfl fun _ => by constructor <;> rfl

end Net

/-- The time at which a step happens. -/
def Net.stepTime (s : Net ι ν) : Action ι ν → Time
  | .event _ =>
      match s.sim.processOneEvent with
      | some (_, sim) => sim.currentTs
      | none => s.sim.currentTs
  | .elapse t => t
  | _ => s.sim.currentTs

/-- Every step does to each device what is due there, at a time that is not earlier. -/
theorem Net.step_does {s t : Net ι ν} {action : Action ι ν} (step : s.step cfg action = some t)
    (i : ι) : t.sim.currentTs = s.stepTime action ∧ s.sim.currentTs ≤ t.sim.currentTs ∧
      Does cfg i t.sim.currentTs (s.duty cfg i action) (s.dev i) (t.dev i) := by
  have unmoved {u : Net ι ν} {due : Option Duty} (moves : Net.Moves cfg i due s u) :
      u.sim.currentTs = s.sim.currentTs ∧ s.sim.currentTs ≤ u.sim.currentTs ∧
        Does cfg i u.sim.currentTs due (s.dev i) (u.dev i) :=
    ⟨moves.1, Nat.le_of_eq moves.1.symm, moves.1.symm ▸ moves.2⟩
  cases Net.step_to cfg step with
  | @event up event sim popped =>
    have moves : Net.Moves cfg i _ { s with sim } _ := .handle up event
    simp only [Net.stepTime, Net.duty, popped]
    exact ⟨moves.1, moves.1 ▸ Simulator.processOneEvent_mono popped, moves.1.symm ▸ moves.2⟩
  | skip up popped =>
    simp only [Net.stepTime, Net.duty, popped]
    exact ⟨trivial, Simulator.processOneEvent_mono popped, .refl⟩
  | elapse ts elapsed =>
    obtain ⟨later, ts, -⟩ := Simulator.elapse_eq elapsed
    exact ⟨ts, Nat.le_of_lt (ts ▸ later), .refl⟩
  | send j dg => exact unmoved (.sendAll [(j, dg)])
  | deliver j p corrupt => exact unmoved (.receive j p corrupt)
  | installStack | addInterface => exact unmoved (.same rfl rfl)
  | aggregate j =>
    refine unmoved (.same ?_ ?_) <;> unfold Net.notifyNewAggregate <;> split <;> rfl

theorem Net.step_later {s t : Net ι ν} {action : Action ι ν} (step : s.step cfg action = some t) :
    s.sim.currentTs ≤ t.sim.currentTs := by
  rcases isEmpty_or_nonempty ι with none_there | ⟨⟨i⟩⟩
  · cases Net.step_to cfg step with
    | @event _ event => cases event <;> exact isEmptyElim ‹ι›
    | skip up popped => exact Simulator.processOneEvent_mono popped
    | elapse ts elapsed =>
      obtain ⟨later, ts, -⟩ := Simulator.elapse_eq elapsed
      exact Nat.le_of_lt (ts ▸ later)
    | send j | deliver j | addInterface j | aggregate j => exact isEmptyElim j
    | installStack v => exact Nat.le_refl _
  · exact (Net.step_does cfg step i).2.1

/-- A relation that the due handler and everything else respect holds across a step. -/
theorem Net.step_lift {s t : Net ι ν} {i : ι} {action : Action ι ν}
    {R : QbbNetDevice → QbbNetDevice → Prop} (step : s.step cfg action = some t)
    (trans : ∀ {d e f}, R d e → R e f → R d f) (quiet : ∀ {d e}, Quiet d e → R d e)
    (send : ∀ (dg : Datagram) (h : Host ι), h.now = t.sim.currentTs → R h.dev (send i dg h).dev)
    (run : ∀ (duty : Duty) (h : Host ι), s.duty cfg i action = some duty →
      h.now = t.sim.currentTs → Quiet (s.dev i) h.dev → R h.dev (duty.run cfg i h).dev) :
    R (s.dev i) (t.dev i) :=
  (Net.step_does cfg step i).2.2.lift trans quiet send run

end QbbNet
