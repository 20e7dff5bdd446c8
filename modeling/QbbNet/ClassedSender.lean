import Mathlib.Data.List.Perm.Basic
import Mathlib.Logic.Function.Basic
import Mathlib.Logic.Relation
import Mathlib.Tactic.Common

set_option autoImplicit false

/- A transmitter sends frames of several classes through one first-in-first-out
queue. Frames of a class wait in its backlog before they enter the queue, and in
its hold once a pause has taken them out again. Control frames have no class. -/
namespace ClassedSender

structure Sender (α κ : Type) where
  accepted : List α
  backlog : κ → List α
  queue : List α
  hold : κ → List α
  started : List α
  paused : κ → Bool
  ready : Bool

variable {α κ : Type}

namespace Sender

/-- A ready transmitter starts the first frame of the queue. -/
def kick (s : Sender α κ) : Sender α κ :=
  match s.ready, s.queue with
  | true, first :: rest =>
      { s with queue := rest, started := s.started ++ [first], ready := false }
  | _, _ => s

def offer (s : Sender α κ) (a : α) : Sender α κ := { s with queue := s.queue ++ [a] }.kick

/-- The frames that have entered the queue for good, in transmission order. -/
def line (s : Sender α κ) : List α := s.started ++ s.queue

section Kick

variable (s : Sender α κ) (a : α)

@[simp] theorem kick_line : s.kick.line = s.line := by
  unfold kick
  split
  · rename_i content
    simp [line, content]
  · rfl

@[simp] theorem kick_accepted : s.kick.accepted = s.accepted := by
  unfold kick
  split <;> rfl

@[simp] theorem kick_backlog : s.kick.backlog = s.backlog := by
  unfold kick
  split <;> rfl

@[simp] theorem kick_hold : s.kick.hold = s.hold := by
  unfold kick
  split <;> rfl

@[simp] theorem kick_paused : s.kick.paused = s.paused := by
  unfold kick
  split <;> rfl

theorem kick_queue_subset : s.kick.queue ⊆ s.queue := by
  unfold kick
  split
  · rename_i content
    simp [content]
  · exact List.Subset.refl _

/-- A kicked transmitter is idle only over an empty queue. -/
theorem kick_ready (idle : s.kick.ready = true) : s.kick.queue = [] := by
  unfold kick at idle ⊢
  split at idle
  · cases idle
  · rename_i waiting
    cases content : s.queue with
    | nil => rfl
    | cons first rest => exact absurd content (waiting first rest idle)

theorem kick_started : ∃ new, s.kick.started = s.started ++ new ∧ new ⊆ s.queue := by
  unfold kick
  split
  · rename_i first rest _ content
    exact ⟨[first], rfl, by simp [content]⟩
  · exact ⟨[], by simp, List.nil_subset _⟩

@[simp] theorem offer_line : (s.offer a).line = s.line ++ [a] := by
  rw [offer, kick_line, line, line, List.append_assoc]

@[simp] theorem offer_accepted : (s.offer a).accepted = s.accepted := by simp [offer]

@[simp] theorem offer_backlog : (s.offer a).backlog = s.backlog := by simp [offer]

@[simp] theorem offer_hold : (s.offer a).hold = s.hold := by simp [offer]

@[simp] theorem offer_paused : (s.offer a).paused = s.paused := by simp [offer]

theorem offer_withBacklog (backlog : κ → List α) :
    offer { s with backlog := backlog } a = { s.offer a with backlog := backlog } := by
  unfold offer kick
  dsimp only
  split <;> rfl

theorem offer_queue {b : α} (member : b ∈ (s.offer a).queue) : b ∈ s.queue ∨ b = a := by
  simpa using kick_queue_subset _ member

end Kick

end Sender

open Sender

variable [DecidableEq κ] (cls : α → Option κ)

inductive Move (α κ : Type)
  | accept (a : α)
  | transfer (c : κ)
  | control (a : α)
  | complete
  | pause (c : κ)
  | lapse
  | refill (c : κ)

/-- What the moves do. Which of them happens, and how much a refill moves, is
left open: the queue may be bounded in any way. -/
inductive Step : Move α κ → Sender α κ → Sender α κ → Prop
  | accept {s : Sender α κ} {a : α} {c : κ} (classed : cls a = some c) :
      Step (.accept a) s
        { s with
          accepted := s.accepted ++ [a]
          backlog := Function.update s.backlog c (s.backlog c ++ [a]) }
  | transfer {s : Sender α κ} {a : α} {c : κ} {rest : List α}
      (waiting : s.backlog c = a :: rest) (allowed : s.paused c = false) :
      Step (.transfer c) s
        (offer { s with backlog := Function.update s.backlog c rest } a)
  | control {s : Sender α κ} {a : α} (unclassed : cls a = none) : Step (.control a) s (s.offer a)
  | complete {s : Sender α κ} : Step .complete s { s with ready := true }.kick
  | pause {s : Sender α κ} {c : κ} {paused : κ → Bool}
      (others : ∀ d, paused d = true → d = c ∨ s.paused d = true) :
      Step (.pause c) s
        { s with
          paused := paused
          hold := Function.update s.hold c
            (s.hold c ++ s.queue.filter fun a => decide (cls a = some c))
          queue := s.queue.filter fun a => decide (cls a ≠ some c) }
  | lapse {s : Sender α κ} {paused : κ → Bool}
      (fewer : ∀ d, paused d = true → s.paused d = true) :
      Step .lapse s { s with paused := paused }
  | refill {s : Sender α κ} {c : κ} {moved rest : List α}
      (held : s.hold c = moved ++ rest) (allowed : s.paused c = false) :
      Step (.refill c) s
        { s with queue := s.queue ++ moved, hold := Function.update s.hold c rest }

/-- Moves one after another, each allowed where it happens. -/
abbrev Steps (ok : Move α κ → Sender α κ → Prop) : Sender α κ → Sender α κ → Prop :=
  Relation.ReflTransGen fun s t => ∃ move, ok move s ∧ Step cls move s t

theorem Steps.single {ok : Move α κ → Sender α κ → Prop} {move : Move α κ} {s t : Sender α κ}
    (step : Step cls move s t) (allowed : ok move s) : Steps cls ok s t :=
  Relation.ReflTransGen.single ⟨move, allowed, step⟩

theorem Steps.mono {ok ok' : Move α κ → Sender α κ → Prop}
    (weaker : ∀ move s, ok move s → ok' move s) {s t : Sender α κ} (steps : Steps cls ok s t) :
    Steps cls ok' s t :=
  Relation.ReflTransGen.mono
    (fun _ _ ⟨move, allowed, step⟩ => ⟨move, weaker move _ allowed, step⟩) _ _ steps

/-- What every allowed move preserves holds at the end. -/
theorem Steps.preserves {ok : Move α κ → Sender α κ → Prop} {P : Sender α κ → Prop}
    (inductive_step : ∀ move s t, ok move s → Step cls move s t → P s → P t)
    {s t : Sender α κ} (steps : Steps cls ok s t) (start : P s) : P t := by
  induction steps with
  | refl => exact start
  | tail _ last ih =>
    obtain ⟨move, allowed, step⟩ := last
    exact inductive_step move _ _ allowed step ih

/- Compliance -/

/-- Frames wait under their own class, and none of a paused class is in the queue. -/
structure Lawful (s : Sender α κ) : Prop where
  backlog : ∀ c, ∀ a ∈ s.backlog c, cls a = some c
  hold : ∀ c, ∀ a ∈ s.hold c, cls a = some c
  gate : ∀ c, s.paused c = true → ∀ a ∈ s.queue, cls a ≠ some c

variable {cls}

theorem mem_update {f : κ → List α} {c d : κ} {value : List α} {a : α}
    (member : a ∈ Function.update f c value d) : d = c ∧ a ∈ value ∨ a ∈ f d := by
  rcases eq_or_ne d c with rfl | other
  · exact Or.inl ⟨rfl, by simpa using member⟩
  · exact Or.inr (by simpa [other] using member)

theorem Step.lawful {move : Move α κ} {s t : Sender α κ} (step : Step cls move s t)
    (lawful : Lawful cls s) : Lawful cls t := by
  cases step with
  | @accept _ a c classed =>
    refine ⟨fun d b member => ?_, lawful.hold, lawful.gate⟩
    rcases mem_update member with ⟨rfl, member⟩ | member
    · rcases List.mem_append.mp member with old | new
      · exact lawful.backlog d b old
      · rw [List.mem_singleton.mp new, classed]
    · exact lawful.backlog d b member
  | @transfer _ a c rest waiting allowed =>
    have classed : cls a = some c := lawful.backlog c a (by simp [waiting])
    refine ⟨fun d b member => ?_, ?_, fun d paused b member => ?_⟩
    · rw [offer_backlog] at member
      change b ∈ Function.update s.backlog c rest d at member
      rcases mem_update member with ⟨rfl, left⟩ | member
      · exact lawful.backlog d b (waiting ▸ List.mem_cons_of_mem a left)
      · exact lawful.backlog d b member
    · rw [offer_hold]
      exact lawful.hold
    · rw [offer_paused] at paused
      rcases offer_queue _ _ member with queued | rfl
      · exact lawful.gate d paused b queued
      · rw [classed]
        rintro ⟨rfl⟩
        exact absurd paused (by simp [allowed])
  | @control _ a unclassed =>
    refine ⟨?_, ?_, fun d paused b member => ?_⟩
    · rw [offer_backlog]
      exact lawful.backlog
    · rw [offer_hold]
      exact lawful.hold
    · rw [offer_paused] at paused
      rcases offer_queue _ _ member with queued | rfl
      · exact lawful.gate d paused b queued
      · rw [unclassed]
        simp
  | complete =>
    refine ⟨?_, ?_, fun d paused b member => ?_⟩
    · rw [kick_backlog]
      exact lawful.backlog
    · rw [kick_hold]
      exact lawful.hold
    · rw [kick_paused] at paused
      exact lawful.gate d paused b (kick_queue_subset { s with ready := true } member)
  | @pause _ c paused others =>
    refine ⟨lawful.backlog, fun d b member => ?_, fun d paused b member => ?_⟩
    · rcases mem_update member with ⟨rfl, member⟩ | member
      · rcases List.mem_append.mp member with old | purged
        · exact lawful.hold d b old
        · exact of_decide_eq_true (List.mem_filter.mp purged).2
      · exact lawful.hold d b member
    · obtain ⟨queued, kept⟩ := List.mem_filter.mp member
      rcases others d paused with rfl | paused
      · exact of_decide_eq_true kept
      · exact lawful.gate d paused b queued
  | lapse fewer => exact ⟨lawful.backlog, lawful.hold, fun d paused => lawful.gate d (fewer d paused)⟩
  | @refill _ c moved rest held allowed =>
    refine ⟨lawful.backlog, fun d b member => ?_, fun d paused b member => ?_⟩
    · change b ∈ Function.update s.hold c rest d at member
      rcases mem_update member with ⟨rfl, left⟩ | member
      · exact lawful.hold d b (held ▸ List.mem_append_right moved left)
      · exact lawful.hold d b member
    · rcases List.mem_append.mp member with queued | back
      · exact lawful.gate d paused b queued
      · rw [lawful.hold c b (held ▸ List.mem_append_left rest back)]
        rintro ⟨rfl⟩
        exact absurd paused (by simp [allowed])

/-- A frame is started only while its class is not paused. -/
theorem Step.started {move : Move α κ} {s t : Sender α κ} (step : Step cls move s t)
    (lawful : Lawful cls s) :
    ∃ new, t.started = s.started ++ new ∧
      ∀ a ∈ new, ∀ c, cls a = some c → s.paused c = false := by
  have waiting_frame : ∀ a ∈ s.queue, ∀ c, cls a = some c → s.paused c = false :=
    fun a queued c classed => Bool.eq_false_iff.mpr fun paused => lawful.gate c paused a queued classed
  cases step with
  | @transfer _ a c rest waiting allowed =>
    obtain ⟨new, started, sub⟩ := kick_started
      { s with backlog := Function.update s.backlog c rest, queue := s.queue ++ [a] }
    refine ⟨new, started, fun b member d classed => ?_⟩
    rcases List.mem_append.mp (sub member) with queued | last
    · exact waiting_frame b queued d classed
    · rw [List.mem_singleton.mp last, lawful.backlog c a (by simp [waiting])] at classed
      cases classed
      exact allowed
  | @control _ a unclassed =>
    obtain ⟨new, started, sub⟩ := kick_started { s with queue := s.queue ++ [a] }
    refine ⟨new, started, fun b member d classed => ?_⟩
    rcases List.mem_append.mp (sub member) with queued | last
    · exact waiting_frame b queued d classed
    · rw [List.mem_singleton.mp last, unclassed] at classed
      cases classed
  | complete =>
    obtain ⟨new, started, sub⟩ := kick_started { s with ready := true }
    exact ⟨new, started, fun b member => waiting_frame b (sub member)⟩
  | accept | pause | lapse | refill => exact ⟨[], by simp, by simp⟩

/-- The moves that leave the pauses as they are. -/
def Move.KeepsPauses : Move α κ → Prop
  | .accept _ => True
  | .transfer _ => True
  | .control _ => True
  | .complete => True
  | _ => False

theorem Step.paused {move : Move α κ} {s t : Sender α κ} (step : Step cls move s t)
    (keeps : move.KeepsPauses) : t.paused = s.paused := by
  cases step with
  | accept => rfl
  | transfer | control => rw [offer_paused]
  | complete => rw [kick_paused]
  | pause | lapse | refill => exact False.elim keeps

theorem Steps.started {ok : Move α κ → Sender α κ → Prop} {s t : Sender α κ}
    (steps : Steps cls ok s t) (lawful : Lawful cls s)
    (keeps : ∀ move s, ok move s → move.KeepsPauses) :
    ∃ new, t.started = s.started ++ new ∧
      ∀ a ∈ new, ∀ c, cls a = some c → s.paused c = false := by
  have whole : Lawful cls t ∧ t.paused = s.paused ∧ ∃ new, t.started = s.started ++ new ∧
      ∀ a ∈ new, ∀ c, cls a = some c → s.paused c = false := by
    induction steps with
    | refl => exact ⟨lawful, rfl, [], by simp, by simp⟩
    | tail _ last ih =>
      obtain ⟨move, allowed, step⟩ := last
      obtain ⟨lawful, paused, new, started, running⟩ := ih
      obtain ⟨more, started', running'⟩ := step.started lawful
      refine ⟨step.lawful lawful, (step.paused (keeps move _ allowed)).trans paused, new ++ more,
        by rw [started', started, List.append_assoc], fun a member c classed => ?_⟩
      rcases List.mem_append.mp member with old | last
      · exact running a old c classed
      · exact paused ▸ running' a last c classed
  exact whole.2.2

/- Conservation and order -/

variable (cls) in
def ofClass (c : κ) (frames : List α) : List α := frames.filter fun a => decide (cls a = some c)

@[simp] theorem ofClass_nil (c : κ) : ofClass cls c [] = [] := rfl

theorem ofClass_append (c : κ) (front back : List α) :
    ofClass cls c (front ++ back) = ofClass cls c front ++ ofClass cls c back := List.filter_append ..

theorem ofClass_own {c : κ} {frames : List α} (own : ∀ a ∈ frames, cls a = some c) :
    ofClass cls c frames = frames := List.filter_eq_self.mpr (by simpa using own)

theorem ofClass_other {c d : κ} {frames : List α} (other : d ≠ c)
    (own : ∀ a ∈ frames, cls a = some c) : ofClass cls d frames = [] := by
  refine List.filter_eq_nil_iff.mpr fun a member => ?_
  simp [own a member, other.symm]

theorem ofClass_purged (c : κ) (frames : List α) :
    ofClass cls c (frames.filter fun a => decide (cls a ≠ some c)) = [] := by
  refine List.filter_eq_nil_iff.mpr fun a member => ?_
  have := of_decide_eq_true (List.mem_filter.mp member).2
  simpa using this

theorem ofClass_kept {c d : κ} (other : d ≠ c) (frames : List α) :
    ofClass cls d (frames.filter fun a => decide (cls a ≠ some c)) = ofClass cls d frames := by
  rw [ofClass, ofClass, List.filter_filter]
  refine List.filter_congr fun a _ => ?_
  rcases eq_or_ne (cls a) (some d) with same | different
  · simp [same, other]
  · simp [different]

variable (cls) in
/-- The frames of a class wherever they are, in the order they are meant to be sent. -/
def placed (c : κ) (s : Sender α κ) : List α := ofClass cls c s.line ++ s.hold c ++ s.backlog c

variable (cls) in
/-- Frames of a class enter the queue only from the place that comes next in order. -/
def InOrder (move : Move α κ) (s : Sender α κ) : Prop :=
  match move with
  | .transfer c => s.hold c = []
  | .pause c => s.hold c = [] ∨ ofClass cls c s.queue = []
  | _ => True

section Placed

variable {s t : Sender α κ} {move : Move α κ}

/-- Every move either keeps the frames of a class where they are in order, or
lets some of them past others. -/
theorem Step.keeps (step : Step cls move s t) (lawful : Lawful cls s) (c : κ) :
    ∃ new, t.accepted = s.accepted ++ new ∧
      (placed cls c t).Perm (placed cls c s ++ ofClass cls c new) ∧
      (InOrder cls move s → placed cls c t = placed cls c s ++ ofClass cls c new) := by
  have unmoved : ∀ {t : Sender α κ}, placed cls c t = placed cls c s →
      (placed cls c t).Perm (placed cls c s ++ ofClass cls c []) ∧
        (InOrder cls move s → placed cls c t = placed cls c s ++ ofClass cls c []) := by
    intro t same
    simp [same, ofClass]
  cases step with
  | @accept _ a d classed =>
    refine ⟨[a], rfl, ?_⟩
    have same : placed cls c
        { s with
          accepted := s.accepted ++ [a]
          backlog := Function.update s.backlog d (s.backlog d ++ [a]) } =
        placed cls c s ++ ofClass cls c [a] := by
      rcases eq_or_ne c d with rfl | other
      · simp [placed, line, ofClass, classed, List.append_assoc]
      · simp [placed, line, ofClass, classed, other, other.symm]
    exact ⟨same ▸ List.Perm.refl _, fun _ => same⟩
  | @transfer _ a d rest waiting allowed =>
    refine ⟨[], by simp, ?_⟩
    have classed : ∀ b ∈ [a], cls b = some d := by simp [lawful.backlog d a, waiting]
    have line_eq : (offer { s with backlog := Function.update s.backlog d rest } a).line =
        s.line ++ [a] := offer_line _ _
    rcases eq_or_ne c d with rfl | other
    · have after : placed cls c (offer { s with backlog := Function.update s.backlog c rest } a) =
          ofClass cls c s.line ++ ([a] ++ (s.hold c ++ rest)) := by
        simp only [placed, line_eq, ofClass_append, ofClass_own classed, offer_hold,
          offer_backlog, Function.update_self, List.append_assoc]
      have before : placed cls c s = ofClass cls c s.line ++ (s.hold c ++ ([a] ++ rest)) := by
        simp only [placed, waiting, List.append_assoc, List.singleton_append]
      rw [after, before, ofClass_nil, List.append_nil]
      constructor
      · exact (List.perm_append_comm_assoc _ _ _).append_left _
      · intro empty
        change s.hold c = [] at empty
        rw [empty, List.nil_append, List.nil_append]
    · refine unmoved ?_
      simp only [placed, line_eq, ofClass_append, ofClass_other other classed, offer_hold,
        offer_backlog, Function.update_of_ne other, List.append_nil]
  | @control _ a unclassed =>
    refine ⟨[], by simp, unmoved ?_⟩
    have none_of_class : ofClass cls c [a] = [] := by simp [ofClass, unclassed]
    simp only [placed, offer_line, ofClass_append, none_of_class, offer_hold, offer_backlog,
      List.append_nil]
  | complete =>
    refine ⟨[], by simp, unmoved ?_⟩
    simp only [placed, kick_line, kick_hold, kick_backlog]
    rfl
  | @pause _ d paused others =>
    refine ⟨[], by simp, ?_⟩
    rcases eq_or_ne c d with rfl | other
    · have after : placed cls c
          { s with
            paused := paused
            hold := Function.update s.hold c
              (s.hold c ++ s.queue.filter fun a => decide (cls a = some c))
            queue := s.queue.filter fun a => decide (cls a ≠ some c) } =
          ofClass cls c s.started ++ (s.hold c ++ (ofClass cls c s.queue ++ s.backlog c)) := by
        simp only [placed, line, ofClass_append, ofClass_purged, Function.update_self,
          List.append_nil, List.append_assoc]
        rfl
      have before : placed cls c s =
          ofClass cls c s.started ++ (ofClass cls c s.queue ++ (s.hold c ++ s.backlog c)) := by
        simp only [placed, line, ofClass_append, List.append_assoc]
      rw [after, before, ofClass_nil, List.append_nil]
      constructor
      · exact (List.perm_append_comm_assoc _ _ _).append_left _
      · rintro (empty | empty)
        · rw [empty, List.nil_append, List.nil_append]
        · rw [empty, List.nil_append, List.nil_append]
    · refine unmoved ?_
      simp only [placed, line, ofClass_append, ofClass_kept other,
        Function.update_of_ne other]
  | lapse fewer => exact ⟨[], by simp, unmoved rfl⟩
  | @refill _ d moved rest held allowed =>
    refine ⟨[], by simp, unmoved ?_⟩
    have own : ∀ a ∈ moved, cls a = some d :=
      fun a member => lawful.hold d a (held ▸ List.mem_append_left rest member)
    rcases eq_or_ne c d with rfl | other
    · simp [placed, line, ofClass_append, ofClass_own own, held, List.append_assoc]
    · simp [placed, line, ofClass_append, ofClass_other other own, other]

variable (cls) in
/-- Every accepted frame of a class is in exactly one place, and nothing else is there. -/
def Conserved (s : Sender α κ) : Prop := ∀ c, (placed cls c s).Perm (ofClass cls c s.accepted)

variable (cls) in
def Ordered (s : Sender α κ) : Prop := ∀ c, placed cls c s = ofClass cls c s.accepted

theorem Step.conserved (step : Step cls move s t) (lawful : Lawful cls s)
    (conserved : Conserved cls s) : Conserved cls t := by
  intro c
  obtain ⟨new, accepted, moved, -⟩ := step.keeps lawful c
  rw [accepted, ofClass_append]
  exact moved.trans ((conserved c).append_right _)

theorem Step.ordered (step : Step cls move s t) (lawful : Lawful cls s)
    (ordered : Ordered cls s) (in_order : InOrder cls move s) : Ordered cls t := by
  intro c
  obtain ⟨new, accepted, -, kept⟩ := step.keeps lawful c
  rw [kept in_order, accepted, ofClass_append, ordered c]

/-- In an ordered sender the frames of a class start in the order they were accepted. -/
theorem Ordered.started_prefix (ordered : Ordered cls s) (c : κ) :
    ofClass cls c s.started <+: ofClass cls c s.accepted := by
  rw [← ordered c, placed, line, ofClass_append, List.append_assoc, List.append_assoc]
  exact List.prefix_append _ _

/-- Frames that all have a class, class by class. -/
theorem perm_byClass (all : List κ) (distinct : all.Nodup) (frames : List α)
    (classed : ∀ a ∈ frames, ∃ c ∈ all, cls a = some c) :
    frames.Perm (all.flatMap fun c => ofClass cls c frames) := by
  induction all generalizing frames with
  | nil =>
    cases frames with
    | nil => exact .refl _
    | cons a _ => simpa using classed a List.mem_cons_self
  | cons c all ih =>
    obtain ⟨fresh, distinct⟩ := List.nodup_cons.mp distinct
    let others := frames.filter fun a => decide (cls a ≠ some c)
    have split : frames.Perm (ofClass cls c frames ++ others) := by
      have := (List.filter_append_perm (fun a => decide (cls a = some c)) frames).symm
      simpa [others, ofClass] using this
    have rest := ih distinct others fun a member => by
      obtain ⟨inside, kept⟩ := List.mem_filter.mp member
      obtain ⟨d, known, class_eq⟩ := classed a inside
      rcases List.mem_cons.mp known with rfl | known
      · exact absurd class_eq (of_decide_eq_true kept)
      · exact ⟨d, known, class_eq⟩
    have same : (all.flatMap fun d => ofClass cls d others) =
        all.flatMap fun d => ofClass cls d frames := by
      refine List.flatMap_congr fun d member => ofClass_kept ?_ frames
      rintro rfl
      exact fresh member
    rw [List.flatMap_cons, ← same]
    exact split.trans (rest.append_left _)

/-- Accepted frames are the data in the line, in the holds and in the backlogs. -/
theorem Conserved.total (conserved : Conserved cls s) (all : List κ) (distinct : all.Nodup)
    (complete : ∀ c, c ∈ all) (classed : ∀ a ∈ s.accepted, ∃ c, cls a = some c) :
    s.accepted.Perm ((s.line.filter fun a => decide (cls a ≠ none)) ++ all.flatMap s.hold ++
      all.flatMap s.backlog) := by
  have accepted : s.accepted.Perm (all.flatMap fun c => ofClass cls c s.accepted) :=
    perm_byClass all distinct _ fun a member =>
      (classed a member).imp fun c class_eq => ⟨complete c, class_eq⟩
  have data : (s.line.filter fun a => decide (cls a ≠ none)).Perm (all.flatMap fun c =>
      ofClass cls c (s.line.filter fun a => decide (cls a ≠ none))) :=
    perm_byClass all distinct _ fun a member =>
      (Option.ne_none_iff_exists'.mp (of_decide_eq_true (List.mem_filter.mp member).2)).imp
        fun c class_eq => ⟨complete c, class_eq⟩
  have same : ∀ c, ofClass cls c (s.line.filter fun a => decide (cls a ≠ none)) =
      ofClass cls c s.line := by
    intro c
    rw [ofClass, ofClass, List.filter_filter]
    refine List.filter_congr fun a _ => ?_
    cases cls a <;> simp
  simp only [same] at data
  have places : (all.flatMap fun c => placed cls c s).Perm
      ((all.flatMap fun c => ofClass cls c s.line) ++ all.flatMap s.hold ++
        all.flatMap s.backlog) := by
    have outer := List.flatMap_append_perm all (fun c => ofClass cls c s.line ++ s.hold c) s.backlog
    have inner := List.flatMap_append_perm all (fun c => ofClass cls c s.line) s.hold
    exact outer.symm.trans (inner.symm.append_right _)
  refine accepted.trans (.trans ?_ (places.trans ((data.symm.append_right _).append_right _)))
  exact List.Perm.flatMap_left _ fun c _ => (conserved c).symm

end Placed

/-- The moves that a control message about one class causes. -/
def Move.Concerns (c : κ) : Move α κ → Prop
  | .lapse => True
  | .pause d => d = c
  | .refill d => d = c
  | _ => False

/- Properties of single frames -/

section Everywhere

variable {s t : Sender α κ} {move : Move α κ} {F : α → Prop}

/-- Every frame that is yet to be started satisfies `F`. -/
structure Everywhere (F : α → Prop) (s : Sender α κ) : Prop where
  backlog : ∀ c, ∀ a ∈ s.backlog c, F a
  queue : ∀ a ∈ s.queue, F a
  hold : ∀ c, ∀ a ∈ s.hold c, F a

/-- The frames that a move brings in. -/
def Move.Brings (F : α → Prop) : Move α κ → Prop
  | .accept a => F a
  | .control a => F a
  | _ => True

theorem Step.everywhere (step : Step cls move s t) (everywhere : Everywhere F s)
    (brings : move.Brings F) : Everywhere F t := by
  cases step with
  | @accept _ a c classed =>
    refine ⟨fun d b member => ?_, everywhere.queue, everywhere.hold⟩
    rcases mem_update member with ⟨rfl, inside⟩ | member
    · rcases List.mem_append.mp inside with old | new
      · exact everywhere.backlog d b old
      · exact List.mem_singleton.mp new ▸ brings
    · exact everywhere.backlog d b member
  | @transfer _ a c rest waiting allowed =>
    have of_backlog : ∀ b ∈ a :: rest, F b := fun b member =>
      everywhere.backlog c b (waiting ▸ member)
    refine ⟨fun d b member => ?_, fun b member => ?_, ?_⟩
    · rw [offer_backlog] at member
      change b ∈ Function.update s.backlog c rest d at member
      rcases mem_update member with ⟨-, left⟩ | member
      · exact of_backlog b (List.mem_cons_of_mem a left)
      · exact everywhere.backlog d b member
    · rcases offer_queue _ _ member with queued | rfl
      · exact everywhere.queue b queued
      · exact of_backlog b List.mem_cons_self
    · rw [offer_hold]
      exact everywhere.hold
  | @control _ a unclassed =>
    refine ⟨?_, fun b member => ?_, ?_⟩
    · rw [offer_backlog]
      exact everywhere.backlog
    · rcases offer_queue _ _ member with queued | rfl
      · exact everywhere.queue b queued
      · exact brings
    · rw [offer_hold]
      exact everywhere.hold
  | complete =>
    refine ⟨?_, fun b member => ?_, ?_⟩
    · rw [kick_backlog]
      exact everywhere.backlog
    · exact everywhere.queue b (kick_queue_subset { s with ready := true } member)
    · rw [kick_hold]
      exact everywhere.hold
  | @pause _ c paused others =>
    refine ⟨everywhere.backlog, fun b member => everywhere.queue b (List.mem_filter.mp member).1,
      fun d b member => ?_⟩
    rcases mem_update member with ⟨rfl, inside⟩ | member
    · rcases List.mem_append.mp inside with old | purged
      · exact everywhere.hold d b old
      · exact everywhere.queue b (List.mem_filter.mp purged).1
    · exact everywhere.hold d b member
  | lapse => exact ⟨everywhere.backlog, everywhere.queue, everywhere.hold⟩
  | @refill _ c moved rest held allowed =>
    have of_hold : ∀ b ∈ moved ++ rest, F b := fun b member => everywhere.hold c b (held ▸ member)
    refine ⟨everywhere.backlog, fun b member => ?_, fun d b member => ?_⟩
    · rcases List.mem_append.mp member with queued | back
      · exact everywhere.queue b queued
      · exact of_hold b (List.mem_append_left rest back)
    · change b ∈ Function.update s.hold c rest d at member
      rcases mem_update member with ⟨-, left⟩ | member
      · exact of_hold b (List.mem_append_right moved left)
      · exact everywhere.hold d b member

theorem Steps.everywhere {ok : Move α κ → Sender α κ → Prop} (steps : Steps cls ok s t)
    (everywhere : Everywhere F s) (brings : ∀ move s, ok move s → move.Brings F) :
    Everywhere F t :=
  steps.preserves cls
    (fun move s _ allowed step holds => step.everywhere holds (brings move s allowed)) everywhere

omit [DecidableEq κ] in
theorem Move.Concerns.brings {c : κ} (concerns : move.Concerns c) : move.Brings F := by
  cases move with
  | accept | control | transfer | complete => exact False.elim concerns
  | pause | lapse | refill => trivial

end Everywhere

/- Moves about one class -/

section Untouched

variable {s t u : Sender α κ} {move : Move α κ} {c d : κ}

variable (cls) in
/-- What a class has in the queue and in its hold is the same, and so is the transmitter. -/
structure Untouched (c : κ) (s t : Sender α κ) : Prop where
  queue : ofClass cls c t.queue = ofClass cls c s.queue
  hold : t.hold c = s.hold c
  ready : t.ready = s.ready
  started : t.started = s.started

theorem Untouched.refl : Untouched cls c s s := ⟨rfl, rfl, rfl, rfl⟩

theorem Untouched.trans (first : Untouched cls c s t) (second : Untouched cls c t u) :
    Untouched cls c s u where
  queue := second.queue.trans first.queue
  hold := second.hold.trans first.hold
  ready := second.ready.trans first.ready
  started := second.started.trans first.started

theorem Step.untouched (step : Step cls move s t) (lawful : Lawful cls s)
    (concerns : move.Concerns c) (other : d ≠ c) : Untouched cls d s t := by
  cases step with
  | accept | transfer | control | complete => exact False.elim concerns
  | lapse => exact ⟨rfl, rfl, rfl, rfl⟩
  | pause =>
    cases concerns
    exact ⟨ofClass_kept other _, Function.update_of_ne other .., rfl, rfl⟩
  | @refill _ _ moved rest held allowed =>
    cases concerns
    have own : ∀ a ∈ moved, cls a = some c :=
      fun a member => lawful.hold c a (held ▸ List.mem_append_left rest member)
    refine ⟨?_, Function.update_of_ne other .., rfl, rfl⟩
    rw [ofClass_append, ofClass_other other own, List.append_nil]

theorem Steps.untouched {ok : Move α κ → Sender α κ → Prop} (steps : Steps cls ok s t)
    (lawful : Lawful cls s) (concerns : ∀ move s, ok move s → move.Concerns c) (other : d ≠ c) :
    Untouched cls d s t := by
  have both : Lawful cls t ∧ Untouched cls d s t := by
    refine steps.preserves cls (P := fun u => Lawful cls u ∧ Untouched cls d s u) ?_
      ⟨lawful, .refl⟩
    intro move u v allowed step holds
    exact ⟨step.lawful holds.1,
      holds.2.trans (step.untouched holds.1 (concerns move u allowed) other)⟩
  exact both.2

end Untouched

/- Work conservation -/

section Ready

variable {s t : Sender α κ} {move : Move α κ}

def Working (s : Sender α κ) : Prop := s.ready = true → s.queue = []

/-- Only a refill leaves frames in the queue of a ready transmitter. -/
def NoIdleRefill (move : Move α κ) (s : Sender α κ) : Prop :=
  match move with
  | .refill c => s.hold c ≠ [] → s.ready = false
  | _ => True

theorem Step.working (step : Step cls move s t) (working : Working s)
    (no_idle : NoIdleRefill move s) : Working t := by
  cases step with
  | accept | lapse => exact working
  | transfer | control | complete => exact kick_ready _
  | pause => exact fun ready => by simp [working ready]
  | @refill _ c moved rest held allowed =>
    intro ready
    change s.ready = true at ready
    have empty : s.hold c = [] := by
      by_contra waiting
      exact absurd ready (by simp [no_idle waiting])
    have nothing : moved = [] := (List.append_eq_nil_iff.mp (held ▸ empty)).1
    rw [nothing, List.append_nil]
    exact working ready

end Ready

/- Control frames -/

section Control

variable {s t : Sender α κ} {move : Move α κ}

variable (cls) in
def controls (s : Sender α κ) : List α := s.line.filter fun a => decide (cls a = none)

def Move.controls : Move α κ → List α
  | .control a => [a]
  | _ => []

/-- Control frames enter the queue once, and nothing takes them out of the line. -/
theorem Step.controls_eq (step : Step cls move s t) (lawful : Lawful cls s) :
    controls cls t = controls cls s ++ move.controls := by
  have classed_frames : ∀ {c : κ} {frames : List α}, (∀ a ∈ frames, cls a = some c) →
      frames.filter (fun a => decide (cls a = none)) = [] := by
    intro c frames own
    refine List.filter_eq_nil_iff.mpr fun a member => ?_
    simp [own a member]
  cases step with
  | accept | lapse => exact (List.append_nil _).symm
  | @transfer _ a c rest waiting allowed =>
    have classed : ∀ b ∈ [a], cls b = some c := by simp [lawful.backlog c a, waiting]
    have line_eq : (offer { s with backlog := Function.update s.backlog c rest } a).line =
        s.line ++ [a] := offer_line _ _
    rw [controls, line_eq, List.filter_append, classed_frames classed]
    rfl
  | @control _ a unclassed =>
    rw [controls, offer_line, List.filter_append, controls, Move.controls]
    simp [unclassed]
  | complete =>
    rw [controls, kick_line]
    exact (List.append_nil _).symm
  | @pause _ c paused others =>
    have kept : (s.queue.filter fun a => decide (cls a ≠ some c)).filter
        (fun a => decide (cls a = none)) = s.queue.filter fun a => decide (cls a = none) := by
      rw [List.filter_filter]
      refine List.filter_congr fun a _ => ?_
      cases cls a <;> simp
    simp only [controls, line, List.filter_append, kept, Move.controls, List.append_nil]
  | @refill _ c moved rest held allowed =>
    have own : ∀ a ∈ moved, cls a = some c :=
      fun a member => lawful.hold c a (held ▸ List.mem_append_left rest member)
    simp only [controls, line, List.filter_append, classed_frames own, Move.controls,
      List.append_nil]

end Control

end ClassedSender
