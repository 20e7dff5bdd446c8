import Mathlib.Data.List.Induction
import QbbNet.QueueSampling

set_option autoImplicit false

/- The queue samples of one run after another. -/
namespace QbbNet

theorem history_snoc (side : Side) (links : List SampledLink) (done : List SamplingEvent)
    (event : SamplingEvent) (i : Nat) :
    history side links (done ++ [event]) i = (history side links done i).next side i event := by
  simp [history]

theorem pending_snoc (done : List SamplingEvent) (event : SamplingEvent) :
    pending (done ++ [event]) =
      match event with
      | .simulate _ => pending done
      | .recordAllQueuesAtSubPoint => pending done + 1
      | .recordAllQueues _ => 0 := by
  cases event <;> simp [pending]

theorem length_subSamples (side : Side) (links : List SampledLink) (done : List SamplingEvent)
    (i : Nat) : (history side links done i).subSamples.length = pending done := by
  induction done using List.reverseRecOn with
  | nil =>
    cases at_i : links[i]? with
    | none => simp [history, pending, QueueHistory.start, at_i]
    | some link => simp [history, pending, QueueHistory.start, at_i]
  | append_singleton done event ih =>
    rw [history_snoc, pending_snoc]
    cases event with
    | simulate traffic => exact ih
    | recordAllQueuesAtSubPoint => simp [QueueHistory.next, ih]
    | recordAllQueues now => rfl

/- The totals -/

/-- The totals are those of the given samples of each link. -/
structure SumsOf (sums : List UInt64) (size : Nat) (samples : Nat → List UInt32) : Prop where
  sized : 0 < size → sums.length = size
  total : ∀ i sum, sums[i]? = some sum →
    sum.toNat = if i < size then ((samples i).map UInt32.toNat).sum else 0

theorem sum_samples_le (samples : List UInt32) :
    (samples.map UInt32.toNat).sum ≤ samples.length * 4294967295 := by
  induction samples with
  | nil => simp
  | cons sample samples ih =>
    have small := sample.toNat_lt
    simp only [List.map_cons, List.sum_cons, List.length_cons]
    omega

theorem addLengths_eq {sums : List UInt64} {lengths : List UInt32}
    (enough : lengths.length ≤ sums.length) :
    ∃ added : List UInt64, addLengths sums lengths = some added ∧ added.length = sums.length ∧
      ∀ i : Nat, added[i]? = (sums[i]?).map (· + (lengths[i]?.getD 0).toUInt64) := by
  induction lengths generalizing sums with
  | nil =>
    refine ⟨sums, by cases sums <;> rfl, rfl, ?_⟩
    intro i
    simp
  | cons q lengths ih =>
    cases sums with
    | nil => cases enough
    | cons sum sums =>
      have ⟨added, found, length, entries⟩ := ih (Nat.le_of_succ_le_succ enough)
      refine ⟨(sum + q.toUInt64) :: added, by simp [addLengths, found], by simp [length], ?_⟩
      intro i
      cases i with
      | zero => simp
      | succ i => simp [entries]

/-- Adding the present lengths makes them one more sample of each link. -/
theorem SumsOf.add {sums : List UInt64} {lengths : List UInt32} {samples : Nat → List UInt32}
    (holds : SumsOf sums lengths.length samples)
    (few : ∀ i, (samples i).length < 4294967295) :
    ∃ added : List UInt64, addLengths sums lengths = some added ∧ added.length = sums.length ∧
      SumsOf added lengths.length fun i => samples i ++ [lengths[i]?.getD 0] := by
  have enough : lengths.length ≤ sums.length := by
    cases lengths with
    | nil => simp
    | cons q lengths => exact (holds.sized (by simp)).ge
  have ⟨added, found, length, entries⟩ := addLengths_eq enough
  refine ⟨added, found, length, ?_, ?_⟩
  · intro some_links
    exact length.trans (holds.sized some_links)
  · intro i sum there
    rw [entries] at there
    have ⟨before, at_i, same⟩ := Option.map_eq_some_iff.mp there
    have counted := holds.total i before at_i
    rw [← same, UInt64.toNat_add, counted]
    by_cases inside : i < lengths.length
    · rw [if_pos inside, if_pos inside]
      have below := sum_samples_le (samples i)
      have short := few i
      have small := (lengths[i]?.getD 0).toNat_lt
      simp only [UInt32.toNat_toUInt64, List.map_append, List.map_cons, List.map_nil,
        List.sum_append, List.sum_cons, List.sum_nil, Nat.add_zero]
      apply Nat.mod_eq_of_lt
      omega
    · rw [if_neg inside, if_neg inside, List.getElem?_eq_none (not_lt.mp inside)]
      rfl

theorem SumsOf.clear (size : Nat) : SumsOf (List.replicate size 0) size fun _ => [] := by
  constructor
  · intro _
    exact List.length_replicate
  · intro i sum there
    have zero := List.eq_of_mem_replicate (List.mem_of_getElem? there)
    simp [zero]

/-- The totals in a run that has taken samples. -/
structure Accounts (a : SubSampleAccumulator) (links : List SampledLink)
    (done : List SamplingEvent) : Prop where
  counted : a.count.toNat = pending done
  even : a.queueA_sum.length = a.queueB_sum.length
  sums : ∀ side, SumsOf (a.sums side) links.length fun i => (history side links done i).subSamples

/-- What every run leaves behind: without sub-samples the totals are 0. -/
structure Settled (a : SubSampleAccumulator) : Prop where
  even : a.queueA_sum.length = a.queueB_sum.length
  zero : a.count = 0 → ∀ side, ∀ sum ∈ a.sums side, sum = 0

theorem grow_empty {a : SubSampleAccumulator} (even : a.queueA_sum.length = a.queueB_sum.length)
    (empty : a.queueA_sum = []) (size : Nat) :
    a.grow size =
      { a with queueA_sum := List.replicate size 0, queueB_sum := List.replicate size 0 } := by
  have other : a.queueB_sum = [] := List.length_eq_zero_iff.mp (by rw [← even, empty]; rfl)
  simp [SubSampleAccumulator.grow, empty, other, resize]

theorem pending_unsampled {done : List SamplingEvent}
    (first : done.any SamplingEvent.samples = false) : pending done = 0 := by
  induction done using List.reverseRecOn with
  | nil => rfl
  | append_singleton done event ih =>
    rw [List.any_append, Bool.or_eq_false_iff] at first
    rw [pending_snoc]
    cases event with
    | simulate traffic => exact ih first.1
    | recordAllQueuesAtSubPoint => simp [SamplingEvent.samples] at first
    | recordAllQueues now => rfl

theorem unsampled (side : Side) (links : List SampledLink) {done : List SamplingEvent}
    (none_pending : pending done = 0) (i : Nat) : (history side links done i).subSamples = [] := by
  rw [← List.length_eq_zero_iff, length_subSamples, none_pending]

theorem Accounts.settled {a : SubSampleAccumulator} {links : List SampledLink}
    {done : List SamplingEvent} (accounts : Accounts a links done) : Settled a := by
  refine ⟨accounts.even, ?_⟩
  intro uncounted side sum member
  have none_pending : pending done = 0 := by
    rw [← accounts.counted, uncounted]
    rfl
  have ⟨i, at_i⟩ := List.mem_iff_getElem?.mp member
  have total := (accounts.sums side).total i sum at_i
  rw [unsampled side links none_pending, List.map_nil, List.sum_nil, ite_self] at total
  exact UInt64.toNat_inj.mp total

/-- The first sub-sample of a run finds totals of no samples. -/
theorem Settled.grow {a : SubSampleAccumulator} (settled : Settled a) {links : List SampledLink}
    {done : List SamplingEvent} (first : done.any SamplingEvent.samples = false)
    (ready : a.ready links .recordAllQueuesAtSubPoint) :
    Accounts (a.grow links.length) links done := by
  have ⟨untouched, sized⟩ := ready
  have none_pending := pending_unsampled first
  by_cases empty : a.queueA_sum = []
  · rw [grow_empty settled.even empty]
    refine ⟨by simp [untouched, none_pending], by simp, ?_⟩
    intro side
    simp only [unsampled side links none_pending]
    cases side with
    | A => exact SumsOf.clear links.length
    | B => exact SumsOf.clear links.length
  · rw [SubSampleAccumulator.grow, if_neg empty]
    refine ⟨by simp [untouched, none_pending], settled.even, ?_⟩
    intro side
    have length : 0 < links.length → (a.sums side).length = links.length := by
      intro some_links
      have same : a.queueA_sum.length = links.length := by
        rcases sized with no_links | impossible | same
        · rw [no_links] at some_links
          cases some_links
        · exact absurd impossible empty
        · exact same
      cases side with
      | A => exact same
      | B => exact settled.even.symm.trans same
    refine ⟨length, ?_⟩
    intro i sum at_i
    have zero := settled.zero untouched side sum (List.mem_of_getElem? at_i)
    simp [unsampled side links none_pending, zero]

/-- A later one finds room for all links. -/
theorem Accounts.grow {a : SubSampleAccumulator} {links : List SampledLink}
    {done : List SamplingEvent} (accounts : Accounts a links done) : a.grow links.length = a := by
  by_cases empty : a.queueA_sum = []
  · have no_links : links.length = 0 := by
      by_contra some_links
      have sized := (accounts.sums .A).sized (Nat.pos_of_ne_zero some_links)
      simp only [SubSampleAccumulator.sums, empty, List.length_nil] at sized
      omega
    have other : a.queueB_sum = [] :=
      List.length_eq_zero_iff.mp (by rw [← accounts.even, empty]; rfl)
    rw [grow_empty accounts.even empty, no_links, List.replicate_zero]
    calc
      { a with queueA_sum := [], queueB_sum := [] } = ⟨a.queueA_sum, a.queueB_sum, a.count⟩ := by
        rw [empty, other]
      _ = a := rfl
  · rw [SubSampleAccumulator.grow, if_neg empty]

theorem SumsOf.congr {sums : List UInt64} {size : Nat} {samples other : Nat → List UInt32}
    (holds : SumsOf sums size samples) (same : ∀ i < size, samples i = other i) :
    SumsOf sums size other := by
  refine ⟨holds.sized, ?_⟩
  intro i sum there
  rw [holds.total i sum there]
  by_cases inside : i < size
  · rw [if_pos inside, if_pos inside, same i inside]
  · rw [if_neg inside, if_neg inside]

/- The links -/

/-- The links of a run as far as its samples go. -/
structure Follows (links start : List SampledLink) (done : List SamplingEvent) : Prop where
  length : links.length = start.length
  queue : ∀ i link, links[i]? = some link → ∀ side,
    (link.queue side).getD 0 = (history side start done i).length
  snapshots : ∀ i link, links[i]? = some link → ∀ side,
    (link.stats side).queueSnapshots = (history side start done i).snapshots

theorem Follows.start (links : List SampledLink) : Follows links links [] := by
  refine ⟨rfl, ?_, ?_⟩
  · intro i link at_i side
    simp [history, QueueHistory.start, at_i]
  · intro i link at_i side
    simp [history, QueueHistory.start, at_i]

/-- An event that changes each link by itself. -/
theorem Follows.mapIdx {links start : List SampledLink} {done : List SamplingEvent}
    (follows : Follows links start done) {change : Nat → SampledLink → SampledLink}
    {event : SamplingEvent}
    (queue : ∀ i before, links[i]? = some before → ∀ side,
      ((change i before).queue side).getD 0 = (history side start (done ++ [event]) i).length)
    (snapshots : ∀ i before, links[i]? = some before → ∀ side,
      ((change i before).stats side).queueSnapshots =
        (history side start (done ++ [event]) i).snapshots) :
    Follows (links.mapIdx change) start (done ++ [event]) := by
  refine ⟨by rw [List.length_mapIdx, follows.length], ?_, ?_⟩
  · intro i link at_i side
    rw [List.getElem?_mapIdx] at at_i
    obtain ⟨before, there, rfl⟩ := Option.map_eq_some_iff.mp at_i
    exact queue i before there side
  · intro i link at_i side
    rw [List.getElem?_mapIdx] at at_i
    obtain ⟨before, there, rfl⟩ := Option.map_eq_some_iff.mp at_i
    exact snapshots i before there side

theorem Follows.simulate {links start : List SampledLink} {done : List SamplingEvent}
    (follows : Follows links start done) (traffic : Nat → Traffic) :
    Follows (links.mapIdx fun i link => link.carry (traffic i)) start
      (done ++ [.simulate traffic]) := by
  refine follows.mapIdx (fun i before there side => ?_) fun i before there side => ?_
  · rw [history_snoc]
    cases side with
    | A => rfl
    | B => rfl
  · have held := follows.snapshots i before there side
    rw [history_snoc]
    cases side with
    | A => exact held
    | B => exact held

theorem Follows.record {links start : List SampledLink} {done : List SamplingEvent}
    (follows : Follows links start done) (now : ℚ) :
    Follows (links.mapIdx fun i link => link.record now (history .A start done i).snapshot
      (history .B start done i).snapshot) start (done ++ [.recordAllQueues now]) := by
  refine follows.mapIdx (fun i before there side => ?_) fun i before there side => ?_
  · have held := follows.queue i before there side
    rw [history_snoc]
    cases side with
    | A => exact held
    | B => exact held
  · have held := follows.snapshots i before there side
    rw [history_snoc]
    cases side with
    | A => exact congrArg (· ++ [(history .A start done i).snapshot]) held
    | B => exact congrArg (· ++ [(history .B start done i).snapshot]) held

theorem Follows.subSample {links start : List SampledLink} {done : List SamplingEvent}
    (follows : Follows links start done) :
    Follows links start (done ++ [.recordAllQueuesAtSubPoint]) := by
  refine ⟨follows.length, ?_, ?_⟩
  · intro i link at_i side
    rw [history_snoc]
    exact follows.queue i link at_i side
  · intro i link at_i side
    rw [history_snoc]
    exact follows.snapshots i link at_i side

theorem recordLinks_eq (a : SubSampleAccumulator) (now : ℚ) (i : Nat) (links : List SampledLink)
    (level : Side → Nat → ℚ)
    (levels : ∀ j link, links[j]? = some link → ∀ side,
      recordedLength (a.sums side) a.count (i + j) (link.queue side) = some (level side (i + j))) :
    recordLinks a now i links =
      some (links.mapIdx fun j link => link.record now (level .A (i + j)) (level .B (i + j))) := by
  induction links generalizing i with
  | nil => rfl
  | cons link links ih =>
    have first := levels 0 link rfl
    have firstA : recordedLength a.queueA_sum a.count i link.queueA = some (level .A i) := first .A
    have firstB : recordedLength a.queueB_sum a.count i link.queueB = some (level .B i) := first .B
    have rest : recordLinks a now (i + 1) links =
        some (links.mapIdx fun j link =>
          link.record now (level .A (i + 1 + j)) (level .B (i + 1 + j))) := by
      apply ih (i + 1)
      intro j link there side
      have next := levels (j + 1) link there side
      rwa [Nat.add_assoc, Nat.add_comm 1 j]
    rw [recordLinks, firstA, firstB, List.mapIdx_cons]
    simp only [rest, Option.map_some, Nat.add_zero, Nat.add_assoc, Nat.add_comm 1]

theorem recordedLength_snapshot {sums : List UInt64} {count : UInt32} {size i : Nat}
    {samples : Nat → List UInt32} (holds : SumsOf sums size samples)
    (counted : count.toNat = (samples i).length) (inside : i < size) (queue : Option UInt32)
    (snapshots : List ℚ) :
    recordedLength sums count i queue =
      some (QueueHistory.mk (queue.getD 0) (samples i) snapshots).snapshot := by
  unfold recordedLength QueueHistory.snapshot
  by_cases some_samples : 0 < count
  · have not_empty : samples i ≠ [] := by
      intro empty
      have positive := UInt32.lt_iff_toNat_lt.mp some_samples
      rw [counted, empty] at positive
      cases positive
    have there : i < sums.length := by rw [holds.sized (by omega)]; exact inside
    have total := holds.total i sums[i] (List.getElem?_eq_getElem there)
    rw [if_pos inside] at total
    rw [if_pos some_samples, if_neg not_empty, List.getElem?_eq_getElem there, Option.map_some,
      total, counted]
  · have empty : samples i = [] := by
      rw [← List.length_eq_zero_iff, ← counted]
      have zero := mt UInt32.lt_iff_toNat_lt.mpr some_samples
      exact Nat.eq_zero_of_not_pos zero
    rw [if_neg some_samples, if_pos empty]

/- A run -/

/-- The state of a run: the totals are still those of its start, or of its samples. -/
structure Sampling (a : SubSampleAccumulator) (start : List SampledLink)
    (done : List SamplingEvent) (s : Samplers) : Prop where
  links : ∃ links, s.g_allLinksPtr = some links ∧ Follows links start done
  totals : (done.any SamplingEvent.samples = false ∧ s.g_subSampleAccum = a) ∨
    (done.any SamplingEvent.samples = true ∧ Accounts s.g_subSampleAccum start done)

theorem step_simulate {a : SubSampleAccumulator} {start : List SampledLink}
    {done : List SamplingEvent} {s : Samplers} (sampling : Sampling a start done s)
    (traffic : Nat → Traffic) :
    ∃ next, s.step (.simulate traffic) = some next ∧
      Sampling a start (done ++ [.simulate traffic]) next := by
  have ⟨links, there, follows⟩ := sampling.links
  refine ⟨_, rfl, ⟨_, by rw [there]; rfl, follows.simulate traffic⟩, ?_⟩
  have same : (done ++ [SamplingEvent.simulate traffic]).any SamplingEvent.samples =
      done.any SamplingEvent.samples := by
    simp [SamplingEvent.samples]
  rw [same]
  rcases sampling.totals with untouched | ⟨sampled, accounts⟩
  · exact .inl untouched
  · refine .inr ⟨sampled, ?_, accounts.even, ?_⟩
    · rw [pending_snoc]
      exact accounts.counted
    · intro side
      simp only [history_snoc, QueueHistory.next]
      exact accounts.sums side

theorem step_subPoint {a : SubSampleAccumulator} {start : List SampledLink}
    {done : List SamplingEvent} {s : Samplers} (settled : Settled a)
    (sampling : Sampling a start done s)
    (ready : done.any SamplingEvent.samples = false → a.ready start .recordAllQueuesAtSubPoint)
    (few : pending (done ++ [.recordAllQueuesAtSubPoint]) < 4294967296) :
    ∃ next, s.step .recordAllQueuesAtSubPoint = some next ∧
      Sampling a start (done ++ [.recordAllQueuesAtSubPoint]) next := by
  have ⟨links, there, follows⟩ := sampling.links
  have accounts : Accounts (s.g_subSampleAccum.grow links.length) start done := by
    rw [follows.length]
    rcases sampling.totals with ⟨unsampled, same⟩ | ⟨_, accounts⟩
    · rw [same]
      exact settled.grow unsampled (ready unsampled)
    · rw [accounts.grow]
      exact accounts
  have fewer : pending done + 1 < 4294967296 := by simpa [pending_snoc] using few
  have added (side : Side) :
      ∃ added, addLengths ((s.g_subSampleAccum.grow links.length).sums side)
          (links.map fun link => (link.queue side).getD 0) = some added ∧
        added.length = ((s.g_subSampleAccum.grow links.length).sums side).length ∧
        SumsOf added start.length fun i =>
          (history side start (done ++ [.recordAllQueuesAtSubPoint]) i).subSamples := by
    have sums := accounts.sums side
    have length : start.length = (links.map fun link => (link.queue side).getD 0).length := by
      rw [List.length_map, follows.length]
    rw [length] at sums
    have short (i : Nat) : (history side start done i).subSamples.length < 4294967295 := by
      rw [length_subSamples]
      omega
    have ⟨added, found, same, holds⟩ := sums.add short
    rw [← length] at holds
    refine ⟨added, found, same, holds.congr ?_⟩
    intro i inside
    have at_i := List.getElem?_eq_getElem (follows.length.symm ▸ inside : i < links.length)
    rw [history_snoc, List.getElem?_map, at_i, Option.map_some, Option.getD_some,
      follows.queue i _ at_i side]
    rfl
  have ⟨sumsA, foundA, lengthA, holdsA⟩ := added .A
  have ⟨sumsB, foundB, lengthB, holdsB⟩ := added .B
  have count := accounts.counted
  generalize grown : s.g_subSampleAccum.grow links.length = total at *
  refine ⟨{ s with g_subSampleAccum := ⟨sumsA, sumsB, total.count + 1⟩ }, ?_,
    ⟨links, there, follows.subSample⟩, .inr ⟨by simp [SamplingEvent.samples], ?_, ?_, ?_⟩⟩
  · have stepA : addLengths total.queueA_sum (links.map (·.queueA.getD 0)) = some sumsA := foundA
    have stepB : addLengths total.queueB_sum (links.map (·.queueB.getD 0)) = some sumsB := foundB
    simp only [Samplers.step, Samplers.recordAllQueuesAtSubPoint, there, grown, stepA, stepB]
  · rw [pending_snoc, UInt32.toNat_add, count]
    exact Nat.mod_eq_of_lt fewer
  · exact lengthA.trans (accounts.even.trans lengthB.symm)
  · intro side
    cases side with
    | A => exact holdsA
    | B => exact holdsB

theorem step_record {a : SubSampleAccumulator} {start : List SampledLink}
    {done : List SamplingEvent} {s : Samplers} (sampling : Sampling a start done s) (now : ℚ)
    (ready : done.any SamplingEvent.samples = false → a.ready start (.recordAllQueues now)) :
    ∃ next, s.step (.recordAllQueues now) = some next ∧
      Sampling a start (done ++ [.recordAllQueues now]) next := by
  have ⟨links, there, follows⟩ := sampling.links
  have recorded := recordLinks_eq s.g_subSampleAccum now 0 links fun side i =>
    (history side start done i).snapshot
  simp only [Nat.zero_add] at recorded
  have levels : ∀ j link, links[j]? = some link → ∀ side,
      recordedLength (s.g_subSampleAccum.sums side) s.g_subSampleAccum.count j (link.queue side) =
        some (history side start done j).snapshot := by
    intro j link at_j side
    have inside := (List.getElem?_eq_some_iff.mp at_j).1
    rw [follows.length] at inside
    have due : (history side start done j) = ⟨(link.queue side).getD 0,
        (history side start done j).subSamples, (history side start done j).snapshots⟩ := by
      rw [follows.queue j link at_j side]
    rw [due]
    rcases sampling.totals with ⟨unsampled_yet, same⟩ | ⟨_, accounts⟩
    · have clean : a.count = 0 := ready unsampled_yet
      rw [same, recordedLength, clean, unsampled side start (pending_unsampled unsampled_yet)]
      rfl
    · exact recordedLength_snapshot (accounts.sums side)
        (accounts.counted.trans (length_subSamples side start done j).symm) inside _ _
  refine ⟨⟨_, List.replicate links.length 0, List.replicate links.length 0, 0⟩, ?_,
    ⟨_, rfl, follows.record now⟩, .inr ⟨by simp [SamplingEvent.samples], ?_, rfl, ?_⟩⟩
  · simp only [Samplers.step, Samplers.recordAllQueues, there, recorded levels, Option.map_some]
  · rw [pending_snoc]
    rfl
  · intro side
    simp only [history_snoc, QueueHistory.next, ← follows.length]
    cases side with
    | A => exact SumsOf.clear links.length
    | B => exact SumsOf.clear links.length

/-- By induction on the events that are done. -/
theorem Sampling.along {a : SubSampleAccumulator} {run : GetStatusRun} (settled : Settled a)
    (clean : run.Clean a) (done rest : List SamplingEvent) (events : run.events = done ++ rest) :
    ∃ s, Samplers.simulate a run.links done = some s ∧ Sampling a run.links done s := by
  induction done using List.reverseRecOn generalizing rest with
  | nil => exact ⟨_, rfl, ⟨_, rfl, .start run.links⟩, .inl ⟨rfl, rfl⟩⟩
  | append_singleton done event ih =>
    rw [List.append_assoc, List.singleton_append] at events
    have ⟨s, reached, sampling⟩ := ih (event :: rest) events
    have ⟨ready, few⟩ := clean done event rest events
    have stepped : ∃ next, s.step event = some next ∧
        Sampling a run.links (done ++ [event]) next := by
      cases event with
      | simulate traffic => exact step_simulate sampling traffic
      | recordAllQueuesAtSubPoint => exact step_subPoint settled sampling ready few
      | recordAllQueues now => exact step_record sampling now ready
    have ⟨next, step, after⟩ := stepped
    refine ⟨next, ?_, after⟩
    unfold Samplers.simulate at reached ⊢
    rw [List.foldlM_append, reached]
    simp [step]

theorem GetStatusRun.Clean.exact {a : SubSampleAccumulator} {run : GetStatusRun}
    (settled : Settled a) (clean : run.Clean a) : run.Exact a := by
  intro done rest events
  have ⟨s, reached, sampling⟩ := Sampling.along settled clean done rest events
  have ⟨links, there, follows⟩ := sampling.links
  refine ⟨s, links, reached, there, ?_, follows.length, follows.snapshots⟩
  intro sampled some_links side
  rcases sampling.totals with ⟨unsampled_yet, _⟩ | ⟨_, accounts⟩
  · rw [unsampled_yet] at sampled
    cases sampled
  · exact (accounts.sums side).sized (List.length_pos_iff.mpr some_links)

theorem GetStatusRun.Clean.settled {a : SubSampleAccumulator} {run : GetStatusRun}
    (settled : Settled a) (clean : run.Clean a) :
    ∃ after, run.execute a = some after ∧ Settled after := by
  have ⟨s, reached, sampling⟩ := Sampling.along settled clean run.events [] (List.append_nil _).symm
  refine ⟨s.g_subSampleAccum, by rw [GetStatusRun.execute, reached]; rfl, ?_⟩
  rcases sampling.totals with ⟨_, same⟩ | ⟨_, accounts⟩
  · rw [same]
    exact settled
  · exact accounts.settled

theorem Settled.new : Settled .new := by
  refine ⟨rfl, ?_⟩
  intro _ side sum member
  cases side with
  | A => cases member
  | B => cases member

/-- If every run of a process is clean when its turn comes, every run is exact. -/
theorem samples_exact (runs : List GetStatusRun)
    (clean : ∀ earlier run later a, runs = earlier ++ run :: later →
      executeRuns earlier = some a → run.Clean a) :
    ∀ earlier run later, runs = earlier ++ run :: later →
      ∃ a, executeRuns earlier = some a ∧ run.Exact a := by
  have reached : ∀ earlier later, runs = earlier ++ later →
      ∃ a, executeRuns earlier = some a ∧ Settled a := by
    intro earlier
    induction earlier using List.reverseRecOn with
    | nil =>
      intro _ _
      exact ⟨.new, rfl, .new⟩
    | append_singleton earlier run ih =>
      intro later split
      rw [List.append_assoc, List.singleton_append] at split
      have ⟨a, before, settled⟩ := ih (run :: later) split
      have ⟨after, executed, still⟩ := (clean earlier run later a split before).settled settled
      refine ⟨after, ?_, still⟩
      unfold executeRuns at before ⊢
      rw [List.foldlM_append, before]
      simp [executed]
  intro earlier run later split
  have ⟨a, before, settled⟩ := reached earlier (run :: later) split
  exact ⟨a, before, (clean earlier run later a split before).exact settled⟩

/-- A link of 500 kbit/s with empty queues. -/
def idleLink : SampledLink :=
  { sa := ⟨0, []⟩, sb := ⟨0, []⟩, dataRateBps := 500000, queueA := some 0, queueB := some 0
    lastTxBytesTotal := 0, lastSampleTime := 0, utilSnapshots := [], sampleTimestamps := [] }

/-- A run that ends with a record, so that no sub-sample is left. -/
def recordedRun (links : List SampledLink) : GetStatusRun :=
  ⟨links, [.simulate fun _ => ⟨some 3, none, 1500, 0⟩, .recordAllQueuesAtSubPoint,
    .recordAllQueues 1]⟩

theorem recordedRun_clean {a : SubSampleAccumulator} (links : List SampledLink) (none : a.count = 0)
    (sized : a.queueA_sum = [] ∨ a.queueA_sum.length = links.length) :
    (recordedRun links).Clean a := by
  intro done event rest split
  match done with
  | [] =>
    simp only [recordedRun, List.nil_append, List.cons.injEq] at split
    obtain ⟨rfl, _⟩ := split
    exact ⟨fun _ => trivial, by decide⟩
  | [first] =>
    simp only [recordedRun, List.cons_append, List.nil_append, List.cons.injEq] at split
    obtain ⟨rfl, rfl, _⟩ := split
    exact ⟨fun _ => ⟨none, .inr sized⟩, by decide⟩
  | [first, second] =>
    simp only [recordedRun, List.cons_append, List.nil_append, List.cons.injEq] at split
    obtain ⟨rfl, rfl, rfl, _⟩ := split
    exact ⟨fun _ => none, by decide⟩
  | _ :: _ :: _ :: _ =>
    have length := congrArg List.length split
    simp [recordedRun] at length

/-- Two runs over the same link. -/
theorem samples_exact_again :
    ∃ a, executeRuns [recordedRun [idleLink]] = some a ∧ (recordedRun [idleLink]).Exact a := by
  have exact := samples_exact [recordedRun [idleLink], recordedRun [idleLink]]
  apply exact _ [recordedRun [idleLink]] _ [] rfl
  intro earlier run later a split before
  match earlier with
  | [] =>
    obtain ⟨rfl, _⟩ := List.cons.inj split
    obtain rfl := Option.some.inj before
    exact recordedRun_clean _ rfl (.inl rfl)
  | [_] =>
    have ⟨first, next⟩ := List.cons.inj split
    obtain ⟨rfl, _⟩ := List.cons.inj next
    rw [← first] at before
    have after : executeRuns [recordedRun [idleLink]] = some ⟨[0], [0], 0⟩ := rfl
    obtain rfl := Option.some.inj (after.symm.trans before)
    exact recordedRun_clean _ rfl (.inr rfl)
  | _ :: _ :: _ =>
    have length := congrArg List.length split
    simp at length

/-- After a run over one link the totals are too short for a run over two. -/
theorem samples_exact_grown :
    ¬∀ runs earlier run later, runs = earlier ++ run :: later →
      ∃ a, executeRuns earlier = some a ∧ run.Exact a := by
  intro exact
  obtain ⟨a, before, exact⟩ :=
    exact _ [recordedRun [idleLink]] (recordedRun [idleLink, idleLink]) [] rfl
  have after : executeRuns [recordedRun [idleLink]] = some ⟨[0], [0], 0⟩ := rfl
  obtain rfl := Option.some.inj (after.symm.trans before)
  obtain ⟨s, links, reached, _⟩ := exact _ [] (List.append_nil _).symm
  have lost : Samplers.simulate ⟨[0], [0], 0⟩ [idleLink, idleLink]
      (recordedRun [idleLink, idleLink]).events = none := rfl
  have impossible := lost.symm.trans reached
  cases impossible

end QbbNet
