import QbbNet.Fragmentation
import Mathlib.Data.List.TakeWhile

set_option autoImplicit false

/- Ipv4L3Protocol::Fragments: the fragments of a datagram until it is complete. -/
namespace QbbNet

structure Fragments where
  moreFragment : Bool
  fragments : List (List UInt8 × UInt16)
  deriving DecidableEq

namespace Fragments

def new : Fragments := ⟨false, []⟩

/-- A fragment goes behind those that do not begin later. If it is the last one then, it says
whether more fragments follow. -/
def addFragment (f : Fragments) (fragment : List UInt8) (fragmentOffset : UInt16)
    (moreFragment : Bool) : Fragments :=
  let front := f.fragments.takeWhile fun it => decide (it.2 ≤ fragmentOffset)
  let back := f.fragments.dropWhile fun it => decide (it.2 ≤ fragmentOffset)
  { moreFragment := if back.isEmpty then moreFragment else f.moreFragment
    fragments := front ++ (fragment, fragmentOffset) :: back }

/-- The loop of IsEntire. -/
def leavesNoGap (lastEndOffset : UInt16) : List (List UInt8 × UInt16) → Bool
  | [] => true
  | it :: rest =>
      if lastEndOffset < it.2 then false
      else
        let fragmentEnd := UInt16.ofNat (it.1.length + it.2.toNat)
        leavesNoGap (if lastEndOffset < fragmentEnd then fragmentEnd else lastEndOffset) rest

def isEntire (f : Fragments) : Bool :=
  !f.moreFragment && !f.fragments.isEmpty && leavesNoGap 0 f.fragments

/-- The loop of GetPacket. -/
def packetFrom (p : List UInt8) (lastEndOffset : UInt16) : List (List UInt8 × UInt16) → List UInt8
  | [] => p
  | it :: rest =>
      let p :=
        if it.2 < lastEndOffset then
          let newStart := (lastEndOffset - it.2).toNat
          if newStart < it.1.length then p ++ it.1.drop newStart else p
        else p ++ it.1
      packetFrom p (UInt16.ofNat p.length) rest

/-- GetPacket, which is only called once a fragment has been added. -/
def getPacket (f : Fragments) : Option (List UInt8) :=
  match f.fragments with
  | [] => none
  | it :: rest => some (packetFrom it.1 (UInt16.ofNat it.1.length) rest)

end Fragments

open Ipv4PayloadHeaderPair

/- What the fragments that were added amount to -/

/-- The piece of the greatest offset, of several the one that came last. -/
def lastPiece : List Ipv4PayloadHeaderPair → Option Ipv4PayloadHeaderPair :=
  List.foldl (fun last piece => match last with
    | none => some piece
    | some best => if best.2.fragmentOffset ≤ piece.2.fragmentOffset then some piece
        else some best) none

/-- The pieces of a datagram that came one after another. -/
def Fragments.ofPieces (pieces : List Ipv4PayloadHeaderPair) : Fragments :=
  pieces.foldl (fun f piece =>
    f.addFragment piece.1 piece.2.fragmentOffset !piece.2.lastFragment) .new

theorem lastPiece_snoc (pieces : List Ipv4PayloadHeaderPair) (piece : Ipv4PayloadHeaderPair) :
    lastPiece (pieces ++ [piece]) = match lastPiece pieces with
      | none => some piece
      | some best => if best.2.fragmentOffset ≤ piece.2.fragmentOffset then some piece
          else some best :=
  List.foldl_concat ..

theorem lastPiece_eq_none {pieces : List Ipv4PayloadHeaderPair} :
    lastPiece pieces = none ↔ pieces = [] := by
  induction pieces using List.reverseRecOn with
  | nil => exact ⟨fun _ => rfl, fun _ => rfl⟩
  | append_singleton pieces piece ih =>
    rw [lastPiece_snoc]
    refine ⟨fun absent => ?_, fun empty => absurd empty (by simp)⟩
    split at absent
    · cases absent
    · split at absent <;> cases absent

theorem lastPiece_spec {pieces : List Ipv4PayloadHeaderPair} {best : Ipv4PayloadHeaderPair} :
    lastPiece pieces = some best → best ∈ pieces ∧
      ∀ piece ∈ pieces, piece.2.fragmentOffset ≤ best.2.fragmentOffset := by
  induction pieces using List.reverseRecOn generalizing best with
  | nil => exact nofun
  | append_singleton pieces piece ih =>
    rw [lastPiece_snoc]
    intro found
    cases last : lastPiece pieces with
    | none =>
      rw [last, Option.some.injEq] at found
      rw [lastPiece_eq_none.mp last, found]
      exact ⟨List.mem_singleton_self _, List.forall_mem_singleton.mpr (UInt16.le_refl _)⟩
    | some before =>
      obtain ⟨mem, greatest⟩ := ih last
      simp only [last] at found
      split at found
      · rename_i later
        rw [← Option.some.inj found]
        refine ⟨List.mem_append_right _ (List.mem_singleton_self _), ?_⟩
        rw [List.forall_mem_append, List.forall_mem_singleton]
        exact ⟨fun other other_mem => UInt16.le_trans (greatest other other_mem) later,
          UInt16.le_refl _⟩
      · rename_i earlier
        rw [← Option.some.inj found]
        refine ⟨List.mem_append_left _ mem, ?_⟩
        rw [List.forall_mem_append, List.forall_mem_singleton]
        exact ⟨greatest, UInt16.le_of_lt (UInt16.not_le.mp earlier)⟩

namespace Fragments

/-- The fragments of some pieces, in the order of their offsets. -/
structure Holds (f : Fragments) (pieces : List Ipv4PayloadHeaderPair) : Prop where
  contents : f.fragments.Perm (pieces.map fun piece => (piece.1, piece.2.fragmentOffset))
  sorted : f.fragments.Pairwise fun it other => it.2 ≤ other.2
  more : f.moreFragment = (lastPiece pieces).any fun piece => !piece.2.lastFragment

theorem Holds.new : new.Holds [] := ⟨.refl _, .nil, rfl⟩

variable {f : Fragments} {pieces : List Ipv4PayloadHeaderPair}

theorem Holds.offset_mem (holds : f.Holds pieces) {it : List UInt8 × UInt16}
    (mem : it ∈ f.fragments) :
    ∃ piece ∈ pieces, (piece.1, piece.2.fragmentOffset) = it :=
  List.mem_map.mp (holds.contents.mem_iff.mp mem)

theorem Holds.mem (holds : f.Holds pieces) {piece : Ipv4PayloadHeaderPair} (mem : piece ∈ pieces) :
    (piece.1, piece.2.fragmentOffset) ∈ f.fragments :=
  holds.contents.mem_iff.mpr (List.mem_map_of_mem mem)

theorem Holds.eq_nil (holds : f.Holds pieces) (none_yet : lastPiece pieces = none) :
    f.fragments = [] := by
  have contents := holds.contents
  rw [lastPiece_eq_none.mp none_yet] at contents
  exact List.perm_nil.mp contents

/-- A fragment is the last one when it is added if none that was added begins later. -/
theorem Holds.isEmpty_back (holds : f.Holds pieces) (offset : UInt16) :
    (f.fragments.dropWhile fun it => decide (it.2 ≤ offset)).isEmpty =
      (lastPiece pieces).all fun best => decide (best.2.fragmentOffset ≤ offset) := by
  rw [Bool.eq_iff_iff, List.isEmpty_iff, List.dropWhile_eq_nil_iff]
  cases last : lastPiece pieces with
  | none =>
    rw [holds.eq_nil last]
    simp
  | some best =>
    obtain ⟨mem, greatest⟩ := lastPiece_spec last
    simp only [Option.all_some, decide_eq_true_eq]
    constructor
    · intro all
      exact all _ (holds.mem mem)
    · intro below it it_mem
      obtain ⟨piece, piece_mem, rfl⟩ := holds.offset_mem it_mem
      exact UInt16.le_trans (greatest piece piece_mem) below

theorem Holds.addFragment (holds : f.Holds pieces) (piece : Ipv4PayloadHeaderPair) :
    (f.addFragment piece.1 piece.2.fragmentOffset !piece.2.lastFragment).Holds
      (pieces ++ [piece]) where
  contents := by
    unfold Fragments.addFragment
    dsimp only
    rw [List.map_append, List.map_singleton]
    refine List.perm_middle.trans ?_
    rw [List.takeWhile_append_dropWhile]
    exact (holds.contents.cons _).trans (List.perm_append_singleton _ _).symm
  sorted := by
    have sorted := holds.sorted
    rw [← List.takeWhile_append_dropWhile
      (p := fun it : List UInt8 × UInt16 => decide (it.2 ≤ piece.2.fragmentOffset))
      (l := f.fragments), List.pairwise_append] at sorted
    obtain ⟨front, back, between⟩ := sorted
    refine List.pairwise_append.mpr ⟨front, List.pairwise_cons.mpr ⟨?_, back⟩, ?_⟩
    · cases behind : f.fragments.dropWhile fun it => decide (it.2 ≤ piece.2.fragmentOffset) with
      | nil => exact fun _ => nofun
      | cons first rest =>
        have later : ¬first.2 ≤ piece.2.fragmentOffset := by
          have stays := List.head_dropWhile_not
            (fun it : List UInt8 × UInt16 => decide (it.2 ≤ piece.2.fragmentOffset))
            (l := f.fragments) (by rw [behind]; exact List.cons_ne_nil _ _)
          simp only [behind, List.head_cons] at stays
          exact of_decide_eq_false stays
        rw [behind, List.pairwise_cons] at back
        have begins : piece.2.fragmentOffset ≤ first.2 := UInt16.le_of_lt (UInt16.not_le.mp later)
        exact List.forall_mem_cons.mpr
          ⟨begins, fun other mem => UInt16.le_trans begins (back.1 other mem)⟩
    · intro it it_mem
      rw [List.forall_mem_cons]
      have begins := List.mem_takeWhile_imp
        (p := fun it : List UInt8 × UInt16 => decide (it.2 ≤ piece.2.fragmentOffset)) it_mem
      exact ⟨of_decide_eq_true begins, between it it_mem⟩
  more := by
    unfold Fragments.addFragment
    dsimp only
    rw [holds.isEmpty_back, lastPiece_snoc, holds.more]
    cases lastPiece pieces with
    | none => rfl
    | some best =>
      simp only [Option.all_some, Option.any_some, decide_eq_true_eq]
      split <;> rfl

theorem Holds.ofPieces (pieces : List Ipv4PayloadHeaderPair) : (ofPieces pieces).Holds pieces := by
  induction pieces using List.reverseRecOn with
  | nil => exact .new
  | append_singleton pieces piece ih =>
    rw [Fragments.ofPieces, List.foldl_concat]
    exact ih.addFragment piece

/-- The places of the fragments in the datagram. -/
def spans (fragments : List (List UInt8 × UInt16)) : List (Span UInt8) :=
  fragments.map fun it => ⟨it.2.toNat, it.1⟩

theorem leavesNoGap_eq {fragments : List (List UInt8 × UInt16)} :
    (∀ it ∈ spans fragments, it.stop < 65536) → ∀ lastEndOffset : UInt16,
      leavesNoGap lastEndOffset fragments =
        (Span.reach lastEndOffset.toNat (spans fragments)).isSome := by
  induction fragments with
  | nil => exact fun _ _ => rfl
  | cons it rest ih =>
    intro short lastEndOffset
    rw [spans, List.map_cons, List.forall_mem_cons] at short
    have stop : (UInt16.ofNat (it.1.length + it.2.toNat)).toNat = it.2.toNat + it.1.length := by
      rw [UInt16.toNat_ofNat_of_lt', Nat.add_comm]
      rw [Nat.add_comm]
      exact short.1
    have furthest : (if lastEndOffset < UInt16.ofNat (it.1.length + it.2.toNat) then
        UInt16.ofNat (it.1.length + it.2.toNat) else lastEndOffset).toNat =
          max lastEndOffset.toNat (it.2.toNat + it.1.length) := by
      rw [apply_ite UInt16.toNat]
      simp only [UInt16.lt_iff_toNat_lt, stop]
      split <;> omega
    rw [leavesNoGap, spans, List.map_cons, Span.reach]
    simp only [UInt16.lt_iff_toNat_lt (a := lastEndOffset) (b := it.2)]
    split
    · rfl
    · rw [ih short.2, furthest]
      rfl

/-- What is assembled when no gap is left is the part of the datagram that is reached. -/
theorem packetFrom_eq {whole : List UInt8} (short : whole.length < 65536)
    {fragments : List (List UInt8 × UInt16)} :
    (∀ part ∈ spans fragments, part.Of whole) → ∀ {reached last : Nat}, reached ≤ whole.length →
      Span.reach reached (spans fragments) = some last →
      packetFrom (whole.take reached) (UInt16.ofNat reached) fragments = whole.take last := by
  induction fragments with
  | nil =>
    intro _ reached last _ covers
    cases covers
    rfl
  | cons it rest ih =>
    intro of reached last inside covers
    rw [spans, List.map_cons, List.forall_mem_cons] at of
    rw [spans, List.map_cons, Span.reach] at covers
    split at covers
    · cases covers
    · rename_i touches
      have bound := of.1.stop_le
      have reached16 : (UInt16.ofNat reached).toNat = reached :=
        UInt16.toNat_ofNat_of_lt' (show reached < 65536 by omega)
      have extend : whole.take reached ++ it.1.drop (reached - it.2.toNat) =
          whole.take (max reached (it.2.toNat + it.1.length)) :=
        of.1.extend (Nat.le_of_not_lt touches)
      have extended : (if it.2 < UInt16.ofNat reached then
          if (UInt16.ofNat reached - it.2).toNat < it.1.length then
            whole.take reached ++ it.1.drop (UInt16.ofNat reached - it.2).toNat
          else whole.take reached
          else whole.take reached ++ it.1) =
            whole.take (max reached (it.2.toNat + it.1.length)) := by
        rw [← extend]
        simp only [UInt16.lt_iff_toNat_lt, reached16]
        split
        · rename_i overlaps
          rw [UInt16.toNat_sub_of_le, reached16]
          · split
            · rfl
            · rename_i inner
              rw [List.drop_eq_nil_of_le (Nat.le_of_not_lt inner), List.append_nil]
          · rw [UInt16.le_iff_toNat_le, reached16]
            exact overlaps.le
        · have meets : reached - it.2.toNat = 0 := by omega
          rw [meets, List.drop_zero]
      rw [packetFrom]
      dsimp only
      have further : max reached (it.2.toNat + it.1.length) ≤ whole.length := max_le inside bound
      rw [extended, List.length_take_of_le further]
      exact ih of.2 further covers

theorem Holds.mem_spans (holds : f.Holds pieces) {part : Span UInt8} :
    part ∈ spans f.fragments ↔ ∃ piece ∈ pieces, part = span 0 piece := by
  unfold spans
  rw [List.mem_map]
  constructor
  · rintro ⟨it, mem, rfl⟩
    obtain ⟨piece, piece_mem, rfl⟩ := holds.offset_mem mem
    exact ⟨piece, piece_mem, rfl⟩
  · rintro ⟨piece, mem, rfl⟩
    exact ⟨_, holds.mem mem, rfl⟩

/-- No more fragments follow if the last piece says so. -/
theorem Holds.ends (holds : f.Holds pieces) :
    (!f.moreFragment && !f.fragments.isEmpty) = (lastPiece pieces).any (·.2.lastFragment) := by
  rw [holds.more]
  cases last : lastPiece pieces with
  | none =>
    rw [holds.eq_nil last]
    rfl
  | some best =>
    have mem := holds.mem (lastPiece_spec last).1
    have nonempty : f.fragments.isEmpty = false := by
      rw [List.isEmpty_eq_false_iff]
      exact List.ne_nil_of_mem mem
    rw [nonempty]
    simp

end Fragments

/-- A datagram that is sent as a whole. -/
structure Ipv4PayloadHeaderPair.Unfragmented (datagram : Ipv4PayloadHeaderPair) : Prop where
  sendable : Sendable datagram
  first : datagram.2.fragmentOffset = 0
  last : datagram.2.lastFragment = true

/-- The pieces cover the datagram, and of those of the greatest offset the one that came last
is its end. -/
def Complete (original : Ipv4PayloadHeaderPair) (pieces : List Ipv4PayloadHeaderPair) : Prop :=
  (lastPiece pieces).any (·.2.lastFragment) = true ∧
    ∀ place, place < original.1.length → ∃ piece ∈ pieces, (span 0 piece).Covers place

variable {original : Ipv4PayloadHeaderPair} {pieces : List Ipv4PayloadHeaderPair} {f : Fragments}

theorem Ipv4PayloadHeaderPair.Unfragmented.start_eq (unfragmented : Unfragmented original) :
    start original = 0 := by
  rw [start, unfragmented.first]
  rfl

theorem Ipv4PayloadHeaderPair.Unfragmented.stop_eq (unfragmented : Unfragmented original) :
    stop original = original.1.length := by
  rw [stop, unfragmented.start_eq, Nat.zero_add]

theorem Ipv4PayloadHeaderPair.Unfragmented.short (unfragmented : Unfragmented original) :
    original.1.length < 65536 := by
  have fits := unfragmented.sendable.fits
  rwa [unfragmented.stop_eq] at fits

namespace Fragments

theorem Holds.spans_of (holds : f.Holds pieces) (unfragmented : Unfragmented original)
    (of : ∀ piece ∈ pieces, PieceOf original piece) :
    ∀ part ∈ spans f.fragments, part.Of original.1 := by
  intro part mem
  obtain ⟨piece, piece_mem, rfl⟩ := holds.mem_spans.mp mem
  have part := (of piece piece_mem).part
  rwa [unfragmented.start_eq] at part

theorem Holds.spans_sorted (holds : f.Holds pieces) :
    (spans f.fragments).Pairwise fun part other => part.start ≤ other.start :=
  List.pairwise_map.mpr (holds.sorted.imp UInt16.le_iff_toNat_le.mp)

/-- The fragments reach the end without a gap exactly if the pieces cover the datagram. -/
theorem Holds.reach_iff (holds : f.Holds pieces) (unfragmented : Unfragmented original)
    (of : ∀ piece ∈ pieces, PieceOf original piece) :
    Span.reach 0 (spans f.fragments) = some original.1.length ↔
      ∀ place, place < original.1.length → ∃ piece ∈ pieces, (span 0 piece).Covers place := by
  rw [Span.reach_eq_iff (holds.spans_of unfragmented of) holds.spans_sorted (Nat.zero_le _)]
  constructor
  · intro covered place below
    obtain ⟨part, mem, there⟩ := covered place (Nat.zero_le _) below
    obtain ⟨piece, piece_mem, rfl⟩ := holds.mem_spans.mp mem
    exact ⟨piece, piece_mem, there⟩
  · intro covered place _ below
    obtain ⟨piece, mem, there⟩ := covered place below
    exact ⟨span 0 piece, holds.mem_spans.mpr ⟨piece, mem, rfl⟩, there⟩

/-- IsEntire says whether the pieces that were added are complete. -/
theorem Holds.isEntire_iff (holds : f.Holds pieces) (unfragmented : Unfragmented original)
    (of : ∀ piece ∈ pieces, PieceOf original piece) :
    f.isEntire = true ↔ Complete original pieces := by
  have spans_of := holds.spans_of unfragmented of
  have short : ∀ part ∈ spans f.fragments, part.stop < 65536 := fun part mem =>
    (spans_of part mem).stop_le.trans_lt unfragmented.short
  have scan : leavesNoGap 0 f.fragments = (Span.reach 0 (spans f.fragments)).isSome :=
    leavesNoGap_eq short 0
  unfold isEntire Complete
  rw [holds.ends, Bool.and_eq_true, ← holds.reach_iff unfragmented of, scan]
  refine and_congr_right fun ends => ⟨fun reached => ?_, fun reached => by rw [reached]; rfl⟩
  obtain ⟨last, reached⟩ := Option.isSome_iff_exists.mp reached
  obtain ⟨best, found, is_last⟩ := (Option.any_eq_true ..).mp ends
  have best_of := of best (lastPiece_spec found).1
  have end_eq : stop best = original.1.length := by
    have flag := best_of.last
    rw [is_last, unfragmented.last, Bool.true_and] at flag
    rw [of_decide_eq_true flag.symm, unfragmented.stop_eq]
  obtain ⟨_, stops, stop_eq⟩ := Span.reach_stop reached
  have above : stop best ≤ last :=
    stops _ (holds.mem_spans.mpr ⟨best, (lastPiece_spec found).1, rfl⟩)
  have below : last ≤ original.1.length := by
    rcases stop_eq with rfl | ⟨part, mem, rfl⟩
    · exact Nat.zero_le _
    · exact (spans_of part mem).stop_le
  rw [reached, show last = original.1.length by omega]

/-- GetPacket puts complete pieces together to the payload of the datagram. -/
theorem Holds.getPacket_eq (holds : f.Holds pieces) (unfragmented : Unfragmented original)
    (of : ∀ piece ∈ pieces, PieceOf original piece) (complete : Complete original pieces) :
    f.getPacket = some original.1 := by
  have reached := (holds.reach_iff unfragmented of).mpr complete.2
  have spans_of := holds.spans_of unfragmented of
  unfold getPacket
  cases content : f.fragments with
  | nil =>
    rw [content] at reached
    have empty : 0 = original.1.length := Option.some.inj reached
    exact absurd (List.eq_nil_of_length_eq_zero empty.symm) unfragmented.sendable.nonempty
  | cons it rest =>
    rw [content, spans, List.map_cons, Span.reach] at reached
    rw [content, spans, List.map_cons, List.forall_mem_cons] at spans_of
    split at reached
    · cases reached
    · rename_i touches
      have begins : it.2.toNat = 0 := Nat.eq_zero_of_not_pos touches
      have bound : it.1.length ≤ original.1.length := by
        have stop_le : it.2.toNat + it.1.length ≤ original.1.length := spans_of.1.stop_le
        omega
      have content_eq : it.1 = original.1.take it.1.length := by
        have items := spans_of.1.items_eq
        rwa [begins, List.drop_zero] at items
      have reached_eq : max 0 (Span.stop ⟨it.2.toNat, it.1⟩) = it.1.length := by
        rw [Span.stop, begins, Nat.zero_add, Nat.zero_max]
      rw [reached_eq] at reached
      have whole := packetFrom_eq unfragmented.short spans_of.2 bound reached
      rw [← content_eq, List.take_length] at whole
      exact congrArg some whole

end Fragments

/-- Whatever pieces of a datagram come, in any order, overlapping and more than once, they are
entire exactly when they are complete, and are then put together to its payload. -/
theorem reassembles (unfragmented : Unfragmented original)
    (pieces : List Ipv4PayloadHeaderPair) (of : ∀ piece ∈ pieces, PieceOf original piece) :
    ((Fragments.ofPieces pieces).isEntire = true ↔ Complete original pieces) ∧
      (Complete original pieces → (Fragments.ofPieces pieces).getPacket = some original.1) :=
  ⟨(Fragments.Holds.ofPieces pieces).isEntire_iff unfragmented of,
    (Fragments.Holds.ofPieces pieces).getPacket_eq unfragmented of⟩

/-- Part of a datagram of forty bytes. -/
def fortyBytes (offset : UInt16) (size : Nat) (lastFragment : Bool)
    (aligned : offset.toNat % 8 = 0) : Ipv4PayloadHeaderPair :=
  (((List.range 40).map UInt8.ofNat).drop offset.toNat |>.take size,
    ⟨⟨⟨⟨0⟩, 20, UInt16.ofNat size, 17, 0x0a000001, 0x0a000002⟩, offset, lastFragment⟩, 7, aligned⟩)

theorem fortyBytes_unfragmented : Unfragmented (fortyBytes 0 40 true rfl) where
  sendable := ⟨rfl, by decide, by decide, by decide⟩
  first := rfl
  last := rfl

/-- The last twenty-four bytes come before the first twenty-four. -/
theorem reassembles_overlapping :
    (Fragments.ofPieces [fortyBytes 16 24 true rfl, fortyBytes 0 24 false rfl]).getPacket =
      some (fortyBytes 0 40 true rfl).1 := by
  have of : ∀ piece ∈ [fortyBytes 16 24 true rfl, fortyBytes 0 24 false rfl],
      PieceOf (fortyBytes 0 40 true rfl) piece := by
    refine List.forall_mem_cons.mpr ⟨?_, List.forall_mem_singleton.mpr ?_⟩
    · exact ⟨rfl, by decide, ⟨by decide, by decide⟩, by decide, by decide⟩
    · exact ⟨rfl, by decide, ⟨by decide, by decide⟩, by decide, by decide⟩
  have whole := reassembles fortyBytes_unfragmented _ of
  exact whole.2 (whole.1.mp (by decide))

/- The pieces of one cut -/

namespace Ipv4PayloadHeaderPair

theorem Chained.start_le {place : Nat} (chained : Chained place pieces) :
    ∀ piece ∈ pieces, place ≤ start piece := by
  induction pieces generalizing place with
  | nil => exact fun _ => nofun
  | cons first rest ih =>
    obtain ⟨rfl, chained⟩ := chained
    refine List.forall_mem_cons.mpr ⟨Nat.le_refl _, fun piece mem => ?_⟩
    exact (Nat.le_add_right _ _).trans (ih chained piece mem)

/-- No two pieces lie at one place. -/
theorem Chained.unique {place : Nat} (chained : Chained place pieces) {piece other}
    (mem : piece ∈ pieces) (other_mem : other ∈ pieces) {k : Nat}
    (here : (span 0 piece).Covers k) (there : (span 0 other).Covers k) : piece = other := by
  induction pieces generalizing place with
  | nil => cases mem
  | cons first rest ih =>
    obtain ⟨rfl, chained⟩ := chained
    have later := chained.start_le
    rcases List.mem_cons.mp mem with same | mem
    · rcases List.mem_cons.mp other_mem with same' | other_mem
      · rw [same, same']
      · have beyond : stop first ≤ k := (later other other_mem).trans there.1
        rw [same] at here
        exact absurd here.2 (Nat.not_lt.mpr beyond)
    · rcases List.mem_cons.mp other_mem with same' | other_mem
      · have beyond : stop first ≤ k := (later piece mem).trans here.1
        rw [same'] at there
        exact absurd there.2 (Nat.not_lt.mpr beyond)
      · exact ih chained mem other_mem

/-- Chained pieces leave no gap. -/
theorem Chained.covers {place : Nat} (chained : Chained place pieces) {k : Nat}
    (above : place ≤ k) (below : k < place + (pieces.map (·.1)).flatten.length) :
    ∃ piece ∈ pieces, (span 0 piece).Covers k := by
  induction pieces generalizing place with
  | nil => exact absurd below (Nat.not_lt.mpr above)
  | cons first rest ih =>
    obtain ⟨rfl, chained⟩ := chained
    rw [List.map_cons, List.flatten_cons, List.length_append, ← Nat.add_assoc] at below
    by_cases here : k < stop first
    · exact ⟨first, List.mem_cons_self, above, here⟩
    · obtain ⟨piece, mem, there⟩ := ih chained (Nat.le_of_not_lt here) below
      exact ⟨piece, List.mem_cons_of_mem first mem, there⟩

variable {cut : List Ipv4PayloadHeaderPair}

theorem PieceOf.covers_start {piece : Ipv4PayloadHeaderPair} (of : PieceOf original piece) :
    (span 0 piece).Covers (start piece) := by
  have positive := of.part.length_pos
  refine ⟨Nat.le_refl _, ?_⟩
  show start piece < start piece + piece.1.length
  exact Nat.lt_add_of_pos_right positive

/-- Every place of a datagram is in some piece of a cut. -/
theorem Cuts.covers (cuts : Cuts original cut) (unfragmented : Unfragmented original) {k : Nat}
    (below : k < original.1.length) : ∃ piece ∈ cut, (span 0 piece).Covers k := by
  refine cuts.chained.covers ?_ ?_
  · rw [unfragmented.start_eq]
    exact Nat.zero_le k
  · rwa [cuts.whole, unfragmented.start_eq, Nat.zero_add]

/-- Of the pieces of a cut the last one ends the datagram. -/
theorem Cuts.lastPiece_last (cuts : Cuts original cut) (unfragmented : Unfragmented original)
    {arrivals : List Ipv4PayloadHeaderPair} (all : ∀ piece ∈ cut, piece ∈ arrivals)
    (own : ∀ piece ∈ arrivals, piece ∈ cut) {best : Ipv4PayloadHeaderPair}
    (found : lastPiece arrivals = some best) : best.2.lastFragment = true := by
  obtain ⟨mem, greatest⟩ := lastPiece_spec found
  have of := cuts.each best (own best mem)
  have bound := of.stop_le
  rw [of.last, unfragmented.last, Bool.true_and, decide_eq_true_eq]
  by_contra early
  have end_eq := unfragmented.stop_eq
  obtain ⟨next, next_mem, there⟩ := cuts.covers unfragmented (k := stop best) (by omega)
  have not_later : start next ≤ start best :=
    UInt16.le_iff_toNat_le.mp (greatest next (all next next_mem))
  have positive := of.part.length_pos
  have beyond : stop best < stop next := there.2
  -- it would lie over the last piece
  have over_it : (span 0 next).Covers (start best) :=
    ⟨not_later, (Nat.le_add_right _ _).trans_lt beyond⟩
  have same := cuts.chained.unique next_mem (own best mem) over_it of.covers_start
  rw [same] at beyond
  exact Nat.lt_irrefl _ beyond

/-- Pieces of one cut are complete when every one of them has come. -/
theorem Cuts.complete_iff (cuts : Cuts original cut) (unfragmented : Unfragmented original)
    {arrivals : List Ipv4PayloadHeaderPair} (own : ∀ piece ∈ arrivals, piece ∈ cut) :
    Complete original arrivals ↔ ∀ piece ∈ cut, piece ∈ arrivals := by
  constructor
  · intro complete piece mem
    have of := cuts.each piece mem
    have begins := of.covers_start
    have inside : start piece < original.1.length := by
      have bound := of.stop_le
      rw [stop, unfragmented.stop_eq] at bound
      have positive := of.part.length_pos
      exact (Nat.lt_add_of_pos_right positive).trans_le bound
    obtain ⟨other, other_mem, there⟩ := complete.2 _ inside
    rw [cuts.chained.unique mem (own other other_mem) begins there]
    exact other_mem
  · intro all
    refine ⟨?_, fun k below => ?_⟩
    · cases found : lastPiece arrivals with
      | none =>
        obtain ⟨piece, mem, _⟩ := cuts.covers unfragmented
          (List.length_pos_iff.mpr unfragmented.sendable.nonempty)
        have arrived := all piece mem
        rw [lastPiece_eq_none.mp found] at arrived
        cases arrived
      | some best => exact cuts.lastPiece_last unfragmented all own found
    · obtain ⟨piece, mem, there⟩ := cuts.covers unfragmented below
      exact ⟨piece, all piece mem, there⟩

end Ipv4PayloadHeaderPair

/-- A datagram that crosses links with room for a header and eight bytes each arrives in
fragments that fit the links. Of these, in any order and each any number of times, the
receiver makes the payload of the datagram once it has them all, and not before. -/
theorem fragmentation_round_trip {datagram : Ipv4PayloadHeaderPair}
    (unfragmented : Unfragmented datagram) (mtus : List UInt16)
    (atLeast : ∀ mtu ∈ mtus, 28 ≤ mtu.toNat) :
    ∃ fragments, (∀ fuel, datagram.1.length ≤ fuel →
        sendAlong fuel mtus [datagram] = some fragments) ∧
      (∀ fragment ∈ fragments, ∀ mtu ∈ mtus,
        fragment.1.length + fragment.2.headerSize ≤ mtu.toNat) ∧
      ∀ arrivals, (∀ fragment ∈ arrivals, fragment ∈ fragments) →
        ((Fragments.ofPieces arrivals).isEntire = true ↔
          ∀ fragment ∈ fragments, fragment ∈ arrivals) ∧
        ((Fragments.ofPieces arrivals).isEntire = true →
          (Fragments.ofPieces arrivals).getPacket = some datagram.1) := by
  obtain ⟨fragments, sent, cuts, fits⟩ := sendAlong_cuts unfragmented.sendable mtus atLeast
  refine ⟨fragments, sent, fun fragment mem mtu mtu_mem => ?_, fun arrivals own => ?_⟩
  · rw [((cuts.each fragment mem).sendable unfragmented.sendable).headerSize]
    exact fits fragment mem mtu mtu_mem
  · have of : ∀ piece ∈ arrivals, PieceOf datagram piece :=
      fun piece mem => cuts.each piece (own piece mem)
    have holds := Fragments.Holds.ofPieces arrivals
    have entire := holds.isEntire_iff unfragmented of
    exact ⟨entire.trans (cuts.complete_iff unfragmented own),
      fun whole => holds.getPacket_eq unfragmented of (entire.mp whole)⟩

/-- The fragments come twice, first in the opposite order. -/
theorem fragmentation_round_trip_reversed :
    ∃ fragments, sendAlong 40 [44, 36] [fortyBytes 0 40 true rfl] = some fragments ∧
      (Fragments.ofPieces (fragments.reverse ++ fragments)).getPacket =
        some (fortyBytes 0 40 true rfl).1 := by
  have atLeast : ∀ mtu ∈ [(44 : UInt16), 36], 28 ≤ mtu.toNat :=
    List.forall_mem_cons.mpr ⟨by decide, List.forall_mem_singleton.mpr (by decide)⟩
  obtain ⟨fragments, sent, _, arrive⟩ :=
    fragmentation_round_trip fortyBytes_unfragmented [44, 36] atLeast
  have back := arrive (fragments.reverse ++ fragments) (by simp)
  exact ⟨fragments, sent 40 (by decide), back.2 (back.1.mpr (by simp))⟩

end QbbNet
