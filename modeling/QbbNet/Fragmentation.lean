import QbbNet.FlowClassifier
import QbbNet.OptionLoops
import QbbNet.Spans

set_option autoImplicit false

/- Ipv4L3Protocol::SendRealOut and DoFragmentation: datagrams that are too long for a link
are sent in fragments. -/
namespace QbbNet

/-- The IPv4 header as far as fragments are made and put together by it. SetFragmentOffset
and Deserialize see to it that the offset is a multiple of eight. -/
structure FragmentHeader extends FlowHeader where
  identification : UInt16
  aligned : fragmentOffset.toNat % 8 = 0
  deriving DecidableEq

/-- Ipv4Header::SetFragmentOffset, which aborts the run for an offset that it cannot write. -/
def FragmentHeader.setFragmentOffset (header : FragmentHeader) (offsetBytes : UInt16) :
    Option FragmentHeader :=
  if aligned : offsetBytes.toNat % 8 = 0 then
    some { header with fragmentOffset := offsetBytes, aligned }
  else none

abbrev Ipv4PayloadHeaderPair := List UInt8 × FragmentHeader

/-- The size of all fragments but the last. -/
def fragmentSize (ipv4Header : FragmentHeader) (outIfaceMtu : UInt16) : UInt32 :=
  (outIfaceMtu.toUInt32 - UInt32.ofNat ipv4Header.headerSize) &&& ~~~7

/-- The loop of DoFragmentation from an offset on. It ends with `none` where the run is
aborted, and where the fuel is used up before the loop has ended. -/
def doFragmentationFrom (packet : List UInt8) (ipv4Header : FragmentHeader) (outIfaceMtu : UInt16) :
    Nat → UInt16 → Option (List Ipv4PayloadHeaderPair)
  | 0, _ => none
  | fuel + 1, offset =>
    let size := UInt32.ofNat packet.length
    let fragmentSize := fragmentSize ipv4Header outIfaceMtu
    let moreFragment := decide (offset.toUInt32 + fragmentSize < size)
    let currentFragmentablePartSize := if moreFragment then fragmentSize else size - offset.toUInt32
    let fragment := (packet.drop offset.toNat).take currentFragmentablePartSize.toNat
    match ipv4Header.setFragmentOffset (offset + ipv4Header.fragmentOffset) with
    | none => none
    | some fragmentHeader =>
        let fragmentHeader := { fragmentHeader with
          lastFragment := !moreFragment && ipv4Header.lastFragment
          payloadSize := currentFragmentablePartSize.toUInt16 }
        if moreFragment then
          (doFragmentationFrom packet ipv4Header outIfaceMtu fuel
            (offset + currentFragmentablePartSize.toUInt16)).map ((fragment, fragmentHeader) :: ·)
        else some [(fragment, fragmentHeader)]

def doFragmentation (fuel : Nat) (packet : List UInt8) (ipv4Header : FragmentHeader)
    (outIfaceMtu : UInt16) : Option (List Ipv4PayloadHeaderPair) :=
  doFragmentationFrom packet ipv4Header outIfaceMtu fuel 0

/-- What SendRealOut gives to an interface that is up. -/
def sendRealOut (fuel : Nat) (mtu : UInt16) (datagram : Ipv4PayloadHeaderPair) :
    Option (List Ipv4PayloadHeaderPair) :=
  if mtu.toNat < datagram.1.length + datagram.2.headerSize then
    doFragmentation fuel datagram.1 datagram.2 mtu
  else some [datagram]

/- The pieces of a datagram -/

namespace Ipv4PayloadHeaderPair

def start (piece : Ipv4PayloadHeaderPair) : Nat := piece.2.fragmentOffset.toNat

def stop (piece : Ipv4PayloadHeaderPair) : Nat := start piece + piece.1.length

/-- The payload as a part of the one that begins at a place. -/
def span (place : Nat) (piece : Ipv4PayloadHeaderPair) : Span UInt8 :=
  ⟨start piece - place, piece.1⟩

/-- A datagram, or a fragment of one, that can be sent as it is. -/
structure Sendable (datagram : Ipv4PayloadHeaderPair) : Prop where
  headerSize : datagram.2.headerSize = 20
  nonempty : datagram.1 ≠ []
  size : datagram.2.payloadSize.toNat = datagram.1.length
  fits : stop datagram < 65536

/-- A fragment of a datagram, or of a fragment of it: the part of the payload that its header
says, under the header of the datagram otherwise. -/
structure PieceOf (original piece : Ipv4PayloadHeaderPair) : Prop where
  header : piece.2 = { original.2 with
    fragmentOffset := piece.2.fragmentOffset
    lastFragment := piece.2.lastFragment
    payloadSize := piece.2.payloadSize
    aligned := piece.2.aligned }
  after : start original ≤ start piece
  part : (span (start original) piece).Of original.1
  size : piece.2.payloadSize.toNat = piece.1.length
  last : piece.2.lastFragment = (original.2.lastFragment && decide (stop piece = stop original))

variable {original piece other : Ipv4PayloadHeaderPair}

theorem PieceOf.stop_le (of : PieceOf original piece) : stop piece ≤ stop original := by
  have bound := of.part.stop_le
  have after := of.after
  unfold span Span.stop at bound
  unfold stop
  dsimp only at bound
  omega

theorem PieceOf.sendable (of : PieceOf original piece) (sendable : Sendable original) :
    Sendable piece where
  headerSize := by
    rw [of.header]
    exact sendable.headerSize
  nonempty := of.part.nonempty
  size := of.size
  fits := of.stop_le.trans_lt sendable.fits

theorem PieceOf.self (sendable : Sendable original) : PieceOf original original where
  header := rfl
  after := Nat.le_refl _
  part := ⟨sendable.nonempty, by simp [span]⟩
  size := sendable.size
  last := by simp

theorem PieceOf.trans (inner : PieceOf piece other) (of : PieceOf original piece) :
    PieceOf original other where
  header := by
    rw [inner.header, of.header]
  after := of.after.trans inner.after
  part := by
    have part := inner.part.trans of.part
    have place : start piece - start original + (start other - start piece) =
        start other - start original := by
      have after := of.after
      have later := inner.after
      omega
    unfold span at part ⊢
    rwa [place] at part
  size := inner.size
  last := by
    have bound := of.stop_le
    have bound' := inner.stop_le
    rw [inner.last, of.last, Bool.and_assoc]
    refine congrArg _ ?_
    rw [← Bool.decide_and, decide_eq_decide]
    omega

/-- Pieces that lie one behind the other. -/
def Chained : Nat → List Ipv4PayloadHeaderPair → Prop
  | _, [] => True
  | place, piece :: rest => start piece = place ∧ Chained (stop piece) rest

/-- All of a datagram in pieces, in their order. -/
structure Cuts (original : Ipv4PayloadHeaderPair) (pieces : List Ipv4PayloadHeaderPair) : Prop where
  each : ∀ piece ∈ pieces, PieceOf original piece
  chained : Chained (start original) pieces
  whole : (pieces.map (·.1)).flatten = original.1

end Ipv4PayloadHeaderPair

open Ipv4PayloadHeaderPair

/- The loop -/

variable {packet : List UInt8} {ipv4Header : FragmentHeader} {outIfaceMtu : UInt16}

theorem fragmentSize_toNat (headerSize : ipv4Header.headerSize = 20)
    (atLeast : 20 ≤ outIfaceMtu.toNat) :
    (fragmentSize ipv4Header outIfaceMtu).toNat = (outIfaceMtu.toNat - 20) / 8 * 8 := by
  have bound := outIfaceMtu.toNat_lt
  have mask : (~~~7 : UInt32).toNat = 2 ^ 32 - 2 ^ 3 := rfl
  have room : (outIfaceMtu.toUInt32 - UInt32.ofNat ipv4Header.headerSize).toNat =
      outIfaceMtu.toNat - 20 := by
    rw [headerSize, UInt32.toNat_sub_of_le]
    · rfl
    · rw [UInt32.le_iff_toNat_le]
      exact atLeast
  rw [fragmentSize, and_mask (by decide) mask, room]
  rfl

theorem fragmentSize_lt (headerSize : ipv4Header.headerSize = 20)
    (atLeast : 20 ≤ outIfaceMtu.toNat) :
    (fragmentSize ipv4Header outIfaceMtu).toNat < 65536 := by
  have bound : outIfaceMtu.toNat < 65536 := outIfaceMtu.toNat_lt
  rw [fragmentSize_toNat headerSize atLeast]
  omega

/-- The bytes of the fragment that is made at an offset. -/
def partSize (packet : List UInt8) (ipv4Header : FragmentHeader) (outIfaceMtu : UInt16)
    (offset : Nat) : Nat :=
  if offset + (fragmentSize ipv4Header outIfaceMtu).toNat < packet.length then
    (fragmentSize ipv4Header outIfaceMtu).toNat
  else packet.length - offset

theorem add_partSize_le {offset : Nat} (inside : offset < packet.length) :
    offset + partSize packet ipv4Header outIfaceMtu offset ≤ packet.length := by
  unfold partSize
  split <;> omega

theorem length_part {offset : Nat} (inside : offset < packet.length) :
    ((packet.drop offset).take (partSize packet ipv4Header outIfaceMtu offset)).length =
      partSize packet ipv4Header outIfaceMtu offset := by
  have bound : offset + partSize packet ipv4Header outIfaceMtu offset ≤ packet.length :=
    add_partSize_le inside
  rw [List.length_take_of_le]
  rw [List.length_drop]
  omega

/-- What the loop computes in 32 bits and then cuts down to 16. -/
theorem currentFragmentablePartSize_toNat (short : packet.length < 65536) {offset : UInt16}
    (inside : offset.toNat < packet.length) :
    (if offset.toNat + (fragmentSize ipv4Header outIfaceMtu).toNat < packet.length then
      fragmentSize ipv4Header outIfaceMtu
      else UInt32.ofNat packet.length - offset.toUInt32).toNat =
        partSize packet ipv4Header outIfaceMtu offset.toNat := by
  have length32 : (UInt32.ofNat packet.length).toNat = packet.length :=
    UInt32.toNat_ofNat_of_lt' (show packet.length < 4294967296 by omega)
  unfold partSize
  split
  · rfl
  · rw [UInt32.toNat_sub_of_le, length32, UInt16.toNat_toUInt32]
    rw [UInt32.le_iff_toNat_le, length32, UInt16.toNat_toUInt32]
    exact inside.le

/-- One pass through the loop, at an offset within the packet. -/
theorem doFragmentationFrom_step (sendable : Sendable (packet, ipv4Header))
    (atLeast : 20 ≤ outIfaceMtu.toNat) {offset : UInt16} (inside : offset.toNat < packet.length)
    (aligned : offset.toNat % 8 = 0)
    (positive : 0 < partSize packet ipv4Header outIfaceMtu offset.toNat) :
    ∃ piece, PieceOf (packet, ipv4Header) piece ∧
      start piece = start (packet, ipv4Header) + offset.toNat ∧
      piece.1 = (packet.drop offset.toNat).take
        (partSize packet ipv4Header outIfaceMtu offset.toNat) ∧
      ∀ fuel, doFragmentationFrom packet ipv4Header outIfaceMtu (fuel + 1) offset =
        if offset.toNat + (fragmentSize ipv4Header outIfaceMtu).toNat < packet.length then
          (doFragmentationFrom packet ipv4Header outIfaceMtu fuel
            (offset + UInt16.ofNat (partSize packet ipv4Header outIfaceMtu offset.toNat))).map
              (piece :: ·)
        else some [piece] := by
  have fits : ipv4Header.fragmentOffset.toNat + packet.length < 65536 := sendable.fits
  have headerSize : ipv4Header.headerSize = 20 := sendable.headerSize
  have small := fragmentSize_lt headerSize atLeast
  have length32 : (UInt32.ofNat packet.length).toNat = packet.length :=
    UInt32.toNat_ofNat_of_lt' (show packet.length < 4294967296 by omega)
  have more : (offset.toUInt32 + fragmentSize ipv4Header outIfaceMtu < UInt32.ofNat packet.length) ↔
      offset.toNat + (fragmentSize ipv4Header outIfaceMtu).toNat < packet.length := by
    rw [UInt32.lt_iff_toNat_lt, length32, UInt32.toNat_add, UInt16.toNat_toUInt32,
      Nat.mod_eq_of_lt (by omega)]
  have current := @currentFragmentablePartSize_toNat packet ipv4Header outIfaceMtu (by omega) _
    inside
  have payload : (if offset.toNat + (fragmentSize ipv4Header outIfaceMtu).toNat < packet.length then
      fragmentSize ipv4Header outIfaceMtu
      else UInt32.ofNat packet.length - offset.toUInt32).toUInt16 =
        UInt16.ofNat (partSize packet ipv4Header outIfaceMtu offset.toNat) := by
    rw [← current, UInt16.ofNat_uInt32ToNat]
  have bound : offset.toNat + partSize packet ipv4Header outIfaceMtu offset.toNat ≤
      packet.length := add_partSize_le inside
  have place : (offset + ipv4Header.fragmentOffset).toNat =
      offset.toNat + ipv4Header.fragmentOffset.toNat := by
    rw [UInt16.toNat_add, Nat.mod_eq_of_lt (by omega)]
  have multiple : (offset + ipv4Header.fragmentOffset).toNat % 8 = 0 := by
    have own := ipv4Header.aligned
    omega
  have set : ipv4Header.setFragmentOffset (offset + ipv4Header.fragmentOffset) =
      some { ipv4Header with
        fragmentOffset := offset + ipv4Header.fragmentOffset, aligned := multiple } :=
    dif_pos multiple
  have taken := @length_part packet ipv4Header outIfaceMtu _ inside
  refine ⟨((packet.drop offset.toNat).take (partSize packet ipv4Header outIfaceMtu offset.toNat),
    { ipv4Header with
      fragmentOffset := offset + ipv4Header.fragmentOffset
      aligned := multiple
      lastFragment := !decide (offset.toNat + (fragmentSize ipv4Header outIfaceMtu).toNat <
        packet.length) && ipv4Header.lastFragment
      payloadSize := UInt16.ofNat (partSize packet ipv4Header outIfaceMtu offset.toNat) }),
    ⟨rfl, ?after, ⟨?nonempty, ?content⟩, ?size, ?last⟩, ?start, rfl, fun fuel => ?loop⟩
  case after =>
    show ipv4Header.fragmentOffset.toNat ≤ (offset + ipv4Header.fragmentOffset).toNat
    omega
  case nonempty =>
    exact List.ne_nil_of_length_pos (positive.trans_le taken.ge)
  case content =>
    have back : (offset + ipv4Header.fragmentOffset).toNat - ipv4Header.fragmentOffset.toNat =
        offset.toNat := by
      omega
    show List.take _ _ <+: packet.drop ((offset + ipv4Header.fragmentOffset).toNat -
      ipv4Header.fragmentOffset.toNat)
    rw [back]
    exact List.take_prefix ..
  case size =>
    show (UInt16.ofNat _).toNat = _
    rw [taken, UInt16.toNat_ofNat_of_lt']
    show partSize packet ipv4Header outIfaceMtu offset.toNat < 65536
    omega
  case last =>
    show (_ && ipv4Header.lastFragment) = (ipv4Header.lastFragment && _)
    rw [Bool.and_comm, ← decide_not]
    refine congrArg _ (decide_eq_decide.mpr ?_)
    unfold stop start
    dsimp only
    rw [taken, place]
    unfold partSize
    split <;> omega
  case start =>
    show (offset + ipv4Header.fragmentOffset).toNat = ipv4Header.fragmentOffset.toNat + _
    omega
  case loop =>
    rw [doFragmentationFrom]
    dsimp only
    rw [set]
    simp only [decide_eq_true_eq, more, current, payload]

/-- From an offset on, the loop cuts what is left of the packet. -/
theorem doFragmentationFrom_cuts (sendable : Sendable (packet, ipv4Header))
    (atLeast : 28 ≤ outIfaceMtu.toNat) : ∀ left, ∀ offset : UInt16, offset.toNat < packet.length →
      packet.length - offset.toNat = left → offset.toNat % 8 = 0 →
      ∃ fragments, (∀ fuel, left ≤ fuel →
          doFragmentationFrom packet ipv4Header outIfaceMtu fuel offset = some fragments) ∧
        (∀ fragment ∈ fragments, PieceOf (packet, ipv4Header) fragment ∧
          fragment.1.length + 20 ≤ outIfaceMtu.toNat) ∧
        Chained (start (packet, ipv4Header) + offset.toNat) fragments ∧
        (fragments.map (·.1)).flatten = packet.drop offset.toNat := by
  have headerSize : ipv4Header.headerSize = 20 := sendable.headerSize
  have fits : ipv4Header.fragmentOffset.toNat + packet.length < 65536 := sendable.fits
  have full := fragmentSize_toNat headerSize (Nat.le_of_lt (by omega) : 20 ≤ outIfaceMtu.toNat)
  intro left
  induction left using Nat.strong_induction_on with
  | _ left ih =>
    intro offset inside left_eq aligned
    have size_le : partSize packet ipv4Header outIfaceMtu offset.toNat ≤
        (fragmentSize ipv4Header outIfaceMtu).toNat := by
      unfold partSize
      split <;> omega
    have positive : 0 < partSize packet ipv4Header outIfaceMtu offset.toNat := by
      unfold partSize
      split <;> omega
    have bound : offset.toNat + partSize packet ipv4Header outIfaceMtu offset.toNat ≤
        packet.length := add_partSize_le inside
    obtain ⟨piece, of, begins, content, once⟩ :=
      doFragmentationFrom_step sendable (by omega) inside aligned positive
    have length : piece.1.length = partSize packet ipv4Header outIfaceMtu offset.toNat := by
      rw [content, length_part inside]
    by_cases more : offset.toNat + (fragmentSize ipv4Header outIfaceMtu).toNat < packet.length
    · have whole : partSize packet ipv4Header outIfaceMtu offset.toNat =
          (fragmentSize ipv4Header outIfaceMtu).toNat := if_pos more
      have next : (offset + UInt16.ofNat (partSize packet ipv4Header outIfaceMtu
          offset.toNat)).toNat =
            offset.toNat + partSize packet ipv4Header outIfaceMtu offset.toNat := by
        rw [UInt16.toNat_add, UInt16.toNat_ofNat_of_lt' (show _ < 65536 by omega),
          Nat.mod_eq_of_lt (by omega)]
      obtain ⟨rest, ended, pieces, chained, flat⟩ := ih
        (packet.length - (offset.toNat + partSize packet ipv4Header outIfaceMtu offset.toNat))
        (by omega) (offset + UInt16.ofNat (partSize packet ipv4Header outIfaceMtu offset.toNat))
        (by omega) (by rw [next]) (by omega)
      refine ⟨piece :: rest, fun fuel enough => ?_, ?_, ?_, ?_⟩
      · obtain ⟨fuel, rfl⟩ : ∃ n, fuel = n + 1 := ⟨fuel - 1, by omega⟩
        rw [once, if_pos more, ended fuel (by omega), Option.map_some]
      · exact List.forall_mem_cons.mpr ⟨⟨of, by omega⟩, pieces⟩
      · refine ⟨begins, ?_⟩
        rw [next, ← Nat.add_assoc, ← begins, ← length] at chained
        exact chained
      · rw [List.map_cons, List.flatten_cons, flat, next, content, ← List.drop_drop]
        exact List.take_append_drop _ _
    · have rest : partSize packet ipv4Header outIfaceMtu offset.toNat =
          packet.length - offset.toNat := if_neg more
      refine ⟨[piece], fun fuel enough => ?_, ?_, ?_, ?_⟩
      · obtain ⟨fuel, rfl⟩ : ∃ n, fuel = n + 1 := ⟨fuel - 1, by omega⟩
        rw [once, if_neg more]
      · exact List.forall_mem_singleton.mpr ⟨of, by omega⟩
      · exact ⟨begins, trivial⟩
      · rw [List.map_singleton, List.flatten_singleton, content, rest, ← List.length_drop,
          List.take_length]

theorem doFragmentation_cuts (sendable : Sendable (packet, ipv4Header))
    (atLeast : 28 ≤ outIfaceMtu.toNat) :
    ∃ fragments, (∀ fuel, packet.length ≤ fuel →
        doFragmentation fuel packet ipv4Header outIfaceMtu = some fragments) ∧
      Cuts (packet, ipv4Header) fragments ∧
      ∀ fragment ∈ fragments, fragment.1.length + 20 ≤ outIfaceMtu.toNat := by
  have nonempty : 0 < packet.length := List.length_pos_iff.mpr sendable.nonempty
  obtain ⟨fragments, ended, pieces, chained, flat⟩ :=
    doFragmentationFrom_cuts sendable atLeast packet.length 0 nonempty rfl rfl
  exact ⟨fragments, ended, ⟨fun fragment mem => (pieces fragment mem).1, chained, flat⟩,
    fun fragment mem => (pieces fragment mem).2⟩

/-- On a link with room for the header and fewer than eight bytes the loop never ends. -/
theorem doFragmentation_endless (headerSize : ipv4Header.headerSize = 20)
    (nonempty : packet ≠ []) (short : packet.length < 65536) (atLeast : 20 ≤ outIfaceMtu.toNat)
    (below : outIfaceMtu.toNat < 28) (fuel : Nat) :
    doFragmentation fuel packet ipv4Header outIfaceMtu = none := by
  have none_fits : fragmentSize ipv4Header outIfaceMtu = 0 := by
    rw [← UInt32.toNat_inj, fragmentSize_toNat headerSize atLeast]
    show _ = 0
    omega
  have more : (0 : UInt16).toUInt32 + 0 < UInt32.ofNat packet.length := by
    rw [UInt32.lt_iff_toNat_lt,
      UInt32.toNat_ofNat_of_lt' (show packet.length < 4294967296 by omega)]
    exact List.length_pos_iff.mpr nonempty
  unfold doFragmentation
  induction fuel with
  | zero => rfl
  | succ fuel ih =>
    rw [doFragmentationFrom]
    dsimp only
    rw [none_fits, decide_eq_true more]
    split
    · rfl
    · simp only [if_true]
      rw [show (0 : UInt16) + (0 : UInt32).toUInt16 = 0 from rfl, ih]
      rfl

/- Links one after another -/

/-- A datagram that is sent over links with these MTUs, none of its fragments lost. -/
def sendAlong (fuel : Nat) : List UInt16 → List Ipv4PayloadHeaderPair →
    Option (List Ipv4PayloadHeaderPair)
  | [], datagrams => some datagrams
  | mtu :: mtus, datagrams =>
      match datagrams.mapM (sendRealOut fuel mtu) with
      | none => none
      | some sent => sendAlong fuel mtus sent.flatten

theorem Ipv4PayloadHeaderPair.chained_append {front back : List Ipv4PayloadHeaderPair}
    {place : Nat} (first : Chained place front)
    (second : Chained (place + (front.map (·.1)).flatten.length) back) :
    Chained place (front ++ back) := by
  induction front generalizing place with
  | nil => exact second
  | cons piece front ih =>
    obtain ⟨begins, first⟩ := first
    refine ⟨begins, ih first ?_⟩
    rw [List.map_cons, List.flatten_cons, List.length_append, ← Nat.add_assoc, ← begins] at second
    exact second

/-- Pieces that are cut once more. -/
theorem Ipv4PayloadHeaderPair.Cuts.trans {original : Ipv4PayloadHeaderPair}
    {pieces : List Ipv4PayloadHeaderPair} (cuts : Cuts original pieces)
    {cut : Ipv4PayloadHeaderPair → List Ipv4PayloadHeaderPair}
    (again : ∀ piece ∈ pieces, Cuts piece (cut piece)) : Cuts original (pieces.flatMap cut) where
  each fragment mem := by
    obtain ⟨piece, piece_mem, mem⟩ := List.mem_flatMap.mp mem
    exact ((again piece piece_mem).each fragment mem).trans (cuts.each piece piece_mem)
  chained := by
    have chained := cuts.chained
    clear cuts
    generalize start original = place at chained
    induction pieces generalizing place with
    | nil => trivial
    | cons piece pieces ih =>
      rw [List.forall_mem_cons] at again
      obtain ⟨rfl, chained⟩ := chained
      refine chained_append again.1.chained ?_
      rw [again.1.whole]
      exact ih again.2 _ chained
  whole := by
    rw [← cuts.whole]
    clear cuts
    induction pieces with
    | nil => rfl
    | cons piece pieces ih =>
      rw [List.forall_mem_cons] at again
      rw [List.flatMap_cons, List.map_append, List.flatten_append, again.1.whole, ih again.2]
      rfl

theorem Ipv4PayloadHeaderPair.Cuts.self {original : Ipv4PayloadHeaderPair}
    (sendable : Sendable original) : Cuts original [original] where
  each := List.forall_mem_singleton.mpr (.self sendable)
  chained := ⟨rfl, trivial⟩
  whole := List.append_nil _

theorem sendRealOut_cuts {datagram : Ipv4PayloadHeaderPair} (sendable : Sendable datagram)
    {mtu : UInt16} (atLeast : 28 ≤ mtu.toNat) :
    ∃ fragments, (∀ fuel, datagram.1.length ≤ fuel →
        sendRealOut fuel mtu datagram = some fragments) ∧
      Cuts datagram fragments ∧ ∀ fragment ∈ fragments, fragment.1.length + 20 ≤ mtu.toNat := by
  have headerSize := sendable.headerSize
  unfold sendRealOut
  by_cases long : mtu.toNat < datagram.1.length + datagram.2.headerSize
  · simp only [if_pos long]
    exact doFragmentation_cuts sendable atLeast
  · simp only [if_neg long]
    exact ⟨[datagram], fun _ _ => rfl, .self sendable, List.forall_mem_singleton.mpr (by omega)⟩

theorem Ipv4PayloadHeaderPair.PieceOf.length_le {original piece : Ipv4PayloadHeaderPair}
    (of : PieceOf original piece) : piece.1.length ≤ original.1.length := by
  have bound := of.part.stop_le
  unfold span Span.stop at bound
  dsimp only at bound
  omega

/-- What is left of a datagram behind links that all have room for a header and eight bytes:
pieces of it that fit each of the links and are together all of it. -/
theorem sendAlong_cuts {datagram : Ipv4PayloadHeaderPair} (sendable : Sendable datagram)
    (mtus : List UInt16) (atLeast : ∀ mtu ∈ mtus, 28 ≤ mtu.toNat) :
    ∃ pieces, (∀ fuel, datagram.1.length ≤ fuel →
        sendAlong fuel mtus [datagram] = some pieces) ∧
      Cuts datagram pieces ∧
      ∀ piece ∈ pieces, ∀ mtu ∈ mtus, piece.1.length + 20 ≤ mtu.toNat := by
  suffices from_pieces : ∀ (mtus passed : List UInt16) (sent : List Ipv4PayloadHeaderPair),
      (∀ mtu ∈ mtus, 28 ≤ mtu.toNat) → Cuts datagram sent →
      (∀ piece ∈ sent, ∀ mtu ∈ passed, piece.1.length + 20 ≤ mtu.toNat) →
      ∃ pieces, (∀ fuel, datagram.1.length ≤ fuel → sendAlong fuel mtus sent = some pieces) ∧
        Cuts datagram pieces ∧
        ∀ piece ∈ pieces, ∀ mtu ∈ passed ++ mtus, piece.1.length + 20 ≤ mtu.toNat from
    from_pieces mtus [] [datagram] atLeast (.self sendable) fun _ _ _ => nofun
  intro mtus
  induction mtus with
  | nil =>
    intro passed sent _ cuts fits
    exact ⟨sent, fun _ _ => rfl, cuts, by rwa [List.append_nil]⟩
  | cons mtu mtus ih =>
    intro passed sent atLeast cuts fits
    rw [List.forall_mem_cons] at atLeast
    let cut (piece : Ipv4PayloadHeaderPair) := (sendRealOut piece.1.length mtu piece).getD []
    have once : ∀ piece ∈ sent, (∀ fuel, datagram.1.length ≤ fuel →
        sendRealOut fuel mtu piece = some (cut piece)) ∧ Cuts piece (cut piece) ∧
        ∀ fragment ∈ cut piece, fragment.1.length + 20 ≤ mtu.toNat := by
      intro piece mem
      obtain ⟨fragments, ended, again, small⟩ :=
        sendRealOut_cuts ((cuts.each piece mem).sendable sendable) atLeast.1
      have same : cut piece = fragments := by
        show (sendRealOut piece.1.length mtu piece).getD [] = fragments
        rw [ended _ (Nat.le_refl _), Option.getD_some]
      rw [same]
      exact ⟨fun fuel enough => ended fuel ((cuts.each piece mem).length_le.trans enough), again,
        small⟩
    have smaller : ∀ fragment ∈ sent.flatMap cut, ∀ other ∈ passed ++ [mtu],
        fragment.1.length + 20 ≤ other.toNat := by
      intro fragment mem
      obtain ⟨piece, piece_mem, mem⟩ := List.mem_flatMap.mp mem
      have shorter := ((once piece piece_mem).2.1.each fragment mem).length_le
      rw [List.forall_mem_append, List.forall_mem_singleton]
      refine ⟨fun other other_mem => ?_, (once piece piece_mem).2.2 fragment mem⟩
      have fit := fits piece piece_mem other other_mem
      omega
    obtain ⟨pieces, ended, whole, small⟩ := ih (passed ++ [mtu]) (sent.flatMap cut) atLeast.2
      (cuts.trans fun piece mem => (once piece mem).2.1) smaller
    refine ⟨pieces, fun fuel enough => ?_, whole, ?_⟩
    · rw [sendAlong, mapM_eq_map fun piece mem => (once piece mem).1 fuel enough]
      exact ended fuel enough
    · rwa [List.append_assoc] at small

end QbbNet
