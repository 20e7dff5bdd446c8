import Mathlib.Data.List.Basic
import Mathlib.Tactic.Common
import Mathlib.Data.Fintype.Basic
import Mathlib.Tactic.FinCases
import Mathlib.Algebra.GroupWithZero.Nat

set_option autoImplicit false

namespace QbbNet

/-- Where a packet object comes from. No handler reads it: it tells packets of
equal bytes apart, as the packet's uid does. -/
inductive Origin
  | control
  | host (uid : Nat)
  | transit (uid : Nat)
  deriving DecidableEq

structure Packet where
  origin : Origin
  bytes : List UInt8
  deriving DecidableEq

def Packet.getSize (p : Packet) : Nat := p.bytes.length

def writeHtonU16 (data : UInt16) : List UInt8 :=
  [UInt8.ofNat (data.toNat / 256), data.toUInt8]

def readNtohU16 (high low : UInt8) : UInt16 := UInt16.ofNat (high.toNat * 256 + low.toNat)

@[simp] theorem readNtohU16_writeHtonU16 (data : UInt16) :
    readNtohU16 (UInt8.ofNat (data.toNat / 256)) data.toUInt8 = data := by
  have bound : data.toNat < 65536 := data.toNat_lt
  apply UInt16.toNat_inj.mp
  simp only [readNtohU16, UInt16.toNat_ofNat', UInt8.toNat_ofNat', UInt16.toNat_toUInt8]
  omega

/-- The bits that a mask of a prefix keeps. -/
theorem and_mask {x mask : UInt32} {n : Nat} (short : n ≤ 32)
    (mask_eq : mask.toNat = 2 ^ 32 - 2 ^ n) :
    (x &&& mask).toNat = x.toNat / 2 ^ n * 2 ^ n := by
  have ones : 2 ^ 32 - 2 ^ n = (2 ^ (32 - n) - 1) * 2 ^ n := by
    rw [Nat.sub_mul, ← Nat.pow_add, Nat.sub_add_cancel short, Nat.one_mul]
  rw [UInt32.toNat_and, mask_eq, ones]
  apply Nat.eq_of_testBit_eq
  intro i
  rw [Nat.testBit_and, Nat.testBit_mul_two_pow, Nat.testBit_mul_two_pow,
    Nat.testBit_two_pow_sub_one, Nat.testBit_div_two_pow]
  by_cases low : i < n
  · simp [Nat.not_le.mpr low]
  · have back : i - n + n = i := by omega
    rw [back]
    by_cases high : i < 32
    · have inside : i - n < 32 - n := by omega
      simp [Nat.not_lt.mp low, inside]
    · have zero : x.toNat.testBit i = false := Nat.testBit_lt_two_pow
        (Nat.lt_of_lt_of_le x.toNat_lt (Nat.pow_le_pow_right (by decide) (Nat.not_lt.mp high)))
      simp [zero]

/- A header is peeked as an option: reading past the end of the packet is an
assertion failure in the source and `none` here. -/

namespace PppHeader

def serialize (protocol : UInt16) : List UInt8 := writeHtonU16 protocol

def deserialize : List UInt8 → Option UInt16
  | high :: low :: _ => some (readNtohU16 high low)
  | _ => none

@[simp] theorem deserialize_serialize (protocol : UInt16) (rest : List UInt8) :
    deserialize (serialize protocol ++ rest) = some protocol := by
  simp [serialize, writeHtonU16, deserialize]

@[simp] theorem serialize_length (protocol : UInt16) : (serialize protocol).length = 2 := rfl

end PppHeader

def Packet.peekPpp (p : Packet) : Option UInt16 := PppHeader.deserialize p.bytes

def Packet.removePpp (p : Packet) : Packet := { p with bytes := p.bytes.drop 2 }

def Packet.addPpp (p : Packet) (protocol : UInt16) : Packet :=
  { p with bytes := PppHeader.serialize protocol ++ p.bytes }

@[simp] theorem Packet.peekPpp_addPpp (p : Packet) (protocol : UInt16) :
    (p.addPpp protocol).peekPpp = some protocol :=
  PppHeader.deserialize_serialize protocol p.bytes

@[simp] theorem Packet.removePpp_addPpp (p : Packet) (protocol : UInt16) :
    (p.addPpp protocol).removePpp = p := rfl

@[simp] theorem Packet.addPpp_origin (p : Packet) (protocol : UInt16) :
    (p.addPpp protocol).origin = p.origin := rfl

theorem Packet.addPpp_size (p : Packet) (protocol : UInt16) :
    (p.addPpp protocol).getSize = p.getSize + 2 := by
  simp only [getSize, addPpp, List.length_append, PppHeader.serialize_length]
  omega

/-- The field of the IPv4 header that gives a packet its class. -/
structure Ipv4Header where
  tos : UInt8
  deriving DecidableEq

namespace Ipv4Header

/-- A version other than 4 is refused, and so is a header length of zero, which
`PeekHeader` reports as a header of no bytes. -/
def deserialize : List UInt8 → Option Ipv4Header
  | verIhl :: tos :: rest =>
      if verIhl.toNat / 16 = 4 ∧ verIhl.toNat % 16 ≠ 0 ∧ 18 ≤ rest.length then some ⟨tos⟩ else none
  | _ => none

theorem deserialize_of_version {high : UInt8} {rest : List UInt8} (other : high.toNat / 16 ≠ 4) :
    deserialize (high :: rest) = none := by
  cases rest <;> simp [deserialize, other]

end Ipv4Header

/-- The priority classes are named by literals. -/
instance neZero_eight : NeZero 8 := ⟨Nat.succ_ne_zero 7⟩

/-- QbbNetDevice::GetPrioFromPacket -/
def getPrioFromPacket (p : Packet) : Fin 8 :=
  let cp := if p.peekPpp = some 0x0021 then p.removePpp else p
  match Ipv4Header.deserialize cp.bytes with
  | some ip => Fin.ofNat 8 (ip.tos.toNat / 32)
  | none => 0

abbrev pfcPppProto : UInt16 := 0x9000
abbrev pfcOpcode : UInt16 := 0x0101

structure PfcHeader where
  opcode : UInt16 := pfcOpcode
  classEnable : UInt8 := 0
  reserved : UInt8 := 0
  quanta : Fin 8 → UInt16 := fun _ => 0

/-- The eight classes, in the order the source's loops visit them. -/
def classes : List (Fin 8) := [0, 1, 2, 3, 4, 5, 6, 7]

@[simp] theorem mem_classes (prio : Fin 8) : prio ∈ classes := by
  revert prio
  decide

theorem classes_nodup : classes.Nodup := by decide

namespace PfcHeader

def readQuanta : Nat → List UInt8 → Option (List UInt16)
  | 0, _ => some []
  | n + 1, high :: low :: rest => (readQuanta n rest).map (readNtohU16 high low :: ·)
  | _ + 1, _ => none

def serialize (ph : PfcHeader) : List UInt8 :=
  writeHtonU16 ph.opcode ++ [ph.classEnable, ph.reserved] ++
    classes.flatMap fun prio => writeHtonU16 (ph.quanta prio)

def deserialize : List UInt8 → Option PfcHeader
  | opcodeHigh :: opcodeLow :: mask :: reserved :: rest =>
      (readQuanta 8 rest).map fun quanta =>
        { opcode := readNtohU16 opcodeHigh opcodeLow
          classEnable := mask
          reserved := reserved
          quanta := fun prio => quanta.getD prio.val 0 }
  | _ => none

/-- The receiver's reading of `mask & (1u << pr)`. -/
def enables (ph : PfcHeader) (prio : Fin 8) : Bool := ph.classEnable.toNat.testBit prio.val

theorem readQuanta_flatMap (values : List UInt16) (rest : List UInt8) :
    readQuanta values.length (values.flatMap writeHtonU16 ++ rest) = some values := by
  induction values with
  | nil => rfl
  | cons value values ih =>
    have tail : readQuanta values.length (values.flatMap writeHtonU16 ++ rest) = some values := ih
    simp [writeHtonU16, readQuanta, tail, List.flatMap_cons]

theorem getD_map_classes (quanta : Fin 8 → UInt16) (prio : Fin 8) :
    (classes.map quanta).getD prio.val 0 = quanta prio := by
  fin_cases prio <;> rfl

/-- The 20 bytes a header is written to are read back as the same header. -/
theorem deserialize_serialize (ph : PfcHeader) (rest : List UInt8) :
    deserialize (ph.serialize ++ rest) = some ph := by
  have read : readQuanta 8 ((classes.flatMap fun prio => writeHtonU16 (ph.quanta prio)) ++ rest) =
      some (classes.map ph.quanta) := by
    have values := readQuanta_flatMap (classes.map ph.quanta) rest
    rwa [List.flatMap_map] at values
  rw [serialize, writeHtonU16]
  simp only [List.cons_append, List.nil_append, deserialize, read, Option.map_some,
    readNtohU16_writeHtonU16, getD_map_classes]

theorem serialize_length (ph : PfcHeader) : ph.serialize.length = 20 := rfl

end PfcHeader

end QbbNet
