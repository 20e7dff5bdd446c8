import QbbNet.PacketHeaders

set_option autoImplicit false

/- The hash of a flow: FNV-1a over the five-tuple and a salt of the node, and its
reduction to 32 bits. -/
namespace QbbNet

def fnv64Offset : UInt64 := 1469598103934665603
def fnv64Prime : UInt64 := 1099511628211

def fnv64MixByte (h : UInt64) (b : UInt8) : UInt64 := (h ^^^ b.toUInt64) * fnv64Prime

def fnv64Mix16 (h : UInt64) (v : UInt16) : UInt64 :=
  fnv64MixByte (fnv64MixByte h v.toUInt8) (v >>> 8).toUInt8

def fnv64Mix32 (h : UInt64) (v : UInt32) : UInt64 :=
  let h := fnv64MixByte (fnv64MixByte h v.toUInt8) (v >>> 8).toUInt8
  fnv64MixByte (fnv64MixByte h (v >>> 16).toUInt8) (v >>> 24).toUInt8

def fnv64Mix64 (h v : UInt64) : UInt64 :=
  let h := fnv64MixByte (fnv64MixByte h v.toUInt8) (v >>> 8).toUInt8
  let h := fnv64MixByte (fnv64MixByte h (v >>> 16).toUInt8) (v >>> 24).toUInt8
  let h := fnv64MixByte (fnv64MixByte h (v >>> 32).toUInt8) (v >>> 40).toUInt8
  fnv64MixByte (fnv64MixByte h (v >>> 48).toUInt8) (v >>> 56).toUInt8

def avalanche64To32 (x : UInt64) : UInt32 :=
  let x := x ^^^ (x >>> 33)
  let x := x * 0xff51afd7ed558ccd
  let x := x ^^^ (x >>> 33)
  let x := x * 0xc4ceb9fe1a85ec53
  let x := x ^^^ (x >>> 33)
  (x ^^^ (x >>> 32)).toUInt32

abbrev goldenRatio64 : UInt64 := 0x9e3779b97f4a7c15

structure Ipv4InterfaceAddress where
  localAddress : UInt32
  mask : UInt32
  broadcast : UInt32
  deriving DecidableEq

/-- `nodeId` and the addresses of each interface in turn. -/
def getNodeHeavySalt (nodeId : UInt32) (interfaces : List (List Ipv4InterfaceAddress)) : UInt64 :=
  let h := fnv64Mix32 (fnv64Mix32 fnv64Offset nodeId) (UInt32.ofNat interfaces.length)
  let h := interfaces.foldl (fun h addresses =>
    addresses.foldl (fun h ifa =>
      fnv64Mix32 (fnv64Mix32 (fnv64Mix32 h ifa.localAddress) ifa.mask) ifa.broadcast)
      (fnv64Mix32 h (UInt32.ofNat addresses.length))) h
  let h := fnv64Mix32 h (nodeId ^^^ 0x85ebca6b)
  if h = 0 then goldenRatio64 else h

/-- The five words that tell a flow from others. -/
structure FlowKey where
  source : UInt32
  destination : UInt32
  sourcePort : UInt16
  destinationPort : UInt16
  protocol : UInt8
  deriving DecidableEq

def FlowKey.hash (key : FlowKey) (nodeSalt : UInt64) : UInt32 :=
  let h64 := fnv64Mix32 (fnv64Mix32 fnv64Offset key.source) key.destination
  let h64 := fnv64MixByte (fnv64Mix16 (fnv64Mix16 h64 key.sourcePort) key.destinationPort) key.protocol
  avalanche64To32 (fnv64Mix64 (fnv64Mix64 h64 goldenRatio64) nodeSalt)

/-- The IPv4 header as far as a packet is routed by it. -/
structure IpHeader extends Ipv4Header where
  headerSize : Nat
  payloadSize : UInt16
  protocol : UInt8
  source : UInt32
  destination : UInt32
  deriving DecidableEq

def readNtohU32 (b0 b1 b2 b3 : UInt8) : UInt32 :=
  UInt32.ofNat (b0.toNat * 16777216 + b1.toNat * 65536 + b2.toNat * 256 + b3.toNat)

namespace IpHeader

def deserialize (bytes : List UInt8) : Option IpHeader :=
  let byte (i : Nat) : UInt8 := bytes.getD i 0
  let headerSize := (byte 0).toNat % 16 * 4
  if 20 ≤ bytes.length ∧ (byte 0).toNat / 16 = 4 ∧ (byte 0).toNat % 16 ≠ 0 then
    some {
      tos := byte 1
      headerSize := headerSize
      payloadSize := readNtohU16 (byte 2) (byte 3) - UInt16.ofNat headerSize
      protocol := byte 9
      source := readNtohU32 (byte 12) (byte 13) (byte 14) (byte 15)
      destination := readNtohU32 (byte 16) (byte 17) (byte 18) (byte 19) }
  else none

end IpHeader

/-- Buffer::Iterator::ReadU16, which does not swap the bytes. -/
def readU16 (low high : UInt8) : Nat := low.toNat + high.toNat * 256

/-- `while (sum >> 16) sum = (sum & 0xffff) + (sum >> 16);` -/
def foldCarries (sum : Nat) : Nat :=
  if _carry : sum / 65536 = 0 then sum else foldCarries (sum % 65536 + sum / 65536)
termination_by sum
decreasing_by omega

def sumU16 : List UInt8 → Nat
  | low :: high :: rest => readU16 low high + sumU16 rest
  | [last] => last.toNat
  | [] => 0

def calculateIpChecksum (bytes : List UInt8) : Nat := 65535 - foldCarries (sumU16 bytes)

end QbbNet
