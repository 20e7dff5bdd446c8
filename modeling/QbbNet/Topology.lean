import QbbNet.Network
import Mathlib.Data.Fin.VecNotation
import QbbNet.SenderRefinement

set_option autoImplicit false

/- Networks and packets that runs can be computed on. -/
namespace QbbNet

/-- The default attribute values of the source. -/
def Attributes.default (dataRate : Nat) : Attributes where
  pfcEnable := true
  pfcHighPkts := 8
  pfcLowPkts := 4
  defaultQuanta := 65535
  avgPktSize := 1500
  dataRate := dataRate
  interframeGap := 0
  maxSize := ⟨.packets, 100⟩

/- The devices of the networks below are named by literals. -/
instance neZero_one : NeZero 1 := ⟨Nat.succ_ne_zero 0⟩
instance neZero_two : NeZero 2 := ⟨Nat.succ_ne_zero 1⟩
instance neZero_four : NeZero 4 := ⟨Nat.succ_ne_zero 3⟩

namespace Config

/-- One node, whose devices receive from outside. -/
def switch (n : Nat) (attr : Fin n → Attributes) : Config (Fin n) Unit where
  attr := attr
  node _ := ()
  ifIndex i := i
  devices _ := List.finRange n
  peer _ := none
  delay _ := 0
  mem_devices := by simp
  ifIndex_injective := fun _ _ _ same => Fin.ext same
  peer_symm := by simp
  peer_ne := by simp

/-- Two nodes with one device each, joined by a channel. -/
def link (attr : Fin 2 → Attributes) (delay : Time) : Config (Fin 2) (Fin 2) where
  attr := attr
  node i := i
  ifIndex _ := 0
  devices i := [i]
  peer i := some (1 - i)
  delay _ := delay
  mem_devices := by simp
  ifIndex_injective := fun _ _ same _ => same
  peer_symm := by decide
  peer_ne := by decide

end Config

/-- An IPv4 header without options and nothing behind it. -/
def Datagram.ipv4 (origin : Origin) (tos : UInt8) : Datagram where
  packet := ⟨origin, 0x45 :: tos :: List.replicate 18 0⟩
  protocol := 0x0800
  valid := Or.inl ⟨rfl, ⟨0x45, rfl, by decide⟩, by simp⟩

/-- A node that keeps every packet for itself and sends nothing in answer. -/
def Upcall.sink {ι : Type} : Upcall ι where
  corrupt := false
  egressPort _ := kInvalidPortId
  sends := []

theorem exists_of_any {α : Type} {P : α → Prop} [DecidablePred P] {result : Option α}
    (satisfied : result.any (fun s => decide (P s)) = true) : ∃ s, result = some s ∧ P s := by
  simpa only [Option.any_eq_true, decide_eq_true_eq] using satisfied

/-- Every link up, and no Internet stack yet. -/
def Net.started {ι ν : Type} (cfg : Config ι ν) : Net ι ν :=
  .init cfg (fun _ => true) fun _ => false

theorem Net.started_initial {ι ν : Type} (cfg : Config ι ν) : Net.Initial cfg (.started cfg) :=
  ⟨_, _, rfl⟩

/-- One device with a MAC queue of two packets. -/
def shortQueue : Config (Fin 1) Unit :=
  .switch 1 fun _ => { Attributes.default 100000000 with maxSize := ⟨.packets, 2⟩ }

def sendClass (uid : Nat) (tos : UInt8) : Action (Fin 1) Unit := .send 0 (.ipv4 (.host uid) tos)

def receivePfc (quanta : UInt16) : Action (Fin 1) Unit := .deliver 0 (pfcFrame 0 quanta) false

def receiveData {n : Nat} (i : Fin n) (uid : Nat) (tos : UInt8) : Action (Fin n) Unit :=
  .deliver i (Datagram.ipv4 (.transit uid) tos).frame false

/-- One device that is congested by the first packet, with a MAC queue of one packet. -/
def tightQueue : Config (Fin 1) Unit :=
  .switch 1 fun _ => { Attributes.default 100000000 with
    maxSize := ⟨.packets, 1⟩
    pfcHighPkts := 1
    pfcLowPkts := 0 }

/-- A host with device 0 on a channel to a switch with device 1, whose devices 2
and 3 receive from outside. -/
def hostAndSwitch (attr : Fin 4 → Attributes) : Config (Fin 4) (Fin 2) where
  attr := attr
  node := ![0, 1, 1, 1]
  ifIndex := ![0, 2, 1, 3]
  devices := ![[0], [1, 2, 3]]
  peer := ![some 1, some 0, none, none]
  delay _ := 0
  mem_devices := by decide
  ifIndex_injective := by decide
  peer_symm := by decide
  peer_ne := by decide

/-- Packets in transit leave through one port, and the others are for the node itself. -/
def Upcall.through {ι : Type} (port : Nat) : Upcall ι where
  corrupt := false
  egressPort p :=
    match p.origin with
    | .transit _ => port
    | _ => kInvalidPortId
  sends := []

/-- Device 1 is congested by the first packet and asks for a pause of one quantum. -/
def stalledSwitch : Config (Fin 4) (Fin 2) :=
  let attr := { Attributes.default 100000000 with pfcHighPkts := 1, pfcLowPkts := 0, defaultQuanta := 1 }
  hostAndSwitch ![attr, attr, { attr with pfcEnable := false }, attr]

/-- Device 2 gets a token of port 3 and keeps its place in the rounds of that port;
then a packet from device 0 waits at device 1 for a token. -/
def stalledRun (events : Nat) : List (Action (Fin 4) (Fin 2)) :=
  [.deliver 2 (Datagram.ipv4 (.transit 0) 0x00).frame false,
    .deliver 2 (Datagram.ipv4 (.host 1) 0x00).frame false,
    .event (.through 3), .event (.through 3), .event (.through 3),
    .send 0 (.ipv4 (.transit 2) 0x00)] ++ List.replicate events (.event (.through 3))

end QbbNet
