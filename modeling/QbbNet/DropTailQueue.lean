import QbbNet.PacketHeaders
import Mathlib.Algebra.Order.BigOperators.Group.List
import Mathlib.Algebra.Order.Ring.Nat

set_option autoImplicit false

namespace QbbNet

inductive QueueSizeUnit
  | packets
  | bytes
  deriving DecidableEq

structure QueueSize where
  unit : QueueSizeUnit
  value : Nat
  deriving DecidableEq

/-- What a queue content counts for in a unit. The counters of the source are
32-bit; contents of 2^32 packets or bytes are outside this model. -/
def QueueSizeUnit.measure : QueueSizeUnit → List Packet → Nat
  | .packets, content => content.length
  | .bytes, content => (content.map Packet.getSize).sum

namespace QueueSizeUnit

@[simp] theorem measure_nil (unit : QueueSizeUnit) : unit.measure [] = 0 := by
  cases unit <;> rfl

@[simp] theorem measure_append (unit : QueueSizeUnit) (front back : List Packet) :
    unit.measure (front ++ back) = unit.measure front + unit.measure back := by
  cases unit <;> simp [measure]

theorem measure_cons (unit : QueueSizeUnit) (p : Packet) (content : List Packet) :
    unit.measure (p :: content) = unit.measure [p] + unit.measure content :=
  unit.measure_append [p] content

/-- What is left of a content after taking packets out counts for no more. -/
theorem measure_sublist (unit : QueueSizeUnit) {part whole : List Packet}
    (sub : part.Sublist whole) : unit.measure part ≤ unit.measure whole := by
  cases unit with
  | packets => exact sub.length_le
  | bytes => exact (sub.map Packet.getSize).sum_le_sum (fun _ _ => Nat.zero_le _)

/-- A frame counts in either unit. -/
theorem measure_pos (unit : QueueSizeUnit) {p : Packet} (framed : 0 < p.getSize) :
    0 < unit.measure [p] := by
  cases unit with
  | packets => exact Nat.one_pos
  | bytes => exact framed

end QueueSizeUnit

/-- A queue never holds more than its maximum size. -/
structure DropTailQueue where
  maxSize : QueueSize
  packets : List Packet
  fits : maxSize.unit.measure packets ≤ maxSize.value

namespace DropTailQueue

def empty (maxSize : QueueSize) : DropTailQueue where
  maxSize := maxSize
  packets := []
  fits := by simp

def getCurrentSize (q : DropTailQueue) : Nat := q.maxSize.unit.measure q.packets

def hasRoom (q : DropTailQueue) (p : Packet) : Bool :=
  decide (q.getCurrentSize + q.maxSize.unit.measure [p] ≤ q.maxSize.value)

/-- Queue::DoEnqueue at the end; `none` when the packet is dropped. -/
def enqueue (q : DropTailQueue) (p : Packet) : Option DropTailQueue :=
  if room : q.hasRoom p then
    some { q with
      packets := q.packets ++ [p]
      fits := by
        have fits := of_decide_eq_true room
        simpa only [getCurrentSize, QueueSizeUnit.measure_append] using fits }
  else none

def dequeue (q : DropTailQueue) : Option (Packet × DropTailQueue) :=
  match content : q.packets with
  | [] => none
  | p :: rest =>
      some (p, { q with
        packets := rest
        fits := Nat.le_trans (q.maxSize.unit.measure_sublist (List.sublist_cons_self p rest))
          (content ▸ q.fits) })

theorem ext {a b : DropTailQueue} (maxSize : a.maxSize = b.maxSize)
    (packets : a.packets = b.packets) : a = b := by
  cases a
  cases b
  cases maxSize
  cases packets
  rfl

theorem enqueue_eq_some {q after : DropTailQueue} {p : Packet} :
    q.enqueue p = some after ↔
      q.hasRoom p = true ∧ after.maxSize = q.maxSize ∧ after.packets = q.packets ++ [p] := by
  unfold enqueue
  split
  · rename_i room
    simp only [Option.some.injEq, room, true_and]
    constructor
    · rintro rfl
      exact ⟨rfl, rfl⟩
    · rintro ⟨maxSize, packets⟩
      exact ext maxSize.symm packets.symm
  · rename_i full
    simp [full]

theorem enqueue_eq_none {q : DropTailQueue} {p : Packet} :
    q.enqueue p = none ↔ q.hasRoom p = false := by
  unfold enqueue
  split <;> simp_all

/-- The first of several packets that fit together finds room. -/
theorem enqueue_front (q : DropTailQueue) {p : Packet} {rest : List Packet}
    (room : q.maxSize.unit.measure (q.packets ++ p :: rest) ≤ q.maxSize.value) :
    ∃ after, q.enqueue p = some after ∧ after.maxSize = q.maxSize ∧
      after.packets = q.packets ++ [p] := by
  have first : q.hasRoom p = true := by
    rw [QueueSizeUnit.measure_append, QueueSizeUnit.measure_cons] at room
    refine decide_eq_true ?_
    rw [getCurrentSize]
    omega
  cases queued : q.enqueue p with
  | none => simp [enqueue_eq_none.mp queued] at first
  | some after => exact ⟨after, rfl, (enqueue_eq_some.mp queued).2⟩

theorem dequeue_eq_some {q after : DropTailQueue} {p : Packet} :
    q.dequeue = some (p, after) ↔
      q.packets = p :: after.packets ∧ after.maxSize = q.maxSize := by
  unfold dequeue
  split
  · rename_i content
    simp [content]
  · rename_i head rest content
    simp only [Option.some.injEq, Prod.mk.injEq, content, List.cons.injEq]
    constructor
    · rintro ⟨rfl, rfl⟩
      exact ⟨⟨rfl, rfl⟩, rfl⟩
    · rintro ⟨⟨rfl, packets⟩, maxSize⟩
      exact ⟨rfl, ext maxSize.symm packets⟩

theorem dequeue_eq_none {q : DropTailQueue} : q.dequeue = none ↔ q.packets = [] := by
  unfold dequeue
  split
  · rename_i content
    simp [content]
  · rename_i content
    simp [content]

end DropTailQueue

end QbbNet
