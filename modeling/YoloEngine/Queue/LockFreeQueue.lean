import YoloEngine.Foundation.Ring

/-! The drop-oldest ring of `LockFreeQueue<T>` and its operations called one after
another. The class keeps one slot free, so `max_size` slots hold `max_size - 1` items.
`memory_order` arguments have no counterpart: every access here is sequentially consistent. -/
namespace YoloEngine

/-- A `T` object living in a slot: never assigned, assigned, or moved out of. The remains
of a moved-from value keep its name, so that a read can be traced back to a write. -/
inductive Cell (α : Type) where
  | unwritten
  | item (value : α)
  | movedFrom (value : α)
  deriving Repr, DecidableEq

def Cell.moved {α : Type} : Cell α → Cell α
  | .unwritten => .unwritten
  | .item value => .movedFrom value
  | .movedFrom value => .movedFrom value

structure LockFreeQueue (α : Type) where
  buffer : List (Cell α)
  head : Nat
  tail : Nat
  bufferCapacity : Nat
  deriving Repr, DecidableEq

inductive Overload where
  | copy
  | move
  deriving Repr, DecidableEq

def Overload.left {α : Type} : Overload → α → Cell α
  | .copy, item => .item item
  | .move, item => .movedFrom item

namespace LockFreeQueue
variable {α : Type}

def new (maxSize : Nat) : LockFreeQueue α := ⟨List.replicate maxSize .unwritten,0,0,maxSize⟩

def slot (queue : LockFreeQueue α) (index : Nat) : Cell α := queue.buffer.getD index .unwritten

def assign (queue : LockFreeQueue α) (index : Nat) (cell : Cell α) : LockFreeQueue α :=
  { queue with buffer := queue.buffer.set index cell }

/-- The body both overloads share: the new queue, what is left in the argument, the answer. -/
def enqueueWith (how : Overload) (queue : LockFreeQueue α) (item : α) :
    LockFreeQueue α × Cell α × Bool :=
  let currentTail := queue.tail
  let nextTail := (currentTail + 1) % queue.bufferCapacity
  let queue :=
    -- full: the oldest item is dropped
    if nextTail = queue.head then
      let newHead := (queue.head + 1) % queue.bufferCapacity
      { queue with head := newHead }
    else queue
  let queue := queue.assign currentTail (.item item)
  let queue := { queue with tail := nextTail }
  (queue,how.left item,true)

def enqueueCopy (queue : LockFreeQueue α) (item : α) : LockFreeQueue α × Cell α × Bool :=
  enqueueWith .copy queue item

def enqueueMove (queue : LockFreeQueue α) (item : α) : LockFreeQueue α × Cell α × Bool :=
  enqueueWith .move queue item

def dequeue (queue : LockFreeQueue α) : LockFreeQueue α × Option (Cell α) :=
  let currentHead := queue.head
  if currentHead = queue.tail then (queue,none)
  else
    let item := queue.slot currentHead
    let queue := queue.assign currentHead item.moved
    ({ queue with head := (currentHead + 1) % queue.bufferCapacity },some item)

def isEmpty (queue : LockFreeQueue α) : Bool := queue.head == queue.tail

def sizeFrom (bufferCapacity h t : Nat) : Nat := if t ≥ h then t - h else bufferCapacity - h + t

def size (queue : LockFreeQueue α) : Nat := sizeFrom queue.bufferCapacity queue.head queue.tail

def capacity (queue : LockFreeQueue α) : Nat := queue.bufferCapacity - 1

def clear (queue : LockFreeQueue α) : LockFreeQueue α := { queue with head := 0, tail := 0 }

@[simp] theorem assign_head (queue : LockFreeQueue α) (index : Nat) (cell : Cell α) :
    (queue.assign index cell).head = queue.head := rfl

@[simp] theorem assign_tail (queue : LockFreeQueue α) (index : Nat) (cell : Cell α) :
    (queue.assign index cell).tail = queue.tail := rfl

@[simp] theorem assign_bufferCapacity (queue : LockFreeQueue α) (index : Nat) (cell : Cell α) :
    (queue.assign index cell).bufferCapacity = queue.bufferCapacity := rfl

@[simp] theorem assign_buffer_length (queue : LockFreeQueue α) (index : Nat) (cell : Cell α) :
    (queue.assign index cell).buffer.length = queue.buffer.length := by
  simp [assign]

theorem assign_slot_same (queue : LockFreeQueue α) (index : Nat) (cell : Cell α)
    (inside : index < queue.buffer.length) : (queue.assign index cell).slot index = cell := by
  simp [slot,assign,inside]

theorem assign_slot_other (queue : LockFreeQueue α) (index other : Nat) (cell : Cell α)
    (different : other ≠ index) : (queue.assign index cell).slot other = queue.slot other := by
  simp [slot,assign,Ne.symm different]

end LockFreeQueue
end YoloEngine
