import YoloEngine.Foundation.Machine
import YoloEngine.Queue.LockFreeQueue
import Mathlib.Logic.Function.Iterate

/-! One producer and one consumer on a shared `LockFreeQueue`, interleaved access by
access: every load or store of `head` or `tail`, every slot write and every slot
read-and-move is one step, and the steps of the two threads mix freely. -/
namespace YoloEngine
namespace LockFreeQueue
variable {α : Type}

/-- Where a thread stands inside `enqueue`; each point is named after the access that comes next. -/
inductive EnqueuePc (α : Type) where
  | idle
  | loadTail (how : Overload) (item : α)
  | loadHead (how : Overload) (item : α) (currentTail nextTail : Nat)
  | reloadHead (how : Overload) (item : α) (currentTail nextTail : Nat)
  | storeHead (how : Overload) (item : α) (currentTail nextTail newHead : Nat)
  | write (how : Overload) (item : α) (currentTail nextTail : Nat)
  | storeTail (left : Cell α) (nextTail : Nat)
  deriving Repr, DecidableEq

inductive DequeuePc (α : Type) where
  | idle
  | loadHead
  | loadTail (currentHead : Nat)
  | read (currentHead : Nat)
  | storeHead (currentHead : Nat) (item : Cell α)
  deriving Repr, DecidableEq

def enqueueStep (queue : LockFreeQueue α) : EnqueuePc α → LockFreeQueue α × EnqueuePc α
  | .idle => (queue,.idle)
  | .loadTail how item =>
    let currentTail := queue.tail
    let nextTail := (currentTail + 1) % queue.bufferCapacity
    (queue,.loadHead how item currentTail nextTail)
  | .loadHead how item currentTail nextTail =>
    if nextTail = queue.head then (queue,.reloadHead how item currentTail nextTail)
    else (queue,.write how item currentTail nextTail)
  | .reloadHead how item currentTail nextTail =>
    let newHead := (queue.head + 1) % queue.bufferCapacity
    (queue,.storeHead how item currentTail nextTail newHead)
  | .storeHead how item currentTail nextTail newHead =>
    ({ queue with head := newHead },.write how item currentTail nextTail)
  | .write how item currentTail nextTail =>
    (queue.assign currentTail (.item item),.storeTail (how.left item) nextTail)
  | .storeTail _ nextTail => ({ queue with tail := nextTail },.idle)

def dequeueStep (queue : LockFreeQueue α) : DequeuePc α → LockFreeQueue α × DequeuePc α
  | .idle => (queue,.idle)
  | .loadHead => (queue,.loadTail queue.head)
  | .loadTail currentHead =>
    if currentHead = queue.tail then (queue,.idle) else (queue,.read currentHead)
  | .read currentHead =>
    let item := queue.slot currentHead
    (queue.assign currentHead item.moved,.storeHead currentHead item)
  | .storeHead currentHead _ =>
    ({ queue with head := (currentHead + 1) % queue.bufferCapacity },.idle)

/-- With no other thread in between, the accesses of an enqueue are the sequential enqueue. -/
theorem enqueue_alone (queue : LockFreeQueue α) (how : Overload) (item : α) :
    (fun state => enqueueStep state.1 state.2)^[6] (queue,.loadTail how item) =
      ((enqueueWith how queue item).1,.idle) := by
  by_cases full : (queue.tail + 1) % queue.bufferCapacity = queue.head <;>
    simp [enqueueStep,enqueueWith,full]

theorem dequeue_alone (queue : LockFreeQueue α) :
    (fun state => dequeueStep state.1 state.2)^[4] (queue,.loadHead) = ((dequeue queue).1,.idle) := by
  by_cases empty : queue.head = queue.tail <;> simp [dequeueStep,dequeue,empty]

end LockFreeQueue

namespace Interleaving
open Foundation LockFreeQueue
variable {α : Type}

structure Tagged (α : Type) where
  tag : Nat
  value : α
  deriving Repr, DecidableEq

/-- The shared queue, where each thread stands, and what has happened: enqueues begun,
enqueues that took the full branch, items written to slots, completed enqueues, what the
read-and-move steps saw, and what finished dequeues returned. -/
structure State (α : Type) where
  queue : LockFreeQueue (Tagged α)
  producer : EnqueuePc (Tagged α)
  consumer : DequeuePc (Tagged α)
  started : Nat
  fulls : Nat
  written : List (Tagged α)
  enqueued : Nat
  read : List (Cell (Tagged α))
  returned : List (Cell (Tagged α))
  deriving Repr, DecidableEq

def State.new (maxSize : Nat) : State α := ⟨.new maxSize,.idle,.idle,0,0,[],0,[],[]⟩

inductive Action (α : Type) where
  | callEnqueue (how : Overload) (value : α)
  | producer
  | callDequeue
  | consumer
  deriving Repr, DecidableEq

def producerStep (state : State α) : State α :=
  let (queue,producer) := enqueueStep state.queue state.producer
  let state := match state.producer with
    | .loadHead _ _ _ nextTail =>
      if nextTail = state.queue.head then { state with fulls := state.fulls + 1 } else state
    | .write _ item _ _ => { state with written := state.written ++ [item] }
    | .storeTail _ _ => { state with enqueued := state.enqueued + 1 }
    | _ => state
  { state with queue := queue, producer := producer }

def consumerStep (state : State α) : State α :=
  let (queue,consumer) := dequeueStep state.queue state.consumer
  let state := match state.consumer with
    | .read currentHead => { state with read := state.read ++ [state.queue.slot currentHead] }
    | .storeHead _ item => { state with returned := state.returned ++ [item] }
    | _ => state
  { state with queue := queue, consumer := consumer }

def next (state : State α) : Action α → Option (State α)
  | .callEnqueue how value =>
    match state.producer with
    | .idle =>
      some { state with producer := .loadTail how ⟨state.started,value⟩, started := state.started + 1 }
    | _ => none
  | .producer =>
    match state.producer with
    | .idle => none
    | _ => some (producerStep state)
  | .callDequeue =>
    match state.consumer with
    | .idle => some { state with consumer := .loadHead }
    | _ => none
  | .consumer =>
    match state.consumer with
    | .idle => none
    | _ => some (consumerStep state)

theorem next_cases {state after : State α} {action : Action α}
    (taken : next state action = some after) :
    (∃ how value, action = .callEnqueue how value ∧ state.producer = .idle ∧
      after = { state with producer := .loadTail how ⟨state.started,value⟩, started := state.started + 1 }) ∨
    (action = .producer ∧ after = producerStep state) ∨
    (action = .callDequeue ∧ state.consumer = .idle ∧ after = { state with consumer := .loadHead }) ∨
    (action = .consumer ∧ after = consumerStep state) := by
  cases action with
  | callEnqueue how value =>
    simp only [next] at taken
    split at taken
    next idle => exact Or.inl ⟨how,value,rfl,idle,(Option.some.inj taken).symm⟩
    next => contradiction
  | producer =>
    simp only [next] at taken
    split at taken
    next => contradiction
    next => exact Or.inr (Or.inl ⟨rfl,(Option.some.inj taken).symm⟩)
  | callDequeue =>
    simp only [next] at taken
    split at taken
    next idle => exact Or.inr (Or.inr (Or.inl ⟨rfl,idle,(Option.some.inj taken).symm⟩))
    next => contradiction
  | consumer =>
    simp only [next] at taken
    split at taken
    next => contradiction
    next => exact Or.inr (Or.inr (Or.inr ⟨rfl,(Option.some.inj taken).symm⟩))

def spsc (maxSize : Nat) : Machine (State α) (Action α) := ⟨.new maxSize,next⟩

def storedHead (state : State α) : Action α → Option Nat
  | .producer =>
    match state.producer with
    | .storeHead _ _ _ _ newHead => some newHead
    | _ => none
  | .consumer =>
    match state.consumer with
    | .storeHead currentHead _ => some ((currentHead + 1) % state.queue.bufferCapacity)
    | _ => none
  | _ => none

def heldHead (state : State α) : Option Nat :=
  match state.consumer with
  | .loadTail currentHead => some currentHead
  | .read currentHead => some currentHead
  | _ => none

/-- The slot a dequeue is about to read, past its emptiness test. -/
def readingHead (state : State α) : Option Nat :=
  match state.consumer with
  | .read currentHead => some currentHead
  | _ => none

def testedTail (state : State α) : Action α → Option Nat
  | .producer =>
    match state.producer with
    | .loadHead _ _ _ nextTail => some nextTail
    | _ => none
  | _ => none

def takesFull (state : State α) (action : Action α) : Prop :=
    testedTail state action = some state.queue.head

instance (state : State α) (action : Action α) : Decidable (takesFull state action) :=
  inferInstanceAs (Decidable (_ = _))

/-- A store to `head` either leaves it alone or takes one item off a queue that is not empty. -/
def popsOne (state : State α) (action : Action α) : Prop :=
  ∀ stored ∈ storedHead state action, stored = state.queue.head ∨
    state.queue.head ≠ state.queue.tail ∧ stored = (state.queue.head + 1) % state.queue.bufferCapacity

instance (state : State α) (action : Action α) : Decidable (popsOne state action) :=
  inferInstanceAs (Decidable (∀ stored ∈ storedHead state action, _))

/-- A store of the consumer to `head` leaves it alone or moves it on by one slot; the producer's may
be stale. -/
def movesOn (state : State α) (action : Action α) : Prop :=
  action = .consumer → ∀ stored ∈ storedHead state action, stored = state.queue.head ∨
    stored = (state.queue.head + 1) % state.queue.bufferCapacity

instance [DecidableEq α] (state : State α) (action : Action α) : Decidable (movesOn state action) :=
  inferInstanceAs (Decidable (_ → ∀ stored ∈ storedHead state action, _))

/-- The producer does not move `head` a second time under a dequeue that is about to read its slot. -/
def lapsNone (state : State α) (action : Action α) : Prop :=
  action = .producer → ∀ stored ∈ storedHead state action, stored ≠ state.queue.head →
    ∀ held ∈ readingHead state, held = state.queue.head

instance [DecidableEq α] (state : State α) (action : Action α) : Decidable (lapsNone state action) :=
  inferInstanceAs (Decidable (_ → ∀ stored ∈ storedHead state action,
    _ → ∀ held ∈ readingHead state, _))

end Interleaving
end YoloEngine
