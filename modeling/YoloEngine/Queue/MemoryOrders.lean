import YoloEngine.Foundation.ReleaseAcquire
import YoloEngine.Queue.History
import Mathlib.Data.Finset.Insert

/-! One producer and one consumer on a shared `LockFreeQueue` with the memory orders that the code
asks for: `tail` is loaded relaxed by the producer and acquired by the consumer, `head` the other
way round, both are stored with release, and the slots are plain. A load may read any store that
its thread does not know to be overwritten, so that a thread may work with an old cursor for as long
as nothing tells it of a newer one. -/
namespace YoloEngine.MemoryOrders
open Foundation Foundation.Ring Foundation.ReleaseAcquire LockFreeQueue
variable {α : Type}

/-- The two atomic cursors, and the two threads by their accesses to slots. -/
inductive Place where
  | head
  | tail
  | producer
  | consumer
  deriving Repr, DecidableEq

instance : Fintype Place := ⟨{.head,.tail,.producer,.consumer},fun place => by cases place <;> decide⟩

/-- Every store to the cursors, the slots, where each thread stands and what it knows, the values
passed to `enqueue`, the items written to slots, the answers of the dequeues, and whether two
accesses to a slot have raced. -/
structure State (α : Type) where
  head : List (Message Place Nat)
  tail : List (Message Place Nat)
  slots : List (Plain Place (Cell α))
  bufferCapacity : Nat
  producer : EnqueuePc α
  producerView : View Place
  consumer : DequeuePc α
  consumerView : View Place
  begun : List α
  written : List α
  returned : List (Cell α)
  raced : Bool

def State.new (maxSize : Nat) : State α :=
  ⟨[⟨0,0,fun _ => 0⟩],[⟨0,0,fun _ => 0⟩],List.replicate maxSize ⟨.unwritten,fun _ => 0⟩,maxSize,
    .idle,fun _ => 0,.idle,fun _ => 0,[],[],[],false⟩

/-- A thread's access comes with a choice: which store a load reads, at which time a store goes. -/
inductive Action (α : Type) where
  | callEnqueue (how : Overload) (value : α)
  | producer (choice : Nat)
  | callDequeue
  | consumer (choice : Nat)
  deriving Repr, DecidableEq

def producerStep (state : State α) (choice : Nat) : Option (State α) :=
  match state.producer with
  | .idle => none
  | .loadTail how item => do
    let message ← readable state.tail .tail state.producerView choice
    let currentTail := message.value
    let nextTail := (currentTail + 1) % state.bufferCapacity
    some { state with
      producerView := load .relaxed .tail message state.producerView
      producer := .loadHead how item currentTail nextTail }
  | .loadHead how item currentTail nextTail => do
    let message ← readable state.head .head state.producerView choice
    some { state with
      producerView := load .acquire .head message state.producerView
      producer := if nextTail = message.value then .reloadHead how item currentTail nextTail
        else .write how item currentTail nextTail }
  | .reloadHead how item currentTail nextTail => do
    let message ← readable state.head .head state.producerView choice
    let newHead := (message.value + 1) % state.bufferCapacity
    some { state with
      producerView := load .relaxed .head message state.producerView
      producer := .storeHead how item currentTail nextTail newHead }
  | .storeHead how item currentTail nextTail newHead =>
    if storable state.head .head state.producerView choice then
      let message := release .head choice newHead state.producerView
      some { state with
        head := state.head ++ [message], producerView := message.view
        producer := .write how item currentTail nextTail }
    else none
  | .write how item currentTail nextTail => do
    let slot ← state.slots[currentTail]?
    let (filled,producerView) := access .producer (.item item) slot state.producerView
    some { state with
      slots := state.slots.set currentTail filled, producerView := producerView
      raced := state.raced || !inOrder slot state.producerView
      written := state.written ++ [item]
      producer := .storeTail (how.left item) nextTail }
  | .storeTail _ nextTail =>
    if storable state.tail .tail state.producerView choice then
      let message := release .tail choice nextTail state.producerView
      some { state with tail := state.tail ++ [message], producerView := message.view, producer := .idle }
    else none

def consumerStep (state : State α) (choice : Nat) : Option (State α) :=
  match state.consumer with
  | .idle => none
  | .loadHead => do
    let message ← readable state.head .head state.consumerView choice
    some { state with
      consumerView := load .relaxed .head message state.consumerView,
      consumer := .loadTail message.value }
  | .loadTail currentHead => do
    let message ← readable state.tail .tail state.consumerView choice
    some { state with
      consumerView := load .acquire .tail message state.consumerView
      consumer := if currentHead = message.value then .idle else .read currentHead }
  | .read currentHead => do
    let slot ← state.slots[currentHead]?
    let item := slot.content
    let (emptied,consumerView) := access .consumer item.moved slot state.consumerView
    some { state with
      slots := state.slots.set currentHead emptied, consumerView := consumerView
      raced := state.raced || !inOrder slot state.consumerView
      consumer := .storeHead currentHead item }
  | .storeHead currentHead item =>
    if storable state.head .head state.consumerView choice then
      let message := release .head choice ((currentHead + 1) % state.bufferCapacity) state.consumerView
      some { state with
        head := state.head ++ [message], consumerView := message.view
        returned := state.returned ++ [item], consumer := .idle }
    else none

def next (state : State α) : Action α → Option (State α)
  | .callEnqueue how value =>
    match state.producer with
    | .idle => some { state with producer := .loadTail how value, begun := state.begun ++ [value] }
    | _ => none
  | .producer choice => producerStep state choice
  | .callDequeue =>
    match state.consumer with
    | .idle => some { state with consumer := .loadHead }
    | _ => none
  | .consumer choice => consumerStep state choice

def ordered (maxSize : Nat) : Machine (State α) (Action α) := ⟨.new maxSize,next⟩

def testedTail : EnqueuePc α → Option Nat
  | .loadHead _ _ _ nextTail => some nextTail
  | _ => none

/-- No `enqueue` finds the queue full, by the `head` it loads. -/
def findsRoom (state : State α) : Action α → Prop
  | .producer choice => ∀ nextTail ∈ testedTail state.producer, ∀ message ∈ state.head[choice]?,
      nextTail ≠ message.value
  | _ => True

instance (state : State α) (action : Action α) : Decidable (findsRoom state action) := by
  cases action <;> unfold findsRoom <;> infer_instance

end YoloEngine.MemoryOrders
