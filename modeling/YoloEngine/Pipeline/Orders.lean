import YoloEngine.Pipeline.Moves
import YoloEngine.Queue.MemoryOrders

/-! The camera program with the memory orders that its queues ask for. A load of a cursor may read
any store that its thread does not know to be overwritten, and which one it reads is the choice of
its step. A thread learns of another through the queue between them alone; `is_running` is
sequentially consistent and always read as it is. -/
namespace YoloEngine.Orders
open Foundation MemoryOrders LockFreeQueue Concurrent

abbrev State := Concurrent.State MemoryOrders.State

/-- A thread's step also comes with the choice of its access, if it makes one. -/
inductive Action where
  | signal
  | producer (capture : Mat) (choice : Nat)
  | consumer (iteration : Iteration) (choice : Nat)
  | display (key : Char) (choice : Nat)

def Action.read : Action → Pipeline.Action × Nat
  | .signal => (.signal,0)
  | .producer capture choice => (.producer capture,choice)
  | .consumer iteration choice => (.consumer iteration,choice)
  | .display key choice => (.display key,choice)

section Calls
variable {α : Type}

def finished (queue : MemoryOrders.State α) : Bool :=
  match queue.producer with
  | .idle => true
  | _ => false

/-- What `dequeue` answers with this access; nothing while the call goes on. -/
def answered (before after : MemoryOrders.State α) : Option (Option (Cell α)) :=
  match before.consumer, after.consumer with
  | .storeHead _ cell, _ => some (some cell)
  | _, .idle => some none
  | _, _ => none

end Calls

def queueCalls : QueueCalls MemoryOrders.State MemoryOrders.Action Nat where
  new := .new
  next := MemoryOrders.next
  callEnqueue := .callEnqueue .move
  producer := .producer
  callDequeue := .callDequeue
  consumer := .consumer
  finished := finished
  answered := answered

def next (lib : External) (config : ModelConfig) (state : State) (action : Action) : Option State :=
  step queueCalls lib config state action.read.1 action.read.2

def State.new (buffer : TensorBuffer) (frameSize resultSize : Nat) : State :=
  ⟨true,.new frameSize,.new resultSize,.loop,0,.loop,.start buffer,[],.loop,[],[],[]⟩

def program (lib : External) (config : ModelConfig) (buffer : TensorBuffer)
    (frameSize resultSize : Nat) :
    Machine State Action :=
    Concurrent.program queueCalls Action.read lib config buffer frameSize resultSize

/-- No `enqueue` finds its queue full, by the `head` it loads. -/
def findRoom (lib : External) (config : ModelConfig) (state : State) (action : Action) : Prop :=
  onQueues queueCalls lib config findsRoom state action.read.1 action.read.2

instance (lib : External) (config : ModelConfig) (state : State) (action : Action) :
    Decidable (findRoom lib config state action) := inferInstanceAs (Decidable (onQueues ..))

section Queues
variable {lib : External} {config : ModelConfig} {buffer : TensorBuffer}
  {frameSize resultSize : Nat} {state : State}

/-- Each queue sees one producer and one consumer, and none of its enqueues finds it full. -/
theorem frames_reachable
    (reachable : (program lib config buffer frameSize resultSize).Reachable
      (findRoom lib config) state) :
    (ordered frameSize).Reachable findsRoom state.frames :=
  Concurrent.frames_reachable (fun _ _ allowed => allowed) reachable

theorem results_reachable
    (reachable : (program lib config buffer frameSize resultSize).Reachable
      (findRoom lib config) state) :
    (ordered resultSize).Reachable findsRoom state.results :=
  Concurrent.results_reachable (fun _ _ allowed => allowed) reachable

end Queues
end YoloEngine.Orders
