import YoloEngine.Pipeline.Moves
import YoloEngine.Pipeline.Order
import YoloEngine.Queue.History

/-! The camera program over queues whose accesses take effect one after another. Nothing is left
open by an access, so that a step is the step of a thread and no more. -/
namespace YoloEngine.Accesses
open Foundation LockFreeQueue Concurrent
open Pipeline (Action)

abbrev State := Concurrent.State Interleaving.State

section Calls
variable {α : Type}

/-- The call of `enqueue` has returned. -/
def finished (queue : Interleaving.State α) : Bool :=
  match queue.producer with
  | .idle => true
  | _ => false

/-- What `dequeue` answers with this access; nothing while the call goes on. -/
def answered (before after : Interleaving.State α) : Option (Option (Cell α)) :=
  match before.consumer, after.consumer with
  | .storeHead _ cell, _ => some (some (Interleaving.untagged cell))
  | _, .idle => some none
  | _, _ => none

end Calls

def queueCalls : QueueCalls Interleaving.State Interleaving.Action Unit where
  new := .new
  next := Interleaving.next
  callEnqueue := .callEnqueue .move
  producer _ := .producer
  callDequeue := .callDequeue
  consumer _ := .consumer
  finished := finished
  answered := answered

section Fields
variable {α : Type} {before after : Interleaving.State α} {choice : Unit}

@[simp] theorem queueCalls_next {act : Interleaving.Action α} :
    queueCalls.next before act = Interleaving.next before act := rfl

@[simp] theorem queueCalls_callEnqueue {value : α} :
    queueCalls.callEnqueue value = .callEnqueue .move value := rfl

@[simp] theorem queueCalls_producer :
    queueCalls.producer choice = (.producer : Interleaving.Action α) := rfl

@[simp] theorem queueCalls_callDequeue :
    queueCalls.callDequeue = (.callDequeue : Interleaving.Action α) := rfl

@[simp] theorem queueCalls_consumer :
    queueCalls.consumer choice = (.consumer : Interleaving.Action α) := rfl

@[simp] theorem queueCalls_finished : queueCalls.finished before = finished before := rfl

@[simp] theorem queueCalls_answered : queueCalls.answered before after = answered before after := rfl

end Fields

def next (lib : External) (config : ModelConfig) (state : State) (action : Action) : Option State :=
  step queueCalls lib config state action ()

def State.new (buffer : TensorBuffer) (frameSize resultSize : Nat) : State :=
  ⟨true,.new frameSize,.new resultSize,.loop,0,.loop,.start buffer,[],.loop,[],[],[]⟩

def program (lib : External) (config : ModelConfig) (buffer : TensorBuffer)
    (frameSize resultSize : Nat) :
    Machine State Action :=
  Concurrent.program queueCalls (fun action => (action,())) lib config buffer frameSize resultSize

@[simp] theorem program_init (lib : External) (config : ModelConfig) (buffer : TensorBuffer)
    (frameSize resultSize : Nat) :
    (program lib config buffer frameSize resultSize).init = .new buffer frameSize resultSize := rfl

/-- Runs whose every access to a queue meets a condition on that queue. -/
def onQueues (lib : External) (config : ModelConfig)
    (condition : ∀ {α : Type}, Interleaving.State α → Interleaving.Action α → Prop) (state : State)
    (action : Action) : Prop :=
  Concurrent.onQueues queueCalls lib config condition state action ()

instance (lib : External) (config : ModelConfig)
    (condition : ∀ {α : Type}, Interleaving.State α → Interleaving.Action α → Prop)
    [∀ {α : Type} (queue : Interleaving.State α) (act : Interleaving.Action α),
      Decidable (condition queue act)]
    (state : State) (action : Action) : Decidable (onQueues lib config condition state action) :=
  inferInstanceAs (Decidable (Concurrent.onQueues ..))

abbrev ProducerMove (state : State) (capture : Mat) : State → Prop :=
  Concurrent.ProducerMove queueCalls state capture ()

abbrev ConsumerMove (lib : External) (config : ModelConfig) (state : State)
    (iteration : Iteration) : State → Prop :=
  Concurrent.ConsumerMove queueCalls lib config state iteration ()

abbrev DisplayMove (state : State) (key : Char) : State → Prop :=
    Concurrent.DisplayMove queueCalls state key ()

section Steps
variable {lib : External} {config : ModelConfig} {state after : State}

theorem producerStep_move {capture : Mat}
    (taken : producerStep queueCalls state capture () = some after) :
    ProducerMove state capture after := Concurrent.producerStep_move taken

theorem consumerStep_move {iteration : Iteration}
    (taken : consumerStep queueCalls lib config state iteration () = some after) :
    ConsumerMove lib config state iteration after := Concurrent.consumerStep_move taken

theorem displayStep_move {key : Char} (taken : displayStep queueCalls state key () = some after) :
    DisplayMove state key after := Concurrent.displayStep_move taken

end Steps

section Queues
variable {lib : External} {config : ModelConfig} {buffer : TensorBuffer}
  {frameSize resultSize : Nat} {state : State}
  {condition : ∀ {α : Type}, Interleaving.State α → Interleaving.Action α → Prop}

/-- The frame queue sees one producer and one consumer, in runs that meet the same condition. -/
theorem frames_reachable
    (reachable : (program lib config buffer frameSize resultSize).Reachable
      (onQueues lib config condition) state) :
    (Interleaving.spsc frameSize).Reachable condition state.frames :=
  Concurrent.frames_reachable (fun _ _ allowed => allowed) reachable

theorem results_reachable
    (reachable : (program lib config buffer frameSize resultSize).Reachable
      (onQueues lib config condition) state) :
    (Interleaving.spsc resultSize).Reachable condition state.results :=
  Concurrent.results_reachable (fun _ _ allowed => allowed) reachable

end Queues
end YoloEngine.Accesses
