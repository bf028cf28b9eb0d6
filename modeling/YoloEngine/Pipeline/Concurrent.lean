import YoloEngine.Foundation.Composition
import YoloEngine.Pipeline.Threads

/-! The camera program access by access, over any model of its queues. Its threads are those of
`Pipeline`, but a call on a queue is no single step: one step begins it, and each load, store,
write and read of `enqueue` and `dequeue` is a step of its own, so that the accesses of the three
threads to both queues mix freely. A thread stays at `dequeuing` or `offering` until its call has
returned. How an access acts on a queue, and what it leaves open, is the model's to say. -/
namespace YoloEngine.Concurrent
open Foundation LockFreeQueue
open Pipeline (ProducerPc ConsumerPc DisplayPc Action takenFrame takenResults maxRetries)

/-- The calls on a queue as a thread makes them: it begins `enqueue(std::move(value))` or
`dequeue()` and goes on by accesses, each with a choice, until the queue says that `enqueue` has
returned or what `dequeue` answers. -/
structure QueueCalls (Queue Act : Type → Type) (Choice : Type) where
  new {α : Type} (maxSize : Nat) : Queue α
  next {α : Type} (queue : Queue α) (act : Act α) : Option (Queue α)
  callEnqueue {α : Type} (value : α) : Act α
  producer {α : Type} (choice : Choice) : Act α
  callDequeue {α : Type} : Act α
  consumer {α : Type} (choice : Choice) : Act α
  finished {α : Type} (queue : Queue α) : Bool
  answered {α : Type} (before after : Queue α) : Option (Option (Cell α))

structure State (Queue : Type → Type) where
  isRunning : Bool
  frames : Queue Mat
  results : Queue FrameWithResults
  producer : ProducerPc
  emptyFrameRetries : Nat
  consumer : ConsumerPc
  locals : Consumer
  latenciesUs : List Int
  display : DisplayPc
  captured : List Mat
  dequeued : List Mat
  displayed : List FrameWithResults

variable {Queue Act : Type → Type} {Choice ι : Type} (calls : QueueCalls Queue Act Choice)

def QueueCalls.machine {α : Type} (maxSize : Nat) : Machine (Queue α) (Act α) :=
  ⟨calls.new maxSize,calls.next⟩

def producerStep (state : State Queue) (capture : Mat) (choice : Choice) : Option (State Queue) :=
  match state.producer with
  | .loop => some { state with producer := if state.isRunning then .capturing else .stopped }
  | .capturing =>
    let state := { state with captured := state.captured ++ [capture] }
    if capture.empty then
      let state := { state with emptyFrameRetries := state.emptyFrameRetries + 1 }
      if state.emptyFrameRetries > maxRetries then
        some { state with isRunning := false, producer := .stopped }
      else some { state with producer := .loop }
    else do
      let frames ← calls.next state.frames (calls.callEnqueue capture)
      return { state with emptyFrameRetries := 0, frames := frames, producer := .offering capture }
  | .offering frameClone => do
    let frames ← calls.next state.frames (calls.producer choice)
    return { state with
      frames := frames, producer := if calls.finished frames then .loop else .offering frameClone }
  | .stopped => none

def consumerStep (lib : External) (config : ModelConfig) (state : State Queue) (iteration : Iteration)
    (choice : Choice) : Option (State Queue) :=
  match state.consumer with
  | .loop =>
    if state.isRunning then do
      let frames ← calls.next state.frames calls.callDequeue
      return { state with frames := frames, consumer := .dequeuing }
    else some { state with consumer := .stopped }
  | .dequeuing => do
    let frames ← calls.next state.frames (calls.consumer choice)
    match calls.answered state.frames frames with
    | none => return { state with frames := frames }
    | some none => return { state with frames := frames, consumer := .loop }
    | some (some cell) =>
      let frame := takenFrame cell
      return { state with
        frames := frames, dequeued := state.dequeued ++ [frame], consumer := .fetched frame }
  | .fetched frame =>
    match state.locals.process lib config frame iteration with
    | .ok (locals,none) => some { state with locals := locals, consumer := .loop }
    | .ok (locals,some value) => do
      let results ← calls.next state.results (calls.callEnqueue value)
      return { state with
        locals := locals, results := results, consumer := .offering value iteration.totalStart }
    | .error _ => none
  | .offering value totalStart => do
    let results ← calls.next state.results (calls.producer choice)
    if calls.finished results then
      return { state with
        results := results
        latenciesUs := LatencyTracker.record state.latenciesUs (iteration.totalEnd - totalStart)
        consumer := .loop }
    else return { state with results := results, consumer := .offering value totalStart }
  | .stopped => none

def displayStep (state : State Queue) (key : Char) (choice : Choice) : Option (State Queue) :=
  match state.display with
  | .loop =>
    if state.isRunning then do
      let results ← calls.next state.results calls.callDequeue
      return { state with results := results, display := .dequeuing }
    else some { state with display := .stopped }
  | .dequeuing => do
    let results ← calls.next state.results (calls.consumer choice)
    match calls.answered state.results results with
    | none => return { state with results := results }
    | some none => return { state with results := results, display := .loop }
    | some (some cell) =>
      return { state with
        results := results, displayed := state.displayed ++ [takenResults cell], display := .showing }
  | .showing =>
    if key = 'q' ∨ key.toNat = 27 then some { state with isRunning := false, display := .stopped }
    else some { state with display := .loop }
  | .stopped => none

def step (lib : External) (config : ModelConfig) (state : State Queue) (action : Action)
    (choice : Choice) : Option (State Queue) :=
  match action with
  | .signal => some { state with isRunning := false }
  | .producer capture => producerStep calls state capture choice
  | .consumer iteration => consumerStep calls lib config state iteration choice
  | .display key => displayStep calls state key choice

def State.new (buffer : TensorBuffer) (frameSize resultSize : Nat) : State Queue :=
  ⟨true,calls.new frameSize,calls.new resultSize,.loop,0,.loop,.start buffer,[],.loop,[],[],[]⟩

/-- The program whose inputs are read as the step of a thread and the choice of its access. -/
def program (read : ι → Action × Choice) (lib : External) (config : ModelConfig) (buffer : TensorBuffer)
    (frameSize resultSize : Nat) : Machine (State Queue) ι where
  init := .new calls buffer frameSize resultSize
  next state input := step calls lib config state (read input).1 (read input).2

/-- The access to the frame queue that a step of the program makes. -/
def frameAct (state : State Queue) (action : Action) (choice : Choice) : Option (Act Mat) :=
  match action with
  | .producer capture =>
    match state.producer with
    | .capturing => if capture.empty then none else some (calls.callEnqueue capture)
    | .offering _ => some (calls.producer choice)
    | _ => none
  | .consumer _ =>
    match state.consumer with
    | .loop => if state.isRunning then some calls.callDequeue else none
    | .dequeuing => some (calls.consumer choice)
    | _ => none
  | _ => none

def resultAct (lib : External) (config : ModelConfig) (state : State Queue) (action : Action)
    (choice : Choice) : Option (Act FrameWithResults) :=
  match action with
  | .consumer iteration =>
    match state.consumer with
    | .fetched frame =>
      match state.locals.process lib config frame iteration with
      | .ok (_,some value) => some (calls.callEnqueue value)
      | _ => none
    | .offering _ _ => some (calls.producer choice)
    | _ => none
  | .display _ =>
    match state.display with
    | .loop => if state.isRunning then some calls.callDequeue else none
    | .dequeuing => some (calls.consumer choice)
    | _ => none
  | _ => none

/-- Steps whose access to a queue, if they make one, meets a condition on that queue. -/
def onQueues (lib : External) (config : ModelConfig) (condition : ∀ {α : Type}, Queue α → Act α → Prop)
    (state : State Queue) (action : Action) (choice : Choice) : Prop :=
  (∀ act ∈ frameAct calls state action choice, condition state.frames act) ∧
    ∀ act ∈ resultAct calls lib config state action choice, condition state.results act

instance (lib : External) (config : ModelConfig) (condition : ∀ {α : Type}, Queue α → Act α → Prop)
    [∀ {α : Type} (queue : Queue α) (act : Act α), Decidable (condition queue act)]
    (state : State Queue) (action : Action) (choice : Choice) :
    Decidable (onQueues calls lib config condition state action choice) :=
  inferInstanceAs (Decidable (_ ∧ _))

end YoloEngine.Concurrent
