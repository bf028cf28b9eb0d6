import YoloEngine.Foundation.Machine
import YoloEngine.Pipeline.Consumer

/-! The three threads of the camera program over their two queues. One step is a test of
`is_running`, a capture, one call on a queue or the work on one frame; the threads' steps
mix freely. What the threads have captured, dequeued and taken for display is kept as history. -/
namespace YoloEngine.Pipeline
open Foundation

/-- What `dequeue` hands out: a moved-from matrix is released, a moved-from vector is empty. -/
def takenFrame : Cell Mat → Mat
  | .item frame => frame
  | _ => .released

def takenResults : Cell FrameWithResults → FrameWithResults
  | .item value => value
  | .unwritten => ⟨.released,⟨[],0,0,0,0⟩⟩
  | .movedFrom value => ⟨.released,{ value.results with detections := [] }⟩

inductive ProducerPc where
  | loop
  | capturing
  | offering (frameClone : Mat)
  | stopped
  deriving DecidableEq

inductive ConsumerPc where
  | loop
  | dequeuing
  | fetched (frame : Mat)
  | offering (value : FrameWithResults) (totalStart : Int)
  | stopped
  deriving DecidableEq

inductive DisplayPc where
  | loop
  | dequeuing
  | showing
  | stopped
  deriving DecidableEq

structure State where
  isRunning : Bool
  frameQueue : LockFreeQueue Mat
  resultQueue : LockFreeQueue FrameWithResults
  producer : ProducerPc
  emptyFrameRetries : Nat
  consumer : ConsumerPc
  locals : Consumer
  latenciesUs : List Int
  display : DisplayPc
  captured : List Mat
  dequeued : List Mat
  displayed : List FrameWithResults

/-- A step of a thread comes with what it reads from outside: the capture, the iteration's clock
readings and failures, the key. -/
inductive Action where
  | signal
  | producer (capture : Mat)
  | consumer (iteration : Iteration)
  | display (key : Char)

def maxRetries : Nat := 30

def producerStep (state : State) (capture : Mat) : Option State :=
  match state.producer with
  | .loop => some { state with producer := if state.isRunning then .capturing else .stopped }
  | .capturing =>
    let state := { state with captured := state.captured ++ [capture] }
    if capture.empty then
      let state := { state with emptyFrameRetries := state.emptyFrameRetries + 1 }
      if state.emptyFrameRetries > maxRetries then
        some { state with isRunning := false, producer := .stopped }
      else some { state with producer := .loop }
    else some { state with emptyFrameRetries := 0, producer := .offering capture }
  | .offering frameClone =>
    some { state with frameQueue := (state.frameQueue.enqueueMove frameClone).1, producer := .loop }
  | .stopped => none

/-- A frame whose processing leaves defined behaviour has no next state. -/
def consumerStep (lib : External) (config : ModelConfig) (state : State) (iteration : Iteration) :
    Option State :=
  match state.consumer with
  | .loop => some { state with consumer := if state.isRunning then .dequeuing else .stopped }
  | .dequeuing =>
    match state.frameQueue.dequeue with
    | (queue,none) => some { state with frameQueue := queue, consumer := .loop }
    | (queue,some cell) =>
      let frame := takenFrame cell
      some { state with
        frameQueue := queue, dequeued := state.dequeued ++ [frame], consumer := .fetched frame }
  | .fetched frame =>
    match state.locals.process lib config frame iteration with
    | .ok (locals,none) => some { state with locals := locals, consumer := .loop }
    | .ok (locals,some value) =>
      some { state with locals := locals, consumer := .offering value iteration.totalStart }
    | .error _ => none
  | .offering value totalStart =>
    some { state with
      resultQueue := (state.resultQueue.enqueueMove value).1
      latenciesUs := LatencyTracker.record state.latenciesUs (iteration.totalEnd - totalStart)
      consumer := .loop }
  | .stopped => none

def displayStep (state : State) (key : Char) : Option State :=
  match state.display with
  | .loop => some { state with display := if state.isRunning then .dequeuing else .stopped }
  | .dequeuing =>
    match state.resultQueue.dequeue with
    | (queue,none) => some { state with resultQueue := queue, display := .loop }
    | (queue,some cell) =>
      some { state with
        resultQueue := queue, displayed := state.displayed ++ [takenResults cell], display := .showing }
  | .showing =>
    if key = 'q' ∨ key.toNat = 27 then some { state with isRunning := false, display := .stopped }
    else some { state with display := .loop }
  | .stopped => none

def next (lib : External) (config : ModelConfig) (state : State) : Action → Option State
  | .signal => some { state with isRunning := false }
  | .producer capture => producerStep state capture
  | .consumer iteration => consumerStep lib config state iteration
  | .display key => displayStep state key

def State.new (buffer : TensorBuffer) (frameSize resultSize : Nat) : State :=
  ⟨true,.new frameSize,.new resultSize,.loop,0,.loop,.start buffer,[],.loop,[],[],[]⟩

def pipeline (lib : External) (config : ModelConfig) (buffer : TensorBuffer)
    (frameSize resultSize : Nat) :
    Machine State Action := ⟨.new buffer frameSize resultSize,next lib config⟩

end YoloEngine.Pipeline
