import YoloEngine.Queue.LockFreeQueue
import YoloEngine.Vision.ImageProcessor

/-! What `consumerThread` does with a frame it has dequeued. The counters, the tensor and the
scratch vectors outlive a frame; preprocessing runs before the `try` block, inference and
postprocessing inside it. `infer` is taken to return the pointer its caller asks for. -/
namespace YoloEngine
open Foundation.Aborting

namespace LatencyTracker

def record (latenciesUs : List Int) (latency : Int) : List Int := latenciesUs ++ [latency]

end LatencyTracker

/-- The clock readings of one iteration, and what throws in it. -/
structure Iteration where
  totalStart : Int
  captureTime : Int
  inferenceStart : Int
  postprocessStart : Int
  totalEnd : Int
  fails : Failures

structure Consumer where
  frameCounter : Nat
  frameSkipCounter : Nat
  buffer : TensorBuffer
  scratch : Scratch
  deriving DecidableEq

namespace Consumer
variable (lib : External) (config : ModelConfig)

def start (buffer : TensorBuffer) : Consumer := ⟨0,0,buffer,.empty⟩

def infer (fails : Failures) (buffer : TensorBuffer) : Except Abort (List ℚ) :=
  if fails .infer then .error .exception else .ok (lib.run (buffer.data.take buffer.size) buffer.shape)

def detect (iteration : Iteration) (buffer : TensorBuffer) (processed : ProcessedImage) :
    EStateM Abort Scratch DetectionResults := do
  let outputData ← liftExcept (infer lib iteration.fails buffer)
  ImageProcessor.postprocessDetections lib iteration.fails outputData processed iteration.inferenceStart config
    iteration.postprocessStart

/-- `catch (const std::exception&)` swallows an exception and nothing else. -/
def caught {β : Type} : EStateM.Result Abort Scratch β → Except Abort (Option β)
  | .ok value _ => .ok (some value)
  | .error .exception _ => .ok none
  | .error .undefined _ => .error .undefined

def process (consumer : Consumer) (frame : Mat) (iteration : Iteration) :
    Except Abort (Consumer × Option FrameWithResults) := do
  let consumer := { consumer with frameSkipCounter := (consumer.frameSkipCounter + 1) % 2^64 }
  if consumer.frameSkipCounter % 3 ≠ 0 then return (consumer,none)
  else
    let consumer := { consumer with frameCounter := (consumer.frameCounter + 1) % 2^64 }
    -- outside the `try` block
    let (processed,buffer) ←
      ImageProcessor.preprocessImage lib frame consumer.frameCounter consumer.buffer iteration.captureTime
    let result := detect lib config iteration buffer processed consumer.scratch
    let results ← caught result
    return ({ consumer with buffer := buffer, scratch := final result },
      results.map (fun results => ⟨frame,results⟩))

end Consumer

/-- The consumer with what it writes to: the result queue, the tracker, and as history
every value it has passed to `enqueue`. -/
structure Session where
  consumer : Consumer
  resultQueue : LockFreeQueue FrameWithResults
  latenciesUs : List Int
  passed : List FrameWithResults

namespace Session
variable (lib : External) (config : ModelConfig)

def deliver (session : Session) (value : FrameWithResults) (iteration : Iteration) : Session :=
  { session with
    resultQueue := (session.resultQueue.enqueueMove value).1
    latenciesUs := LatencyTracker.record session.latenciesUs (iteration.totalEnd - iteration.totalStart)
    passed := session.passed ++ [value] }

def step (session : Session) (arrival : Mat × Iteration) : Except Abort Session := do
  let (consumer,delivered) ← session.consumer.process lib config arrival.1 arrival.2
  let session := { session with consumer := consumer }
  match delivered with
  | none => return session
  | some value => return session.deliver value arrival.2

def run (session : Session) (arrivals : List (Mat × Iteration)) : Except Abort Session :=
  arrivals.foldlM (step lib config) session

end Session
end YoloEngine
