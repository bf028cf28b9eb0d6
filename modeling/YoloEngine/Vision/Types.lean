import Mathlib.Algebra.Field.Rat

/-! Data shared by the detector: images, boxes, detections and the model configuration.
A `float` or `double` is an exact rational number; an `int` is an unbounded integer,
with its 32-bit range checked where the code computes an index. -/
namespace YoloEngine

structure Mat where
  rows : Nat
  cols : Nat
  channels : Nat
  data : List ℚ
  deriving DecidableEq

namespace Mat

/-- A default-constructed matrix, which is also what moving out of one leaves behind. -/
def released : Mat := ⟨0,0,0,[]⟩

def empty (frame : Mat) : Bool := frame.rows * frame.cols == 0 || frame.data.isEmpty

end Mat

structure Rect where
  x : Int
  y : Int
  width : Int
  height : Int
  deriving Repr, DecidableEq

structure Detection where
  box : Rect
  confidence : ℚ
  classId : Int
  className : String
  deriving DecidableEq

structure DetectionResults where
  detections : List Detection
  frameId : Nat
  captureTimeUs : Int
  inferenceTimeUs : Int
  totalTimeUs : Int
  deriving DecidableEq

structure ModelConfig where
  inputSize : Int
  numClasses : Int
  numDetections : Int
  confidenceThreshold : ℚ
  nmsThreshold : ℚ
  deriving DecidableEq

structure FrameWithResults where
  frame : Mat
  results : DetectionResults
  deriving DecidableEq

def cocoClasses : List String :=
  ["person","bicycle","car","motorcycle","airplane","bus","train","truck",
    "boat","traffic light","fire hydrant","stop sign","parking meter","bench",
    "bird","cat","dog","horse","sheep","cow","elephant","bear","zebra","giraffe",
    "backpack","umbrella","handbag","tie","suitcase","frisbee","skis",
    "snowboard","sports ball","kite","baseball bat","baseball glove",
    "skateboard","surfboard","tennis racket","bottle","wine glass","cup",
    "fork","knife","spoon","bowl","banana","apple","sandwich","orange",
    "broccoli","carrot","hot dog","pizza","donut","cake","chair","couch",
    "potted plant","bed","dining table","toilet","tv","laptop","mouse",
    "remote","keyboard","cell phone","microwave","oven","toaster","sink",
    "refrigerator","book","clock","vase","scissors","teddy bear",
    "hair drier","toothbrush"]

example : cocoClasses.length = 80 := rfl

/-- Why a computation stops: a `std::exception` is thrown, or the program leaves defined behaviour. -/
inductive Abort where
  | exception
  | undefined
  deriving Repr, DecidableEq

def int32 (value : Int) : Except Abort Int :=
  if -2^31 ≤ value ∧ value < 2^31 then .ok value else .error .undefined

def narrow32 (value : Int) : Int := value.bmod (2^32)

theorem int32_ok {value : Int} (low : 0 ≤ value) (high : value < 2^31) : int32 value = .ok value :=
  if_pos ⟨by omega,high⟩

theorem int32_mul {first second : Nat} (small : first * second < 2^31) :
    int32 ((first : Int) * second) = .ok ((first * second : Nat) : Int) := by
  rw [← Nat.cast_mul]
  exact int32_ok (by omega) (by omega)

theorem int32_add {first second : Nat} (small : first + second < 2^31) :
    int32 ((first : Int) + second) = .ok ((first + second : Nat) : Int) := by
  rw [← Nat.cast_add]
  exact int32_ok (by omega) (by omega)

/-- `values[index]` through a pointer or `operator[]`: outside the values it is undefined. -/
def elementAt {β : Type} (values : List β) (index : Int) : Except Abort β :=
  if 0 ≤ index then
    match values[index.toNat]? with
    | some value => .ok value
    | none => .error .undefined
  else .error .undefined

theorem elementAt_ok {β : Type} {values : List β} {index : Nat} {value : β}
    (found : values[index]? = some value) :
    elementAt values index = .ok value := by
  simp [elementAt,found]

theorem int32_inv {value result : Int} (ran : int32 value = .ok result) : result = value := by
  unfold int32 at ran
  split at ran
  · exact (Except.ok.inj ran).symm
  · contradiction

theorem int32_range {value result : Int} (ran : int32 value = .ok result) :
    -2^31 ≤ result ∧ result < 2^31 := by
  unfold int32 at ran
  split at ran
  next inside => exact (Except.ok.inj ran) ▸ inside
  next => contradiction

theorem elementAt_inv {β : Type} {values : List β} {index : Int} {value : β}
    (read : elementAt values index = .ok value) :
    0 ≤ index ∧ values[index.toNat]? = some value := by
  unfold elementAt at read
  split at read
  next inside =>
    split at read
    next found known => exact ⟨inside,(Except.ok.inj read) ▸ known⟩
    next => contradiction
  next => contradiction

end YoloEngine
