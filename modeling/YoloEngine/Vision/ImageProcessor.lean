import YoloEngine.Foundation.Aborting
import YoloEngine.Foundation.Truncate
import YoloEngine.Vision.TensorBuffer

/-! `ImageProcessor`: a frame goes into the tensor, the network's output comes out as
detections. OpenCV and the network are parameters. Every place inside postprocessing that
can throw is a site, so that a run may fail anywhere and keep the scratch vectors it had. -/
namespace YoloEngine
open Foundation Foundation.Aborting

/-- `blobFromImage` takes the image, scale factor, size, mean, `swapRB` and `crop`; `run` takes the
tensor's contents and shape to the values behind the output pointer; `nmsBoxes` may throw. -/
structure External where
  blobFromImage : Mat → ℚ → Int × Int → ℚ × ℚ × ℚ → Bool → Bool → List ℚ
  run : List ℚ → List Int → List ℚ
  nmsBoxes : List Rect → List ℚ → ℚ → ℚ → Option (List Int)

structure ProcessedImage where
  frameId : Nat
  originalWidth : Int
  originalHeight : Int
  xScale : ℚ
  yScale : ℚ
  captureTimeUs : Int
  deriving DecidableEq

/-- The `thread_local` vectors of `postprocessDetections`, which outlive a call. -/
structure Scratch where
  boxes : List Rect
  scores : List ℚ
  classIds : List Int
  deriving DecidableEq

def Scratch.empty : Scratch := ⟨[],[],[]⟩

inductive Site where
  | infer
  | reserveBoxes
  | reserveScores
  | reserveClassIds
  | pushBox (i : Nat)
  | pushScore (i : Nat)
  | pushClassId (i : Nat)
  | nms
  | detection (n : Nat)
  deriving Repr, DecidableEq

abbrev Failures := Site → Bool

def Failures.none : Failures := fun _ => false

namespace ImageProcessor

def preprocessImage (lib : External) (frame : Mat) (frameId : Nat) (buffer : TensorBuffer) (now : Int) :
    Except Abort (ProcessedImage × TensorBuffer) := do
  let result : ProcessedImage :=
    { frameId := frameId
      originalWidth := frame.cols
      originalHeight := frame.rows
      xScale := frame.cols / buffer.getInputSize
      yScale := frame.rows / buffer.getInputSize
      captureTimeUs := now }
  let blob := lib.blobFromImage frame (1 / 255) (buffer.getInputSize,buffer.getInputSize)
    (0,0,0) true false
  let buffer ← buffer.fill blob buffer.size
  return (result,buffer)

def attempt (fails : Failures) (site : Site) : EStateM Abort Scratch Unit :=
  if fails site then throw .exception else pure ()

def element (output : List ℚ) (row numDetections i : Int) : Except Abort ℚ := do
  let row ← int32 row
  let offset ← int32 (row * numDetections)
  let index ← int32 (offset + i)
  elementAt output index

def scoreClass (output : List ℚ) (config : ModelConfig) (i : Nat) : Except Abort (ℚ × Int) :=
  (List.range config.numClasses.toNat).foldlM (fun best (c : Nat) => do
    let score ← element output (4 + c) config.numDetections i
    return if score > best.1 then (score,(c : Int)) else best) (0,-1)

def candidateBox (processed : ProcessedImage) (cx cy w h : ℚ) : Rect :=
  let left := (cx - w * (1 / 2)) * processed.xScale
  let top := (cy - h * (1 / 2)) * processed.yScale
  let width := w * processed.xScale
  let height := h * processed.yScale
  let left := max 0 left
  let top := max 0 top
  let width := min width (processed.originalWidth - left)
  let height := min height (processed.originalHeight - top)
  ⟨truncate left,truncate top,truncate width,truncate height⟩

/-- The three vectors grow one after another, and each may fail to. -/
def store (fails : Failures) (i : Nat) (box : Rect) (score : ℚ) (classId : Int) :
    EStateM Abort Scratch Unit := do
  attempt fails (.pushBox i)
  modify (fun scratch => { scratch with boxes := scratch.boxes ++ [box] })
  attempt fails (.pushScore i)
  modify (fun scratch => { scratch with scores := scratch.scores ++ [score] })
  attempt fails (.pushClassId i)
  modify (fun scratch => { scratch with classIds := scratch.classIds ++ [classId] })

def candidate (fails : Failures) (output : List ℚ) (processed : ProcessedImage) (config : ModelConfig)
    (i : Nat) : EStateM Abort Scratch Unit := do
  let best ← liftExcept (scoreClass output config i)
  if best.1 < config.confidenceThreshold then pure ()
  else
    let cx ← liftExcept (element output 0 config.numDetections i)
    let cy ← liftExcept (element output 1 config.numDetections i)
    let w ← liftExcept (element output 2 config.numDetections i)
    let h ← liftExcept (element output 3 config.numDetections i)
    store fails i (candidateBox processed cx cy w h) best.1 best.2

def candidateLoop (fails : Failures) (output : List ℚ) (processed : ProcessedImage)
    (config : ModelConfig) :
    EStateM Abort Scratch Unit := do
  -- `clear()` comes before anything that can throw
  set Scratch.empty
  attempt fails .reserveBoxes
  attempt fails .reserveScores
  attempt fails .reserveClassIds
  forM (List.range config.numDetections.toNat) (candidate fails output processed config)

def detectionAt (scratch : Scratch) (idx : Int) : Except Abort Detection := do
  let box ← elementAt scratch.boxes idx
  let confidence ← elementAt scratch.scores idx
  let classId ← elementAt scratch.classIds idx
  let className ← elementAt cocoClasses classId
  return ⟨box,confidence,classId,className⟩

def select (fails : Failures) (scratch : Scratch) (detections : List Detection) (entry : Int × Nat) :
    EStateM Abort Scratch (List Detection) := do
  attempt fails (.detection entry.2)
  let detection ← liftExcept (detectionAt scratch entry.1)
  return detections ++ [detection]

def selectDetections (fails : Failures) (scratch : Scratch) (indices : List Int) :
    EStateM Abort Scratch (List Detection) :=
  indices.zipIdx.foldlM (select fails scratch) []

/-- `now` is the reading of the clock at the start of the call. -/
def postprocessDetections (lib : External) (fails : Failures) (output : List ℚ)
    (processed : ProcessedImage) (inferenceStartTimeUs : Int) (config : ModelConfig) (now : Int) :
    EStateM Abort Scratch DetectionResults := do
  let totalTimeUs := narrow32 (now - inferenceStartTimeUs)
  candidateLoop fails output processed config
  let scratch ← get
  attempt fails .nms
  match lib.nmsBoxes scratch.boxes scratch.scores config.confidenceThreshold config.nmsThreshold with
  | none => throw .exception
  | some indices =>
    let detections ← selectDetections fails scratch indices
    return {
      detections := detections
      frameId := processed.frameId
      captureTimeUs := processed.captureTimeUs
      inferenceTimeUs := totalTimeUs
      totalTimeUs := totalTimeUs }

/-- Preprocessing overwrites the whole tensor, so its result depends on the tensor's layout only. -/
theorem preprocessImage_fresh {first second : TensorBuffer} (same : first.SameLayout second)
    (lib : External) (frame : Mat) (frameId : Nat) (now : Int) :
    preprocessImage lib frame frameId first now = preprocessImage lib frame frameId second now := by
  have input : first.getInputSize = second.getInputSize := same.right.right
  rw [preprocessImage,preprocessImage,input,TensorBuffer.fill_size same]

/-- A blob of the tensor's size replaces its contents. -/
theorem preprocessImage_ok {lib : External} {frame : Mat} {buffer : TensorBuffer} {blob : List ℚ}
    (made : lib.blobFromImage frame (1 / 255) (buffer.getInputSize,buffer.getInputSize)
      (0,0,0) true false = blob)
    (sized : blob.length = buffer.size) (frameId : Nat) (now : Int) :
    ∃ processed filled, preprocessImage lib frame frameId buffer now = .ok (processed,filled) ∧
    filled.data = blob := by
  obtain ⟨filled,copied,contents⟩ := TensorBuffer.fill_ok sized
  refine ⟨⟨frameId,frame.cols,frame.rows,frame.cols / buffer.getInputSize,
    frame.rows / buffer.getInputSize,now⟩,filled,?_,contents⟩
  rw [preprocessImage,made,except_bind_ok copied]
  rfl

/-- What a preprocessing that ended has copied, and what it records of the frame. -/
theorem preprocessImage_inv {lib : External} {frame : Mat} {frameId : Nat}
    {buffer filled : TensorBuffer} {now : Int}
    {processed : ProcessedImage} (done : preprocessImage lib frame frameId buffer now =
      .ok (processed,filled)) :
    buffer.fill (lib.blobFromImage frame (1 / 255) (buffer.getInputSize,buffer.getInputSize)
      (0,0,0) true false)
        buffer.size = .ok filled ∧
      processed = ⟨frameId,frame.cols,frame.rows,frame.cols / buffer.getInputSize,
        frame.rows / buffer.getInputSize,now⟩ := by
  rw [preprocessImage] at done
  obtain ⟨other,copied,rest⟩ := except_bind_inv done
  cases Except.ok.inj rest
  exact ⟨copied,rfl⟩

theorem preprocessImage_layout {lib : External} {frame : Mat} {frameId : Nat}
    {buffer filled : TensorBuffer} {now : Int}
    {processed : ProcessedImage} (done : preprocessImage lib frame frameId buffer now =
      .ok (processed,filled)) :
    filled.SameLayout buffer := TensorBuffer.fill_layout (preprocessImage_inv done).left

/-- The scratch vectors are cleared before anything can throw, so nothing depends on what a call
finds in them. -/
theorem postprocessDetections_fresh (lib : External) (fails : Failures) (output : List ℚ)
    (processed : ProcessedImage) (inferenceStartTimeUs : Int) (config : ModelConfig) (now : Int)
    (scratch : Scratch) :
    postprocessDetections lib fails output processed inferenceStartTimeUs config now scratch =
      postprocessDetections lib fails output processed inferenceStartTimeUs config now .empty := rfl

theorem preprocessImage_frameId {lib : External} {frame : Mat} {frameId : Nat}
    {buffer filled : TensorBuffer} {now : Int}
    {processed : ProcessedImage} (done : preprocessImage lib frame frameId buffer now =
      .ok (processed,filled)) :
    processed.frameId = frameId := by
  rw [(preprocessImage_inv done).right]

/-- What a result holds beside its detections. -/
theorem postprocessDetections_results {lib : External} {fails : Failures} {output : List ℚ}
    {processed : ProcessedImage} {inferenceStartTimeUs now : Int} {config : ModelConfig}
    {scratch after : Scratch} {results : DetectionResults}
    (returned : postprocessDetections lib fails output processed inferenceStartTimeUs config now scratch =
      .ok results after) :
    results = ⟨results.detections,processed.frameId,processed.captureTimeUs,
      narrow32 (now - inferenceStartTimeUs),narrow32 (now - inferenceStartTimeUs)⟩ := by
  obtain ⟨_,_,_,rest⟩ := bind_inv returned
  obtain ⟨found,_,_,rest⟩ := bind_inv rest
  obtain ⟨_,_,_,rest⟩ := bind_inv rest
  cases suppressed : lib.nmsBoxes found.boxes found.scores config.confidenceThreshold config.nmsThreshold with
  | none =>
    rw [suppressed] at rest
    contradiction
  | some indices =>
    rw [suppressed] at rest
    obtain ⟨detections,_,_,rest⟩ := bind_inv rest
    cases rest
    rfl

theorem postprocessDetections_frameId {lib : External} {fails : Failures} {output : List ℚ}
    {processed : ProcessedImage} {inferenceStartTimeUs now : Int} {config : ModelConfig}
    {scratch after : Scratch} {results : DetectionResults}
    (returned : postprocessDetections lib fails output processed inferenceStartTimeUs config now scratch =
      .ok results after) :
    results.frameId = processed.frameId := by
  rw [postprocessDetections_results returned]

end ImageProcessor
end YoloEngine
