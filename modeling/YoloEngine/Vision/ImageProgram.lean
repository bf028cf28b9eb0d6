import YoloEngine.Vision.ImageProcessor

/-! `yolov8n_image`: the program for one image. It fills its input tensor pixel by pixel and decodes
the output in a loop of its own, which does not clip. Its constants come from a configuration;
nothing it throws is caught, so a run that fails leaves no vectors behind. -/
namespace YoloEngine
open Foundation

namespace Mat

/-- Pixels of three channels, row after row. `imread` gives every image this form. -/
structure Colour (image : Mat) : Prop where
  channels : image.channels = 3
  sized : image.data.length = image.rows * image.cols * 3

def swapTriples : List ℚ → List ℚ
  | first :: second :: third :: rest => third :: second :: first :: swapTriples rest
  | rest => rest

/-- `cvtColor` with `COLOR_BGR2RGB`, on an image of three channels. -/
def bgrToRgb (image : Mat) : Mat := { image with data := swapTriples image.data }

/-- `convertTo` with `CV_32F` and a factor. -/
def convertTo (image : Mat) (alpha : ℚ) : Mat := { image with data := image.data.map (· * alpha) }

/-- `at<cv::Vec3f>(y, x)`, which is not checked: outside the image it is undefined. -/
def pixelAt (image : Mat) (y x : Nat) : Except Abort (ℚ × ℚ × ℚ) :=
  if y < image.rows ∧ x < image.cols ∧ image.channels = 3 then do
    let first ← elementAt image.data ((y * image.cols + x) * 3 + 0 : Nat)
    let second ← elementAt image.data ((y * image.cols + x) * 3 + 1 : Nat)
    let third ← elementAt image.data ((y * image.cols + x) * 3 + 2 : Nat)
    return (first,second,third)
  else .error .undefined

end Mat

namespace ImageProgram

/-- The constants of `main`. -/
def constants : ModelConfig := ⟨640,80,8400,1 / 4,9 / 20⟩

def preprocess (resize : Mat → Int × Int → Mat) (config : ModelConfig) (image : Mat) : Mat :=
  let resized := resize image (config.inputSize,config.inputSize)
  let resized := resized.bgrToRgb
  resized.convertTo (1 / 255)

/-- `input_tensor` while it is filled, with the indices written so far in the order of the writes. -/
structure Filling where
  tensor : List ℚ
  written : List Nat
  deriving DecidableEq

def Filling.write (filling : Filling) (index : Int) (value : ℚ) : Except Abort Filling :=
  if 0 ≤ index ∧ index < filling.tensor.length then
    .ok ⟨filling.tensor.set index.toNat value,filling.written ++ [index.toNat]⟩
  else .error .undefined

def planeIndex (inputSize channel idx : Int) : Except Abort Int := do
  let offset ← int32 (channel * inputSize)
  let offset ← int32 (offset * inputSize)
  int32 (offset + idx)

def fillPixel (config : ModelConfig) (resized : Mat) (y : Nat) (filling : Filling) (x : Nat) :
    Except Abort Filling := do
  let pixel ← resized.pixelAt y x
  let row ← int32 (y * config.inputSize)
  let idx ← int32 (row + x)
  let index ← planeIndex config.inputSize 0 idx
  let filling ← filling.write index pixel.1
  let index ← planeIndex config.inputSize 1 idx
  let filling ← filling.write index pixel.2.1
  let index ← planeIndex config.inputSize 2 idx
  filling.write index pixel.2.2

def fillRow (config : ModelConfig) (resized : Mat) (filling : Filling) (y : Nat) :
    Except Abort Filling :=
  (List.range config.inputSize.toNat).foldlM (fillPixel config resized y) filling

def inputTensor (config : ModelConfig) (resized : Mat) : Except Abort Filling := do
  let count ← int32 (1 * 3 * config.inputSize)
  let count ← int32 (count * config.inputSize)
  (List.range config.inputSize.toNat).foldlM (fillRow config resized) ⟨List.replicate count.toNat 0,[]⟩

/-- The index of the candidate is a `size_t`, and so is the sum. -/
def element (output : List ℚ) (row numDetections : Int) (i : Nat) : Except Abort ℚ := do
  let row ← int32 row
  let offset ← int32 (row * numDetections)
  elementAt output ((offset + i) % 2^64)

def scoreClass (output : List ℚ) (config : ModelConfig) (i : Nat) : Except Abort (ℚ × Int) :=
  (List.range config.numClasses.toNat).foldlM (fun best (c : Nat) => do
    let score ← element output (4 + c) config.numDetections i
    return if score > best.1 then (score,(c : Int)) else best) (0,-1)

def candidateBox (config : ModelConfig) (image : Mat) (x y w h : ℚ) : Rect :=
  let xScale : ℚ := image.cols / config.inputSize
  let yScale : ℚ := image.rows / config.inputSize
  let left := (x - w * (1 / 2)) * xScale
  let top := (y - h * (1 / 2)) * yScale
  let width := w * xScale
  let height := h * yScale
  ⟨truncate left,truncate top,truncate width,truncate height⟩

def candidate (output : List ℚ) (config : ModelConfig) (image : Mat) (scratch : Scratch) (i : Nat) :
    Except Abort Scratch := do
  let best ← scoreClass output config i
  if best.1 < config.confidenceThreshold then return scratch
  else
    let x ← element output 0 config.numDetections i
    let y ← element output 1 config.numDetections i
    let w ← element output 2 config.numDetections i
    let h ← element output 3 config.numDetections i
    return ⟨scratch.boxes ++ [candidateBox config image x y w h],scratch.scores ++ [best.1],
      scratch.classIds ++ [best.2]⟩

/-- The bound is compared as a `size_t`. -/
def candidateLoop (output : List ℚ) (config : ModelConfig) (image : Mat) : Except Abort Scratch :=
  (List.range (config.numDetections % 2^64).toNat).foldlM (candidate output config image) .empty

end ImageProgram
end YoloEngine
