import YoloEngine.Vision.Clipping
import YoloEngine.Vision.Decoder
import YoloEngine.Vision.ImageProgram

/-! The two decoders. Where the loop of `ImageProcessor` ends, every value it read is read by the
loop of `yolov8n_image` too, so that one ends with the same candidates; their boxes are the same
unless clipping has cut something off. -/
namespace YoloEngine.ImageProgram
open Foundation Foundation.Aborting
open ImageProcessor (Tabular entry kept columnScore columnClass columnBox)

def unclippedBox (output : List ℚ) (config : ModelConfig) (image : Mat) (i : Nat) : Rect :=
  candidateBox config image (entry output config 0 i) (entry output config 1 i)
    (entry output config 2 i)
    (entry output config 3 i)

/-- The box lies in the image as it comes from the tensor. -/
def InsideImage (output : List ℚ) (config : ModelConfig) (image : Mat) (i : Nat) : Prop :=
  let xScale : ℚ := image.cols / config.inputSize
  let yScale : ℚ := image.rows / config.inputSize
  let left := (entry output config 0 i - entry output config 2 i * (1 / 2)) * xScale
  let top := (entry output config 1 i - entry output config 3 i * (1 / 2)) * yScale
  let width := entry output config 2 i * xScale
  let height := entry output config 3 i * yScale
  0 ≤ left ∧ 0 ≤ top ∧ left + width ≤ image.cols ∧ top + height ≤ image.rows

def listed (output : List ℚ) (config : ModelConfig) (image : Mat) : Scratch where
  boxes := (kept output config).map (unclippedBox output config image)
  scores := (kept output config).map (columnScore output config)
  classIds := (kept output config).map (columnClass output config)

section Simulation
variable {fails : Failures} {output : List ℚ} {processed : ProcessedImage} {config : ModelConfig}

/-- An index that fits an `int` is the same as a `size_t`. -/
private theorem element_of {row numDetections : Int} {i : Nat} {value : ℚ}
    (read : ImageProcessor.element output row numDetections i = .ok value) :
    element output row numDetections i = .ok value := by
  obtain ⟨first,rowRead,rest⟩ := except_bind_inv read
  obtain ⟨offset,offsetRead,rest⟩ := except_bind_inv rest
  obtain ⟨index,indexRead,found⟩ := except_bind_inv rest
  obtain ⟨nonneg,_⟩ := elementAt_inv found
  obtain ⟨_,small⟩ := int32_range indexRead
  cases int32_inv indexRead
  rw [element,except_bind_ok rowRead,except_bind_ok offsetRead,Int.emod_eq_of_lt nonneg (by omega)]
  exact found

variable (columns : 0 ≤ config.numDetections)
include columns

private theorem candidate_of {i : Nat}
    (ran : ∃ before after, ImageProcessor.candidate fails output processed config i before =
      .ok ⟨⟩ after) (image : Mat)
    (other : Scratch) :
    candidate output config image other i =
      .ok (if columnScore output config i < config.confidenceThreshold then other
        else ⟨other.boxes ++ [unclippedBox output config image i],
          other.scores ++ [columnScore output config i],
          other.classIds ++ [columnClass output config i]⟩) := by
  obtain ⟨before,after,round⟩ := ran
  obtain ⟨scores,rest⟩ := ImageProcessor.candidate_cases columns round
  have best : scoreClass output config i = .ok (columnScore output config i,
    columnClass output config i) :=
    ImageProcessor.scan_ok fun c known => element_of (scores c known)
  rw [candidate,except_bind_ok best]
  obtain ⟨low,_⟩ | ⟨high,first,second,third,fourth,_⟩ := rest
  · rw [if_pos low,if_pos low]
    rfl
  · rw [if_neg high,if_neg high,except_bind_ok (element_of first),except_bind_ok (element_of second),
      except_bind_ok (element_of third),except_bind_ok (element_of fourth)]
    rfl

theorem candidateLoop_of (small : config.numDetections < 2^31) {scratch stored : Scratch}
    (ran : ImageProcessor.candidateLoop fails output processed config scratch = .ok ⟨⟩ stored)
    (image : Mat) :
    candidateLoop output config image = .ok (listed output config image) := by
  have bound : config.numDetections % 2^64 = config.numDetections :=
    Int.emod_eq_of_lt columns (by omega)
  have ended := forM_each (ImageProcessor.candidateLoop_rounds ran)
  rw [candidateLoop,bound]
  calc
    (List.range config.numDetections.toNat).foldlM (candidate output config image) Scratch.empty =
      .ok _ :=
      foldlM_except_ok _ (fun i member other => candidate_of columns (ended i member) image other) _
    _ = .ok (listed output config image) :=
      congrArg Except.ok (ImageProcessor.foldl_list output config
        (unclippedBox output config image) _ _)

end Simulation

/-- Clipping changes nothing of a box in the image. -/
theorem unclippedBox_eq {lib : External} {image : Mat} {frameId : Nat} {captured : Int}
    {buffer filled : TensorBuffer} {processed : ProcessedImage}
    (prepared : ImageProcessor.preprocessImage lib image frameId buffer captured =
      .ok (processed,filled))
    {config : ModelConfig} (input : buffer.getInputSize = config.inputSize) {output : List ℚ} {i : Nat}
    (inside : InsideImage output config image i) :
    unclippedBox output config image i = columnBox output config processed i := by
  obtain ⟨left,top,right,bottom⟩ := inside
  have horizontal := ImageProcessor.clipAxis_unclipped left
    (right.trans_eq (Int.cast_natCast image.cols).symm)
  have vertical := ImageProcessor.clipAxis_unclipped top
    (bottom.trans_eq (Int.cast_natCast image.rows).symm)
  rw [columnBox,ImageProcessor.candidateBox_axes,
    (ImageProcessor.preprocessImage_inv prepared).right,input]
  simp only [horizontal,vertical]
  rfl

/-- Both loops list the same candidates with the same scores and classes, and a position where their
boxes differ is that of a candidate whose box leaves the image. The loop of `ImageProcessor` ends on
a table whose indices fit. -/
theorem decoders_agree {lib : External} {image : Mat} {frameId : Nat} {captured : Int}
    {buffer filled : TensorBuffer} {processed : ProcessedImage}
    (prepared : ImageProcessor.preprocessImage lib image frameId buffer captured =
      .ok (processed,filled))
    {config : ModelConfig} (input : buffer.getInputSize = config.inputSize)
    (columns : 0 ≤ config.numDetections)
    (small : config.numDetections < 2^31) (output : List ℚ) :
    (∀ fails scratch stored,
      ImageProcessor.candidateLoop fails output processed config scratch = .ok ⟨⟩ stored →
      ∃ listed, candidateLoop output config image = .ok listed ∧
        listed.boxes.length = stored.boxes.length ∧ listed.scores = stored.scores ∧
        listed.classIds = stored.classIds ∧
        stored.scores = (kept output config).map (columnScore output config) ∧
        ∀ n : Nat, (∀ i, (kept output config)[n]? = some i → InsideImage output config image i) →
          listed.boxes[n]? = stored.boxes[n]?) ∧
    (Tabular output config → ∀ scratch, ∃ stored,
      ImageProcessor.candidateLoop .none output processed config scratch = .ok ⟨⟩ stored) := by
  refine ⟨?_,fun table scratch => ⟨_,ImageProcessor.candidateLoop_ok table processed scratch⟩⟩
  intro fails scratch stored loop
  refine ⟨_,candidateLoop_of columns small loop image,?_⟩
  cases ImageProcessor.candidateLoop_inv loop
  refine ⟨by simp [listed,ImageProcessor.decoded],rfl,rfl,rfl,?_⟩
  intro n inside
  rw [listed,ImageProcessor.decoded,List.getElem?_map,List.getElem?_map]
  cases place : (kept output config)[n]? with
  | none => rfl
  | some i => rw [Option.map_some,Option.map_some,unclippedBox_eq prepared input (inside i place)]

example (output : List ℚ) (sized : output.length = 84 * 8400) : Tabular output constants :=
  ⟨by decide,by decide,by rw [sized]; rfl,by decide⟩

/-- The first box ends at the border and is the same in both; the second begins before the image and
is not. -/
theorem borderBox_agrees :
    let lib : External := ⟨fun _ _ _ _ _ _ => [0,0,0],fun _ _ => [],fun _ _ _ _ => some [0]⟩
    let config : ModelConfig := ⟨1,1,2,1 / 4,9 / 20⟩
    let image : Mat := ⟨100,200,3,[]⟩
    let output : List ℚ := [7 / 8,0,4 / 5,1 / 2,1 / 4,1 / 2,2 / 5,1 / 2,9 / 10,4 / 5]
    ∃ processed filled stored listed,
      ImageProcessor.preprocessImage lib image 1 ⟨[5,5,5],[1,3,1,1],3,1,rfl⟩ 0 =
        .ok (processed,filled) ∧
      ImageProcessor.candidateLoop .none output processed config .empty = .ok ⟨⟩ stored ∧
      candidateLoop output config image = .ok listed ∧ listed.scores = stored.scores ∧
      listed.boxes[0]? = stored.boxes[0]? ∧ listed.boxes[1]? ≠ stored.boxes[1]? := by
  intro lib config image output
  have prepared : ImageProcessor.preprocessImage lib image 1 ⟨[5,5,5],[1,3,1,1],3,1,rfl⟩ 0 =
      .ok (⟨1,200,100,200,100,0⟩,⟨[0,0,0],[1,3,1,1],3,1,rfl⟩) := by decide +kernel
  obtain ⟨agrees,ends⟩ := decoders_agree prepared (show _ = config.inputSize from rfl) (by decide)
    (by decide) output
  obtain ⟨stored,loop⟩ := ends ⟨by decide,by decide,by decide,by decide⟩ .empty
  obtain ⟨listed,ran,_,scores,_,_,boxes⟩ := agrees .none .empty stored loop
  have inside : ∀ i, (kept output config)[0]? = some i → InsideImage output config image i := by
    have first : (kept output config)[0]? = some 0 := by decide +kernel
    intro i place
    cases Option.some.inj (first.symm.trans place)
    exact ⟨by decide +kernel,by decide +kernel,by decide +kernel,by decide +kernel⟩
  have differs : listed.boxes[1]? ≠ stored.boxes[1]? := by
    have unclipped : (candidateLoop output config image).map Scratch.boxes =
        .ok [⟨150,60,50,40⟩,⟨-50,25,100,50⟩] := by decide +kernel
    rw [ran] at unclipped
    rw [Except.ok.inj unclipped,ImageProcessor.candidateLoop_inv loop]
    decide +kernel
  exact ⟨_,_,stored,listed,prepared,loop,ran,scores,boxes 0 inside,differs⟩

end YoloEngine.ImageProgram
