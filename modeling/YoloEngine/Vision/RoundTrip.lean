import YoloEngine.Vision.Clipping
import YoloEngine.Vision.Decoder
import Mathlib.Tactic.FieldSimp

/-! From the frame to the model and back. Preprocessing records one scale for each axis, and a
box of the frame that the network reports in model coordinates is stored as it was. -/
namespace YoloEngine.ImageProcessor
open Foundation Foundation.Aborting

private theorem clipAxis_round_trip {start extent limit size : Int} (before : 0 ≤ start)
    (nonneg : 0 ≤ extent) (inside : start + extent ≤ limit) (image : 0 < limit)
    (positive : 0 < size) :
    let centre : ℚ := (start + extent / 2) * size / limit
    let length : ℚ := extent * size / limit
    clipAxis ((centre - length * (1 / 2)) * (limit / size)) (length * (limit / size)) limit =
      (start,extent) := by
  intro centre length
  have limitNe : (limit : ℚ) ≠ 0 := by exact_mod_cast image.ne'
  have sizeNe : (size : ℚ) ≠ 0 := by exact_mod_cast positive.ne'
  have near : (centre - length * (1 / 2)) * (limit / size) = start := by
    simp only [centre,length]
    field_simp
    ring
  have whole : length * (limit / size) = extent := by
    simp only [length]
    field_simp
  rw [near,whole,clipAxis_unclipped (by exact_mod_cast before) (by exact_mod_cast inside),
    truncate_intCast before,truncate_intCast nonneg]

/-- A box of the frame, mapped into the model, comes back at the place of its column in every call
whose loop ends; and on a table whose indices fit the loop does end. -/
theorem boxes_round_trip (lib : External) {frame : Mat} {frameId : Nat} {captured : Int}
    {buffer filled : TensorBuffer} {processed : ProcessedImage} (wide : 0 < frame.cols)
    (high : 0 < frame.rows) (positive : 0 < buffer.getInputSize)
    (prepared : preprocessImage lib frame frameId buffer captured = .ok (processed,filled))
    {output : List ℚ} {config : ModelConfig} {i : Nat} (column : i < config.numDetections.toNat)
    (chosen : config.confidenceThreshold ≤ columnScore output config i) {box : Rect}
    (left : 0 ≤ box.x) (top : 0 ≤ box.y) (width : 0 ≤ box.width) (height : 0 ≤ box.height)
    (right : box.x + box.width ≤ frame.cols) (bottom : box.y + box.height ≤ frame.rows)
    (cx : entry output config 0 i = (box.x + (box.width : ℚ) / 2) * buffer.getInputSize / frame.cols)
    (cy : entry output config 1 i = (box.y + (box.height : ℚ) / 2) * buffer.getInputSize / frame.rows)
    (w : entry output config 2 i = box.width * buffer.getInputSize / frame.cols)
    (h : entry output config 3 i = box.height * buffer.getInputSize / frame.rows) :
    (∀ fails inferenceStartTimeUs now scratch stored,
      candidateLoop fails output processed config scratch = .ok ⟨⟩ stored →
      ∃ n : Nat, (kept output config)[n]? = some i ∧
        (final (postprocessDetections lib fails output processed inferenceStartTimeUs config now
          scratch)).boxes[n]? = some box) ∧
    (Tabular output config → ∀ scratch, ∃ stored,
      candidateLoop .none output processed config scratch = .ok ⟨⟩ stored) := by
  refine ⟨?_,fun table scratch => ⟨_,candidateLoop_ok table processed scratch⟩⟩
  intro fails inferenceStartTimeUs now scratch stored loop
  have horizontal := clipAxis_round_trip left width right (by exact_mod_cast wide) positive
  have vertical := clipAxis_round_trip top height bottom (by exact_mod_cast high) positive
  have mapped : columnBox output config processed i = box := by
    rw [columnBox,candidateBox_axes,cx,cy,w,h,(preprocessImage_inv prepared).right]
    simp only [Int.cast_natCast] at horizontal vertical ⊢
    rw [horizontal,vertical]
  obtain ⟨n,place⟩ := List.mem_iff_getElem?.mp
    (show i ∈ kept output config by simp [kept,column,chosen])
  refine ⟨n,place,?_⟩
  rw [postprocessDetections_final lib inferenceStartTimeUs now loop,candidateLoop_inv loop,decoded,
    List.getElem?_map,place,Option.map_some,mapped]

/-- A box in the lower right corner of a frame that is not square. -/
theorem cornerBox_round_trip :
    let lib : External := ⟨fun _ _ _ _ _ _ => [0,0,0],fun _ _ => [],fun _ _ _ _ => some [0]⟩
    let config : ModelConfig := ⟨1,1,1,1 / 4,9 / 20⟩
    let processed : ProcessedImage := ⟨1,200,100,200,100,0⟩
    let output : List ℚ := [7 / 8,4 / 5,1 / 4,2 / 5,9 / 10]
    ∃ filled,
      preprocessImage lib ⟨100,200,3,[]⟩ 1 ⟨[5,5,5],[1,3,1,1],3,1,rfl⟩ 0 =
        .ok (processed,filled) ∧
      ∃ n : Nat,
        (final (postprocessDetections lib .none output processed 0 config 0 .empty)).boxes[n]? =
          some ⟨150,60,50,40⟩ := by
  intro lib config processed output
  have prepared : preprocessImage lib ⟨100,200,3,[]⟩ 1 ⟨[5,5,5],[1,3,1,1],3,1,rfl⟩ 0 =
      .ok (processed,⟨[0,0,0],[1,3,1,1],3,1,rfl⟩) := by decide +kernel
  have best : config.confidenceThreshold ≤ columnScore output config 0 := by decide +kernel
  let box : Rect := ⟨150,60,50,40⟩
  have trip := boxes_round_trip lib (by decide) (by decide) (by decide) prepared (by decide) best
    (show 0 ≤ box.x by decide) (by decide) (by decide) (by decide) (by decide) (by decide)
      (by decide +kernel)
    (by decide +kernel) (by decide +kernel) (by decide +kernel)
  obtain ⟨stored,loop⟩ := trip.right ⟨by decide,by decide,by decide,by decide⟩ .empty
  obtain ⟨n,_,found⟩ := trip.left .none 0 0 .empty stored loop
  exact ⟨_,prepared,n,found⟩

end YoloEngine.ImageProcessor
