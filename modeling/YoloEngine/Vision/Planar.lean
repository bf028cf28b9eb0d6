import YoloEngine.Foundation.RowMajor
import YoloEngine.Vision.ImageProgram
import YoloEngine.Vision.TensorShape

/-! The tensor of the one program and of the other. `blobFromImage` lays the channels of an image
out one after another; the loop of `yolov8n_image` takes the image pixel by pixel and writes each
of its values to the plane of its channel. Before pixel `k` the first `k` places of every plane
are written. -/
namespace YoloEngine
open Foundation Foundation.Aborting Foundation.RowMajor

namespace Mat

/-- The values channel by channel, each channel row by row. -/
def planar (image : Mat) : List ℚ :=
  (List.range image.channels).flatMap fun channel => (List.range image.rows).flatMap fun y =>
    (List.range image.cols).map fun x =>
      image.data.getD ((y * image.cols + x) * image.channels + channel) 0

def planarAt (image : Mat) (place : Nat) : ℚ :=
  image.data.getD (place % (image.rows * image.cols) * image.channels + place /
    (image.rows * image.cols)) 0

private theorem planar_eq (image : Mat) :
    image.planar = (List.range (image.channels * (image.rows * image.cols))).map image.planarAt := by
  have plane (channel : Nat) : ((List.range image.rows).flatMap fun y =>
    (List.range image.cols).map fun x =>
      image.data.getD ((y * image.cols + x) * image.channels + channel) 0) =
      (List.range (image.rows * image.cols)).map fun pixel =>
        image.data.getD (pixel * image.channels + channel) 0 := by
    rw [flatMap_range]
    simp only [Nat.div_add_mod']
  rw [planar]
  simp only [plane]
  exact flatMap_range (fun channel pixel => image.data.getD (pixel * image.channels + channel) 0) _ _

theorem planar_length (image : Mat) :
    image.planar.length = image.channels * (image.rows * image.cols) := by
  rw [planar_eq,List.length_map,List.length_range]

private theorem swapTriples_length (values : List ℚ) : (swapTriples values).length = values.length := by
  fun_induction swapTriples values with
  | case1 first second third rest ih => simp [ih]
  | case2 => rfl

theorem Colour.bgrToRgb {image : Mat} (colour : image.Colour) : image.bgrToRgb.Colour :=
  ⟨colour.channels,(swapTriples_length image.data).trans colour.sized⟩

theorem Colour.convertTo {image : Mat} (colour : image.Colour) (alpha : ℚ) :
    (image.convertTo alpha).Colour :=
  ⟨colour.channels,(List.length_map _).trans colour.sized⟩

theorem Colour.pixelAt {image : Mat} (colour : image.Colour) {y x : Nat} (row : y < image.rows)
    (column : x < image.cols) :
    image.pixelAt y x = .ok (image.planarAt (y * image.cols + x),
      image.planarAt (image.rows * image.cols + (y * image.cols + x)),
      image.planarAt (2 * (image.rows * image.cols) + (y * image.cols + x))) := by
  have inside := place_lt row column
  have read (channel : Nat) (known : channel < 3) :
      elementAt image.data ((y * image.cols + x) * 3 + channel : Nat) =
        .ok (image.planarAt (channel * (image.rows * image.cols) + (y * image.cols + x))) := by
    obtain ⟨quotient,remainder⟩ := quotient_remainder inside channel
    have place : (y * image.cols + x) * 3 + channel < image.data.length := by
      rw [colour.sized]
      omega
    apply elementAt_ok
    rw [planarAt,quotient,remainder,colour.channels,List.getD_eq_getElem?_getD,
      List.getElem?_eq_getElem place]
    rfl
  have first := read 0 (by decide)
  have second := read 1 (by decide)
  have third := read 2 (by decide)
  rw [zero_mul,zero_add] at first
  rw [one_mul] at second
  rw [Mat.pixelAt,if_pos ⟨row,column,colour.channels⟩,except_bind_ok first,except_bind_ok second,
    except_bind_ok third]
  rfl

end Mat

namespace ImageProgram

/-- The tensor before pixel `k`, and the writes that led there. -/
def filled (value : Nat → ℚ) (plane k : Nat) : Filling where
  tensor := (List.range (3 * plane)).map (fun place => if place % plane < k then value place else 0)
  written := (List.range k).flatMap (fun pixel =>
    (List.range 3).map (fun channel => channel * plane + pixel))

private theorem write_ok (value : Nat → ℚ) (written : List Nat) {size place : Nat}
    (inside : place < size) (replaced : ℚ) :
    Filling.write ⟨(List.range size).map value,written⟩ place replaced =
      .ok ⟨(List.range size).map (fun i => if i = place then replaced else value i),
        written ++ [place]⟩ := by
  have range : (0 : Int) ≤ place ∧ (place : Int) < ((List.range size).map value).length := by
    rw [List.length_map,List.length_range]
    omega
  rw [Filling.write,if_pos range,Int.toNat_natCast,set_map_range]

private theorem column_iff {plane k place : Nat} (inside : k < plane) (known : place < 3 * plane) :
    place % plane = k ↔ place = 2 * plane + k ∨ place = plane + k ∨ place = k := by
  constructor
  · intro column
    have parts := Nat.div_add_mod place plane
    have channel : place / plane < 3 := Nat.div_lt_of_lt_mul (by rwa [Nat.mul_comm])
    rw [column] at parts
    generalize place / plane = quotient at parts channel
    obtain rfl | rfl | rfl : quotient = 0 ∨ quotient = 1 ∨ quotient = 2 := by omega
    · exact Or.inr (Or.inr (by omega))
    · exact Or.inr (Or.inl (by omega))
    · exact Or.inl (by omega)
  · rintro (rfl | rfl | rfl)
    · exact (quotient_remainder inside 2).right
    · rw [Nat.add_mod_left,Nat.mod_eq_of_lt inside]
    · exact Nat.mod_eq_of_lt inside

/-- The three writes of pixel `k`, from the last to the first. -/
private theorem planes_succ (value : Nat → ℚ) {plane k place : Nat} (inside : k < plane)
    (known : place < 3 * plane) :
    (if place = 2 * plane + k then value (2 * plane + k) else
      if place = plane + k then value (plane + k) else
      if place = k then value k else if place % plane < k then value place else 0) =
    if place % plane < k + 1 then value place else 0 := by
  have column := column_iff inside known
  by_cases here : place % plane = k
  · rw [if_pos (here.trans_lt (Nat.lt_succ_self k))]
    obtain rfl | rfl | rfl := column.mp here
    · rw [if_pos rfl]
    · rw [if_neg (by omega),if_pos rfl]
    · rw [if_neg (by omega),if_neg (by omega),if_pos rfl]
  · obtain ⟨third,second,first⟩ : place ≠ 2 * plane + k ∧ place ≠ plane + k ∧ place ≠ k := by
      rw [column] at here
      tauto
    rw [if_neg third,if_neg second,if_neg first]
    simp only [Nat.lt_succ_iff_lt_or_eq,here,or_false]

private theorem filled_succ (value : Nat → ℚ) {plane k : Nat} (inside : k < plane) :
    filled value plane (k + 1) =
      ⟨(List.range (3 * plane)).map (fun place =>
        if place = 2 * plane + k then value (2 * plane + k) else
          if place = plane + k then value (plane + k) else
          if place = k then value k else if place % plane < k then value place else 0),
        (filled value plane k).written ++ [k] ++ [plane + k] ++ [2 * plane + k]⟩ := by
  have tensor := List.map_congr_left fun place member =>
    planes_succ value inside (List.mem_range.mp member)
  have three : (List.range 3).map (fun channel => channel * plane + k) =
      [k] ++ [plane + k] ++ [2 * plane + k] := by
    simp [List.range_succ]
  rw [tensor,filled,filled,@List.range_succ k,List.flatMap_append,List.flatMap_singleton,three]
  simp only [List.append_assoc]

private theorem planeIndex_ok {side pixel : Nat} (fits : 3 * (side * side) ≤ 2^31 - 1)
    (channel : Nat) (known : channel < 3) (inside : pixel < side * side) :
    planeIndex side channel pixel = .ok ((channel * (side * side) + pixel : Nat) : Int) := by
  have narrow : channel * side ≤ channel * side * side :=
    Nat.le_mul_of_pos_right _ (Nat.pos_of_ne_zero fun zero => by
    simp [zero] at inside)
  have wide : channel * side * side ≤ 2 * (side * side) := by
    rw [Nat.mul_assoc]
    exact Nat.mul_le_mul_right _ (by omega)
  rw [planeIndex,except_bind_ok (int32_mul (by omega)),except_bind_ok (int32_mul (by omega)),
    int32_add (by omega),Nat.mul_assoc]

section Loop
variable {config : ModelConfig} {resized : Mat} {side : Nat} (input : config.inputSize = side)
  (colour : resized.Colour) (rows : resized.rows = side) (cols : resized.cols = side)
  (fits : 3 * (side * side) ≤ 2^31 - 1)
include input colour rows cols fits

private theorem fillPixel_ok {y x : Nat} (row : y < side) (column : x < side) :
    fillPixel config resized y (filled resized.planarAt (side * side) (y * side + x)) x =
      .ok (filled resized.planarAt (side * side) (y * side + x + 1)) := by
  have inside : y * side + x < side * side := place_lt row column
  have small : side * side ≤ 3 * (side * side) := Nat.le_mul_of_pos_left _ (by decide)
  have rowOk : int32 ((y : Int) * side) = .ok ((y * side : Nat) : Int) := int32_mul (by omega)
  have idxOk : int32 ((y * side : Nat) + (x : Int)) = .ok ((y * side + x : Nat) : Int) :=
    int32_add (by omega)
  have pixel := colour.pixelAt (row.trans_eq rows.symm) (column.trans_eq cols.symm)
  rw [rows,cols] at pixel
  have first : planeIndex side 0 (y * side + x : Nat) = .ok ((y * side + x : Nat) : Int) := by
    simpa only [zero_mul,zero_add,Nat.cast_zero] using planeIndex_ok fits 0 (by decide) inside
  have second : planeIndex side 1 (y * side + x : Nat) =
    .ok ((side * side + (y * side + x) : Nat) : Int) := by
    simpa only [one_mul,Nat.cast_one] using planeIndex_ok fits 1 (by decide) inside
  have third : planeIndex side 2 (y * side + x : Nat) =
    .ok ((2 * (side * side) + (y * side + x) : Nat) : Int) :=
    planeIndex_ok fits 2 (by decide) inside
  have firstWrite : (filled resized.planarAt (side * side) (y * side + x)).write (y * side + x : Nat)
      (resized.planarAt (y * side + x)) = .ok ⟨_,_⟩ := write_ok _ _ (by omega) _
  rw [fillPixel,except_bind_ok pixel,input,except_bind_ok rowOk,except_bind_ok idxOk,
    except_bind_ok first,
    except_bind_ok firstWrite,except_bind_ok second,except_bind_ok (write_ok _ _ (by omega) _),
    except_bind_ok third,write_ok _ _ (by omega),filled_succ _ inside]
  rfl

private theorem fillRow_ok {y : Nat} (row : y < side) :
    fillRow config resized (filled resized.planarAt (side * side) (y * side)) y =
      .ok (filled resized.planarAt (side * side) ((y + 1) * side)) := by
  rw [fillRow,input,Int.toNat_natCast,Nat.succ_mul]
  exact foldlM_rounds (fun x => filled resized.planarAt (side * side) (y * side + x))
    fun x column => fillPixel_ok input colour rows cols fits row column

/-- The loop writes every place of the tensor once, and ends with the values plane by plane. -/
theorem inputTensor_ok : ∃ filling, inputTensor config resized = .ok filling ∧
    filling.tensor = resized.planar ∧ filling.written.Perm (List.range (3 * (side * side))) := by
  refine ⟨filled resized.planarAt (side * side) (side * side),?_,?_,columnMajor_perm 3 (side * side)⟩
  · have small : side ≤ side * side := Nat.le_mul_self side
    have widthOk : int32 (1 * 3 * (side : Int)) = .ok ((3 * side : Nat) : Int) := by
      rw [one_mul]
      exact @int32_mul 3 side (by omega)
    have countOk : int32 ((3 * side : Nat) * (side : Int)) = .ok ((3 * (side * side) : Nat) : Int) := by
      rw [← Nat.mul_assoc]
      exact int32_mul (by rw [Nat.mul_assoc]; omega)
    have fresh : (⟨List.replicate (3 * (side * side)) 0,[]⟩ : Filling) =
        filled resized.planarAt (side * side) (0 * side) := by
      simp [filled,List.map_const']
    rw [inputTensor,input,except_bind_ok widthOk,except_bind_ok countOk,Int.toNat_natCast,
      Int.toNat_natCast,fresh]
    exact foldlM_rounds (fun y => filled resized.planarAt (side * side) (y * side))
      fun y row => fillRow_ok input colour rows cols fits row
  · rw [Mat.planar_eq,colour.channels,rows,cols,filled]
    apply List.map_congr_left
    intro place member
    have positive : 0 < side * side := by
      have known := List.mem_range.mp member
      omega
    exact if_pos (Nat.mod_lt place positive)

end Loop

/-- `resize` makes an image of the given size, and `blobFromImage` lays out what resizing, swapping
and scaling give. -/
structure OpenCV (lib : External) (resize : Mat → Int × Int → Mat) : Prop where
  resizes : ∀ image width height, image.Colour → image.empty = false → 0 < width → 0 < height →
    (resize image (width,height)).Colour ∧ ((resize image (width,height)).rows : Int) = height ∧
      ((resize image (width,height)).cols : Int) = width
  blobs : ∀ image scale width height, image.Colour → image.empty = false → 0 < width → 0 < height →
    lib.blobFromImage image scale (width,height) (0,0,0) true false =
      ((resize image (width,height)).bgrToRgb.convertTo scale).planar

/-- Both programs give the network the same tensor, whatever the buffer held. The loop writes each
of its places once. -/
theorem inputs_agree {lib : External} {resize : Mat → Int × Int → Mat} (opencv : OpenCV lib resize)
    {config : ModelConfig} (positive : 0 < config.inputSize)
    (fits : 3 * config.inputSize * config.inputSize ≤ 2^31 - 1) {image : Mat}
    (colour : image.Colour) (loaded : image.empty = false) :
    ∃ filling created, inputTensor config (preprocess resize config image) = .ok filling ∧
      (filling.tensor.length : Int) = 3 * config.inputSize * config.inputSize ∧
      filling.written.Perm (List.range filling.tensor.length) ∧
      TensorBuffer.new config = .ok created ∧
      ∀ buffer : TensorBuffer, buffer.SameLayout created → ∀ frameId now, ∃ processed filled,
        ImageProcessor.preprocessImage lib image frameId buffer now = .ok (processed,filled) ∧
          filled.data = filling.tensor := by
  obtain ⟨side,input⟩ := Int.eq_ofNat_of_zero_le positive.le
  obtain ⟨resized,rows,cols⟩ := opencv.resizes image _ _ colour loaded positive positive
  have count : 3 * config.inputSize * config.inputSize = ((3 * (side * side) : Nat) : Int) := by
    rw [input]
    push_cast
    ring
  have prepared : (preprocess resize config image).Colour := resized.bgrToRgb.convertTo (1 / 255)
  have height : (preprocess resize config image).rows = side := by exact_mod_cast rows.trans input
  have width : (preprocess resize config image).cols = side := by exact_mod_cast cols.trans input
  have length : (preprocess resize config image).planar.length = 3 * (side * side) := by
    rw [Mat.planar_length,prepared.channels,height,width]
  obtain ⟨filling,ran,contents,written⟩ := inputTensor_ok input prepared height width (by omega)
  obtain ⟨created,built,size,square⟩ := TensorBuffer.new_ok positive (by omega)
  refine ⟨filling,created,ran,?_,?_,built,?_⟩
  · rw [contents,length,count]
  · rw [contents,length]
    exact written
  · intro buffer same frameId now
    obtain ⟨_,elements,sameInput⟩ := same
    have blob := opencv.blobs image (1 / 255) _ _ colour loaded positive positive
    have asked : buffer.getInputSize = config.inputSize := sameInput.trans square
    have sized : (preprocess resize config image).planar.length = buffer.size := by
      have total : (buffer.size : Int) = created.size := congrArg Nat.cast elements
      omega
    rw [contents]
    exact ImageProcessor.preprocessImage_ok (by rw [asked]; exact blob) sized frameId now

example : 0 < constants.inputSize ∧ 3 * constants.inputSize * constants.inputSize ≤ 2^31 - 1 := by
  decide

/-- Resizing that takes the nearest pixel; an image of the size asked for is left as it is. -/
def nearest (image : Mat) (size : Int × Int) : Mat where
  rows := size.2.toNat
  cols := size.1.toNat
  channels := 3
  data := (List.range (size.2.toNat * size.1.toNat * 3)).map fun place =>
    let y := place / 3 / size.1.toNat * image.rows / size.2.toNat
    let x := place / 3 % size.1.toNat * image.cols / size.1.toNat
    image.data.getD ((y * image.cols + x) * 3 + place % 3) 0

def nearestLib : External where
  blobFromImage := fun image scale size _ _ _ => ((nearest image size).bgrToRgb.convertTo scale).planar
  run := fun _ _ => []
  nmsBoxes := fun _ _ _ _ => some []

theorem nearest_openCV : OpenCV nearestLib nearest where
  resizes := fun _ _ _ _ _ wide high =>
    ⟨⟨rfl,(List.length_map _).trans List.length_range⟩,Int.toNat_of_nonneg high.le,
      Int.toNat_of_nonneg wide.le⟩
  blobs := fun _ _ _ _ _ _ _ _ => rfl

/-- Two by two pixels into a tensor full of sevens. -/
theorem twoByTwo_inputs_agree :
    let image : Mat := ⟨2,2,3,[51,102,153,0,255,0,255,0,0,0,0,255]⟩
    let config : ModelConfig := ⟨2,80,8400,1 / 4,9 / 20⟩
    ∃ filling processed filled, inputTensor config (preprocess nearest config image) = .ok filling ∧
      ImageProcessor.preprocessImage nearestLib image 1 ⟨List.replicate 12 7,[1,3,2,2],12,2,rfl⟩ 0 =
        .ok (processed,filled) ∧
      filling.tensor = [3 / 5,0,0,1,2 / 5,1,0,0,1 / 5,0,1,0] ∧ filled.data = filling.tensor := by
  intro image config
  obtain ⟨filling,created,ran,_,_,built,same⟩ := inputs_agree nearest_openCV
    (show 0 < config.inputSize by decide) (by decide) (show image.Colour from ⟨rfl,rfl⟩) (by decide)
  have empty : TensorBuffer.new config = .ok ⟨List.replicate 12 0,[1,3,2,2],12,2,rfl⟩ := by
    decide +kernel
  cases Except.ok.inj (empty.symm.trans built)
  obtain ⟨processed,filled,prepared,equal⟩ :=
    same ⟨List.replicate 12 7,[1,3,2,2],12,2,rfl⟩ ⟨rfl,rfl,rfl⟩ 1 0
  have known : (inputTensor config (preprocess nearest config image)).map Filling.tensor =
      .ok [3 / 5,0,0,1,2 / 5,1,0,0,1 / 5,0,1,0] := by decide +kernel
  rw [ran] at known
  exact ⟨filling,processed,filled,ran,prepared,Except.ok.inj known,equal⟩

end ImageProgram
end YoloEngine
