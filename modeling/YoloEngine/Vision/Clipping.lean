import YoloEngine.Vision.ImageProcessor
import Mathlib.Algebra.Order.Group.MinMax
import Mathlib.Tactic.Linarith
import Mathlib.Tactic.NormNum
import Mathlib.Tactic.Ring

/-! Clipping of a candidate's box to the image. Each axis is clipped on its own: the near
edge is cut at zero first, and the extent is then cut at what is left of the image. -/
namespace YoloEngine.ImageProcessor
open Foundation Foundation.Aborting

def clipAxis (edge extent : ℚ) (limit : Int) : Int × Int :=
  (truncate (max 0 edge),truncate (min extent (limit - max 0 edge)))

theorem candidateBox_axes (processed : ProcessedImage) (cx cy w h : ℚ) :
    candidateBox processed cx cy w h =
      let horizontal := clipAxis ((cx - w * (1 / 2)) * processed.xScale)
        (w * processed.xScale) processed.originalWidth
      let vertical := clipAxis ((cy - h * (1 / 2)) * processed.yScale)
        (h * processed.yScale) processed.originalHeight
      ⟨horizontal.1,vertical.1,horizontal.2,vertical.2⟩ := rfl

private theorem clipAxis_inside (edge extent : ℚ) (limit : Int) :
    0 ≤ (clipAxis edge extent limit).1 ∧
    (clipAxis edge extent limit).1 + (clipAxis edge extent limit).2 ≤ limit :=
  ⟨truncate_nonneg (le_max_left 0 edge),truncate_add_le (le_max_left 0 edge) (min_le_right _ _)⟩

/-- Nothing is cut off an interval that lies in the image, its ends included. -/
theorem clipAxis_unclipped {near extent : ℚ} {limit : Int} (inside : 0 ≤ near)
    (fits : near + extent ≤ limit) :
    clipAxis near extent limit = (truncate near,truncate extent) := by
  have rest : extent ≤ limit - near := by linarith
  rw [clipAxis,max_eq_right inside,min_eq_left rest]

def Rect.Inside (box : Rect) (width height : Int) : Prop :=
  0 ≤ box.x ∧ 0 ≤ box.y ∧ box.x + box.width ≤ width ∧ box.y + box.height ≤ height

theorem candidateBox_inside (processed : ProcessedImage) (cx cy w h : ℚ) :
    Rect.Inside (candidateBox processed cx cy w h) processed.originalWidth processed.originalHeight := by
  rw [candidateBox_axes]
  have horizontal := clipAxis_inside ((cx - w * (1 / 2)) * processed.xScale)
    (w * processed.xScale) processed.originalWidth
  have vertical := clipAxis_inside ((cy - h * (1 / 2)) * processed.yScale)
    (h * processed.yScale) processed.originalHeight
  exact ⟨horizontal.1,vertical.1,horizontal.2,vertical.2⟩

/-- What is stored for one axis is the intersection of the unclipped interval with the image,
and no negative extent where that is empty. -/
def Intersection (near far : ℚ) (limit start extent : Int) : Prop :=
  (max 0 near ≤ min far limit →
    start = truncate (max 0 near) ∧ extent = truncate (min far limit - max 0 near) ∧
    (start + extent : ℚ) ≤ far) ∧
  (min far limit < max 0 near → 0 ≤ extent)

/-- Where the near edge is inside, it must begin less than a pixel past the image; where it is cut
off, the interval must miss the image, or no whole number up to the limit may separate its extent
from its far edge. -/
def ClipsExactly (near far extent : ℚ) (limit : Int) : Prop :=
  (0 ≤ near ∧ near < limit + 1) ∨
    (near < 0 ∧ (far < 0 ∨ ∀ n : ℤ, (n : ℚ) ≤ min extent limit → (n : ℚ) ≤ min far limit))

private theorem clipAxis_kept_iff {near extent : ℚ} {limit : Int} (positive : 0 ≤ extent)
    (inside : 0 ≤ near) :
    Intersection near (near + extent) limit (clipAxis near extent limit).1
      (clipAxis near extent limit).2 ↔
      near < limit + 1 := by
  have cut : min (near + extent) limit - near = min extent (limit - near) := by
    rw [← min_sub_sub_right,add_sub_cancel_left]
  have total : (truncate near + truncate (min extent (limit - near)) : ℚ) ≤ near + extent ∨
      limit < near := by
    rcases le_or_gt near limit with reached | past
    · have rest : 0 ≤ min extent (limit - near) := le_min positive (by linarith)
      exact Or.inl (add_le_add (truncate_le inside) ((truncate_le rest).trans (min_le_left _ _)))
    · exact Or.inr past
  simp only [Intersection,clipAxis,max_eq_right inside,cut,true_and]
  constructor
  · intro meets
    rcases le_or_gt near limit with reached | past
    · linarith
    · have outside : min (near + extent) limit < near := (min_le_right _ _).trans_lt past
      have above := truncate_nonneg_iff.mp (meets.right outside)
      have rest : min extent (limit - near) ≤ limit - near := min_le_right _ _
      linarith
  · intro near_limit
    refine ⟨fun reached => ?_,fun _ => ?_⟩
    · exact total.resolve_right (not_lt.mpr (reached.trans (min_le_right _ _)))
    · exact truncate_nonneg_iff.mpr (lt_min (by linarith) (by linarith))

private theorem clipAxis_cut_iff {near extent : ℚ} {limit : Int} (positive : 0 ≤ extent)
    (image : 0 ≤ limit) (outside : near < 0) :
    Intersection near (near + extent) limit (clipAxis near extent limit).1
      (clipAxis near extent limit).2 ↔
      near + extent < 0 ∨ ∀ n : ℤ, (n : ℚ) ≤ min extent limit →
      (n : ℚ) ≤ min (near + extent) limit := by
  have width : (0 : ℚ) ≤ limit := by exact_mod_cast image
  have stored : 0 ≤ truncate (min extent limit) := truncate_nonneg (le_min positive width)
  have zero : truncate 0 = 0 := rfl
  simp only [Intersection,clipAxis,max_eq_left outside.le,sub_zero,zero]
  rcases lt_or_ge (near + extent) 0 with missed | reached
  · -- the candidate lies before the image, and nothing but a sign is asked of the extent
    refine iff_of_true ⟨fun meets => ?_,fun _ => stored⟩ (Or.inl missed)
    exact absurd (meets.trans (min_le_left _ _)) (not_le.mpr missed)
  · have meets : 0 ≤ min (near + extent) limit := le_min reached width
    have grown : min (near + extent) limit ≤ min extent limit := min_le_min_right _ (by linarith)
    rw [← truncate_eq_iff meets grown]
    constructor
    · intro intersection
      exact Or.inr (intersection.left meets).right.left
    · intro same
      have equal := same.resolve_left (not_lt.mpr reached)
      refine ⟨fun _ => ⟨trivial,equal,?_⟩,fun _ => stored⟩
      rw [equal]
      simpa using (truncate_le meets).trans (min_le_left _ _)

private theorem clipAxis_intersection_iff {near extent : ℚ} {limit : Int} (positive : 0 ≤ extent)
    (image : 0 ≤ limit) :
    Intersection near (near + extent) limit (clipAxis near extent limit).1
      (clipAxis near extent limit).2 ↔
      ClipsExactly near (near + extent) extent limit := by
  rcases le_or_gt 0 near with inside | outside
  · rw [clipAxis_kept_iff positive inside]
    simp [ClipsExactly,inside,not_lt.mpr inside]
  · rw [clipAxis_cut_iff positive image outside]
    simp [ClipsExactly,outside,not_le.mpr outside]

/-- The stored box is the intersection of the candidate with the image exactly when both axes clip
exactly. -/
theorem candidateBox_intersection_iff (processed : ProcessedImage) (cx cy w h : ℚ) (wide : 0 ≤ w)
    (high : 0 ≤ h) (xScale : 0 < processed.xScale) (yScale : 0 < processed.yScale)
    (width : 0 ≤ processed.originalWidth) (height : 0 ≤ processed.originalHeight) :
    let box := candidateBox processed cx cy w h
    let left := (cx - w / 2) * processed.xScale
    let right := (cx + w / 2) * processed.xScale
    let top := (cy - h / 2) * processed.yScale
    let bottom := (cy + h / 2) * processed.yScale
    (Intersection left right processed.originalWidth box.x box.width ∧
      Intersection top bottom processed.originalHeight box.y box.height) ↔
    (ClipsExactly left right (w * processed.xScale) processed.originalWidth ∧
      ClipsExactly top bottom (h * processed.yScale) processed.originalHeight) := by
  intro box left right top bottom
  have leftHalf : (cx - w * (1 / 2)) * processed.xScale = left := by ring
  have topHalf : (cy - h * (1 / 2)) * processed.yScale = top := by ring
  have rightEdge : right = left + w * processed.xScale := by ring
  have bottomEdge : bottom = top + h * processed.yScale := by ring
  have stored : box = _ := candidateBox_axes processed cx cy w h
  rw [leftHalf,topHalf] at stored
  rw [rightEdge,bottomEdge,stored]
  exact and_congr (clipAxis_intersection_iff (mul_nonneg wide xScale.le) width)
    (clipAxis_intersection_iff (mul_nonneg high yScale.le) height)

/-- A box that reaches five pixels past the left border keeps its whole width. -/
theorem leftCut_keeps_width : ∃ processed : ProcessedImage, 0 < processed.xScale ∧
    0 < processed.yScale ∧
    processed.originalWidth = 100 ∧ processed.originalHeight = 100 ∧
    let box := candidateBox processed 0 50 10 10
    box = ⟨0,45,10,10⟩ ∧ ¬ Intersection ((0 - 10 / 2) * processed.xScale)
      ((0 + 10 / 2) * processed.xScale)
      processed.originalWidth box.x box.width := by
  refine ⟨⟨1,100,100,1,1,0⟩,by decide,by decide,rfl,rfl,by decide +kernel,?_⟩
  intro intersection
  have equal := (intersection.left (by decide +kernel)).right.left
  exact absurd equal (by decide +kernel)

/-- A candidate the right and the lower border cut. -/
theorem bordering_intersection :
    let processed : ProcessedImage := ⟨1,100,100,1,1,0⟩
    let box := candidateBox processed 98 96 10 10
    Intersection ((98 - 10 / 2) * 1) ((98 + 10 / 2) * 1) 100 box.x box.width ∧
      Intersection ((96 - 10 / 2) * 1) ((96 + 10 / 2) * 1) 100 box.y box.height := by
  apply (candidateBox_intersection_iff ⟨1,100,100,1,1,0⟩ 98 96 10 10 (by norm_num) (by norm_num)
    (by norm_num)
    (by norm_num) (by norm_num) (by norm_num)).mpr
  constructor <;> exact Or.inl (by norm_num)

section Stored
variable {fails : Failures} {output : List ℚ} {processed : ProcessedImage} {config : ModelConfig}

def BoxesInside (processed : ProcessedImage) (scratch : Scratch) : Prop :=
  ∀ box ∈ scratch.boxes, Rect.Inside box processed.originalWidth processed.originalHeight

private theorem keeps_attempt (Inv : Scratch → Prop) (fails : Failures) (site : Site) :
    Keeps Inv (attempt fails site) := by
  unfold attempt
  split
  · exact keeps_throw Inv _
  · exact keeps_pure Inv ()

private theorem keeps_store (i : Nat) (box : Rect) (score : ℚ) (classId : Int)
    (inside : Rect.Inside box processed.originalWidth processed.originalHeight) :
    Keeps (BoxesInside processed) (store fails i box score classId) := by
  refine (keeps_attempt _ fails _).bind fun _ => Keeps.bind ?_ fun _ =>
    (keeps_attempt _ fails _).bind fun _ =>
    Keeps.bind ?_ fun _ => (keeps_attempt _ fails _).bind fun _ => ?_
  · intro scratch holds other member
    rcases List.mem_append.mp member with earlier | added
    · exact holds other earlier
    · rw [List.mem_singleton.mp added]
      exact inside
  · exact fun _ holds => holds
  · exact fun _ holds => holds

private theorem keeps_candidate (i : Nat) :
    Keeps (BoxesInside processed) (candidate fails output processed config i) := by
  have read (row : Int) : Keeps (BoxesInside processed)
      (liftExcept (element output row config.numDetections i) : EStateM Abort Scratch ℚ) :=
        keeps_liftExcept _ _
  refine (keeps_liftExcept _ _).bind fun best => ?_
  split
  · exact keeps_pure _ ()
  · exact (read 0).bind fun cx => (read 1).bind fun cy => (read 2).bind fun w => (read 3).bind fun h =>
      keeps_store i _ _ _ (candidateBox_inside processed cx cy w h)

private theorem keeps_selectDetections (Inv : Scratch → Prop) (scratch : Scratch) (indices : List Int) :
    Keeps Inv (selectDetections fails scratch indices) := by
  apply keeps_foldlM
  intro detections entry
  exact (keeps_attempt Inv fails _).bind fun _ => (keeps_liftExcept Inv _).bind fun _ =>
    keeps_pure Inv _

private theorem candidateLoop_inside (scratch : Scratch) :
    BoxesInside processed (final (candidateLoop fails output processed config scratch)) := by
  have nothing : BoxesInside processed .empty := nofun
  have rest : Keeps (BoxesInside processed) (do
      attempt fails .reserveBoxes
      attempt fails .reserveScores
      attempt fails .reserveClassIds
      forM (List.range config.numDetections.toNat) (candidate fails output processed config)) :=
    (keeps_attempt _ fails _).bind fun _ => (keeps_attempt _ fails _).bind fun _ =>
      (keeps_attempt _ fails _).bind fun _ => keeps_forM keeps_candidate _
  exact rest .empty nothing

private theorem postprocessDetections_inside (lib : External) (inferenceStartTimeUs now : Int)
    (scratch : Scratch) :
    BoxesInside processed
      (final (postprocessDetections lib fails output processed inferenceStartTimeUs config now scratch)) := by
  refine final_bind (candidateLoop_inside scratch) fun _ => (keeps_get _).bind fun found =>
    (keeps_attempt _ fails _).bind fun _ => ?_
  cases lib.nmsBoxes found.boxes found.scores config.confidenceThreshold config.nmsThreshold with
  | none => exact keeps_throw _ _
  | some indices => exact (keeps_selectDetections _ found indices).bind fun _ => keeps_pure _ _

/-- What follows the loop leaves the scratch vectors alone. -/
theorem postprocessDetections_final (lib : External) (inferenceStartTimeUs now : Int)
    {scratch stored : Scratch}
    (loop : candidateLoop fails output processed config scratch = .ok ⟨⟩ stored) :
    final (postprocessDetections lib fails output processed inferenceStartTimeUs config now scratch) =
      stored := by
  rw [postprocessDetections,bind_ok loop]
  refine ((keeps_get (· = stored)).bind fun found => (keeps_attempt _ fails _).bind fun _ =>
    ?_) stored rfl
  cases lib.nmsBoxes found.boxes found.scores config.confidenceThreshold config.nmsThreshold with
  | none => exact keeps_throw _ _
  | some indices => exact (keeps_selectDetections _ found indices).bind fun _ => keeps_pure _ _

end Stored

/-- However a call ends and whatever it found in the scratch vectors, the boxes it stored lie in the
image. -/
theorem stored_inside (lib : External) (fails : Failures) (output : List ℚ) (processed : ProcessedImage)
    (inferenceStartTimeUs : Int) (config : ModelConfig) (now : Int) (scratch : Scratch) (box : Rect)
    (stored : box ∈ (final
      (postprocessDetections lib fails output processed inferenceStartTimeUs config now scratch)).boxes) :
    0 ≤ box.x ∧ 0 ≤ box.y ∧ box.x + box.width ≤ processed.originalWidth ∧
      box.y + box.height ≤ processed.originalHeight :=
  postprocessDetections_inside lib inferenceStartTimeUs now scratch box stored

theorem bordering_stored_inside :
    let lib : External := ⟨fun _ _ _ _ _ _ => [],fun _ _ => [],fun _ _ _ _ => some [0]⟩
    let processed : ProcessedImage := ⟨1,100,100,1,1,0⟩
    let result := postprocessDetections lib .none [98,50,10,10,1] processed 0
      ⟨640,1,1,1 / 4,9 / 20⟩ 0 .empty
    (final result).boxes = [⟨93,45,7,10⟩] ∧ (93 : Int) + 7 ≤ 100 := by
  refine ⟨by decide +kernel,?_⟩
  exact (stored_inside ⟨fun _ _ _ _ _ _ => [],fun _ _ => [],fun _ _ _ _ => some [0]⟩ .none
    [98,50,10,10,1] ⟨1,100,100,1,1,0⟩ 0 ⟨640,1,1,1 / 4,9 / 20⟩ 0 .empty ⟨93,45,7,10⟩
    (by decide +kernel)).right.right.left

end YoloEngine.ImageProcessor
