import YoloEngine.Pipeline.Genuine
import YoloEngine.Vision.Drawing

/-! What `displayThread` draws over a frame, and that it draws the boxes which `yolov8n_image` draws
over the same image. However the threads have overtaken each other in the queues, a frame that
reaches the screen is shown with the detections of that very frame. -/
namespace YoloEngine
open Foundation
open ImageProgram (Environment Drawing drawn detect networkOutput InsideImage)

namespace Display

structure TextSize where
  width : Int
  height : Int
  baseline : Int

/-- The box, its label, the corners of the label's background and the point where the text begins. -/
structure Overlay where
  box : Rect
  label : String
  background : (Int × Int) × (Int × Int)
  origin : Int × Int

/-- `decimal` is `std::to_string` of a `float`, of which `substr(0, 4)` keeps four characters. -/
def shortened (decimal : ℚ → String) (confidence : ℚ) :
    String := String.ofList ((decimal confidence).toList.take 4)

def overlay (getTextSize : String → TextSize) (decimal : ℚ → String) (detection : Detection) :
    Overlay :=
  let box := detection.box
  let label := detection.className ++ " " ++ shortened decimal detection.confidence
  let size := getTextSize label
  ⟨box,label,((box.x,box.y - size.height - size.baseline),(box.x + size.width,box.y)),(box.x,box.y - 5)⟩

def overlays (getTextSize : String → TextSize) (decimal : ℚ → String) (pair : FrameWithResults) :
    List Overlay :=
  pair.results.detections.map (overlay getTextSize decimal)

/-- The same box with the same class name and the same confidence, each program writing the number
its own way. -/
def Alike (format decimal : ℚ → String) (overlay : Overlay) (drawing : Drawing) : Prop :=
  overlay.box = drawing.box ∧ ∃ className confidence,
    overlay.label = className ++ " " ++ shortened decimal confidence ∧
    drawing.label = className ++ " " ++ format confidence

private theorem overlays_alike (getTextSize : String → TextSize) (decimal format : ℚ → String)
    (pair : FrameWithResults) :
    List.Forall₂ (Alike format decimal) (overlays getTextSize decimal pair)
      (pair.results.detections.map (drawn format)) := by
  rw [overlays,List.forall₂_map_left_iff,List.forall₂_map_right_iff,List.forall₂_same]
  exact fun detection _ => ⟨rfl,detection.className,detection.confidence,rfl,rfl⟩

end Display

namespace Accesses
open Concurrent
open Pipeline (Action takenFrame takenResults)
open Display (overlays)
variable {lib : External} {config : ModelConfig} {buffer : TensorBuffer}
  {frameSize resultSize : Nat} {state : State}

/-- A pair on the screen whose frame is not a released one has been computed from a frame of the
camera. -/
private theorem displayed_computed (created : TensorBuffer.new config = .ok buffer)
    (frameSlots : 1 ≤ frameSize) (resultSlots : 1 ≤ resultSize)
    (reachable : (program lib config buffer frameSize resultSize).Reachable Machine.always state)
    {pair : FrameWithResults} (member : pair ∈ state.displayed)
    (loaded : pair.frame.empty = false) :
    pair.frame ∈ state.captured ∧
      ∃ k iteration, Consumer.fresh lib config k pair.frame iteration = .ok (some pair) := by
  have recorded := recorded_reachable reachable
  have computed := computed_reachable created reachable
  have everywhere : (program lib config buffer frameSize resultSize).Reachable
      (onQueues lib config Machine.always) state :=
    reachable.weaken (fun _ _ _ => ⟨fun _ _ => trivial,fun _ _ => trivial⟩)
  rw [recorded.displayed] at member
  obtain ⟨cell,answer,rfl⟩ := List.mem_map.mp member
  obtain ⟨original,source,rfl | rfl⟩ :=
    Interleaving.answers_sourced resultSlots (results_reachable everywhere) cell answer
  · obtain ⟨dequeued,known⟩ := computed.results original source
    refine ⟨?_,known⟩
    rw [recorded.dequeued] at dequeued
    obtain ⟨cell,answer,same⟩ := List.mem_map.mp dequeued
    obtain ⟨value,source,rfl | rfl⟩ :=
      Interleaving.answers_sourced frameSlots (frames_reachable everywhere) cell answer
    · rw [recorded.captured] at source
      rw [show takenResults (.item original) = original from rfl,← same]
      exact (List.mem_filter.mp source).left
    · rw [show (takenResults (.item original)).frame = original.frame from rfl,← same] at loaded
      exact absurd loaded (show ¬ Mat.released.empty = false by decide)
  · exact absurd loaded (show ¬ Mat.released.empty = false by decide)

end Accesses
end YoloEngine
