import YoloEngine.Vision.Clipping
import YoloEngine.Vision.ClassLookup

/-! What a call of `postprocessDetections` that returned has returned, whatever the tensor was and
wherever it might have thrown: the detections are the candidates that suppression selected, in
the order in which it named them. -/
namespace YoloEngine.ImageProcessor
open Foundation Foundation.Aborting
variable {lib : External} {fails : Failures} {output : List ℚ} {processed : ProcessedImage}
  {config : ModelConfig}

/-- What is read of the columns, whatever boxes are listed for them. -/
private theorem detectionAt_columns {box : Nat → Rect} {idx : Int} {detection : Detection}
    (found : detectionAt ⟨(kept output config).map box,
      (kept output config).map (columnScore output config),
      (kept output config).map (columnClass output config)⟩ idx = .ok detection) :
    ∃ i className, 0 ≤ idx ∧ (kept output config)[idx.toNat]? = some i ∧
      0 ≤ columnClass output config i ∧
      cocoClasses[(columnClass output config i).toNat]? = some className ∧
      detection = ⟨box i,columnScore output config i,columnClass output config i,className⟩ := by
  obtain ⟨_,boxRead,rest⟩ := except_bind_inv found
  obtain ⟨confidence,scoreRead,rest⟩ := except_bind_inv rest
  obtain ⟨classId,classRead,rest⟩ := except_bind_inv rest
  obtain ⟨className,nameRead,rest⟩ := except_bind_inv rest
  cases Except.ok.inj rest
  obtain ⟨start,boxFound⟩ := elementAt_inv boxRead
  obtain ⟨_,scoreFound⟩ := elementAt_inv scoreRead
  obtain ⟨_,classFound⟩ := elementAt_inv classRead
  obtain ⟨known,named⟩ := elementAt_inv nameRead
  simp only [List.getElem?_map,Option.map_eq_some_iff] at boxFound scoreFound classFound
  obtain ⟨i,place,rfl⟩ := boxFound
  obtain ⟨j,same,rfl⟩ := scoreFound
  cases Option.some.inj (place.symm.trans same)
  obtain ⟨j,same,rfl⟩ := classFound
  cases Option.some.inj (place.symm.trans same)
  exact ⟨i,className,start,place,known,named,rfl⟩

theorem detectionAt_inv {idx : Int} {detection : Detection}
    (found : detectionAt (decoded output config processed) idx = .ok detection) :
    Selects output config processed idx detection := detectionAt_columns found

private theorem selectRounds_inv {indices : List Int} {start : Nat}
    {earlier detections : List Detection} {scratch after : Scratch}
    (ran : (indices.zipIdx start).foldlM
      (select fails (decoded output config processed)) earlier scratch = .ok detections after) :
    ∃ later, detections = earlier ++ later ∧
    List.Forall₂ (Selects output config processed) indices later := by
  induction indices generalizing start earlier scratch with
  | nil =>
    cases ran
    exact ⟨[],(List.append_nil _).symm,.nil⟩
  | cons idx rest ih =>
    rw [List.zipIdx_cons,List.foldlM_cons] at ran
    obtain ⟨grown,middle,round,remaining⟩ := bind_inv ran
    obtain ⟨detection,_,looked,returned⟩ := bind_inv (attempt_bind_inv round)
    cases returned
    obtain ⟨later,rfl,selected⟩ := ih remaining
    exact ⟨detection :: later,by simp,.cons (detectionAt_inv (liftExcept_inv looked).left) selected⟩

private theorem selectDetections_inv {indices : List Int} {scratch after : Scratch}
    {detections : List Detection}
    (ran : selectDetections fails (decoded output config processed) indices scratch =
      .ok detections after) :
    List.Forall₂ (Selects output config processed) indices detections := by
  obtain ⟨later,rfl,selected⟩ := selectRounds_inv ran
  exact selected

/-- A result is what suppression makes of the kept columns. -/
theorem postprocessDetections_inv {inferenceStartTimeUs now : Int} {scratch after : Scratch}
    {results : DetectionResults}
    (returned : postprocessDetections lib fails output processed inferenceStartTimeUs config now scratch =
      .ok results after) :
    ∃ indices, lib.nmsBoxes (decoded output config processed).boxes
      (decoded output config processed).scores
        config.confidenceThreshold config.nmsThreshold = some indices ∧
      List.Forall₂ (Selects output config processed) indices results.detections := by
  obtain ⟨_,stored,loop,rest⟩ := bind_inv returned
  obtain ⟨found,_,got,rest⟩ := bind_inv rest
  cases got
  have rest := attempt_bind_inv rest
  cases candidateLoop_inv loop
  cases suppressed : lib.nmsBoxes (decoded output config processed).boxes
    (decoded output config processed).scores
      config.confidenceThreshold config.nmsThreshold with
  | none =>
    rw [suppressed] at rest
    contradiction
  | some indices =>
    rw [suppressed] at rest
    obtain ⟨detections,_,selected,rest⟩ := bind_inv rest
    cases rest
    exact ⟨indices,rfl,selectDetections_inv selected⟩

/-- A selected candidate's box lies in the image, and its name is that of its class. -/
theorem Selects.inside {idx : Int} {detection : Detection}
    (selects : Selects output config processed idx detection) :
    Rect.Inside detection.box processed.originalWidth processed.originalHeight ∧
      0 ≤ detection.classId ∧ cocoClasses[detection.classId.toNat]? = some detection.className := by
  obtain ⟨i,className,_,_,known,named,rfl⟩ := selects
  exact ⟨candidateBox_inside processed _ _ _ _,known,named⟩

end YoloEngine.ImageProcessor
