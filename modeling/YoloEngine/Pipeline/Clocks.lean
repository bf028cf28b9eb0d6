import YoloEngine.Pipeline.Consumer

/-! The times a result reports. The consumer takes the start from `high_resolution_clock` and
postprocessing the end from `steady_clock`; the difference is then narrowed to an `int`. Both
clocks run alike, and each reads the true instant plus an epoch of its own. -/
namespace YoloEngine.Consumer
open Foundation.Aborting

private theorem narrow32_eq_iff {reading elapsed : Int} (nonneg : 0 ≤ elapsed) :
    narrow32 reading = elapsed ↔ (2^32 : Int) ∣ elapsed - reading ∧ elapsed < 2^31 := by
  rw [narrow32,Int.bmod_eq_iff (by decide)]
  constructor
  · intro narrowed
    obtain ⟨_,below,multiple⟩ := narrowed
    exact ⟨multiple,below⟩
  · intro narrowed
    obtain ⟨multiple,below⟩ := narrowed
    exact ⟨by omega,below,multiple⟩

/-- The two times of a result are the time between the readings exactly when the epochs lie a
multiple of 2^32 microseconds apart and that time fits an `int`. -/
theorem reported_elapsed_iff (lib : External) (config : ModelConfig) {iteration : Iteration}
    {buffer : TensorBuffer} {processed : ProcessedImage} {scratch after : Scratch}
    {results : DetectionResults}
    (returned : detect lib config iteration buffer processed scratch = .ok results after)
    (first second highResolutionEpoch steadyEpoch : Int) (ordered : first ≤ second)
    (started : iteration.inferenceStart = first + highResolutionEpoch)
    (read : iteration.postprocessStart = second + steadyEpoch) :
    (results.totalTimeUs = second - first ∧ results.inferenceTimeUs = second - first) ↔
      (2^32 : Int) ∣ highResolutionEpoch - steadyEpoch ∧ second - first < 2^31 := by
  obtain ⟨outputData,_,_,postprocessed⟩ := bind_inv returned
  have apart : second - first - (iteration.postprocessStart - iteration.inferenceStart) =
      highResolutionEpoch - steadyEpoch := by
    rw [started,read]
    omega
  rw [ImageProcessor.postprocessDetections_results postprocessed,and_self,
    narrow32_eq_iff (by omega),apart]

/-- An epoch in 1970 against one at boot: a hundred microseconds are reported as a negative time. -/
theorem systemClock_reports_garbage :
    let lib : External := ⟨fun _ _ _ _ _ _ => [],fun _ _ => [],fun _ _ _ _ => some []⟩
    let iteration : Iteration := ⟨0,0,1700000000000000,100,0,.none⟩
    ∃ results, detect lib ⟨1,0,0,1 / 4,9 / 20⟩ iteration ⟨[0],[1,1,1,1],1,1,rfl⟩ ⟨1,1,1,1,1,0⟩ .empty =
        .ok results .empty ∧
      results.totalTimeUs = -404635548 ∧ results.inferenceTimeUs = -404635548 ∧
      ¬ results.totalTimeUs = 100 - 0 := by
  intro lib iteration
  exact ⟨_,rfl,by decide,by decide,by decide⟩

theorem sameEpoch_reports_elapsed :
    let lib : External := ⟨fun _ _ _ _ _ _ => [],fun _ _ => [],fun _ _ _ _ => some []⟩
    let iteration : Iteration := ⟨0,0,1700000000000000,1700000000000100,0,.none⟩
    ∃ results, detect lib ⟨1,0,0,1 / 4,9 / 20⟩ iteration ⟨[0],[1,1,1,1],1,1,rfl⟩ ⟨1,1,1,1,1,0⟩ .empty =
        .ok results .empty ∧ results.totalTimeUs = 100 - 0 ∧ results.inferenceTimeUs = 100 - 0 := by
  intro lib iteration
  obtain ⟨results,returned⟩ : ∃ results,
      detect lib ⟨1,0,0,1 / 4,9 / 20⟩ iteration ⟨[0],[1,1,1,1],1,1,rfl⟩ ⟨1,1,1,1,1,0⟩ .empty =
        .ok results .empty := ⟨_,rfl⟩
  have elapsed := (reported_elapsed_iff lib _ returned 0 100 1700000000000000 1700000000000000
    (by decide) rfl rfl).mpr
    ⟨by decide,by decide⟩
  exact ⟨results,returned,elapsed.left,elapsed.right⟩

end YoloEngine.Consumer
