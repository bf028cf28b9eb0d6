import YoloEngine.Vision.Decoder
import Mathlib.Data.List.Forall2

/-! Looking up the names of the selected candidates. A threshold that is not positive lets
candidates without a class into the vectors; suppression compares strictly, so it selects none
of them, and every index the lookups use is in range. -/
namespace YoloEngine.ImageProcessor
open Foundation Foundation.Aborting

/-- `NMSBoxes` refuses negative thresholds and selects only candidates that score above the
threshold. -/
structure Suppresses (lib : External) : Prop where
  throws : ∀ boxes scores scoreThreshold nmsThreshold, scoreThreshold < 0 ∨ nmsThreshold < 0 →
    lib.nmsBoxes boxes scores scoreThreshold nmsThreshold = none
  selects : ∀ boxes scores scoreThreshold nmsThreshold indices,
    lib.nmsBoxes boxes scores scoreThreshold nmsThreshold = some indices →
    ∀ idx ∈ indices, 0 ≤ idx ∧ idx < boxes.length ∧ ∃ score, scores[idx.toNat]? = some score ∧
    scoreThreshold < score

section Best
variable {output : List ℚ} {config : ModelConfig} {i : Nat}

theorem entry_le_columnScore {c : Nat} (known : c < config.numClasses.toNat) :
    entry output config (4 + c) i ≤ columnScore output config i :=
  le_peak (List.mem_map.mpr ⟨c,List.mem_range.mpr known,rfl⟩)

theorem columnClass_best (above : 0 < columnScore output config i) : ∃ c :
    Nat, columnClass output config i = c ∧
    c < config.numClasses.toNat ∧ entry output config (4 + c) i = columnScore output config i := by
  have member : columnScore output config i ∈ classScores output config i := peak_mem above
  have place := List.idxOf_lt_length_of_mem member
  have found := List.getElem_idxOf place
  simp only [classScores,List.getElem_map,List.getElem_range] at found
  refine ⟨(classScores output config i).idxOf (columnScore output config i),if_pos above,?_,found⟩
  simpa [classScores] using place

end Best

section Selected
variable {lib : External} {output : List ℚ} {config : ModelConfig} {processed : ProcessedImage}
  {indices : List Int}

theorem Suppresses.chosen (suppresses : Suppresses lib)
    (suppressed : lib.nmsBoxes (decoded output config processed).boxes
      (decoded output config processed).scores
      config.confidenceThreshold config.nmsThreshold = some indices) {idx : Int}
      (member : idx ∈ indices) {i : Nat}
    (place : (kept output config)[idx.toNat]? = some i) :
    0 ≤ config.confidenceThreshold ∧ config.confidenceThreshold < columnScore output config i := by
  obtain ⟨_,_,score,found,above⟩ := suppresses.selects _ _ _ _ _ suppressed idx member
  rw [decoded,List.getElem?_map,place,Option.map_some] at found
  refine ⟨?_,by rw [Option.some.inj found]; exact above⟩
  by_contra negative
  rw [suppresses.throws _ _ _ _ (Or.inl (not_le.mp negative))] at suppressed
  contradiction

/-- What a selected candidate's detection says of its column. -/
theorem Selects.best (suppresses : Suppresses lib)
    (suppressed : lib.nmsBoxes (decoded output config processed).boxes
      (decoded output config processed).scores
      config.confidenceThreshold config.nmsThreshold = some indices) {idx : Int}
      (member : idx ∈ indices)
    {detection : Detection} (selects : Selects output config processed idx detection) :
    0 ≤ detection.classId ∧ detection.classId < config.numClasses ∧
    config.confidenceThreshold < detection.confidence ∧
    ∃ i ∈ kept output config, detection.box = columnBox output config processed i ∧
      entry output config (4 + detection.classId.toNat) i = detection.confidence ∧
      ∀ c < config.numClasses.toNat, entry output config (4 + c) i ≤ detection.confidence := by
  obtain ⟨i,className,_,place,_,_,rfl⟩ := selects
  obtain ⟨nonneg,above⟩ := suppresses.chosen suppressed member place
  obtain ⟨c,best,known,scored⟩ := columnClass_best (nonneg.trans_lt above)
  simp only [best,Int.toNat_natCast]
  exact ⟨Int.natCast_nonneg c,by omega,above,i,List.mem_of_getElem? place,rfl,scored,
    fun _ => entry_le_columnScore⟩

end Selected

/-- When the loop has ended, `NMSBoxes` throws, or every lookup is in range and every detection is
the best class of its column, above the threshold. An exception elsewhere only cuts this short. -/
theorem lookups_in_range {lib : External} (suppresses : Suppresses lib) (output : List ℚ)
    {config : ModelConfig} (named : config.numClasses ≤ cocoClasses.length)
    (processed : ProcessedImage) (inferenceStartTimeUs now : Int) (scratch : Scratch) :
    (∀ stored, candidateLoop .none output processed config scratch = .ok ⟨⟩ stored →
      (lib.nmsBoxes stored.boxes stored.scores config.confidenceThreshold config.nmsThreshold = none ∧
        postprocessDetections lib .none output processed inferenceStartTimeUs config now scratch =
          .error .exception stored) ∨
      ∃ results, postprocessDetections lib .none output processed inferenceStartTimeUs config now scratch =
          .ok results stored ∧
        ∀ detection ∈ results.detections,
          0 ≤ detection.classId ∧ detection.classId < config.numClasses ∧
          config.confidenceThreshold < detection.confidence ∧
          ∃ i ∈ kept output config, detection.box = columnBox output config processed i ∧
            entry output config (4 + detection.classId.toNat) i = detection.confidence ∧
            ∀ c < config.numClasses.toNat, entry output config (4 + c) i ≤ detection.confidence) ∧
    (∀ fails, postprocessDetections lib fails output processed inferenceStartTimeUs config now scratch =
        postprocessDetections lib .none output processed inferenceStartTimeUs config now scratch ∨
      ∃ reached, postprocessDetections lib fails output processed inferenceStartTimeUs config now scratch =
        .error .exception reached) ∧
    (Tabular output config →
      ∃ stored, candidateLoop .none output processed config scratch = .ok ⟨⟩ stored) := by
  refine ⟨?_,fun fails =>
    postprocessDetections_interrupts fails output processed config lib _ _ scratch,
    fun table => ⟨_,candidateLoop_ok table processed scratch⟩⟩
  intro stored loop
  cases candidateLoop_inv loop
  cases suppressed : lib.nmsBoxes (decoded output config processed).boxes
    (decoded output config processed).scores
      config.confidenceThreshold config.nmsThreshold with
  | none => exact Or.inl ⟨rfl,postprocessDetections_throws loop suppressed inferenceStartTimeUs now⟩
  | some indices =>
    have inRange : ∀ idx ∈ indices, 0 ≤ idx ∧ idx < (kept output config).length := by
      intro idx member
      obtain ⟨start,before,_⟩ := suppresses.selects _ _ _ _ _ suppressed idx member
      rw [decoded,List.length_map] at before
      exact ⟨start,before⟩
    have classes : ∀ idx ∈ indices, ∀ i, (kept output config)[idx.toNat]? = some i →
        0 ≤ columnClass output config i ∧ columnClass output config i < cocoClasses.length := by
      intro idx member i place
      obtain ⟨nonneg,above⟩ := suppresses.chosen suppressed member place
      obtain ⟨c,best,known,_⟩ := columnClass_best (nonneg.trans_lt above)
      omega
    obtain ⟨detections,selected⟩ := exists_selected processed inRange classes
    refine Or.inr
      ⟨_,postprocessDetections_selected loop suppressed selected inferenceStartTimeUs now,?_⟩
    intro detection member
    obtain ⟨place,inside,rfl⟩ := List.mem_iff_getElem.mp member
    have within : place < indices.length := by rw [selected.length_eq]; exact inside
    exact (selected.get within inside).best suppresses suppressed (List.getElem_mem within)

/-- Suppression that drops only what does not score above the threshold. -/
def thresholdOnly : External where
  blobFromImage := fun _ _ _ _ _ _ => []
  run := fun _ _ => []
  nmsBoxes := fun boxes scores scoreThreshold nmsThreshold =>
    if scoreThreshold < 0 ∨ nmsThreshold < 0 then none
    else some (((List.range boxes.length).filter
      (fun place => scores[place]?.any (fun score => scoreThreshold < score))).map Int.ofNat)

theorem thresholdOnly_suppresses : Suppresses thresholdOnly where
  throws := fun _ _ _ _ negative => if_pos negative
  selects := by
    intro boxes scores scoreThreshold nmsThreshold indices suppressed idx member
    simp only [thresholdOnly] at suppressed
    split at suppressed
    · contradiction
    · cases Option.some.inj suppressed
      obtain ⟨place,chosen,rfl⟩ := List.mem_map.mp member
      obtain ⟨inside,above⟩ := List.mem_filter.mp chosen
      obtain ⟨score,found,higher⟩ := (Option.any_eq_true _ _).mp above
      exact ⟨Int.natCast_nonneg _,by simpa using inside,score,found,by simpa using higher⟩

/-- With a threshold of zero the first candidate is listed without a class, and is not selected. -/
theorem unclassified_lookups_in_range :
    let output : List ℚ := [50,50,50,50,10,10,10,10,-1,1 / 2]
    let processed : ProcessedImage := ⟨1,100,100,1,1,0⟩
    let config : ModelConfig := ⟨640,1,2,0,9 / 20⟩
    (decoded output config processed).classIds = [-1,0] ∧
    ∃ results stored,
    postprocessDetections thresholdOnly .none output processed 0 config 5 .empty = .ok results stored ∧
      ∀ detection ∈ results.detections, 0 ≤ detection.classId := by
  intro output processed config
  refine ⟨by decide +kernel,?_⟩
  obtain ⟨safe,_,table⟩ := lookups_in_range thresholdOnly_suppresses output
    (show config.numClasses ≤ _ by decide)
    processed 0 5 .empty
  obtain ⟨stored,loop⟩ := table ⟨by decide,by decide,by decide,by decide⟩
  obtain ⟨thrown,_⟩ | ⟨results,returned,sound⟩ := safe stored loop
  · cases candidateLoop_inv loop
    exact absurd thrown (by decide +kernel)
  · exact ⟨results,stored,returned,fun detection member => (sound detection member).left⟩

end YoloEngine.ImageProcessor
