import YoloEngine.Foundation.Argmax
import YoloEngine.Vision.ImageProcessor

/-! What postprocessing decodes. The tensor is a table with one column for each candidate:
four rows for the box and one for each class. A column is kept when its best class
scores high enough, and the three vectors list what is kept in column order. -/
namespace YoloEngine.ImageProcessor
open Foundation Foundation.Aborting

section Table
variable (output : List ℚ) (config : ModelConfig)

def entry (row i : Nat) : ℚ := output[row * config.numDetections.toNat + i]?.getD 0

def classScores (i : Nat) : List ℚ :=
  (List.range config.numClasses.toNat).map (fun c => entry output config (4 + c) i)

def columnScore (i : Nat) : ℚ := peak 0 (classScores output config i)

def columnClass (i : Nat) : Int :=
  let best := columnScore output config i
  if 0 < best then ((classScores output config i).idxOf best : Int) else -1

def columnBox (processed : ProcessedImage) (i : Nat) : Rect :=
  candidateBox processed (entry output config 0 i) (entry output config 1 i) (entry output config 2 i)
    (entry output config 3 i)

def kept : List Nat :=
  (List.range config.numDetections.toNat).filter (fun i => config.confidenceThreshold ≤
    columnScore output config i)

def decoded (processed : ProcessedImage) : Scratch where
  boxes := (kept output config).map (columnBox output config processed)
  scores := (kept output config).map (columnScore output config)
  classIds := (kept output config).map (columnClass output config)

/-- The detection of the candidate at index `idx` of the three vectors. -/
def Selects (processed : ProcessedImage) (idx : Int) (detection : Detection) : Prop :=
  ∃ i className, 0 ≤ idx ∧ (kept output config)[idx.toNat]? = some i ∧
    0 ≤ columnClass output config i ∧
    cocoClasses[(columnClass output config i).toNat]? = some className ∧
    detection = ⟨columnBox output config processed i,columnScore output config i,
      columnClass output config i,className⟩

end Table

/-- Scanning the classes of a column, however its entries are read. -/
theorem scan_ok {output : List ℚ} {config : ModelConfig} {i : Nat} {read : Nat → Except Abort ℚ}
    (reads : ∀ c < config.numClasses.toNat, read c = .ok (entry output config (4 + c) i)) :
    (List.range config.numClasses.toNat).foldlM (fun best (c : Nat) => do
      let score ← read c
      return if score > best.1 then (score,(c : Int)) else best) (0,-1) =
      .ok (columnScore output config i,columnClass output config i) := by
  have scanned : (columnScore output config i,columnClass output config i) =
      (List.range config.numClasses.toNat).foldl (fun best c =>
        scanStep best (entry output config (4 + c) i,c)) (0,-1) := by
    rw [scan_range,scan_eq]
    rfl
  rw [scanned]
  apply foldlM_except_ok
  intro c member best
  rw [except_bind_ok (reads c (List.mem_range.mp member))]
  rfl

/-- A loop that lists the columns scoring high enough, with a box for each. -/
theorem foldl_list (output : List ℚ) (config : ModelConfig) (box : Nat → Rect) (columns : List Nat)
    (scratch : Scratch) :
    let chosen := columns.filter (fun i => config.confidenceThreshold ≤ columnScore output config i)
    columns.foldl (fun scratch i => if columnScore output config i <
      config.confidenceThreshold then scratch
        else ⟨scratch.boxes ++ [box i],scratch.scores ++ [columnScore output config i],
          scratch.classIds ++ [columnClass output config i]⟩) scratch =
      ⟨scratch.boxes ++ chosen.map box,scratch.scores ++ chosen.map (columnScore output config),
        scratch.classIds ++ chosen.map (columnClass output config)⟩ := by
  induction columns generalizing scratch with
  | nil => simp
  | cons i rest ih =>
    rw [List.foldl_cons,ih]
    split
    next low => simp [not_le.mpr low]
    next high => simp [not_lt.mp high]

/-- The tensor has `4 + numClasses` rows of `numDetections` values, and all its indices are `int`s. -/
structure Tabular (output : List ℚ) (config : ModelConfig) : Prop where
  detections : 0 ≤ config.numDetections
  classes : 0 ≤ config.numClasses
  sized : (output.length : Int) = (4 + config.numClasses) * config.numDetections
  fits : (4 + config.numClasses) * config.numDetections ≤ 2^31 - 1

section Reading
variable {output : List ℚ} {config : ModelConfig} (table : Tabular output config)
include table

private theorem element_ok {row i : Nat} (rowInside : row < 4 + config.numClasses.toNat)
    (inside : i < config.numDetections.toNat) :
    element output row config.numDetections i = .ok (entry output config row i) := by
  obtain ⟨columns,detections⟩ := Int.eq_ofNat_of_zero_le table.detections
  obtain ⟨classes,known⟩ := Int.eq_ofNat_of_zero_le table.classes
  have sized := table.sized
  have fits := table.fits
  rw [detections,known] at sized fits
  rw [detections] at inside ⊢
  rw [known] at rowInside
  simp only [Int.toNat_natCast] at rowInside inside
  have length : output.length = (4 + classes) * columns := by exact_mod_cast sized
  have small : (4 + classes) * columns ≤ 2^31 - 1 := by
    have cast : (((4 + classes) * columns : ℕ) : ℤ) ≤ 2^31 - 1 := by push_cast; exact fits
    omega
  have offset : row * columns + columns ≤ (4 + classes) * columns := by
    rw [← Nat.succ_mul]
    exact Nat.mul_le_mul_right columns rowInside
  have rowSmall : row ≤ row * columns := Nat.le_mul_of_pos_right row (by omega)
  have index : row * columns + i < output.length := by omega
  have rowOk : int32 (row : ℤ) = .ok (row : ℤ) := int32_ok (by omega) (by omega)
  have offsetOk : int32 ((row : ℤ) * columns) = .ok ((row * columns : ℕ) : ℤ) := int32_mul (by omega)
  have indexOk : int32 (((row * columns : ℕ) : ℤ) + i) = .ok ((row * columns + i : ℕ) : ℤ) :=
    int32_add (by omega)
  have found : output[row * columns + i]? = some (entry output config row i) := by
    simp [entry,detections,index]
  rw [element,except_bind_ok rowOk,except_bind_ok offsetOk,except_bind_ok indexOk]
  exact elementAt_ok found

private theorem scoreClass_ok {i : Nat} (inside : i < config.numDetections.toNat) :
    scoreClass output config i = .ok (columnScore output config i,columnClass output config i) := by
  rw [scoreClass]
  apply scan_ok
  intro c known
  have read := element_ok table (Nat.add_lt_add_left known 4) inside
  rwa [Nat.cast_add,Nat.cast_ofNat] at read

def Scratch.add (output : List ℚ) (config : ModelConfig) (processed : ProcessedImage)
    (scratch : Scratch) (i : Nat) :
    Scratch :=
  if columnScore output config i < config.confidenceThreshold then scratch
  else ⟨scratch.boxes ++ [columnBox output config processed i],
    scratch.scores ++ [columnScore output config i],
    scratch.classIds ++ [columnClass output config i]⟩

private theorem candidate_ok (processed : ProcessedImage) {i : Nat}
    (inside : i < config.numDetections.toNat) (scratch : Scratch) :
    candidate .none output processed config i scratch =
      .ok ⟨⟩ (Scratch.add output config processed scratch i) := by
  have read (row : Int) (n : Nat) (same : (n : Int) = row) (early : n < 4) :
      (liftExcept (element output row config.numDetections i) : EStateM Abort Scratch ℚ) scratch =
        .ok (entry output config n i) scratch := by
    rw [← same,element_ok table (by omega) inside]
    rfl
  have best : (liftExcept (scoreClass output config i) : EStateM Abort Scratch (ℚ × Int)) scratch =
      .ok (columnScore output config i,columnClass output config i) scratch := by
    rw [scoreClass_ok table inside]
    rfl
  rw [candidate,bind_ok best,Scratch.add]
  split
  · rfl
  · rw [bind_ok (read 0 0 rfl (by decide)),bind_ok (read 1 1 rfl (by decide)),
      bind_ok (read 2 2 rfl (by decide)),bind_ok (read 3 3 rfl (by decide))]
    rfl

omit table in
private theorem foldl_add (processed : ProcessedImage) :
    (List.range config.numDetections.toNat).foldl (Scratch.add output config processed) .empty =
      decoded output config processed :=
  foldl_list output config (columnBox output config processed) _ .empty

theorem candidateLoop_ok (processed : ProcessedImage) (scratch : Scratch) :
    candidateLoop .none output processed config scratch = .ok ⟨⟩ (decoded output config processed) := by
  have rounds : forM (List.range config.numDetections.toNat)
    (candidate .none output processed config) .empty =
      .ok ⟨⟩ ((List.range config.numDetections.toNat).foldl
        (Scratch.add output config processed) .empty) :=
    forM_ok _ (fun i member => candidate_ok table processed (List.mem_range.mp member)) _
  calc
    candidateLoop .none output processed config scratch =
        forM (List.range config.numDetections.toNat)
          (candidate .none output processed config) .empty := rfl
    _ = .ok ⟨⟩ (decoded output config processed) := by rw [rounds,foldl_add]

end Reading

section Completed
variable {fails : Failures} {output : List ℚ} {processed : ProcessedImage} {config : ModelConfig}

private theorem element_inv {row i : Nat} (columns : 0 ≤ config.numDetections) {value : ℚ}
    (read : element output row config.numDetections i = .ok value) :
    value = entry output config row i := by
  obtain ⟨first,rowRead,rest⟩ := except_bind_inv read
  obtain ⟨offset,offsetRead,rest⟩ := except_bind_inv rest
  obtain ⟨index,indexRead,found⟩ := except_bind_inv rest
  cases int32_inv rowRead
  cases int32_inv offsetRead
  cases int32_inv indexRead
  obtain ⟨_,found⟩ := elementAt_inv found
  obtain ⟨detections,known⟩ := Int.eq_ofNat_of_zero_le columns
  have place : ((row : Int) * config.numDetections + i).toNat =
    row * config.numDetections.toNat + i := by
    rw [known,Int.toNat_natCast]
    exact_mod_cast Int.toNat_natCast (row * detections + i)
  rw [entry,← place,found]
  rfl

/-- A scan that ended has read the scores of its column. -/
private theorem scoreClass_reads {i : Nat} (columns : 0 ≤ config.numDetections) {best : ℚ × Int}
    (ran : scoreClass output config i = .ok best) :
    ∀ c < config.numClasses.toNat, element output (4 + c) config.numDetections i =
      .ok (entry output config (4 + c) i) := by
  intro c known
  obtain ⟨before,after,round⟩ := foldlM_each ran c (List.mem_range.mpr known)
  obtain ⟨score,read,_⟩ := except_bind_inv round
  have same : score = entry output config (4 + c) i :=
    element_inv columns (by rw [Nat.cast_add]; exact read)
  subst same
  exact read

private theorem attempt_inv {site : Site} {scratch after : Scratch}
    (passed : attempt fails site scratch = .ok ⟨⟩ after) :
    after = scratch := by
  unfold attempt at passed
  split at passed
  · contradiction
  · cases passed
    rfl

theorem attempt_bind_inv {β : Type} {site : Site} {f : Unit → EStateM Abort Scratch β}
    {scratch after : Scratch} {value : β}
    (ran : (attempt fails site >>= f) scratch = .ok value after) :
    f ⟨⟩ scratch = .ok value after := by
  obtain ⟨_,_,passed,rest⟩ := bind_inv ran
  cases attempt_inv passed
  exact rest

private theorem store_inv {i : Nat} {box : Rect} {score : ℚ} {classId : Int} {scratch after : Scratch}
    (stored : store fails i box score classId scratch = .ok ⟨⟩ after) :
    after = ⟨scratch.boxes ++ [box],scratch.scores ++ [score],scratch.classIds ++ [classId]⟩ := by
  obtain ⟨_,_,added,rest⟩ := bind_inv (attempt_bind_inv stored)
  cases added
  obtain ⟨_,_,added,rest⟩ := bind_inv (attempt_bind_inv rest)
  cases added
  cases attempt_bind_inv rest
  rfl

/-- What a round that ended has read, and what it stored then. -/
theorem candidate_cases {i : Nat} (columns : 0 ≤ config.numDetections) {scratch after : Scratch}
    (ran : candidate fails output processed config i scratch = .ok ⟨⟩ after) :
    (∀ c < config.numClasses.toNat,
      element output (4 + c) config.numDetections i = .ok (entry output config (4 + c) i)) ∧
    ((columnScore output config i < config.confidenceThreshold ∧ after = scratch) ∨
      (¬ columnScore output config i < config.confidenceThreshold ∧
        element output 0 config.numDetections i = .ok (entry output config 0 i) ∧
        element output 1 config.numDetections i = .ok (entry output config 1 i) ∧
        element output 2 config.numDetections i = .ok (entry output config 2 i) ∧
        element output 3 config.numDetections i = .ok (entry output config 3 i) ∧
        store fails i (columnBox output config processed i) (columnScore output config i)
          (columnClass output config i) scratch = .ok ⟨⟩ after)) := by
  obtain ⟨best,_,scored,rest⟩ := bind_inv ran
  obtain ⟨found,rfl⟩ := liftExcept_inv scored
  have reads := scoreClass_reads columns found
  cases Except.ok.inj (found.symm.trans (scan_ok reads))
  refine ⟨reads,?_⟩
  split at rest
  next low =>
    cases rest
    exact Or.inl ⟨low,rfl⟩
  next high =>
    have read {row : Int} (n : Nat) (same : (n : Int) = row) {value : ℚ} {before next : Scratch}
        (step : (liftExcept
          (element output row config.numDetections i) : EStateM Abort Scratch ℚ) before =
          .ok value next) :
        value = entry output config n i ∧ next = before ∧
          element output row config.numDetections i = .ok (entry output config n i) := by
      subst same
      obtain ⟨found,kept⟩ := liftExcept_inv step
      have known := element_inv columns found
      exact ⟨known,kept,known ▸ found⟩
    obtain ⟨cx,_,cxRead,afterCx⟩ := bind_inv rest
    obtain ⟨rfl,rfl,first⟩ := read 0 rfl cxRead
    obtain ⟨cy,_,cyRead,afterCy⟩ := bind_inv afterCx
    obtain ⟨rfl,rfl,second⟩ := read 1 rfl cyRead
    obtain ⟨w,_,wRead,afterW⟩ := bind_inv afterCy
    obtain ⟨rfl,rfl,third⟩ := read 2 rfl wRead
    obtain ⟨h,_,hRead,afterH⟩ := bind_inv afterW
    obtain ⟨rfl,rfl,fourth⟩ := read 3 rfl hRead
    exact Or.inr ⟨high,first,second,third,fourth,afterH⟩

private theorem candidate_inv {i : Nat} (columns : 0 ≤ config.numDetections) {scratch after : Scratch}
    (ran : candidate fails output processed config i scratch = .ok ⟨⟩ after) :
    after = Scratch.add output config processed scratch i := by
  obtain ⟨_,⟨low,rfl⟩ | ⟨high,_,_,_,_,stored⟩⟩ := candidate_cases columns ran
  · rw [Scratch.add,if_pos low]
  · rw [Scratch.add,if_neg high,store_inv stored]

/-- The rounds of a loop that ended. -/
theorem candidateLoop_rounds {scratch after : Scratch}
    (ran : candidateLoop fails output processed config scratch = .ok ⟨⟩ after) :
    forM (List.range config.numDetections.toNat) (candidate fails output processed config) .empty =
      .ok ⟨⟩ after := by
  obtain ⟨_,_,cleared,rest⟩ := bind_inv ran
  cases cleared
  exact attempt_bind_inv (attempt_bind_inv (attempt_bind_inv rest))

/-- Whatever the tensor is, a loop that ends has listed the kept columns. -/
theorem candidateLoop_inv {scratch after : Scratch}
    (ran : candidateLoop fails output processed config scratch = .ok ⟨⟩ after) :
    after = decoded output config processed := by
  have rounds : after = (List.range config.numDetections.toNat).foldl
    (Scratch.add output config processed) .empty := by
    refine forM_inv ?_ (candidateLoop_rounds ran)
    intro i member before next step
    have inside := List.mem_range.mp member
    exact candidate_inv (by omega) step
  rw [rounds,foldl_add]

end Completed

section Interrupted
variable (fails : Failures) (output : List ℚ) (processed : ProcessedImage) (config : ModelConfig)

private theorem attempt_interrupts (site : Site) :
    Interrupts .exception (attempt fails site) (attempt .none site) := by
  intro state
  cases thrown : fails site with
  | false => exact Or.inl (by simp [attempt,thrown,Failures.none])
  | true => exact Or.inr ⟨state,by simp [attempt,thrown]; rfl⟩

private theorem candidate_interrupts (i : Nat) :
    Interrupts .exception (candidate fails output processed config i)
      (candidate .none output processed config i) := by
  refine (interrupts_refl _ _).bind fun best => ?_
  split
  · exact interrupts_refl _ _
  · refine (interrupts_refl _ _).bind fun cx => (interrupts_refl _ _).bind fun cy =>
      (interrupts_refl _ _).bind fun w =>
      (interrupts_refl _ _).bind fun h => ?_
    exact (attempt_interrupts fails _).bind fun _ => (interrupts_refl _ _).bind fun _ =>
      (attempt_interrupts fails _).bind fun _ => (interrupts_refl _ _).bind fun _ =>
      (attempt_interrupts fails _).bind fun _ => interrupts_refl _ _

private theorem candidateLoop_interrupts :
    Interrupts .exception (candidateLoop fails output processed config)
    (candidateLoop .none output processed config) :=
  (interrupts_refl _ _).bind fun _ => (attempt_interrupts fails _).bind fun _ =>
    (attempt_interrupts fails _).bind fun _ =>
    (attempt_interrupts fails _).bind fun _ =>
      interrupts_forM (candidate_interrupts fails output processed config) _

private theorem selectDetections_interrupts (scratch : Scratch) (indices : List Int) :
    Interrupts .exception (selectDetections fails scratch indices)
      (selectDetections .none scratch indices) := by
  apply interrupts_foldlM
  intro detections entry
  exact (attempt_interrupts fails _).bind fun _ => interrupts_refl _ _

theorem postprocessDetections_interrupts (lib : External) (inferenceStartTimeUs now : Int) :
    Interrupts .exception
      (postprocessDetections lib fails output processed inferenceStartTimeUs config now)
      (postprocessDetections lib .none output processed inferenceStartTimeUs config now) := by
  refine (candidateLoop_interrupts fails output processed config).bind fun _ =>
    (interrupts_refl _ _).bind fun found =>
    (attempt_interrupts fails _).bind fun _ => ?_
  cases lib.nmsBoxes found.boxes found.scores config.confidenceThreshold config.nmsThreshold with
  | none => exact interrupts_refl _ _
  | some indices =>
    exact (selectDetections_interrupts fails found indices).bind fun _ => interrupts_refl _ _

end Interrupted

section Selected
variable {output : List ℚ} {config : ModelConfig} {processed : ProcessedImage}

theorem detectionAt_ok {idx : Int} {detection : Detection}
    (selects : Selects output config processed idx detection) :
    detectionAt (decoded output config processed) idx = .ok detection := by
  obtain ⟨i,className,start,found,known,named,rfl⟩ := selects
  obtain ⟨place,rfl⟩ := Int.eq_ofNat_of_zero_le start
  obtain ⟨label,same⟩ := Int.eq_ofNat_of_zero_le known
  have mapped {β : Type} (f : Nat → β) : elementAt ((kept output config).map f) place = .ok (f i) := by
    apply elementAt_ok
    rw [List.getElem?_map]
    exact congrArg (Option.map f) found
  have box : elementAt (decoded output config processed).boxes place =
    .ok (columnBox output config processed i) :=
    mapped _
  have score : elementAt (decoded output config processed).scores place =
    .ok (columnScore output config i) := mapped _
  have classId : elementAt (decoded output config processed).classIds place =
    .ok (columnClass output config i) := mapped _
  have name : elementAt cocoClasses (columnClass output config i) = .ok className := by
    rw [same] at named ⊢
    exact elementAt_ok named
  rw [detectionAt,except_bind_ok box,except_bind_ok score,except_bind_ok classId,except_bind_ok name]
  rfl

private theorem selectDetections_ok {indices : List Int} {detections : List Detection}
    (selected : List.Forall₂ (Selects output config processed) indices detections)
    (scratch : Scratch) :
    selectDetections .none (decoded output config processed) indices scratch =
      .ok detections scratch := by
  have rounds (start : Nat) (earlier : List Detection) :
      (indices.zipIdx start).foldlM (select .none (decoded output config processed)) earlier scratch =
        .ok (earlier ++ detections) scratch := by
    induction selected generalizing start earlier with
    | nil =>
      rw [List.append_nil]
      rfl
    | @cons idx detection _ _ selects rest ih =>
      have round : select .none (decoded output config processed) earlier (idx,start) scratch =
          .ok (earlier ++ [detection]) scratch := by
        rw [select,detectionAt_ok selects]
        rfl
      rw [List.zipIdx_cons,List.foldlM_cons,bind_ok round,ih,List.append_assoc,List.singleton_append]
  exact rounds 0 []

variable (processed) in
theorem exists_selected {indices : List Int}
    (inRange : ∀ idx ∈ indices, 0 ≤ idx ∧ idx < (kept output config).length)
    (named : ∀ idx ∈ indices, ∀ i, (kept output config)[idx.toNat]? = some i →
      0 ≤ columnClass output config i ∧ columnClass output config i < cocoClasses.length) :
    ∃ detections, List.Forall₂ (Selects output config processed) indices detections := by
  induction indices with
  | nil => exact ⟨[],.nil⟩
  | cons idx rest ih =>
    obtain ⟨detections,selected⟩ :=
      ih (fun other member => inRange other (List.mem_cons_of_mem _ member))
      (fun other member => named other (List.mem_cons_of_mem _ member))
    obtain ⟨start,before⟩ := inRange idx List.mem_cons_self
    have found := List.getElem?_eq_getElem (l := kept output config) (i := idx.toNat) (by omega)
    obtain ⟨known,below⟩ := named idx List.mem_cons_self _ found
    have label := List.getElem?_eq_getElem (l := cocoClasses)
      (i := (columnClass output config (kept output config)[idx.toNat]).toNat) (by omega)
    exact ⟨_ :: detections,.cons ⟨_,_,start,found,known,label,rfl⟩ selected⟩

section Suppressed
variable {lib : External} {scratch : Scratch}

theorem postprocessDetections_selected
    (loop : candidateLoop .none output processed config scratch =
      .ok ⟨⟩ (decoded output config processed))
    {indices : List Int} {detections : List Detection}
    (suppressed : lib.nmsBoxes (decoded output config processed).boxes
      (decoded output config processed).scores
      config.confidenceThreshold config.nmsThreshold = some indices)
    (selected : List.Forall₂ (Selects output config processed) indices detections)
    (inferenceStartTimeUs now : Int) :
    postprocessDetections lib .none output processed inferenceStartTimeUs config now scratch =
      .ok ⟨detections,processed.frameId,processed.captureTimeUs,narrow32 (now - inferenceStartTimeUs),
        narrow32 (now - inferenceStartTimeUs)⟩ (decoded output config processed) := by
  have got : (get : EStateM Abort Scratch Scratch) (decoded output config processed) = .ok _ _ := rfl
  have passed : attempt .none .nms (decoded output config processed) = .ok _ _ := rfl
  rw [postprocessDetections,bind_ok loop,bind_ok got,bind_ok passed,suppressed]
  exact bind_ok (selectDetections_ok selected _) _

theorem postprocessDetections_throws
    (loop : candidateLoop .none output processed config scratch =
      .ok ⟨⟩ (decoded output config processed))
    (thrown : lib.nmsBoxes (decoded output config processed).boxes
      (decoded output config processed).scores
      config.confidenceThreshold config.nmsThreshold = none) (inferenceStartTimeUs now : Int) :
    postprocessDetections lib .none output processed inferenceStartTimeUs config now scratch =
      .error .exception (decoded output config processed) := by
  have got : (get : EStateM Abort Scratch Scratch) (decoded output config processed) = .ok _ _ := rfl
  have passed : attempt .none .nms (decoded output config processed) = .ok _ _ := rfl
  rw [postprocessDetections,bind_ok loop,bind_ok got,bind_ok passed,thrown]
  rfl

end Suppressed
end Selected

/-- The computation returns the given value and leaves the given vectors, unless something throws on
the way. -/
def Yields {β : Type} (computation : Failures → EStateM Abort Scratch β) (scratch : Scratch) (value : β)
    (after : Scratch) : Prop :=
  computation .none scratch = .ok value after ∧
    ∀ fails, computation fails scratch = .ok value after ∨
      ∃ reached, computation fails scratch = .error .exception reached

private theorem yields_of_interrupts {β : Type} {computation : Failures → EStateM Abort Scratch β}
    {scratch after : Scratch} {value : β}
    (cut : ∀ fails, Interrupts .exception (computation fails) (computation .none))
    (ran : computation .none scratch = .ok value after) : Yields computation scratch value after := by
  refine ⟨ran,fun fails => ?_⟩
  rw [← ran]
  exact cut fails scratch

/-- The loop lists exactly the kept columns, and the detections are the candidates that suppression
selects. -/
theorem postprocessDetections_decodes {output : List ℚ} {config : ModelConfig}
    (table : Tabular output config) (lib : External) (processed : ProcessedImage)
    (inferenceStartTimeUs now : Int) (scratch : Scratch) :
    Yields (fun fails => candidateLoop fails output processed config) scratch ⟨⟩
      ⟨(kept output config).map (columnBox output config processed),
        (kept output config).map (columnScore output config),
        (kept output config).map (columnClass output config)⟩ ∧
    ∀ indices,
      lib.nmsBoxes ((kept output config).map (columnBox output config processed))
          ((kept output config).map (columnScore output config))
          config.confidenceThreshold config.nmsThreshold = some indices →
      (∀ idx ∈ indices, 0 ≤ idx ∧ idx < (kept output config).length) →
      (∀ idx ∈ indices, ∀ i, (kept output config)[idx.toNat]? = some i →
        0 ≤ columnClass output config i ∧ columnClass output config i < cocoClasses.length) →
      ∃ detections, List.Forall₂ (Selects output config processed) indices detections ∧
        Yields
          (fun fails =>
            postprocessDetections lib fails output processed inferenceStartTimeUs config now)
          scratch
          ⟨detections,processed.frameId,processed.captureTimeUs,narrow32 (now - inferenceStartTimeUs),
            narrow32 (now - inferenceStartTimeUs)⟩
          (decoded output config processed) := by
  have loop := candidateLoop_ok table processed scratch
  refine ⟨yields_of_interrupts (fun fails =>
    candidateLoop_interrupts fails output processed config) loop,?_⟩
  intro indices suppressed inRange named
  obtain ⟨detections,selected⟩ := exists_selected processed inRange named
  refine ⟨detections,selected,?_⟩
  apply yields_of_interrupts fun fails =>
    postprocessDetections_interrupts fails output processed config lib _ _
  exact postprocessDetections_selected loop suppressed selected inferenceStartTimeUs now

/-- Two classes and two candidates: the first ties at `1/2` and takes the earlier class, the second
scores too low. -/
theorem tied_decodes :
    let lib : External :=
      ⟨fun _ _ _ _ _ _ => [],fun _ _ => [],fun boxes _ _ _ => some ((List.range boxes.length).map (↑·))⟩
    let output : List ℚ := [50,20,50,20,10,4,10,4,1 / 2,1 / 8,1 / 2,1 / 8]
    let processed : ProcessedImage := ⟨1,100,100,1,1,0⟩
    let config : ModelConfig := ⟨640,2,2,1 / 4,9 / 20⟩
    postprocessDetections lib .none output processed 0 config 5 .empty =
      .ok ⟨[⟨⟨45,45,10,10⟩,1 / 2,0,"person"⟩],1,0,5,5⟩ ⟨[⟨45,45,10,10⟩],[1 / 2],[0]⟩ := by
  intro lib output processed config
  have table : Tabular output config := ⟨by decide,by decide,by decide,by decide⟩
  have columns : kept output config = [0] := by decide +kernel
  have first {i : Nat} (found : (kept output config)[(0 : Int).toNat]? = some i) : i = 0 := by
    rw [columns] at found
    exact (Option.some.inj found).symm
  have classId : columnClass output config 0 = 0 := by decide +kernel
  obtain ⟨detections,selected,yields⟩ :=
    (postprocessDetections_decodes table lib processed 0 5 .empty).right [0]
    (by decide +kernel) (by decide +kernel) (fun idx member i found => by
      cases List.mem_singleton.mp member
      cases first found
      exact ⟨classId.ge,by rw [classId]; decide⟩)
  obtain _ | ⟨⟨i,className,_,found,_,named,rfl⟩,_ | _⟩ := selected
  cases first found
  rw [classId] at named
  cases named
  have box : columnBox output config processed 0 = ⟨45,45,10,10⟩ := by decide +kernel
  have score : columnScore output config 0 = 1 / 2 := by decide +kernel
  have ran := yields.left
  rw [decoded,columns,List.map_singleton,List.map_singleton,List.map_singleton,box,score,classId] at ran
  exact ran

end YoloEngine.ImageProcessor
