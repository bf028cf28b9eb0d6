import YoloEngine.Pipeline.Work
import YoloEngine.Vision.Agreement
import YoloEngine.Vision.Planar

/-! `yolov8n_image` from its command line to the image it saves. Every run ends with one of three
exit codes or with an exception that nothing catches, and where no box leaves the image it draws
what the consumer of the camera program detects in the same frame. -/
namespace YoloEngine
open Foundation Foundation.Aborting

namespace Foundation.Aborting
variable {ε α β : Type}

/-- A loop that appends what each round computes. -/
private theorem foldlM_append_iff {compute : α → Except ε β} {items : List α}
    {earlier result : List β} :
    items.foldlM (fun values item => do
        let value ← compute item
        return values ++ [value]) earlier = .ok result ↔
      ∃ later, result = earlier ++ later ∧
      List.Forall₂ (fun item value => compute item = .ok value) items later := by
  induction items generalizing earlier result with
  | nil =>
    constructor
    · intro ran
      cases Except.ok.inj ran
      exact ⟨[],(List.append_nil _).symm,.nil⟩
    · intro found
      obtain ⟨later,rfl,none⟩ := found
      cases none
      rw [List.append_nil]
      rfl
  | cons item rest ih =>
    rw [List.foldlM_cons]
    constructor
    · intro ran
      obtain ⟨grown,round,remaining⟩ := except_bind_inv ran
      obtain ⟨value,computed,returned⟩ := except_bind_inv round
      cases Except.ok.inj returned
      obtain ⟨later,rfl,others⟩ := ih.mp remaining
      exact ⟨value :: later,by simp,.cons computed others⟩
    · intro found
      obtain ⟨later,rfl,all⟩ := found
      cases all with
      | @cons _ value _ later computed others =>
        have round : (compute item >>= fun value => pure (earlier ++ [value])) =
          .ok (earlier ++ [value]) :=
          except_bind_ok computed _
        rw [except_bind_ok round]
        exact ih.mpr ⟨later,by simp,others⟩

private theorem foldlM_append_ok {compute : α → Except ε β} {P : β → Prop} {items : List α}
    (each : ∀ item ∈ items, ∃ value, compute item = .ok value ∧ P value) :
    ∃ values, items.foldlM (fun values item => do
        let value ← compute item
        return values ++ [value]) [] = .ok values ∧
      values.length = items.length ∧ ∀ value ∈ values, P value := by
  have built : ∃ values, List.Forall₂ (fun item value => compute item = .ok value) items values ∧
      ∀ value ∈ values, P value := by
    induction items with
    | nil => exact ⟨[],.nil,by simp⟩
    | cons item rest ih =>
      obtain ⟨value,computed,holds⟩ := each item List.mem_cons_self
      obtain ⟨values,all,others⟩ := ih fun other member => each other (List.mem_cons_of_mem _ member)
      exact ⟨value :: values,.cons computed all,List.forall_mem_cons.mpr ⟨holds,others⟩⟩
  obtain ⟨values,all,holds⟩ := built
  exact ⟨values,foldlM_append_iff.mpr ⟨values,rfl,all⟩,all.length_eq.symm,holds⟩

end Foundation.Aborting

namespace ImageProgram
open ImageProcessor (Tabular entry kept columnScore columnClass columnBox decoded Selects Suppresses)

inductive Stage where
  | session
  | run
  deriving Repr, DecidableEq

/-- What `main` takes from outside beside the network and `NMSBoxes`: the images on disk, `resize`,
`format` with `"%.2f"`, and whether loading the model or running it throws. -/
structure Environment where
  imread : String → Mat
  resize : Mat → Int × Int → Mat
  format : ℚ → String
  fails : Stage → Bool

/-- A rectangle, and the text that is put at its corner. -/
structure Drawing where
  box : Rect
  label : String
  corner : Int × Int
  deriving Repr, DecidableEq

structure Finished where
  exitCode : Int
  saved : Option (Mat × List Drawing)

def drawingAt (format : ℚ → String) (scratch : Scratch) (idx : Int) : Except Abort Drawing := do
  let box ← elementAt scratch.boxes idx
  let classId ← elementAt scratch.classIds idx
  let className ← elementAt cocoClasses classId
  let score ← elementAt scratch.scores idx
  return ⟨box,className ++ " " ++ format score,(box.x,box.y)⟩

def drawAll (format : ℚ → String) (scratch : Scratch) (indices : List Int) :
    Except Abort (List Drawing) :=
  indices.foldlM (fun drawn idx => do
    let drawing ← drawingAt format scratch idx
    return drawn ++ [drawing]) []

def detect (env : Environment) (lib : External) (config : ModelConfig) (image : Mat) :
    Except Abort (List Drawing) :=
  if env.fails .session then .error .exception
  else do
    let filling ← inputTensor config (preprocess env.resize config image)
    if env.fails .run then .error .exception
    else
      let output := lib.run filling.tensor [1,3,config.inputSize,config.inputSize]
      let listed ← candidateLoop output config image
      match lib.nmsBoxes listed.boxes listed.scores config.confidenceThreshold config.nmsThreshold with
      | none => .error .exception
      | some indices => drawAll env.format listed indices

def main (env : Environment) (lib : External) (args : List String) : Except Abort Finished :=
  if args.length < 2 then .ok ⟨1,none⟩
  else do
    let imagePath ← elementAt args 1
    let image := env.imread imagePath
    if image.empty then return ⟨-1,none⟩
    else
      let drawings ← detect env lib constants image
      return ⟨0,some (image,drawings)⟩

def drawn (format : ℚ → String) (detection : Detection) : Drawing :=
  ⟨detection.box,detection.className ++ " " ++ format detection.confidence,
    (detection.box.x,detection.box.y)⟩

section Draws
variable {format : ℚ → String} {output : List ℚ} {config : ModelConfig} {image : Mat}
  {processed : ProcessedImage}

/-- Drawing a candidate reads what makes a detection of it. -/
private theorem drawingAt_iff {scratch : Scratch} {idx : Int} {drawing : Drawing} :
    drawingAt format scratch idx = .ok drawing ↔
      ∃ detection, ImageProcessor.detectionAt scratch idx = .ok detection ∧
      drawing = drawn format detection := by
  constructor
  · intro ran
    obtain ⟨box,boxRead,rest⟩ := except_bind_inv ran
    obtain ⟨classId,classRead,rest⟩ := except_bind_inv rest
    obtain ⟨className,nameRead,rest⟩ := except_bind_inv rest
    obtain ⟨score,scoreRead,rest⟩ := except_bind_inv rest
    cases Except.ok.inj rest
    refine ⟨⟨box,score,classId,className⟩,?_,rfl⟩
    rw [ImageProcessor.detectionAt,except_bind_ok boxRead,except_bind_ok scoreRead,
      except_bind_ok classRead,except_bind_ok nameRead]
    rfl
  · intro found
    obtain ⟨detection,ran,rfl⟩ := found
    obtain ⟨box,boxRead,rest⟩ := except_bind_inv ran
    obtain ⟨score,scoreRead,rest⟩ := except_bind_inv rest
    obtain ⟨classId,classRead,rest⟩ := except_bind_inv rest
    obtain ⟨className,nameRead,rest⟩ := except_bind_inv rest
    cases Except.ok.inj rest
    rw [drawingAt,except_bind_ok boxRead,except_bind_ok classRead,except_bind_ok nameRead,
      except_bind_ok scoreRead]
    rfl

private theorem drawAll_iff {scratch : Scratch} {indices : List Int} {drawings : List Drawing} :
    drawAll format scratch indices = .ok drawings ↔
      ∃ detections,
        List.Forall₂ (fun idx detection => ImageProcessor.detectionAt scratch idx = .ok detection)
          indices detections ∧ drawings = detections.map (drawn format) := by
  rw [drawAll,foldlM_append_iff]
  constructor
  · intro found
    obtain ⟨later,rfl,all⟩ := found
    induction all with
    | nil => exact ⟨[],.nil,rfl⟩
    | cons first _ ih =>
      obtain ⟨detections,others,same⟩ := ih
      obtain ⟨detection,read,rfl⟩ := drawingAt_iff.mp first
      exact ⟨detection :: detections,.cons read others,congrArg (_ :: ·) same⟩
  · intro found
    obtain ⟨detections,all,rfl⟩ := found
    refine ⟨_,rfl,?_⟩
    rw [List.forall₂_map_right_iff]
    exact all.imp fun idx detection read => drawingAt_iff.mpr ⟨detection,read,rfl⟩

end Draws

section Detects
variable {env : Environment} {lib : External} {config : ModelConfig} {image : Mat}

/-- What the program gives the network. -/
def inputValues (env : Environment) (config : ModelConfig) (image : Mat) : List ℚ :=
  (preprocess env.resize config image).planar

private theorem inputValues_ok (opencv : OpenCV lib env.resize) (positive : 0 < config.inputSize)
    (fits : 3 * config.inputSize * config.inputSize ≤ 2^31 - 1) (colour : image.Colour)
    (loaded : image.empty = false) :
    ((inputValues env config image).length : Int) = 3 * config.inputSize * config.inputSize ∧
      ∃ filling, inputTensor config (preprocess env.resize config image) = .ok filling ∧
        filling.tensor = inputValues env config image := by
  obtain ⟨side,input⟩ := Int.eq_ofNat_of_zero_le positive.le
  obtain ⟨resized,rows,cols⟩ := opencv.resizes image _ _ colour loaded positive positive
  have count : 3 * config.inputSize * config.inputSize = ((3 * (side * side) : Nat) : Int) := by
    rw [input]
    push_cast
    ring
  have prepared : (preprocess env.resize config image).Colour := resized.bgrToRgb.convertTo (1 / 255)
  have height : (preprocess env.resize config image).rows = side := by exact_mod_cast rows.trans input
  have width : (preprocess env.resize config image).cols = side := by exact_mod_cast cols.trans input
  obtain ⟨filling,ran,contents,_⟩ := inputTensor_ok input prepared height width (by omega)
  refine ⟨?_,filling,ran,contents⟩
  rw [inputValues,Mat.planar_length,prepared.channels,height,width,count]

def networkOutput (env : Environment) (lib : External) (config : ModelConfig) (image : Mat) : List ℚ :=
  lib.run (inputValues env config image) [1,3,config.inputSize,config.inputSize]

/-- The candidates of the image: all columns of the table that score high enough, with the boxes as
they come. -/
def candidates (env : Environment) (lib : External) (config : ModelConfig) (image : Mat) : Scratch :=
  listed (networkOutput env lib config image) config image

private theorem candidateLoop_table {output : List ℚ} (table : Tabular output config) :
    candidateLoop output config image = .ok (listed output config image) := by
  have small : config.numDetections < 2^31 := by
    have fits := table.fits
    have rows := mul_nonneg table.classes table.detections
    have detections := table.detections
    nlinarith
  exact candidateLoop_of table.detections small
    (ImageProcessor.candidateLoop_ok table ⟨0,image.cols,image.rows,0,0,0⟩ .empty) image

def suppressed (env : Environment) (lib : External) (config : ModelConfig) (image : Mat) :
    Option (List Int) :=
  lib.nmsBoxes (candidates env lib config image).boxes (candidates env lib config image).scores
    config.confidenceThreshold config.nmsThreshold

section Decided
variable (opencv : OpenCV lib env.resize) (positive : 0 < config.inputSize)
  (fits : 3 * config.inputSize * config.inputSize ≤ 2^31 - 1) (colour : image.Colour)
  (loaded : image.empty = false) (table : Tabular (networkOutput env lib config image) config)
include opencv positive fits colour loaded table

/-- With nothing thrown before, suppression decides what is drawn. -/
private theorem detect_eq (session : env.fails .session = false) (run : env.fails .run = false) :
    detect env lib config image = match suppressed env lib config image with
      | none => .error .exception
      | some indices => drawAll env.format (candidates env lib config image) indices := by
  obtain ⟨_,filling,filled,contents⟩ := inputValues_ok opencv positive fits colour loaded
  have loop : candidateLoop (networkOutput env lib config image) config image = _ :=
    candidateLoop_table table
  simp only [detect,session,Bool.false_eq_true,if_false]
  rw [except_bind_ok filled]
  simp only [run,Bool.false_eq_true,if_false,contents]
  rw [show lib.run (inputValues env config image) [1,3,config.inputSize,config.inputSize] =
    networkOutput env lib config image from rfl,except_bind_ok loop]
  rfl

private theorem detect_throws (thrown : env.fails .session = true ∨ env.fails .run = true ∨
    suppressed env lib config image = none) : detect env lib config image = .error .exception := by
  cases session : env.fails .session with
  | true => exact if_pos session
  | false =>
    cases run : env.fails .run with
    | true =>
      obtain ⟨_,filling,filled,_⟩ := inputValues_ok opencv positive fits colour loaded
      simp only [detect,session,Bool.false_eq_true,if_false]
      rw [except_bind_ok filled,if_pos run]
    | false =>
      have refused : suppressed env lib config image = none := by simpa [session,run] using thrown
      rw [detect_eq opencv positive fits colour loaded table session run,refused]

end Decided

/-- A column's box with the name and the score of its best class, which is above the threshold. -/
def Shows (format : ℚ → String) (output : List ℚ) (config : ModelConfig) (image : Mat)
    (drawing : Drawing) : Prop :=
  ∃ i < config.numDetections.toNat, ∃ c < config.numClasses.toNat, ∃ className,
  cocoClasses[c]? = some className ∧
    drawing.box = unclippedBox output config image i ∧
    drawing.label = className ++ " " ++ format (entry output config (4 + c) i) ∧
    drawing.corner = (drawing.box.x,drawing.box.y) ∧
    config.confidenceThreshold < entry output config (4 + c) i ∧
    ∀ other < config.numClasses.toNat, entry output config (4 + other) i ≤ entry output config (4 + c) i

private theorem selected_shows (suppresses : Suppresses lib)
    (named : config.numClasses ≤ cocoClasses.length) {output : List ℚ}
    {indices : List Int} (chosen : lib.nmsBoxes (listed output config image).boxes
      (listed output config image).scores
      config.confidenceThreshold config.nmsThreshold = some indices) {idx : Int}
      (member : idx ∈ indices) :
    ∃ drawing, drawingAt env.format (listed output config image) idx = .ok drawing ∧
      Shows env.format output config image drawing := by
  obtain ⟨start,before,score,found,above⟩ := suppresses.selects _ _ _ _ _ chosen idx member
  have nonneg : 0 ≤ config.confidenceThreshold := by
    by_contra negative
    rw [suppresses.throws _ _ _ _ (Or.inl (not_le.mp negative))] at chosen
    contradiction
  obtain ⟨place,rfl⟩ := Int.eq_ofNat_of_zero_le start
  simp only [listed,List.length_map,Nat.cast_lt,Int.toNat_natCast,List.getElem?_map,
    Option.map_eq_some_iff] at before found
  obtain ⟨i,position,rfl⟩ := found
  obtain ⟨c,best,known,scored⟩ := ImageProcessor.columnClass_best (nonneg.trans_lt above)
  have inside : c < cocoClasses.length := by omega
  have label := List.getElem?_eq_getElem inside
  have mapped {β : Type} (f : Nat → β) : elementAt ((kept output config).map f) place = .ok (f i) := by
    apply elementAt_ok
    rw [List.getElem?_map,position]
    rfl
  have name : elementAt cocoClasses (columnClass output config i) = .ok cocoClasses[c] := by
    rw [best]
    exact elementAt_ok label
  have column := List.mem_filter.mp (List.mem_of_getElem? position)
  let box := unclippedBox output config image i
  let text := cocoClasses[c] ++ " " ++ env.format (columnScore output config i)
  refine ⟨⟨box,text,(box.x,box.y)⟩,?_,i,List.mem_range.mp column.left,c,known,_,label,rfl,?_,rfl,?_,?_⟩
  · simp only [drawingAt,listed]
    rw [except_bind_ok (mapped _),except_bind_ok (mapped _),except_bind_ok name,
      except_bind_ok (mapped _)]
    rfl
  · rw [scored]
  · rw [scored]
    exact above
  · intro other inRange
    rw [scored]
    exact ImageProcessor.entry_le_columnScore inRange

private theorem detect_shows (opencv : OpenCV lib env.resize) (suppresses : Suppresses lib)
    (positive : 0 < config.inputSize) (fits : 3 * config.inputSize * config.inputSize ≤ 2^31 - 1)
    (named : config.numClasses ≤ cocoClasses.length) (colour : image.Colour)
    (loaded : image.empty = false) (table : Tabular (networkOutput env lib config image) config)
    (session : env.fails .session = false) (run : env.fails .run = false) {indices : List Int}
    (chosen : suppressed env lib config image = some indices) :
    ∃ drawings, detect env lib config image = .ok drawings ∧ drawings.length = indices.length ∧
      ∀ drawing ∈ drawings, Shows env.format
        (networkOutput env lib config image) config image drawing := by
  rw [detect_eq opencv positive fits colour loaded table session run,chosen]
  exact foldlM_append_ok fun _ member => selected_shows suppresses named chosen member

end Detects

/-- The constants' network answers with 84 rows of 8400 values. -/
private theorem constants_tabular {output : List ℚ} (sized : output.length = 84 * 8400) :
    Tabular output constants :=
  ⟨by decide,by decide,by rw [sized]; rfl,by decide⟩

private theorem main_given (env : Environment) (lib : External) {args : List String} {path : String}
    (given : args[1]? = some path) :
    main env lib args = if (env.imread path).empty then .ok ⟨-1,none⟩
      else detect env lib constants (env.imread path) >>= fun drawings =>
        .ok ⟨0,some (env.imread path,drawings)⟩ := by
  obtain ⟨enough,_⟩ := List.getElem?_eq_some_iff.mp given
  have read : elementAt args 1 = .ok path := elementAt_ok given
  rw [main,if_neg (by omega),except_bind_ok read]
  rfl

/-- How a run of the program ends. Without a path it exits with 1, without an image with -1.
Otherwise it dies of what loading the model, running it or `NMSBoxes` throws, or exits with 0 and
saves the image with one drawing for each index that `NMSBoxes` selects, the best class of a column
above the threshold. -/
theorem main_sound {env : Environment} {lib : External} (opencv : OpenCV lib env.resize)
    (suppresses : Suppresses lib)
    (photographs : ∀ path, (env.imread path).empty = false → (env.imread path).Colour)
    (answers : ∀ input, (lib.run input [1,3,640,640]).length = 84 * 8400) (args : List String) :
    (args.length < 2 ∧ main env lib args = .ok ⟨1,none⟩) ∨
    ∃ path image, args[1]? = some path ∧ env.imread path = image ∧
      ((image.empty = true ∧ main env lib args = .ok ⟨-1,none⟩) ∨
      (image.empty = false ∧ main env lib args = .error .exception ∧
        (env.fails .session = true ∨ env.fails .run = true ∨
          suppressed env lib constants image = none)) ∨
      (image.empty = false ∧ env.fails .session = false ∧ env.fails .run = false ∧
        ∃ indices drawings, suppressed env lib constants image = some indices ∧
          main env lib args = .ok ⟨0,some (image,drawings)⟩ ∧ drawings.length = indices.length ∧
          ∀ drawing ∈ drawings, Shows env.format
            (networkOutput env lib constants image) constants image drawing)) := by
  by_cases few : args.length < 2
  · exact Or.inl ⟨few,if_pos few⟩
  · obtain ⟨path,given⟩ : ∃ path, args[1]? = some path := ⟨_,List.getElem?_eq_getElem (by omega)⟩
    refine Or.inr ⟨path,_,given,rfl,?_⟩
    rw [main_given env lib given]
    cases loaded : (env.imread path).empty with
    | true => exact Or.inl ⟨rfl,rfl⟩
    | false =>
      have colour := photographs path loaded
      have positive : 0 < constants.inputSize := by decide
      have fits : 3 * constants.inputSize * constants.inputSize ≤ 2^31 - 1 := by decide
      have table : Tabular (networkOutput env lib constants (env.imread path)) constants :=
        constants_tabular (answers _)
      rw [if_neg Bool.false_ne_true]
      by_cases thrown : env.fails .session = true ∨ env.fails .run = true ∨
          suppressed env lib constants (env.imread path) = none
      · have died := detect_throws opencv positive fits colour loaded table thrown
        exact Or.inr (Or.inl ⟨rfl,except_bind_error died _,thrown⟩)
      · simp only [not_or,Bool.not_eq_true] at thrown
        obtain ⟨session,run,answered⟩ := thrown
        obtain ⟨indices,chosen⟩ := Option.ne_none_iff_exists'.mp answered
        obtain ⟨drawings,ran,many,shows⟩ := detect_shows opencv suppresses positive fits
          (show constants.numClasses ≤
            cocoClasses.length by decide) colour loaded table session run chosen
        exact Or.inr (Or.inr ⟨rfl,session,run,indices,drawings,chosen,except_bind_ok ran _,many,shows⟩)

/-- The network's output when it scores in its first column only. -/
def oneColumn (column : List ℚ) : List ℚ :=
  (List.range (84 * 8400)).map fun place => if place % 8400 = 0 then column.getD (place / 8400) 0 else 0

section OneColumn
variable {column : List ℚ}

private theorem oneColumn_length : (oneColumn column).length = 84 * 8400 := by
  rw [oneColumn,List.length_map,List.length_range]

private theorem oneColumn_entry {row i : Nat} (known : row < 84) (inside : i < 8400) :
    entry (oneColumn column) constants row i = if i = 0 then column.getD row 0 else 0 := by
  have count : constants.numDetections.toNat = 8400 := rfl
  have place : row * 8400 + i < 84 * 8400 := by omega
  have remainder : (row * 8400 + i) % 8400 = i := by omega
  have quotient : (row * 8400 + i) / 8400 = row := by omega
  rw [entry,count,oneColumn,List.getElem?_map,List.getElem?_range place,Option.map_some,
    Option.getD_some,remainder,quotient]

private theorem oneColumn_score : columnScore (oneColumn column) constants 0 =
    peak 0 ((List.range 80).map fun c => column.getD (4 + c) 0) := by
  have scores : ImageProcessor.classScores (oneColumn column) constants 0 =
      (List.range 80).map fun c => column.getD (4 + c) 0 := by
    apply List.map_congr_left
    intro c known
    have inside : c < 80 := List.mem_range.mp known
    rw [oneColumn_entry (by omega) (by omega),if_pos rfl]
  rw [columnScore,scores]

private theorem oneColumn_low {i : Nat} (other : i ≠ 0) (inside : i < 8400) :
    columnScore (oneColumn column) constants i = 0 := by
  by_contra nonzero
  have above : 0 < columnScore (oneColumn column) constants i :=
    lt_of_le_of_ne (floor_le_peak _ _) (Ne.symm nonzero)
  obtain ⟨c,_,known,scored⟩ := ImageProcessor.columnClass_best above
  have classes : c < 80 := known
  rw [oneColumn_entry (by omega) inside,if_neg other] at scored
  exact nonzero scored.symm

private theorem oneColumn_kept (above : 1 / 4 ≤ columnScore (oneColumn column) constants 0) :
    kept (oneColumn column) constants = [0] := by
  have count : constants.numDetections.toNat = 8399 + 1 := rfl
  have threshold : constants.confidenceThreshold = 1 / 4 := rfl
  rw [kept,count,List.range_succ_eq_map,List.filter_cons_of_pos (by simpa [threshold] using above),
    List.filter_eq_nil_iff.mpr]
  intro i member
  obtain ⟨earlier,inside,rfl⟩ := List.mem_map.mp member
  have before := List.mem_range.mp inside
  rw [oneColumn_low (Nat.succ_ne_zero _) (by omega),threshold]
  norm_num

end OneColumn

/-- A network that answers so to every image, with suppression that drops only what does not score
above the threshold. -/
def columnLib (column : List ℚ) : External where
  blobFromImage := nearestLib.blobFromImage
  run := fun _ _ => oneColumn column
  nmsBoxes := ImageProcessor.thresholdOnly.nmsBoxes

private theorem columnLib_sized (column input : List ℚ) (shape : List Int) :
    ((columnLib column).run input shape).length = 84 * 8400 := by
  simp only [columnLib,oneColumn_length]

private theorem columnLib_output (env : Environment) (column : List ℚ) (image : Mat) :
    networkOutput env (columnLib column) constants image = oneColumn column := by
  simp only [networkOutput,columnLib]

/-- A car that fills the image. -/
theorem oneCar_sound :
    let column : List ℚ := [320,320,640,640,0,0,1 / 2]
    let lib := columnLib column
    let image : Mat := ⟨1,2,3,[51,102,153,0,0,255]⟩
    let env : Environment := ⟨fun _ => image,nearest,fun _ => "0.50",fun _ => false⟩
    main env lib ["yolov8n_image","street.jpg"] =
      .ok ⟨0,some (image,[⟨⟨0,0,2,1⟩,"car 0.50",(0,0)⟩])⟩ := by
  intro column lib image env
  have openCV : OpenCV lib nearest := ⟨nearest_openCV.resizes,nearest_openCV.blobs⟩
  have suppresses : Suppresses lib :=
    ⟨ImageProcessor.thresholdOnly_suppresses.throws,ImageProcessor.thresholdOnly_suppresses.selects⟩
  have score : columnScore (oneColumn column) constants 0 = 1 / 2 := by
    rw [oneColumn_score]
    decide +kernel
  have columns : kept (oneColumn column) constants = [0] := oneColumn_kept (by rw [score]; norm_num)
  have accepted : suppressed env lib constants image = some [0] := by
    have candidate : candidates env lib constants image =
      ⟨[unclippedBox (oneColumn column) constants image 0],[1 / 2],
        [columnClass (oneColumn column) constants 0]⟩ := by
      have answered : networkOutput env lib constants image = oneColumn column :=
        columnLib_output env column image
      simp only [candidates,listed,answered,columns,List.map_singleton,score]
    rw [suppressed,candidate]
    decide +kernel
  have ends := @main_sound env lib openCV suppresses (fun _ _ => ⟨rfl,rfl⟩)
    (fun input => columnLib_sized column input _) ["yolov8n_image","street.jpg"]
  obtain ⟨few,_⟩ | ⟨path,_,_,rfl,⟨gone,_⟩ | ⟨_,_,thrown⟩ | ⟨_,_,_,indices,drawings,chosen,ran,many,
    shows⟩⟩ := ends
  · exact absurd few (by decide)
  · exact absurd gone Bool.false_ne_true
  · obtain impossible | impossible | impossible := thrown
    · exact absurd impossible (by decide)
    · exact absurd impossible (by decide)
    · cases accepted.symm.trans impossible
  · cases Option.some.inj (accepted.symm.trans chosen)
    obtain ⟨drawing,rfl⟩ := List.length_eq_one_iff.mp many
    obtain ⟨i,inside,c,known,className,label,box,text,corner,above,_⟩ :=
      shows drawing (List.mem_singleton_self _)
    have classes : c < 80 := known
    have threshold : constants.confidenceThreshold = 1 / 4 := rfl
    rw [columnLib_output] at box text above
    rw [oneColumn_entry (by omega) inside] at text above
    have first : i = 0 := by
      by_contra other
      rw [if_neg other,threshold] at above
      norm_num at above
    subst first
    have scores : ∀ c < 80, 1 / 4 < column.getD (4 + c) 0 → c = 2 := by decide +kernel
    cases scores c classes above
    cases Option.some.inj (show some "car" = some className from label)
    have whole : unclippedBox (oneColumn column) constants image 0 = ⟨0,0,2,1⟩ := by
      rw [unclippedBox,oneColumn_entry (by omega) (by omega),oneColumn_entry (by omega) (by omega),
        oneColumn_entry (by omega) (by omega),oneColumn_entry (by omega) (by omega)]
      decide +kernel
    have read : drawing = ⟨⟨0,0,2,1⟩,"car 0.50",(0,0)⟩ := by
      rw [box,whole] at corner
      obtain ⟨_,_,_⟩ := drawing
      rw [Drawing.mk.injEq]
      exact ⟨box.trans whole,text,corner⟩
    rw [ran,read]

section Agrees
variable {env : Environment} {lib : External} (opencv : OpenCV lib env.resize) {config : ModelConfig}
  (positive : 0 < config.inputSize) (fits : 3 * config.inputSize * config.inputSize ≤ 2^31 - 1)
  {image : Mat} (colour : image.Colour) (loaded : image.empty = false)
include opencv positive fits colour loaded

/-- The blob fills the tensor with the values the program computes pixel by pixel. -/
private theorem blob_fits : ∃ buffer, TensorBuffer.new config = .ok buffer ∧
    buffer.getInputSize = config.inputSize ∧
    lib.blobFromImage image (1 / 255) (buffer.getInputSize,buffer.getInputSize) (0,0,0) true false =
      inputValues env config image ∧ (inputValues env config image).length = buffer.size := by
  obtain ⟨buffer,created,size,square⟩ := TensorBuffer.new_ok positive (show _ < 2^31 by omega)
  obtain ⟨length,_⟩ := inputValues_ok opencv positive fits colour loaded
  refine ⟨buffer,created,square,?_,by omega⟩
  rw [square]
  exact opencv.blobs image (1 / 255) _ _ colour loaded positive positive

/-- The consumer runs the network on the same values. -/
private theorem prepared_output {k : Nat} {now : Int} {buffer filled : TensorBuffer}
    {processed : ProcessedImage} (created : TensorBuffer.new config = .ok buffer)
    (prepared : ImageProcessor.preprocessImage lib image k buffer now = .ok (processed,filled)) :
    buffer.getInputSize = config.inputSize ∧
      lib.run (filled.data.take filled.size) filled.shape = networkOutput env lib config image := by
  obtain ⟨fresh,built,square,blob,sized⟩ := blob_fits opencv positive fits colour loaded
  cases Except.ok.inj (created.symm.trans built)
  obtain ⟨_,_,shape⟩ := TensorBuffer.new_layout created
  obtain ⟨copied,_⟩ := ImageProcessor.preprocessImage_inv prepared
  obtain ⟨other,same,contents⟩ := TensorBuffer.fill_ok sized
  rw [blob,same] at copied
  cases Except.ok.inj copied
  obtain ⟨sameShape,_⟩ := ImageProcessor.preprocessImage_layout prepared
  have whole : filled.data.take filled.size = inputValues env config image := by
    rw [TensorBuffer.size,List.take_of_length_le filled.sized.le,contents]
  refine ⟨square,?_⟩
  rw [whole,sameShape,shape]
  rfl

private theorem fresh_runs (k : Nat) (iteration : Iteration) (infers : iteration.fails .infer = false) :
    ∃ processed, (∀ output i, InsideImage output config image i →
        unclippedBox output config image i = columnBox output config processed i) ∧
      Consumer.fresh lib config k image iteration =
        Consumer.caught (ImageProcessor.postprocessDetections lib iteration.fails
          (networkOutput env lib config image) processed iteration.inferenceStart config
          iteration.postprocessStart .empty) >>=
            fun results => pure (results.map (fun results => ⟨image,results⟩)) := by
  obtain ⟨buffer,created,square,blob,sized⟩ := blob_fits opencv positive fits colour loaded
  obtain ⟨processed,filled,prepared,_⟩ :=
    ImageProcessor.preprocessImage_ok blob sized k iteration.captureTime
  obtain ⟨_,output⟩ := prepared_output opencv positive fits colour loaded created prepared
  have inferred : Consumer.infer lib iteration.fails filled =
      .ok (networkOutput env lib config image) := by
    rw [Consumer.infer,infers,if_neg Bool.false_ne_true,output]
  refine ⟨processed,fun output i inside => unclippedBox_eq prepared square inside,?_⟩
  rw [Consumer.fresh_prepared iteration created prepared,Consumer.detect_inferred inferred]

/-- A result of the consumer on an image that no kept box leaves is what the program draws. -/
theorem fresh_drawn (table : Tabular (networkOutput env lib config image) config)
    (inside : ∀ i ∈ kept (networkOutput env lib config image) config,
      InsideImage (networkOutput env lib config image) config image i)
    (session : env.fails .session = false) (run : env.fails .run = false) {k : Nat}
    {iteration : Iteration}
    {value : FrameWithResults} (computed : Consumer.fresh lib config k image iteration =
      .ok (some value)) :
    detect env lib config image = .ok (value.results.detections.map (drawn env.format)) := by
  obtain ⟨_,buffer,processed,filled,indices,created,prepared,chosen,selected⟩ :=
    Consumer.fresh_inv computed
  obtain ⟨square,output⟩ := prepared_output opencv positive fits colour loaded created prepared
  rw [output] at chosen selected
  have boxes : listed (networkOutput env lib config image) config image =
      ImageProcessor.decoded (networkOutput env lib config image) config processed := by
    rw [listed,ImageProcessor.decoded,
      List.map_congr_left fun i member => unclippedBox_eq prepared square (inside i member)]
  have answered : suppressed env lib config image = some indices := by
    rw [suppressed,candidates,boxes]
    exact chosen
  rw [detect_eq opencv positive fits colour loaded table session run,answered]
  refine drawAll_iff.mpr ⟨_,selected.imp fun idx detection selects => ?_,rfl⟩
  rw [candidates,boxes]
  exact ImageProcessor.detectionAt_ok selects

end Agrees

/-- Where no kept box leaves the image, the program draws what the consumer of the camera program
detects in the same frame, whatever number the frame has there; and what `NMSBoxes` throws ends the
one where the other goes on. -/
theorem programs_agree {env : Environment} {lib : External} (opencv : OpenCV lib env.resize)
    (suppresses : Suppresses lib) {config : ModelConfig} (positive : 0 < config.inputSize)
    (fits : 3 * config.inputSize * config.inputSize ≤ 2^31 - 1)
    (named : config.numClasses ≤ cocoClasses.length) {image : Mat} (colour : image.Colour)
    (loaded : image.empty = false) (table : Tabular (networkOutput env lib config image) config)
    (inside : ∀ i ∈ kept (networkOutput env lib config image) config,
      InsideImage (networkOutput env lib config image) config image i)
    (session : env.fails .session = false) (run : env.fails .run = false) (k : Nat)
    {iteration : Iteration} (quiet : iteration.fails = .none) :
    (detect env lib config image = .error .exception ∧
      Consumer.fresh lib config k image iteration = .ok none) ∨
    ∃ value, Consumer.fresh lib config k image iteration = .ok (some value) ∧
      detect env lib config image = .ok (value.results.detections.map (drawn env.format)) := by
  obtain ⟨processed,unclipped,runs⟩ := fresh_runs opencv positive fits colour loaded k iteration
    (by rw [quiet]; rfl)
  let output := networkOutput env lib config image
  have boxes : listed output config image = ImageProcessor.decoded output config processed := by
    rw [listed,ImageProcessor.decoded,List.map_congr_left fun i member =>
      unclipped output i (inside i member)]
  have loop : ImageProcessor.candidateLoop .none output processed config .empty = .ok ⟨⟩ _ :=
    ImageProcessor.candidateLoop_ok table processed .empty
  have drawing := detect_eq opencv positive fits colour loaded table session run
  rw [runs,quiet]
  cases chosen : suppressed env lib config image with
  | none =>
    have refused : lib.nmsBoxes (ImageProcessor.decoded output config processed).boxes
        (ImageProcessor.decoded output config processed).scores config.confidenceThreshold
        config.nmsThreshold = none := by
      rw [← boxes]
      exact chosen
    left
    rw [ImageProcessor.postprocessDetections_throws loop refused]
    exact ⟨by rw [drawing,chosen],rfl⟩
  | some indices =>
    obtain ⟨drawings,ran,_⟩ :=
      detect_shows opencv suppresses positive fits named colour loaded table session run chosen
    rw [drawing,chosen] at ran
    obtain ⟨detections,read,rfl⟩ := drawAll_iff.mp ran
    have selected :
        List.Forall₂ (ImageProcessor.Selects output config processed) indices detections := by
      refine read.imp fun idx detection found => ImageProcessor.detectionAt_inv ?_
      rw [← boxes]
      exact found
    have accepted : lib.nmsBoxes (ImageProcessor.decoded output config processed).boxes
        (ImageProcessor.decoded output config processed).scores config.confidenceThreshold
        config.nmsThreshold = some indices := by
      rw [← boxes]
      exact chosen
    right
    rw [ImageProcessor.postprocessDetections_selected loop accepted selected]
    exact ⟨_,rfl,by rw [drawing,chosen]; exact ran⟩

/-- One box that fills an image of two by two pixels. -/
theorem wholeImage_agrees :
    let image : Mat := ⟨2,2,3,[51,102,153,0,255,0,255,0,0,0,0,255]⟩
    let config : ModelConfig := ⟨2,1,1,1 / 4,9 / 20⟩
    let lib : External := ⟨nearestLib.blobFromImage,fun _ _ => [1,1,2,2,1 / 2],
      ImageProcessor.thresholdOnly.nmsBoxes⟩
    let env : Environment := ⟨fun _ => image,nearest,fun _ => "0.50",fun _ => false⟩
    ∃ value, Consumer.fresh lib config 1 image ⟨0,0,0,0,0,.none⟩ = .ok (some value) ∧
      value.results.detections.map (drawn env.format) = [⟨⟨0,0,2,2⟩,"person 0.50",(0,0)⟩] := by
  intro image config lib env
  have openCV : OpenCV lib nearest := ⟨nearest_openCV.resizes,nearest_openCV.blobs⟩
  have suppresses : Suppresses lib :=
    ⟨ImageProcessor.thresholdOnly_suppresses.throws,ImageProcessor.thresholdOnly_suppresses.selects⟩
  have drawings : detect env lib config image = .ok [⟨⟨0,0,2,2⟩,"person 0.50",(0,0)⟩] := by
    decide +kernel
  have columns : kept (networkOutput env lib config image) config = [0] := by decide +kernel
  have inside : ∀ i ∈ kept (networkOutput env lib config image) config,
      InsideImage (networkOutput env lib config image) config image i := by
    rw [columns]
    intro i member
    cases List.mem_singleton.mp member
    exact ⟨by decide +kernel,by decide +kernel,by decide +kernel,by decide +kernel⟩
  have agree := programs_agree openCV suppresses (show 0 < config.inputSize by decide) (by decide)
    (by decide)
    (show image.Colour from ⟨rfl,rfl⟩) (by decide) ⟨by decide,by decide,by decide,
      by decide⟩ inside rfl rfl 1
    (show (⟨0,0,0,0,0,.none⟩ : Iteration).fails = .none from rfl)
  rw [drawings] at agree
  obtain ⟨impossible,_⟩ | ⟨value,computed,same⟩ := agree
  · contradiction
  · exact ⟨value,computed,(Except.ok.inj same).symm⟩

end ImageProgram
end YoloEngine
