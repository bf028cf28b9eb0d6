import YoloEngine.Pipeline.Accounts
import YoloEngine.Pipeline.Statistics
import YoloEngine.Vision.ImageProgram
import YoloEngine.Vision.TensorShape

/-! `yolov8n_camera` from its command line to the report it prints. `main` reads the number of the
camera, opens it, loads the model, starts three threads on two queues of five and waits for them;
then it prints what the consumer has recorded. -/
namespace YoloEngine
open Foundation Foundation.Aborting

namespace LatencyTracker

private theorem partialSumsFit_of {values : List Int} (nonneg : ∀ value ∈ values, 0 ≤ value)
    (small : values.sum < 2^63) :
    PartialSumsFit values := by
  intro k _
  have split : (values.take k).sum + (values.drop k).sum = values.sum := by
    rw [← List.sum_append,List.take_append_drop]
  have first : 0 ≤ (values.take k).sum := List.sum_nonneg fun value member =>
    nonneg value (List.mem_of_mem_take member)
  have rest : 0 ≤ (values.drop k).sum := List.sum_nonneg fun value member =>
    nonneg value (List.mem_of_mem_drop member)
  omega

/-- With some latency recorded, and a total that fits 64 bits, the statistics are printed. -/
theorem printStats_ok {latenciesUs : List Int} (recorded : latenciesUs ≠ [])
    (nonneg : ∀ value ∈ latenciesUs, 0 ≤ value) (small : latenciesUs.sum < 2^63) (name : String) :
    ∃ stats, printStats latenciesUs name = .ok (.stats name stats) ∧
    stats.framesProcessed = latenciesUs.length ∧
      stats.avg = latenciesUs.sum / latenciesUs.length := by
  let sortedLat := latenciesUs.insertionSort (· ≤ ·)
  have same : sortedLat.Perm latenciesUs := List.perm_insertionSort _ _
  have ordered : sortedLat.Pairwise (· ≤ ·) := List.pairwise_insertionSort _ _
  have filled : sortedLat ≠ [] := fun none => recorded (List.perm_nil.mp (none ▸ same.symm))
  have total := accumulate_ok (partialSumsFit_of
    (fun value member => nonneg value (same.mem_iff.mp member)) (same.sum_eq.trans_lt small))
  obtain ⟨front,back,first,last,_⟩ := extremes_ok ordered filled
  obtain ⟨p50,_,half⟩ := getPercentile_rank filled (show (0 : ℚ) ≤ 1 / 2 by norm_num)
  obtain ⟨p99,_,high⟩ := getPercentile_rank filled (show (0 : ℚ) ≤ 99 / 100 by norm_num)
  obtain ⟨p999,_,highest⟩ := getPercentile_rank filled (show (0 : ℚ) ≤ 999 / 1000 by norm_num)
  let avg : ℚ := sortedLat.sum / sortedLat.length
  have printed : printStats latenciesUs name = .ok (.stats name ⟨sortedLat.length,
      if avg = 0 then none else some (1000000 / avg),avg,front,back,p50,p99,p999⟩) := by
    rw [printStats,if_neg (by simpa using recorded),except_bind_ok total,except_bind_ok first,
      except_bind_ok last,except_bind_ok half,except_bind_ok high,except_bind_ok highest]
    rfl
  refine ⟨_,printed,same.length_eq,?_⟩
  rw [← same.sum_eq,← same.length_eq]

end LatencyTracker

namespace CameraProgram
open Accesses
open Pipeline (ProducerPc ConsumerPc DisplayPc Action fetched)
open ImageProgram (constants)

def isSpace (c : Char) : Bool := c = ' ' || (9 ≤ c.toNat && c.toNat ≤ 13)

/-- The digits of a number that may begin with a sign. -/
def digits (rest : List Char) : List Char :=
  (if rest.head? = some '-' ∨ rest.head? = some '+' then rest.tail else rest).takeWhile Char.isDigit

def number (rest : List Char) : Int :=
  let magnitude := (digits rest).foldl (fun value digit => 10 * value + (digit.toNat - '0'.toNat)) 0
  if rest.head? = some '-' then -magnitude else magnitude

/-- `std::stoi` with base ten. Blanks before the number and anything after it are ignored. -/
def stoi (text : String) : Except Abort Int :=
  let rest := text.toList.dropWhile isSpace
  if (digits rest).isEmpty then .error .exception
  else if -2^31 ≤ number rest ∧ number rest < 2^31 then .ok (number rest)
  else .error .exception

example : stoi " -12th" = .ok (-12) ∧ stoi "camera" = .error .exception ∧
    stoi "2147483648" = .error .exception := by
  decide +kernel

/-- Which cameras can be opened, and whether the constructor of `InferenceEngine` throws. -/
structure Environment where
  isOpened : Int → Bool
  engineThrows : Bool

inductive Setup where
  | exits (code : Int)
  | starts (buffer : TensorBuffer)

def cameraIdx (args : List String) : Except Abort Int :=
  if args.length ≥ 2 then do
    let text ← elementAt args 1
    stoi text
  else return 0

/-- `main` up to the start of the threads. -/
def setUp (env : Environment) (args : List String) : Except Abort Setup := do
  let idx ← cameraIdx args
  if ¬ env.isOpened idx then return .exits (-1)
  else if env.engineThrows then return .exits (-1)
  else
    let buffer ← TensorBuffer.new constants
    return .starts buffer

def threads (lib : External) (buffer : TensorBuffer) : Machine State Action :=
    program lib constants buffer 5 5

def trackerName : String := "End-to-End pipeline"

/-- `main` after the joins. -/
def report (state : State) : Except Abort (Int × LatencyTracker.Printed) := do
  let printed ← LatencyTracker.printStats state.latenciesUs trackerName
  return (0,printed)

section Setup
variable {env : Environment} {args : List String}

private theorem stoi_error {text : String} {abort : Abort} (failed : stoi text = .error abort) :
    abort = .exception := by
  unfold stoi at failed
  dsimp only at failed
  split at failed
  · exact (Except.error.inj failed).symm
  · split at failed
    · contradiction
    · exact (Except.error.inj failed).symm

private theorem cameraIdx_error {abort : Abort} (failed : cameraIdx args = .error abort) :
    abort = .exception ∧ ∃ text, args[1]? = some text ∧ stoi text = .error .exception := by
  unfold cameraIdx at failed
  split at failed
  next enough =>
    obtain ⟨text,given⟩ : ∃ text, args[1]? = some text := ⟨_,List.getElem?_eq_getElem enough⟩
    rw [except_bind_ok (show elementAt args 1 = .ok text from elementAt_ok given)] at failed
    cases stoi_error failed
    exact ⟨rfl,text,given,failed⟩
  next => contradiction

/-- The constants fit: the tensor can always be allocated. -/
private theorem constants_buffer : ∃ buffer, TensorBuffer.new constants = .ok buffer ∧
    (buffer.size : Int) = 3 * 640 * 640 := by
  obtain ⟨buffer,created,size,_⟩ := TensorBuffer.new_ok (show 0 < constants.inputSize by decide)
    (by decide)
  exact ⟨buffer,created,size⟩

private theorem setUp_given {idx : Int} (known : cameraIdx args = .ok idx) {buffer : TensorBuffer}
    (created : TensorBuffer.new constants = .ok buffer) :
    setUp env args =
      if env.isOpened idx = true ∧ env.engineThrows = false then .ok (.starts buffer)
        else .ok (.exits (-1)) := by
  rw [setUp,except_bind_ok known]
  cases opened : env.isOpened idx with
  | false => rfl
  | true =>
    cases thrown : env.engineThrows with
    | true => rfl
    | false =>
      rw [if_neg (by simp),if_neg (by simp),except_bind_ok created]
      rfl

end Setup

section Recording
variable {lib : External} {config : ModelConfig} {buffer : TensorBuffer}
  {frameSize resultSize : Nat} {state after : State}

/-- The result that is passed on and whose latency is not recorded yet. -/
def unrecorded : ConsumerPc → Nat
  | .offering _ _ => 1
  | _ => 0

private theorem consumer_latencies {iteration : Iteration}
    (move : ConsumerMove lib config state iteration after)
    (counted : state.latenciesUs.length + unrecorded state.consumer =
      (Interleaving.begun state.results).length) :
    after.latenciesUs.length + unrecorded after.consumer =
      (Interleaving.begun after.results).length := by
  cases move with
  | stop pc _ | ask pc _ _ | nullopt pc _ _ | fetch pc _ _ | pass pc _ =>
    rw [pc] at counted
    exact counted
  | access pc _ _ => exact counted
  | offer pc processed called =>
    rw [pc] at counted
    rw [(called_enqueue called).left,List.length_append]
    exact congrArg (· + 1) counted
  | deliver pc taken pending =>
    rw [pc] at counted
    rw [(accessed_producer taken).left]
    exact counted
  | record pc taken done =>
    rw [pc] at counted
    rw [(accessed_producer taken).left,LatencyTracker.record,List.length_append]
    exact counted

private theorem latencies_reachable {guard : State → Action → Prop}
    (reachable : (program lib config buffer frameSize resultSize).Reachable guard state) :
    state.latenciesUs.length + unrecorded state.consumer =
      (Interleaving.begun state.results).length := by
  apply reachable.invariant fun state =>
    state.latenciesUs.length + unrecorded state.consumer = (Interleaving.begun state.results).length
  · rfl
  · intro before action after counted _ taken
    cases action with
    | signal =>
      cases Option.some.inj taken
      exact counted
    | producer capture => cases producerStep_move taken <;> exact counted
    | consumer iteration => exact consumer_latencies (consumerStep_move taken) counted
    | display key =>
      cases displayStep_move taken with
      | ask pc on called =>
        rw [(called_dequeue called).left]
        exact counted
      | access pc accessed _ | nullopt pc accessed _ | fetch pc accessed _ =>
        rw [(accessed_consumer accessed).left]
        exact counted
      | stop pc _ | quit pc _ | carryOn pc _ => exact counted

/-- What is printed after the joins counts the results that were passed on. -/
private theorem report_counts (created : TensorBuffer.new constants = .ok buffer)
    (reachable : (threads lib buffer).Reachable Machine.always state) (joined : Joined state)
    (fewer : state.dequeued.length < 2^64) (nonneg : ∀ latency ∈ state.latenciesUs, 0 ≤ latency)
    (small : state.latenciesUs.sum < 2^63) :
    ∃ outcomes, List.Forall₂ (Outcome lib constants) (sample 3 state.dequeued) outcomes ∧
      Interleaving.begun state.results = outcomes.reduceOption ∧
      ((outcomes.reduceOption = [] ∧ report state = .ok (0,.noDataRecorded trackerName)) ∨
      (outcomes.reduceOption ≠ [] ∧ ∃ stats, report state = .ok (0,.stats trackerName stats) ∧
        stats.framesProcessed = outcomes.reduceOption.length ∧
        3 * stats.framesProcessed ≤ state.dequeued.length ∧
        stats.avg = state.latenciesUs.sum / stats.framesProcessed)) := by
  obtain ⟨handled,outcomes,work⟩ := handled_reachable created reachable fewer
  have counted := latencies_reachable reachable
  rw [joined.consumer,work.begun] at counted
  have all : state.dequeued = handled := by
    rw [work.dequeued,joined.consumer]
    exact List.append_nil _
  have thirds : outcomes.length = state.dequeued.length / 3 := by
    rw [all,← work.known.length_eq,sample_length]
  have fewest := List.reduceOption_length_le outcomes
  refine ⟨outcomes,all ▸ work.known,work.begun,?_⟩
  by_cases none : state.latenciesUs = []
  · left
    rw [none] at counted
    refine ⟨List.length_eq_zero_iff.mp counted.symm,?_⟩
    rw [report,none]
    rfl
  · right
    obtain ⟨stats,printed,processed,average⟩ :=
      LatencyTracker.printStats_ok none nonneg small trackerName
    have length : stats.framesProcessed = outcomes.reduceOption.length := processed.trans counted
    refine ⟨fun empty => ?_,stats,except_bind_ok printed _,length,by omega,by rw [average,processed]⟩
    rw [empty] at counted
    exact none (List.length_eq_zero_iff.mp counted)

end Recording

/-- How the program can end. The argument is no number and nothing catches what `stoi` throws; the
camera cannot be opened or the model cannot be loaded, and the program exits with -1; or its threads
run, and once they have stopped, in whatever order they took their steps, it prints as many
processed frames as results were computed, one at most for three frames dequeued, and exits with
0. -/
theorem camera_reports (env : Environment) (lib : External) (args : List String) :
    (setUp env args = .error .exception ∧ ∃ text, args[1]? = some text ∧
      stoi text = .error .exception) ∨
    ∃ idx, cameraIdx args = .ok idx ∧
      ((setUp env args = .ok (.exits (-1)) ∧ (env.isOpened idx = false ∨ env.engineThrows = true)) ∨
      (env.isOpened idx = true ∧ env.engineThrows = false ∧ ∃ buffer,
        setUp env args = .ok (.starts buffer) ∧
        (buffer.size : Int) = 3 * 640 * 640 ∧
        ∀ state, (threads lib buffer).Reachable Machine.always state → Joined state →
        state.dequeued.length < 2^64 →
          (∀ latency ∈ state.latenciesUs, 0 ≤ latency) → state.latenciesUs.sum < 2^63 →
          ∃ outcomes, List.Forall₂ (Outcome lib constants) (sample 3 state.dequeued) outcomes ∧
            Interleaving.begun state.results = outcomes.reduceOption ∧
            ((outcomes.reduceOption = [] ∧ report state = .ok (0,.noDataRecorded trackerName)) ∨
            (outcomes.reduceOption ≠ [] ∧ ∃ stats, report state = .ok (0,.stats trackerName stats) ∧
              stats.framesProcessed = outcomes.reduceOption.length ∧
              3 * stats.framesProcessed ≤ state.dequeued.length ∧
              stats.avg = state.latenciesUs.sum / stats.framesProcessed)))) := by
  cases known : cameraIdx args with
  | error abort =>
    obtain ⟨rfl,refused⟩ := cameraIdx_error known
    exact Or.inl ⟨except_bind_error known _,refused⟩
  | ok idx =>
    obtain ⟨buffer,created,size⟩ := constants_buffer
    have begins := @setUp_given env args idx known buffer created
    refine Or.inr ⟨idx,rfl,?_⟩
    by_cases starts : env.isOpened idx = true ∧ env.engineThrows = false
    · rw [if_pos starts] at begins
      exact Or.inr ⟨starts.left,starts.right,buffer,begins,size,
        fun state reachable joined fewer nonneg small =>
          report_counts created reachable joined fewer nonneg small⟩
    · rw [if_neg starts] at begins
      rw [not_and_or,Bool.not_eq_true,Bool.not_eq_false] at starts
      exact Or.inl ⟨begins,starts⟩

/-- A network that answers zeros to every image. -/
def blind : External where
  blobFromImage := fun _ _ _ _ _ _ => List.replicate (3 * 640 * 640) 0
  run := fun _ _ => List.replicate (84 * 8400) 0
  nmsBoxes := fun _ _ _ _ => some []

def black : Mat := ⟨1,1,3,[0,0,0]⟩

/-- The readings of an iteration that takes seven microseconds. -/
def seven : Iteration := ⟨0,0,0,0,7,.none⟩

private theorem blind_processes {buffer : TensorBuffer}
    (created : TensorBuffer.new constants = .ok buffer)
    (sized : (buffer.size : Int) = 3 * 640 * 640) (frame : Mat) : ∃ after value,
    Consumer.process blind constants ⟨0,2,buffer,.empty⟩ frame seven = .ok (after,some value) := by
  let output : List ℚ := List.replicate (84 * 8400) 0
  have fits : (List.replicate (3 * 640 * 640) (0 : ℚ)).length = buffer.size := by
    rw [List.length_replicate]
    omega
  obtain ⟨processed,filled,prepared,_⟩ :=
    @ImageProcessor.preprocessImage_ok blind frame buffer _ rfl fits ((0 + 1) % 2^64) seven.captureTime
  have rows : output.length = 84 * 8400 := List.length_replicate
  have table : ImageProcessor.Tabular output constants :=
    ⟨by decide,by decide,by rw [rows]; rfl,by decide⟩
  have loop := ImageProcessor.candidateLoop_ok table processed .empty
  have inferred : Consumer.infer blind .none filled = .ok output := rfl
  have selected :=
    @ImageProcessor.postprocessDetections_selected output constants processed blind .empty loop [] []
    rfl .nil 0 0
  obtain ⟨results,stored,ran⟩ : ∃ results stored,
      Consumer.detect blind constants seven filled processed .empty = .ok results stored :=
    ⟨_,_,(Consumer.detect_inferred inferred _ _).trans selected⟩
  have computed : Consumer.fresh blind constants ((0 + 1) % 2^64) frame seven =
    .ok (some ⟨frame,results⟩) := by
    rw [Consumer.fresh_prepared seven created prepared,ran]
    rfl
  obtain ⟨after,_,_,_,same⟩ := Consumer.process_fresh blind created ⟨0,2,buffer,.empty⟩ ⟨rfl,rfl,
    rfl⟩ frame seven
    (show (2 + 1) % 2^64 % 3 = 0 by decide)
  exact ⟨after,_,same.trans (by rw [computed]; rfl)⟩

/-- A frame is captured and passed through the frame queue. -/
def bring : List Action := List.replicate 6 (.producer black) ++ List.replicate 5 (.consumer seven)

/-- The result of the third frame is passed on before a signal comes. -/
def passOn : List Action :=
  List.replicate 4 (.consumer seven) ++ [.signal,.producer black,.consumer seven,.display 'a']

def threeBrought : List Action :=
  bring ++ .consumer seven :: (bring ++ .consumer seven :: (bring ++ .consumer seven :: passOn))

/-- So many frames have been fetched, one by one. -/
def brought (buffer : TensorBuffer) (count : Nat) : State :=
  let items : List (Interleaving.Tagged Mat) := (List.range count).map fun tag => ⟨tag,black⟩
  { State.new buffer 5 5 with
    frames := ⟨⟨items.map .movedFrom ++ List.replicate (5 - count) .unwritten,count,count,5⟩,.idle,
      .idle,count,0,items,count,items.map .item,items.map .item⟩
    captured := List.replicate count black
    dequeued := List.replicate count black }

private theorem consumerStep_fetched {lib : External} {config : ModelConfig} {state : State}
    {frame : Mat} {iteration : Iteration} {locals : Consumer} {value : FrameWithResults}
    (pc : state.consumer = .fetched frame)
    (processed : state.locals.process lib config frame iteration = .ok (locals,some value)) :
    next lib config state (.consumer iteration) =
      (Interleaving.next state.results (.callEnqueue .move value)).map fun results =>
        { state with
          locals := locals, results := results, consumer := .offering value iteration.totalStart } := by
  simp only [next,Concurrent.step,Concurrent.consumerStep,pc,processed,queueCalls_next,
    queueCalls_callEnqueue]
  cases Interleaving.next state.results (.callEnqueue .move value) <;> rfl

private theorem threeBrought_runs {buffer : TensorBuffer} {after : Consumer} {value : FrameWithResults}
    (processed : Consumer.process blind constants ⟨0,2,buffer,.empty⟩ black seven =
      .ok (after,some value)) :
    (threads blind buffer).run Machine.always (.new buffer 5 5) threeBrought =
      some { brought buffer 3 with
        isRunning := false
        results := ⟨⟨.item ⟨0,value⟩ :: List.replicate 4 .unwritten,0,1,5⟩,.idle,.idle,1,0,
          [⟨0,value⟩],1,[],[]⟩
        producer := .stopped
        consumer := .stopped
        display := .stopped
        locals := after
        latenciesUs := [7] } := by
  have first : (threads blind buffer).run Machine.always (.new buffer 5 5) (bring ++ [.consumer seven]) =
      some { brought buffer 1 with locals := ⟨0,1,buffer,.empty⟩ } := rfl
  have second : (threads blind buffer).run Machine.always
    { brought buffer 1 with locals := ⟨0,1,buffer,.empty⟩ }
      (bring ++ [.consumer seven]) = some { brought buffer 2 with locals := ⟨0,2,buffer,.empty⟩ } := rfl
  have third : (threads blind buffer).run Machine.always
    { brought buffer 2 with locals := ⟨0,2,buffer,.empty⟩ } bring =
      some { brought buffer 3 with locals := ⟨0,2,buffer,.empty⟩, consumer := .fetched black } := rfl
  have offered := @consumerStep_fetched blind constants
    { brought buffer 3 with locals := ⟨0,2,buffer,.empty⟩, consumer := .fetched black }
    black seven after value rfl processed
  have split : threeBrought = (bring ++ [.consumer seven]) ++ ((bring ++ [.consumer seven]) ++
      (bring ++ .consumer seven :: passOn)) := by
    simp [threeBrought]
  rw [split,Machine.run_append first,Machine.run_append second,Machine.run_append third,
    Machine.run_taken trivial offered]
  rfl

theorem threeBrought_reports :
    let env : Environment := ⟨fun idx => idx = 2,false⟩
    ∃ buffer, setUp env ["yolov8n_camera","2"] = .ok (.starts buffer) ∧
      ∃ state, (threads blind buffer).run Machine.always (.new buffer 5 5) threeBrought = some state ∧
        state.latenciesUs = [7] ∧
        ∃ stats, report state = .ok (0,.stats trackerName stats) ∧ stats.framesProcessed = 1 ∧
        stats.avg = 7 := by
  intro env
  have number : cameraIdx ["yolov8n_camera","2"] = .ok 2 := by decide +kernel
  obtain ⟨tensor,created,size⟩ := constants_buffer
  have starts : setUp env ["yolov8n_camera","2"] = .ok (.starts tensor) := setUp_given number created
  obtain ⟨refused,_⟩ | ⟨_,_,⟨exits,_⟩ | ⟨_,_,buffer,started,_,reports⟩⟩ :=
    camera_reports env blind ["yolov8n_camera","2"]
  · exact nomatch starts.symm.trans refused
  · exact nomatch starts.symm.trans exits
  · cases starts.symm.trans started
    obtain ⟨after,value,processed⟩ := blind_processes created size black
    have ran := threeBrought_runs processed
    refine ⟨tensor,started,_,ran,rfl,?_⟩
    obtain ⟨outcomes,_,begun,⟨none,_⟩ | ⟨_,stats,printed,many,_,average⟩⟩ :=
      reports _ (Machine.reachable_of_run .init ran) ⟨rfl,rfl,rfl⟩ (show 3 < 2^64 by decide)
        (show ∀ latency ∈ [(7 : Int)], 0 ≤ latency by decide) (show [(7 : Int)].sum < 2^63 by decide)
    · exact nomatch begun.trans none
    · have one : stats.framesProcessed = 1 := many.trans (congrArg List.length begun).symm
      refine ⟨stats,printed,one,average.trans ?_⟩
      rw [one]
      norm_num

end CameraProgram
end YoloEngine
