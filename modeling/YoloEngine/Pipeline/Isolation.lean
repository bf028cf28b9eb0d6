import YoloEngine.Foundation.Sampling
import YoloEngine.Pipeline.Consumer
import YoloEngine.Vision.Decoder
import Mathlib.Data.List.ReduceOption

/-! A frame that throws changes nothing for any other frame. Whatever an iteration leaves in
the tensor and the scratch vectors, the next one computes what it would compute on new ones. -/
namespace YoloEngine
open Foundation Foundation.Aborting

namespace Consumer
variable {lib : External} {config : ModelConfig}

variable (lib config) in
/-- Frame number `k` on a new tensor and empty scratch vectors: nothing where something throws. -/
def fresh (k : Nat) (frame : Mat) (iteration : Iteration) : Except Abort (Option FrameWithResults) := do
  let buffer ← TensorBuffer.new config
  let (processed,buffer) ← ImageProcessor.preprocessImage lib frame k buffer iteration.captureTime
  let results ← caught (detect lib config iteration buffer processed .empty)
  return results.map (fun results => ⟨frame,results⟩)

theorem caught_some {β : Type} {result : EStateM.Result Abort Scratch β} {value : β}
    (swallowed : caught result = .ok (some value)) : ∃ after, result = .ok value after := by
  cases result with
  | ok returned after =>
    cases Except.ok.inj swallowed
    exact ⟨after,rfl⟩
  | error abort after => cases abort <;> cases swallowed

variable (lib config) in
private theorem detect_interrupts (iteration : Iteration) (buffer : TensorBuffer)
    (processed : ProcessedImage) :
    Interrupts .exception (detect lib config iteration buffer processed)
      (detect lib config { iteration with fails := .none } buffer processed) := by
  unfold detect
  apply Interrupts.bind
  · intro scratch
    cases thrown : iteration.fails .infer with
    | false => exact Or.inl (by simp [infer,thrown,Failures.none])
    | true =>
      refine Or.inr ⟨scratch,?_⟩
      simp only [infer,thrown,if_true]
      rfl
  · intro outputData
    exact ImageProcessor.postprocessDetections_interrupts iteration.fails outputData processed config lib _ _

theorem detect_inferred {iteration : Iteration} {buffer : TensorBuffer} {outputData : List ℚ}
    (inferred : infer lib iteration.fails buffer = .ok outputData) (processed : ProcessedImage)
    (scratch : Scratch) :
    detect lib config iteration buffer processed scratch =
      ImageProcessor.postprocessDetections lib iteration.fails outputData processed
        iteration.inferenceStart config iteration.postprocessStart scratch := by
  rw [detect,inferred]
  rfl

private theorem caught_detect_fresh (iteration : Iteration) (buffer : TensorBuffer)
    (processed : ProcessedImage) (scratch : Scratch) :
    caught (detect lib config iteration buffer processed scratch) =
      caught (detect lib config iteration buffer processed .empty) := by
  cases inferred : infer lib iteration.fails buffer with
  | error abort =>
    rw [detect,inferred]
    cases abort <;> rfl
  | ok outputData =>
    rw [detect_inferred inferred,detect_inferred inferred,ImageProcessor.postprocessDetections_fresh]

variable (lib config) in
theorem process_skipped (consumer : Consumer) (frame : Mat) (iteration : Iteration)
    (skipped : (consumer.frameSkipCounter + 1) % 2^64 % 3 ≠ 0) :
    consumer.process lib config frame iteration =
      .ok ({ consumer with frameSkipCounter := (consumer.frameSkipCounter + 1) % 2^64 },none) :=
  if_pos skipped

variable (lib) in
theorem process_fresh {buffer : TensorBuffer} (created : TensorBuffer.new config = .ok buffer)
    (consumer : Consumer) (same : consumer.buffer.SameLayout buffer) (frame : Mat)
    (iteration : Iteration) (chosen : (consumer.frameSkipCounter + 1) % 2^64 % 3 = 0) :
    ∃ after : Consumer, after.frameSkipCounter = (consumer.frameSkipCounter + 1) % 2^64 ∧
      after.frameCounter = (consumer.frameCounter + 1) % 2^64 ∧ after.buffer.SameLayout buffer ∧
      consumer.process lib config frame iteration =
        (fresh lib config ((consumer.frameCounter + 1) % 2^64) frame iteration).map (fun value =>
          (after,value)) := by
  have entered : ¬ (consumer.frameSkipCounter + 1) % 2^64 % 3 ≠ 0 := fun skipped => skipped chosen
  have prepared := ImageProcessor.preprocessImage_fresh same lib frame
    ((consumer.frameCounter + 1) % 2^64)
    iteration.captureTime
  simp only [process,entered,if_false,fresh,except_bind_ok created,prepared]
  cases done : ImageProcessor.preprocessImage lib frame ((consumer.frameCounter + 1) % 2^64) buffer
      iteration.captureTime with
  | error abort => exact ⟨⟨_,_,buffer,.empty⟩,rfl,rfl,⟨rfl,rfl,rfl⟩,rfl⟩
  | ok pair =>
    obtain ⟨processed,filled⟩ := pair
    have layout := ImageProcessor.preprocessImage_layout done
    rw [except_bind_ok rfl,except_bind_ok rfl]
    refine ⟨⟨_,_,filled,final (detect lib config iteration filled processed consumer.scratch)⟩,rfl,
      rfl,layout,?_⟩
    rw [← caught_detect_fresh iteration filled processed consumer.scratch]
    cases caught (detect lib config iteration filled processed consumer.scratch) <;> rfl

theorem fresh_prepared {k : Nat} {frame : Mat} (iteration : Iteration) {buffer : TensorBuffer}
    {pair : ProcessedImage × TensorBuffer} (created : TensorBuffer.new config = .ok buffer)
    (prepared : ImageProcessor.preprocessImage lib frame k buffer iteration.captureTime = .ok pair) :
    fresh lib config k frame iteration =
      caught (detect lib config iteration pair.2 pair.1 .empty) >>= fun results =>
      pure (results.map (fun results => ⟨frame,results⟩)) := by
  rw [fresh,except_bind_ok created,except_bind_ok prepared]

theorem fresh_numbered {k : Nat} {frame : Mat} {iteration : Iteration} {value : FrameWithResults}
    (computed : fresh lib config k frame iteration = .ok (some value)) :
    value.frame = frame ∧ value.results.frameId = k := by
  obtain ⟨buffer,_,rest⟩ := except_bind_inv computed
  obtain ⟨⟨processed,filled⟩,prepared,rest⟩ := except_bind_inv rest
  have number := ImageProcessor.preprocessImage_frameId prepared
  obtain ⟨results,swallowed,rest⟩ := except_bind_inv rest
  cases results with
  | none => cases Except.ok.inj rest
  | some results =>
    cases Except.ok.inj rest
    obtain ⟨after,ran⟩ := caught_some swallowed
    obtain ⟨outputData,_,_,postprocessed⟩ := bind_inv ran
    exact ⟨rfl,(ImageProcessor.postprocessDetections_frameId postprocessed).trans number⟩

/-- What may throw decides whether there is a value, and not which one. -/
private theorem fresh_interrupted (k : Nat) (frame : Mat) (iteration : Iteration) :
    fresh lib config k frame iteration = .ok none ∨
      fresh lib config k frame iteration = fresh lib config k frame
        { iteration with fails := .none } := by
  cases created : TensorBuffer.new config with
  | error abort => exact Or.inr (by rw [fresh,fresh,created]; rfl)
  | ok buffer =>
    cases prepared : ImageProcessor.preprocessImage lib frame k buffer iteration.captureTime with
    | error abort =>
      exact Or.inr (by rw [fresh,fresh,except_bind_ok created,except_bind_ok created,prepared]; rfl)
    | ok pair =>
      rw [fresh_prepared iteration created prepared,
        fresh_prepared { iteration with fails := .none } created prepared]
      rcases detect_interrupts lib config iteration pair.2 pair.1 .empty with same | cut
      · rw [same]
        exact Or.inr rfl
      · obtain ⟨reached,cut⟩ := cut
        rw [cut]
        exact Or.inl rfl

end Consumer

namespace Session
variable {lib : External} {config : ModelConfig}

variable (lib config) in
/-- What frame number `k` amounts to: nothing, or the value to pass on and the latency to record. -/
def outcome (entry : Nat × (Mat × Iteration)) : Except Abort (Option (FrameWithResults × Int)) := do
  let value ← Consumer.fresh lib config entry.1 entry.2.1 entry.2.2
  return value.map (fun value => (value,entry.2.2.totalEnd - entry.2.2.totalStart))

def enqueueAll (queue : LockFreeQueue FrameWithResults) (values : List FrameWithResults) :
    LockFreeQueue FrameWithResults :=
  values.foldl (fun queue value => (queue.enqueueMove value).1) queue

structure Isolated (buffer : TensorBuffer) (queue : LockFreeQueue FrameWithResults) (count : Nat)
    (session : Session) (outcomes : List (Option (FrameWithResults × Int))) : Prop where
  skips : session.consumer.frameSkipCounter = count
  frames : session.consumer.frameCounter = count / 3
  layout : session.consumer.buffer.SameLayout buffer
  passed : session.passed = outcomes.reduceOption.map Prod.fst
  latencies : session.latenciesUs = outcomes.reduceOption.map Prod.snd
  queued : session.resultQueue = enqueueAll queue (outcomes.reduceOption.map Prod.fst)

variable {buffer : TensorBuffer} {queue : LockFreeQueue FrameWithResults} {count : Nat}
  {session : Session} {known : List (Option (FrameWithResults × Int))}

variable (lib config) in
private theorem step_skipped (isolated : Isolated buffer queue count session known)
    (fewer : count + 1 < 2^64) (arrival : Mat × Iteration) (skipped : (count + 1) % 3 ≠ 0) :
    ∃ after, session.step lib config arrival = .ok after ∧
    Isolated buffer queue (count + 1) after known := by
  have counter : (session.consumer.frameSkipCounter + 1) % 2^64 = count + 1 := by
    rw [isolated.skips]
    exact Nat.mod_eq_of_lt fewer
  have processed := Consumer.process_skipped lib config session.consumer arrival.1 arrival.2
    (by rw [counter]; exact skipped)
  refine ⟨_,except_bind_ok processed _,counter,?_,isolated.layout,isolated.passed,
    isolated.latencies,isolated.queued⟩
  have frames := isolated.frames
  show session.consumer.frameCounter = _
  omega

variable (lib) in
private theorem step_chosen (created : TensorBuffer.new config = .ok buffer)
    (isolated : Isolated buffer queue count session known) (fewer : count + 1 < 2^64)
    (arrival : Mat × Iteration) (chosen : (count + 1) % 3 = 0) :
    (∃ abort, session.step lib config arrival = .error abort ∧
      outcome lib config ((count + 1) / 3,arrival) = .error abort) ∨
    ∃ after last, session.step lib config arrival = .ok after ∧
      outcome lib config ((count + 1) / 3,arrival) = .ok last ∧
      Isolated buffer queue (count + 1) after (known ++ [last]) := by
  have counter : (session.consumer.frameSkipCounter + 1) % 2^64 = count + 1 := by
    rw [isolated.skips]
    exact Nat.mod_eq_of_lt fewer
  have number : (session.consumer.frameCounter + 1) % 2^64 = (count + 1) / 3 := by
    rw [isolated.frames]
    omega
  obtain ⟨after,skips,frames,layout,processed⟩ := Consumer.process_fresh lib created session.consumer
    isolated.layout arrival.1 arrival.2 (by rw [counter]; exact chosen)
  rw [number] at frames processed
  rw [counter] at skips
  cases computed : Consumer.fresh lib config ((count + 1) / 3) arrival.1 arrival.2 with
  | error abort =>
    rw [computed] at processed
    refine Or.inl ⟨abort,?_,?_⟩
    · rw [step,processed]
      rfl
    · rw [outcome,computed]
      rfl
  | ok delivered =>
    rw [computed] at processed
    have computes : outcome lib config ((count + 1) / 3,arrival) =
        .ok (delivered.map (fun value => (value,arrival.2.totalEnd - arrival.2.totalStart))) := by
      rw [outcome,computed]
      rfl
    cases delivered with
    | none =>
      have same : (known ++ [none]).reduceOption = known.reduceOption := by
        rw [List.reduceOption_append]
        exact List.append_nil _
      refine Or.inr ⟨_,_,except_bind_ok processed _,computes,skips,frames,layout,?_,?_,?_⟩
      · exact isolated.passed.trans (by rw [Option.map_none,same])
      · exact isolated.latencies.trans (by rw [Option.map_none,same])
      · exact isolated.queued.trans (by rw [Option.map_none,same])
    | some value =>
      have more (latency : Int) : (known ++ [some (value,latency)]).reduceOption =
          known.reduceOption ++ [(value,latency)] := List.reduceOption_append _ _
      refine Or.inr ⟨_,_,except_bind_ok processed _,computes,skips,frames,layout,?_,?_,?_⟩
      · rw [Option.map_some,more,List.map_append,← isolated.passed]
        rfl
      · rw [Option.map_some,more,List.map_append,← isolated.latencies]
        rfl
      · rw [Option.map_some,more,List.map_append,enqueueAll,List.foldl_append]
        exact congrArg (fun queue => (LockFreeQueue.enqueueMove queue value).1) isolated.queued

theorem run_append (start : Session) (arrivals : List (Mat × Iteration)) (arrival : Mat × Iteration) :
    start.run lib config (arrivals ++ [arrival]) = start.run lib config arrivals >>= fun session =>
      session.step lib config arrival := by
  rw [run,List.foldlM_append]
  simp only [List.foldlM_cons,List.foldlM_nil,bind_pure]
  rfl

variable (lib config) in
def outcomes (arrivals : List (Mat × Iteration)) :
    Except Abort (List (Option (FrameWithResults × Int))) :=
  (sample 3 arrivals).mapM (outcome lib config)

private theorem outcomes_chosen (arrivals : List (Mat × Iteration)) (arrival : Mat × Iteration)
    (chosen : (arrivals.length + 1) % 3 = 0) :
    outcomes lib config (arrivals ++ [arrival]) = outcomes lib config arrivals >>= fun earlier =>
      outcome lib config ((arrivals.length + 1) / 3,arrival) >>= fun last =>
        .ok (earlier ++ [last]) := by
  rw [outcomes,sample_append,if_pos chosen,List.mapM_append]
  simp only [List.mapM_cons,List.mapM_nil,bind_assoc,pure_bind]
  rfl

private theorem outcomes_skipped (arrivals : List (Mat × Iteration)) (arrival : Mat × Iteration)
    (skipped : (arrivals.length + 1) % 3 ≠ 0) :
    outcomes lib config (arrivals ++ [arrival]) = outcomes lib config arrivals := by
  rw [outcomes,sample_append,if_neg skipped,List.append_nil]
  rfl

variable (lib) in
private theorem run_isolated (created : TensorBuffer.new config = .ok buffer)
    (queue : LockFreeQueue FrameWithResults) (arrivals : List (Mat × Iteration))
    (fewer : arrivals.length < 2^64) :
    let start : Session := ⟨.start buffer,queue,[],[]⟩
    (∃ abort, start.run lib config arrivals = .error abort ∧
      outcomes lib config arrivals = .error abort) ∨
    ∃ session known, start.run lib config arrivals = .ok session ∧
    outcomes lib config arrivals = .ok known ∧
      Isolated buffer queue arrivals.length session known := by
  intro start
  -- by the last arrival: only a third frame adds an outcome
  induction arrivals using List.reverseRecOn with
  | nil => exact Or.inr ⟨start,[],rfl,rfl,rfl,rfl,⟨rfl,rfl,rfl⟩,rfl,rfl,rfl⟩
  | append_singleton arrivals arrival ih =>
    rw [List.length_append,List.length_singleton] at fewer ⊢
    rw [run_append]
    by_cases chosen : (arrivals.length + 1) % 3 = 0
    · rw [outcomes_chosen _ _ chosen]
      obtain ⟨abort,stopped,same⟩ | ⟨session,known,ran,collected,isolated⟩ := ih (by omega)
      · exact Or.inl ⟨abort,except_bind_error stopped _,except_bind_error same _⟩
      · rw [except_bind_ok ran,except_bind_ok collected]
        obtain ⟨abort,stopped,same⟩ | ⟨after,last,stepped,same,isolated⟩ :=
          step_chosen lib created isolated fewer arrival chosen
        · exact Or.inl ⟨abort,stopped,except_bind_error same _⟩
        · exact Or.inr ⟨after,known ++ [last],stepped,except_bind_ok same _,isolated⟩
    · rw [outcomes_skipped _ _ chosen]
      obtain ⟨abort,stopped,same⟩ | ⟨session,known,ran,collected,isolated⟩ := ih (by omega)
      · exact Or.inl ⟨abort,except_bind_error stopped _,same⟩
      · obtain ⟨after,stepped,isolated⟩ := step_skipped lib config isolated fewer arrival chosen
        rw [except_bind_ok ran]
        exact Or.inr ⟨after,known,stepped,collected,isolated⟩

/-- The consumer passes on and records what each third frame amounts to on its own: its number and
the frame itself are kept, and what may throw decides only whether there is a value. -/
theorem failures_isolated (lib : External) (config : ModelConfig)
    (created : TensorBuffer.new config = .ok buffer) (queue : LockFreeQueue FrameWithResults)
    (arrivals : List (Mat × Iteration)) (fewer : arrivals.length < 2^64) :
    let start : Session := ⟨.start buffer,queue,[],[]⟩
    (start.run lib config arrivals).map (fun session =>
      (session.passed,session.latenciesUs,session.resultQueue)) =
      ((sample 3 arrivals).mapM (outcome lib config)).map (fun outcomes =>
        let delivered := outcomes.reduceOption
        (delivered.map Prod.fst,delivered.map Prod.snd,enqueueAll queue (delivered.map Prod.fst))) ∧
    ∀ k frame iteration,
      (∀ value, Consumer.fresh lib config k frame iteration = .ok (some value) →
        value.frame = frame ∧ value.results.frameId = k) ∧
      (Consumer.fresh lib config k frame iteration = .ok none ∨
        Consumer.fresh lib config k frame iteration =
          Consumer.fresh lib config k frame { iteration with fails := .none }) := by
  intro start
  refine ⟨?_,fun k frame iteration =>
    ⟨fun value => Consumer.fresh_numbered,Consumer.fresh_interrupted k frame iteration⟩⟩
  change _ = (outcomes lib config arrivals).map _
  obtain ⟨abort,stopped,same⟩ | ⟨session,known,ran,collected,isolated⟩ :=
    run_isolated lib created queue arrivals fewer
  · rw [stopped,same]
    rfl
  · rw [ran,collected]
    simp only [Except.map,isolated.passed,isolated.latencies,isolated.queued]

theorem third_throws_isolated :
    let lib : External := ⟨fun frame _ _ _ _ _ => frame.data,fun input _ => input,fun _ _ _ _ =>
      some []⟩
    let config : ModelConfig := ⟨1,0,0,1 / 4,9 / 20⟩
    let frame : Mat := ⟨1,1,3,[0,0,0]⟩
    let calm : Iteration := ⟨0,0,0,0,7,.none⟩
    let thrown : Iteration := ⟨0,0,0,0,7,fun site => site == .infer⟩
    let value : FrameWithResults := ⟨frame,⟨[],2,0,0,0⟩⟩
    ∃ buffer, TensorBuffer.new config = .ok buffer ∧
      (Session.run lib config ⟨.start buffer,.new 5,[],[]⟩
        [(frame,calm),(frame,calm),(frame,thrown),(frame,calm),(frame,calm),(frame,calm)]).map
          (fun session => (session.passed,session.latenciesUs,session.resultQueue)) =
        .ok ([value],[7],((LockFreeQueue.new 5).enqueueMove value).1) := by
  intro lib config frame calm thrown value
  refine ⟨_,rfl,?_⟩
  have isolated := (failures_isolated lib config rfl (.new 5)
    [(frame,calm),(frame,calm),(frame,thrown),(frame,calm),(frame,calm),(frame,calm)] (by decide)).left
  exact isolated.trans (by decide +kernel)

end Session
end YoloEngine
