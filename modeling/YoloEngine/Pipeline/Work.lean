import YoloEngine.Pipeline.Accesses
import YoloEngine.Pipeline.Records
import YoloEngine.Vision.Returned

/-! What the three threads do in any run, whatever happens inside the queues. A thread is inside a
call exactly while the queue says so, the histories agree with those of the queues, and every
result passed on is what the consumer computes from a frame it has dequeued. -/
namespace YoloEngine
open Foundation Foundation.Aborting

namespace Consumer
variable {lib : External} {config : ModelConfig} {k : Nat} {frame : Mat} {iteration : Iteration}
  {value : FrameWithResults}

/-- The detections of a frame are the candidates that suppression selects from what the network
makes of it. -/
theorem fresh_inv (computed : fresh lib config k frame iteration = .ok (some value)) :
    value.frame = frame ∧ ∃ buffer processed filled indices, TensorBuffer.new config = .ok buffer ∧
      ImageProcessor.preprocessImage lib frame k buffer iteration.captureTime = .ok (processed,filled) ∧
      let output := lib.run (filled.data.take filled.size) filled.shape
      lib.nmsBoxes (ImageProcessor.decoded output config processed).boxes
          (ImageProcessor.decoded output config processed).scores config.confidenceThreshold
          config.nmsThreshold = some indices ∧
      List.Forall₂
        (ImageProcessor.Selects output config processed) indices value.results.detections := by
  obtain ⟨buffer,created,rest⟩ := except_bind_inv computed
  obtain ⟨⟨processed,filled⟩,prepared,rest⟩ := except_bind_inv rest
  obtain ⟨results,swallowed,rest⟩ := except_bind_inv rest
  cases results with
  | none => cases Except.ok.inj rest
  | some results =>
    cases Except.ok.inj rest
    obtain ⟨after,ran⟩ := caught_some swallowed
    obtain ⟨outputData,_,inferred,postprocessed⟩ := bind_inv ran
    obtain ⟨inferred,_⟩ := liftExcept_inv inferred
    have output : outputData = lib.run (filled.data.take filled.size) filled.shape := by
      unfold infer at inferred
      split at inferred
      · contradiction
      · exact (Except.ok.inj inferred).symm
    subst output
    obtain ⟨indices,suppressed,selected⟩ := ImageProcessor.postprocessDetections_inv postprocessed
    exact ⟨rfl,buffer,processed,filled,indices,created,prepared,suppressed,selected⟩

/-- What is true of each detection of a frame. -/
structure Sound (lib : External) (config : ModelConfig) (frame : Mat)
    (detection : Detection) : Prop where
  inside : ImageProcessor.Rect.Inside detection.box frame.cols frame.rows
  known : 0 ≤ detection.classId
  named : cocoClasses[detection.classId.toNat]? = some detection.className
  chosen : ImageProcessor.Suppresses lib →
    detection.classId < config.numClasses ∧ config.confidenceThreshold < detection.confidence

theorem fresh_sound (computed : fresh lib config k frame iteration = .ok (some value)) :
    ∀ detection ∈ value.results.detections, Sound lib config value.frame detection := by
  obtain ⟨rfl,buffer,processed,filled,indices,_,prepared,suppressed,selected⟩ := fresh_inv computed
  intro detection member
  obtain ⟨place,inside,rfl⟩ := List.mem_iff_getElem.mp member
  have within : place < indices.length := by rw [selected.length_eq]; exact inside
  have selects := selected.get within inside
  obtain ⟨box,known,named⟩ := selects.inside
  rw [(ImageProcessor.preprocessImage_inv prepared).right] at box
  refine ⟨box,known,named,fun suppresses => ?_⟩
  obtain ⟨_,below,above,_⟩ := selects.best suppresses suppressed (List.getElem_mem within)
  exact ⟨below,above⟩

end Consumer

namespace Accesses
open LockFreeQueue Concurrent
open Pipeline
  (ProducerPc ConsumerPc DisplayPc Action takenFrame takenResults maxRetries nonEmpty fetched)

section Calls
variable {α : Type} {before after : Interleaving.State α}

theorem finished_iff (queue : Interleaving.State α) :
    finished queue = true ↔ queue.producer = .idle := by
  cases pc : queue.producer <;> simp [finished,pc]

/-- A dequeue answers with its last access, and with the cell it has read if it has read one. -/
theorem answered_cases (taken : Interleaving.next before .consumer = some after) :
    (answered before after = none ∧ after.consumer ≠ .idle ∧
      Interleaving.answers after = Interleaving.answers before) ∨
    (answered before after = some none ∧ after.consumer = .idle ∧
      Interleaving.answers after = Interleaving.answers before) ∨
    ∃ cell, answered before after = some (some cell) ∧ after.consumer = .idle ∧
      Interleaving.answers after = Interleaving.answers before ++ [cell] := by
  have history := Interleaving.next_answers taken
  obtain ⟨_,_,impossible,_⟩ | ⟨impossible,_⟩ | ⟨impossible,_⟩ | ⟨_,rfl⟩ := Interleaving.next_cases taken
  · cases impossible
  · cases impossible
  · cases impossible
  · rw [history]
    cases pc : before.consumer with
    | idle =>
      rw [Interleaving.next,pc] at taken
      contradiction
    | loadTail currentHead =>
      by_cases empty : currentHead = before.queue.tail <;>
        simp [answered,Interleaving.consumerStep,pc,dequeueStep,empty,Interleaving.handedOut,
          Interleaving.pendingRead]
    | _ =>
      simp [answered,Interleaving.consumerStep,pc,dequeueStep,Interleaving.handedOut,
        Interleaving.pendingRead]

private theorem answered_pending (taken : Interleaving.next before .consumer = some after)
    (pending : answered before after = none) :
    after.consumer ≠ .idle ∧ Interleaving.answers after = Interleaving.answers before := by
  obtain ⟨_,going⟩ | ⟨other,_⟩ | ⟨cell,other,_⟩ := answered_cases taken
  · exact going
  · simp [other] at pending
  · simp [other] at pending

private theorem answered_nullopt (taken : Interleaving.next before .consumer = some after)
    (drained : answered before after = some none) :
    after.consumer = .idle ∧ Interleaving.answers after = Interleaving.answers before := by
  obtain ⟨other,_⟩ | ⟨_,idle⟩ | ⟨cell,other,_⟩ := answered_cases taken
  · simp [other] at drained
  · exact idle
  · simp [other] at drained

private theorem answered_cell (taken : Interleaving.next before .consumer = some after) {cell : Cell α}
    (found : answered before after = some (some cell)) :
    after.consumer = .idle ∧ Interleaving.answers after = Interleaving.answers before ++ [cell] := by
  obtain ⟨other,_⟩ | ⟨other,_⟩ | ⟨held,same,idle⟩ := answered_cases taken
  · simp [other] at found
  · simp [other] at found
  · simp only [same,Option.some.injEq] at found
    exact found ▸ idle

theorem called_enqueue {how : Overload} {value : α}
    (called : Interleaving.next before (.callEnqueue how value) = some after) :
    Interleaving.begun after = Interleaving.begun before ++ [value] ∧
      Interleaving.answers after = Interleaving.answers before ∧ after.producer ≠ .idle ∧
      after.consumer = before.consumer := by
  refine ⟨Interleaving.next_begun called,
    by simpa [Interleaving.handedOut] using Interleaving.next_answers called,?_⟩
  obtain ⟨how,value,_,_,rfl⟩ | ⟨impossible,_⟩ | ⟨impossible,_⟩ | ⟨impossible,_⟩ :=
    Interleaving.next_cases called
  · exact ⟨by simp,rfl⟩
  · cases impossible
  · cases impossible
  · cases impossible

theorem called_dequeue (called : Interleaving.next before .callDequeue = some after) :
    Interleaving.begun after = Interleaving.begun before ∧
    Interleaving.answers after = Interleaving.answers before ∧
      after.producer = before.producer ∧ after.consumer ≠ .idle := by
  refine ⟨by simpa [Interleaving.passedOn] using Interleaving.next_begun called,
    by simpa [Interleaving.handedOut] using Interleaving.next_answers called,?_⟩
  obtain ⟨_,_,impossible,_⟩ | ⟨impossible,_⟩ | ⟨_,_,rfl⟩ | ⟨impossible,_⟩ :=
    Interleaving.next_cases called
  · cases impossible
  · cases impossible
  · exact ⟨rfl,by simp⟩
  · cases impossible

theorem accessed_producer (taken : Interleaving.next before .producer = some after) :
    Interleaving.begun after = Interleaving.begun before ∧
    Interleaving.answers after = Interleaving.answers before ∧
      after.consumer = before.consumer := by
  refine ⟨by simpa [Interleaving.passedOn] using Interleaving.next_begun taken,
    by simpa [Interleaving.handedOut] using Interleaving.next_answers taken,?_⟩
  obtain ⟨_,_,impossible,_⟩ | ⟨_,rfl⟩ | ⟨impossible,_⟩ | ⟨impossible,_⟩ := Interleaving.next_cases taken
  · cases impossible
  · exact (Interleaving.producerStep_keeps before).left
  · cases impossible
  · cases impossible

theorem accessed_consumer (taken : Interleaving.next before .consumer = some after) :
    Interleaving.begun after = Interleaving.begun before ∧ after.producer = before.producer := by
  refine ⟨by simpa [Interleaving.passedOn] using Interleaving.next_begun taken,?_⟩
  obtain ⟨_,_,impossible,_⟩ | ⟨impossible,_⟩ | ⟨impossible,_⟩ | ⟨_,rfl⟩ := Interleaving.next_cases taken
  · cases impossible
  · cases impossible
  · cases impossible
  · exact (Interleaving.consumerStep_kept before).left

theorem records : Records queueCalls Interleaving.begun Interleaving.answers where
  new _ := ⟨rfl,rfl⟩
  callEnqueue called := ⟨(called_enqueue called).left,(called_enqueue called).right.left⟩
  producer taken := ⟨(accessed_producer taken).left,(accessed_producer taken).right.left⟩
  callDequeue called := ⟨(called_dequeue called).left,(called_dequeue called).right.left⟩
  consumer taken := by
    refine ⟨(accessed_consumer taken).left,?_⟩
    obtain ⟨pending,_,same⟩ | ⟨drained,_,same⟩ | ⟨cell,found,_,grown⟩ := answered_cases taken
    · simp [pending,same]
    · simp [drained,same]
    · simp [found,grown]

end Calls

def offers : ProducerPc → Prop
  | .offering _ => True
  | _ => False

def delivers : ConsumerPc → Prop
  | .offering _ _ => True
  | _ => False

/-- A thread is inside a call on a queue exactly while it stands at that call. -/
structure Coherent (state : State) : Prop where
  offering : offers state.producer ↔ state.frames.producer ≠ .idle
  fetching : state.consumer = .dequeuing ↔ state.frames.consumer ≠ .idle
  delivering : delivers state.consumer ↔ state.results.producer ≠ .idle
  showing : state.display = .dequeuing ↔ state.results.consumer ≠ .idle

abbrev Recorded : State → Prop := Concurrent.Recorded Interleaving.begun Interleaving.answers

section Steps
variable {lib : External} {config : ModelConfig} {buffer : TensorBuffer} {state after : State}

theorem Coherent.producer (coherent : Coherent state) {capture : Mat}
    (move : ProducerMove state capture after) :
    Coherent after := by
  obtain ⟨offering,fetching,delivering,showing⟩ := coherent
  cases move with
  | test pc =>
    rw [pc] at offering
    refine ⟨?_,fetching,delivering,showing⟩
    cases state.isRunning <;> exact offering
  | retry pc empty few =>
    rw [pc] at offering
    exact ⟨offering,fetching,delivering,showing⟩
  | giveUp pc empty many =>
    rw [pc] at offering
    exact ⟨offering,fetching,delivering,showing⟩
  | offer pc full called =>
    obtain ⟨_,_,begins,consumer⟩ := called_enqueue called
    exact ⟨iff_of_true trivial begins,by rw [consumer]; exact fetching,delivering,showing⟩
  | @access frameClone pc frames taken =>
    obtain ⟨_,_,consumer⟩ := accessed_producer taken
    refine ⟨?_,by rw [consumer]; exact fetching,delivering,showing⟩
    have returns : queueCalls.finished frames = true ↔ frames.producer = .idle := finished_iff frames
    cases done : queueCalls.finished frames with
    | true => exact iff_of_false (fun inside => inside) (fun inside => inside (returns.mp done))
    | false => exact iff_of_true trivial (fun idle => by rw [returns.mpr idle] at done; contradiction)

theorem Coherent.consumer (coherent : Coherent state) {iteration : Iteration}
    (move : ConsumerMove lib config state iteration after) : Coherent after := by
  obtain ⟨offering,fetching,delivering,showing⟩ := coherent
  cases move with
  | stop pc off =>
    rw [pc] at fetching delivering
    exact ⟨offering,by simpa using fetching,delivering,showing⟩
  | ask pc on called =>
    obtain ⟨_,_,producer,begins⟩ := called_dequeue called
    rw [pc] at delivering
    exact ⟨by rw [producer]; exact offering,iff_of_true rfl begins,delivering,showing⟩
  | access pc taken pending =>
    obtain ⟨_,producer⟩ := accessed_consumer taken
    obtain ⟨going,_⟩ := answered_pending taken pending
    exact ⟨by rw [producer]; exact offering,iff_of_true pc going,delivering,showing⟩
  | nullopt pc taken drained =>
    obtain ⟨_,producer⟩ := accessed_consumer taken
    obtain ⟨idle,_⟩ := answered_nullopt taken drained
    rw [pc] at delivering
    exact ⟨by rw [producer]; exact offering,iff_of_false (by simp) (fun inside => inside idle),
      delivering,showing⟩
  | fetch pc taken found =>
    obtain ⟨_,producer⟩ := accessed_consumer taken
    obtain ⟨idle,_⟩ := answered_cell taken found
    rw [pc] at delivering
    exact ⟨by rw [producer]; exact offering,iff_of_false (by simp) (fun inside => inside idle),
      delivering,showing⟩
  | pass pc processed =>
    rw [pc] at fetching delivering
    exact ⟨offering,by simpa using fetching,delivering,showing⟩
  | offer pc processed called =>
    obtain ⟨_,_,begins,consumer⟩ := called_enqueue called
    rw [pc] at fetching
    exact ⟨offering,by simpa using fetching,iff_of_true trivial begins,by rw [consumer]; exact showing⟩
  | deliver pc taken pending =>
    obtain ⟨_,_,consumer⟩ := accessed_producer taken
    rw [pc] at fetching
    refine ⟨offering,by simpa using fetching,iff_of_true trivial (fun idle => ?_),
      by rw [consumer]; exact showing⟩
    simp [(finished_iff _).mpr idle] at pending
  | record pc taken done =>
    obtain ⟨_,_,consumer⟩ := accessed_producer taken
    rw [pc] at fetching
    exact ⟨offering,by simpa using fetching,iff_of_false (fun inside => inside)
      (fun inside => inside ((finished_iff _).mp done)),by rw [consumer]; exact showing⟩

theorem Coherent.display (coherent : Coherent state) {key : Char} (move : DisplayMove state key after) :
    Coherent after := by
  obtain ⟨offering,fetching,delivering,showing⟩ := coherent
  cases move with
  | stop pc off =>
    rw [pc] at showing
    exact ⟨offering,fetching,delivering,by simpa using showing⟩
  | ask pc on called =>
    obtain ⟨_,_,producer,begins⟩ := called_dequeue called
    exact ⟨offering,fetching,by rw [producer]; exact delivering,iff_of_true rfl begins⟩
  | access pc taken pending =>
    obtain ⟨_,producer⟩ := accessed_consumer taken
    obtain ⟨going,_⟩ := answered_pending taken pending
    exact ⟨offering,fetching,by rw [producer]; exact delivering,iff_of_true pc going⟩
  | nullopt pc taken drained =>
    obtain ⟨_,producer⟩ := accessed_consumer taken
    obtain ⟨idle,_⟩ := answered_nullopt taken drained
    exact ⟨offering,fetching,by rw [producer]; exact delivering,
      iff_of_false (by simp) (fun inside => inside idle)⟩
  | fetch pc taken found =>
    obtain ⟨_,producer⟩ := accessed_consumer taken
    obtain ⟨idle,_⟩ := answered_cell taken found
    exact ⟨offering,fetching,by rw [producer]; exact delivering,
      iff_of_false (by simp) (fun inside => inside idle)⟩
  | quit pc pressed =>
    rw [pc] at showing
    exact ⟨offering,fetching,delivering,by simpa using showing⟩
  | carryOn pc other =>
    rw [pc] at showing
    exact ⟨offering,fetching,delivering,by simpa using showing⟩

theorem Coherent.step (coherent : Coherent state) {action : Action}
    (taken : next lib config state action = some after) :
    Coherent after := by
  cases action with
  | signal =>
    cases Option.some.inj taken
    exact { coherent with }
  | producer capture => exact coherent.producer (producerStep_move taken)
  | consumer iteration => exact coherent.consumer (consumerStep_move taken)
  | display key => exact coherent.display (displayStep_move taken)

end Steps

section Runs
variable {lib : External} {config : ModelConfig} {buffer : TensorBuffer}
  {frameSize resultSize : Nat} {state : State} {guard : State → Action → Prop}

theorem coherent_reachable
    (reachable : (program lib config buffer frameSize resultSize).Reachable guard state) :
    Coherent state := by
  apply reachable.invariant Coherent
  · exact ⟨iff_of_false (fun inside => inside) (fun busy => busy rfl),
      iff_of_false (fun inside => by cases inside)
      (fun busy => busy rfl),iff_of_false (fun inside => inside) (fun busy => busy rfl),
      iff_of_false (fun inside => by cases inside) (fun busy => busy rfl)⟩
  · exact fun _ _ _ coherent _ taken => coherent.step taken

theorem recorded_reachable
    (reachable : (program lib config buffer frameSize resultSize).Reachable guard state) :
    Recorded state := Concurrent.recorded_reachable records reachable

end Runs
end Accesses
end YoloEngine
