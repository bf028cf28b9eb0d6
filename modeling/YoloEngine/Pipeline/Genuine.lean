import YoloEngine.Pipeline.Work

/-! What can reach the screen at all. The threads may overtake each other inside the queues as they
like: a pair that is displayed was computed from a frame that was captured, or from a released one,
or it is what a move has left of such a pair. -/
namespace YoloEngine
open Foundation

namespace Consumer
variable {lib : External} {config : ModelConfig} {buffer : TensorBuffer}

/-- However an iteration ends, a value it delivers is one computed afresh from its frame. -/
private theorem process_inv (created : TensorBuffer.new config = .ok buffer) {consumer after : Consumer}
    (same : consumer.buffer.SameLayout buffer) {frame : Mat} {iteration : Iteration}
    {delivered : Option FrameWithResults}
    (processed : consumer.process lib config frame iteration = .ok (after,delivered)) :
    after.buffer.SameLayout buffer ∧
      ∀ value ∈ delivered, ∃ k, fresh lib config k frame iteration = .ok (some value) := by
  by_cases chosen : (consumer.frameSkipCounter + 1) % 2^64 % 3 = 0
  · obtain ⟨last,_,_,layout,worked⟩ := process_fresh lib created consumer same frame iteration chosen
    rw [processed] at worked
    cases computed : fresh lib config ((consumer.frameCounter + 1) % 2^64) frame iteration with
    | error abort =>
      rw [computed] at worked
      contradiction
    | ok outcome =>
      rw [computed] at worked
      cases Except.ok.inj worked
      refine ⟨layout,fun value found => ⟨(consumer.frameCounter + 1) % 2^64,?_⟩⟩
      cases found
      exact computed
  · rw [process_skipped lib config consumer frame iteration chosen] at processed
    cases Except.ok.inj processed
    exact ⟨same,by simp⟩

end Consumer

namespace Accesses
open Concurrent
open Pipeline (ProducerPc ConsumerPc DisplayPc Action takenFrame takenResults nonEmpty fetched)
variable {lib : External} {config : ModelConfig} {buffer : TensorBuffer}

variable (lib config buffer) in
structure Computed (state : State) : Prop where
  layout : state.locals.buffer.SameLayout buffer
  held : ∀ frame ∈ fetched state.consumer, frame ∈ state.dequeued
  results : ∀ value ∈ Interleaving.begun state.results, value.frame ∈ state.dequeued ∧
    ∃ k iteration, Consumer.fresh lib config k value.frame iteration = .ok (some value)

section Steps
variable {state after : State}

/-- Steps that neither fetch a frame nor pass on a result. -/
theorem Computed.same (computed : Computed lib config buffer state)
    (locals : after.locals = state.locals)
    (held : ∀ frame ∈ fetched after.consumer, frame ∈ fetched state.consumer)
    (dequeued : after.dequeued = state.dequeued)
    (results : Interleaving.begun after.results = Interleaving.begun state.results) :
    Computed lib config buffer after where
  layout := by rw [locals]; exact computed.layout
  held := fun frame member => by rw [dequeued]; exact computed.held frame (held frame member)
  results := by rw [results,dequeued]; exact computed.results

theorem Computed.consumer (created : TensorBuffer.new config = .ok buffer)
    (computed : Computed lib config buffer state) {iteration : Iteration}
    (move : ConsumerMove lib config state iteration after) :
    Computed lib config buffer after := by
  cases move with
  | stop pc off => exact computed.same rfl (by simp [fetched]) rfl rfl
  | ask pc on called => exact computed.same rfl (by simp [fetched]) rfl rfl
  | access pc taken pending => exact computed.same rfl (fun _ member => member) rfl rfl
  | nullopt pc taken drained => exact computed.same rfl (by simp [fetched]) rfl rfl
  | fetch pc taken found =>
    refine ⟨computed.layout,by simp [fetched],fun value member => ?_⟩
    obtain ⟨source,known⟩ := computed.results value member
    exact ⟨List.mem_append_left _ source,known⟩
  | pass pc processed =>
    obtain ⟨layout,_⟩ := Consumer.process_inv created computed.layout processed
    exact ⟨layout,by simp [fetched],computed.results⟩
  | @offer frame pc locals value processed results called =>
    obtain ⟨layout,delivered⟩ := Consumer.process_inv created computed.layout processed
    obtain ⟨k,known⟩ := delivered value rfl
    obtain ⟨begun,_⟩ := called_enqueue called
    have source : frame ∈ state.dequeued := computed.held frame (by simp [pc,fetched])
    refine ⟨layout,by simp [fetched],fun other member => ?_⟩
    rw [begun] at member
    rcases List.mem_append.mp member with earlier | added
    · exact computed.results other earlier
    · rw [List.mem_singleton.mp added,(Consumer.fresh_numbered known).left]
      exact ⟨source,k,iteration,known⟩
  | deliver pc taken pending =>
    exact computed.same rfl (by simp [fetched]) rfl (accessed_producer taken).left
  | record pc taken done =>
    exact computed.same rfl (by simp [fetched]) rfl (accessed_producer taken).left

theorem Computed.step (created : TensorBuffer.new config = .ok buffer)
    (computed : Computed lib config buffer state) {action : Action}
    (taken : next lib config state action = some after) :
    Computed lib config buffer after := by
  cases action with
  | signal =>
    cases Option.some.inj taken
    exact { computed with }
  | producer capture =>
    cases producerStep_move taken <;> exact computed.same rfl (fun _ member => member) rfl rfl
  | consumer iteration => exact computed.consumer created (consumerStep_move taken)
  | display key =>
    cases displayStep_move taken with
    | ask pc on called =>
      exact computed.same rfl (fun _ member => member) rfl (called_dequeue called).left
    | access pc accessed _ | nullopt pc accessed _ | fetch pc accessed _ =>
      exact computed.same rfl (fun _ member => member) rfl (accessed_consumer accessed).left
    | stop pc _ | quit pc _ | carryOn pc _ => exact computed.same rfl (fun _ member => member) rfl rfl

end Steps

theorem computed_reachable (created : TensorBuffer.new config = .ok buffer) {frameSize resultSize : Nat}
    {guard : State → Action → Prop} {state : State}
    (reachable : (program lib config buffer frameSize resultSize).Reachable guard state) :
    Computed lib config buffer state := by
  apply reachable.invariant (Computed lib config buffer)
  · exact ⟨⟨rfl,rfl,rfl⟩,by simp [State.new,fetched],by
      simp [State.new,Interleaving.begun,Interleaving.State.new,Interleaving.unwritten]⟩
  · exact fun _ _ _ computed _ taken => computed.step created taken

/-- Three frames are brought through the frame queue one by one, and the third is shown. -/
def oneByOne (frame : Mat) (iteration : Iteration) : List Action :=
  let bring : List Action := List.replicate 6 (.producer frame) ++
    List.replicate 6 (.consumer iteration)
  bring ++ bring ++ bring ++ List.replicate 4 (.consumer iteration) ++ List.replicate 6 (.display 'a')

/-- A network that finds one person in every image. -/
def onePerson : External := ⟨fun frame _ _ _ _ _ => frame.data,fun _ _ => [1 / 2,1 / 2,1,1,9 / 10],
    fun _ _ _ _ => some [0]⟩

end Accesses
end YoloEngine
