import YoloEngine.Pipeline.Isolation
import YoloEngine.Pipeline.Threads
import YoloEngine.Queue.Refinement

/-! Frames reach the display in the order of their capture, each with its own results. Items
are lost in five places on the way, and each loss leaves a sublist of what was there. -/
namespace YoloEngine.Pipeline
open Foundation Foundation.Aborting LockFreeQueue
variable {lib : External} {config : ModelConfig} {buffer : TensorBuffer} {frameBound resultBound : Nat}

def nonEmpty (frames : List Mat) : List Mat := frames.filter (fun frame => !frame.empty)

theorem nonEmpty_empty {capture : Mat} (frames : List Mat) (empty : capture.empty = true) :
    nonEmpty (frames ++ [capture]) = nonEmpty frames := by
  simp [nonEmpty,empty]

theorem nonEmpty_capture {capture : Mat} (frames : List Mat) (full : capture.empty = false) :
    nonEmpty (frames ++ [capture]) = nonEmpty frames ++ [capture] := by
  simp [nonEmpty,full]

def cloned : ProducerPc → List Mat
  | .offering frameClone => [frameClone]
  | _ => []

def fetched : ConsumerPc → List Mat
  | .fetched frame => [frame]
  | _ => []

def computed : ConsumerPc → List FrameWithResults
  | .offering value _ => [value]
  | _ => []

def number (value : FrameWithResults) : Nat × Mat := (value.results.frameId,value.frame)

variable (lib config) in
/-- The values are numbered third frames in order, each with what the consumer computes from that
frame. -/
structure Delivered (handled : List Mat) (values : List FrameWithResults) : Prop where
  thirds : (values.map number).Sublist (sample 3 handled)
  results : ∀ value ∈ values, ∃ iteration,
    Consumer.fresh lib config value.results.frameId value.frame iteration = .ok (some value)

theorem Delivered.sublist {handled : List Mat} {values fewer : List FrameWithResults}
    (delivered : Delivered lib config handled values) (dropped : fewer.Sublist values) :
    Delivered lib config handled fewer where
  thirds := (dropped.map number).trans delivered.thirds
  results := fun value member => delivered.results value (dropped.subset member)

theorem Delivered.grow {handled : List Mat} {values : List FrameWithResults}
    (delivered : Delivered lib config handled values) (frame : Mat) :
    Delivered lib config (handled ++ [frame]) values where
  thirds := by
    rw [sample_append]
    exact delivered.thirds.trans (List.sublist_append_left _ _)
  results := delivered.results

theorem Delivered.append {handled : List Mat} {values : List FrameWithResults}
    (delivered : Delivered lib config handled values) {frame : Mat} {iteration : Iteration}
    {value : FrameWithResults} (chosen : (handled.length + 1) % 3 = 0)
    (known : Consumer.fresh lib config ((handled.length + 1) / 3) frame iteration = .ok (some value)) :
    Delivered lib config (handled ++ [frame]) (values ++ [value]) where
  thirds := by
    obtain ⟨same,frameId⟩ := Consumer.fresh_numbered known
    rw [sample_append,if_pos chosen,List.map_append,List.map_singleton,number,same,frameId]
    exact delivered.thirds.append (List.Sublist.refl _)
  results := by
    intro other member
    rcases List.mem_append.mp member with earlier | added
    · exact delivered.results other earlier
    · obtain ⟨same,frameId⟩ := Consumer.fresh_numbered known
      rw [List.mem_singleton.mp added,same,frameId]
      exact ⟨iteration,known⟩

variable (lib config buffer) in
/-- `waiting` and `ready` are in the queues, and `handled` are the frames the consumer is done with. -/
structure Ordered (state : State) (waiting : BoundedFifo Mat frameBound) (handled : List Mat)
    (ready : BoundedFifo FrameWithResults resultBound) : Prop where
  frameQueue : state.frameQueue.Represents waiting
  resultQueue : state.resultQueue.Represents ready
  dequeued : state.dequeued = handled ++ fetched state.consumer
  captured : (state.dequeued ++ waiting.items ++ cloned state.producer).Sublist
    (nonEmpty state.captured)
  delivered : Delivered lib config handled (state.displayed ++ ready.items ++ computed state.consumer)
  skips : state.locals.frameSkipCounter = handled.length
  frames : state.locals.frameCounter = handled.length / 3
  layout : state.locals.buffer.SameLayout buffer

section Steps
variable {state after : State} {waiting : BoundedFifo Mat frameBound} {handled : List Mat}
  {ready : BoundedFifo FrameWithResults resultBound}

theorem Ordered.producer (ordered : Ordered lib config buffer state waiting handled ready)
    {capture : Mat} (taken : producerStep state capture = some after) :
    ∃ waiting : BoundedFifo Mat frameBound, Ordered lib config buffer after waiting handled ready := by
  have captured := ordered.captured
  unfold producerStep at taken
  cases producer : state.producer with
  | stopped =>
    rw [producer] at taken
    contradiction
  | loop =>
    rw [producer] at taken captured
    cases Option.some.inj taken
    refine ⟨waiting,{ ordered with captured := ?_ }⟩
    cases state.isRunning <;> exact captured
  | capturing =>
    rw [producer] at taken captured
    simp only [cloned,List.append_nil] at captured
    cases empty : capture.empty with
    | true =>
      simp only [empty,if_true] at taken
      have kept : (state.dequeued ++ waiting.items).Sublist
        (nonEmpty (state.captured ++ [capture])) := by
        rw [nonEmpty_empty _ empty]
        exact captured
      split at taken <;> cases Option.some.inj taken <;>
        exact ⟨waiting,{ ordered with captured := by simpa [cloned] using kept }⟩
    | false =>
      simp only [empty] at taken
      cases Option.some.inj taken
      refine ⟨waiting,{ ordered with captured := ?_ }⟩
      rw [nonEmpty_capture _ empty]
      exact captured.append (List.Sublist.refl [capture])
  | offering frameClone =>
    rw [producer] at taken captured
    cases Option.some.inj taken
    refine ⟨waiting.push frameClone,{ ordered with
      frameQueue := ordered.frameQueue.enqueueWith .move frameClone, captured := ?_ }⟩
    have pushed : (state.dequeued ++ (waiting.push frameClone).items).Sublist
      (nonEmpty state.captured) := by
      rw [List.append_assoc] at captured
      exact ((List.Sublist.refl _).append (waiting.push_sublist frameClone)).trans captured
    simpa [cloned] using pushed

theorem Ordered.fetch (ordered : Ordered lib config buffer state waiting handled ready)
    (dequeuing : state.consumer = .dequeuing) {iteration : Iteration}
    (taken : consumerStep lib config state iteration = some after) :
    ∃ waiting : BoundedFifo Mat frameBound, Ordered lib config buffer after waiting handled ready := by
  have dequeued := ordered.dequeued
  have captured := ordered.captured
  have delivered := ordered.delivered
  obtain ⟨rest,represents,⟨reply,same⟩ | ⟨frame,reply,split⟩⟩ := ordered.frameQueue.dequeue_cases
  · rw [consumerStep,dequeuing,reply] at taken
    rw [dequeuing] at dequeued delivered
    rw [same] at captured
    cases Option.some.inj taken
    exact ⟨_,{ ordered with
      frameQueue := represents, dequeued := dequeued, captured := captured, delivered := delivered }⟩
  · rw [consumerStep,dequeuing,reply] at taken
    rw [dequeuing] at dequeued delivered
    rw [split] at captured
    cases Option.some.inj taken
    refine ⟨_,{ ordered with
      frameQueue := represents, dequeued := ?_, captured := ?_, delivered := delivered }⟩
    · rw [dequeued]
      simp [fetched,takenFrame]
    · simpa [takenFrame] using captured

private theorem Ordered.handle (created : TensorBuffer.new config = .ok buffer)
    (ordered : Ordered lib config buffer state waiting handled ready) {frame : Mat}
    (held : state.consumer = .fetched frame) (fewer : state.dequeued.length < 2^64)
    {iteration : Iteration} (taken : consumerStep lib config state iteration = some after) :
    Ordered lib config buffer after waiting (handled ++ [frame]) ready := by
  have dequeued := ordered.dequeued
  have delivered := ordered.delivered
  rw [consumerStep,held] at taken
  rw [held] at dequeued delivered
  simp only [computed,List.append_nil] at delivered
  simp only [fetched] at dequeued
  have length : handled.length + 1 < 2^64 := by
    rw [dequeued,List.length_append,List.length_singleton] at fewer
    exact fewer
  have counter : (state.locals.frameSkipCounter + 1) % 2^64 = handled.length + 1 := by
    rw [ordered.skips]
    exact Nat.mod_eq_of_lt length
  have finished : (handled ++ [frame]).length = handled.length + 1 := List.length_append
  -- every third frame is chosen, and only a chosen one can add a value
  by_cases chosen : (handled.length + 1) % 3 = 0
  · have number : (state.locals.frameCounter + 1) % 2^64 = (handled.length + 1) / 3 := by
      rw [ordered.frames]
      omega
    obtain ⟨locals,skips,frames,layout,processed⟩ :=
      Consumer.process_fresh lib created state.locals ordered.layout frame iteration
        (by rw [counter]; exact chosen)
    rw [counter,← finished] at skips
    rw [number] at processed
    rw [number,← finished] at frames
    simp only [processed] at taken
    cases known : Consumer.fresh lib config ((handled.length + 1) / 3) frame iteration with
    | error abort =>
      rw [known] at taken
      contradiction
    | ok value =>
      rw [known] at taken
      cases value with
      | none =>
        cases Option.some.inj taken
        have grown := delivered.grow frame
        rw [← List.append_nil (state.displayed ++ ready.items)] at grown
        rw [← List.append_nil (handled ++ [frame])] at dequeued
        exact { ordered with
          dequeued := dequeued, delivered := grown, skips := skips, frames := frames, layout := layout }
      | some value =>
        cases Option.some.inj taken
        rw [← List.append_nil (handled ++ [frame])] at dequeued
        exact { ordered with
          dequeued := dequeued, delivered := delivered.append chosen known, skips := skips,
          frames := frames
          layout := layout }
  · have processed := Consumer.process_skipped lib config state.locals frame iteration
      (by rw [counter]; exact chosen)
    simp only [processed] at taken
    cases Option.some.inj taken
    have grown := delivered.grow frame
    rw [← List.append_nil (state.displayed ++ ready.items)] at grown
    rw [← List.append_nil (handled ++ [frame])] at dequeued
    have frames : state.locals.frameCounter = (handled ++ [frame]).length / 3 := by
      rw [ordered.frames,finished]
      omega
    exact { ordered with
      dequeued := dequeued, delivered := grown, skips := counter.trans finished.symm
      frames := frames }

theorem Ordered.consumer (created : TensorBuffer.new config = .ok buffer)
    (ordered : Ordered lib config buffer state waiting handled ready)
    (fewer : state.dequeued.length < 2^64) {iteration : Iteration}
    (taken : consumerStep lib config state iteration = some after) :
    ∃ (waiting : BoundedFifo Mat frameBound) (handled : List Mat)
    (ready : BoundedFifo FrameWithResults resultBound),
      Ordered lib config buffer after waiting handled ready := by
  cases consumer : state.consumer with
  | stopped =>
    rw [consumerStep,consumer] at taken
    contradiction
  | loop =>
    have dequeued := ordered.dequeued
    have delivered := ordered.delivered
    rw [consumerStep,consumer] at taken
    rw [consumer] at dequeued delivered
    cases Option.some.inj taken
    refine ⟨waiting,handled,ready,{ ordered with dequeued := ?_, delivered := ?_ }⟩
    · cases state.isRunning <;> exact dequeued
    · cases state.isRunning <;> exact delivered
  | dequeuing =>
    obtain ⟨rest,kept⟩ := ordered.fetch consumer taken
    exact ⟨rest,handled,ready,kept⟩
  | fetched frame => exact ⟨waiting,_,ready,ordered.handle created consumer fewer taken⟩
  | offering value totalStart =>
    have dequeued := ordered.dequeued
    have delivered := ordered.delivered
    rw [consumerStep,consumer] at taken
    rw [consumer] at dequeued delivered
    cases Option.some.inj taken
    have pushed : Delivered lib config handled (state.displayed ++ (ready.push value).items) := by
      rw [List.append_assoc] at delivered
      exact delivered.sublist ((List.Sublist.refl _).append (ready.push_sublist value))
    rw [← List.append_nil (state.displayed ++ _)] at pushed
    exact ⟨waiting,handled,ready.push value,{ ordered with
      resultQueue := ordered.resultQueue.enqueueWith .move value, dequeued := dequeued,
      delivered := pushed }⟩

theorem Ordered.display (ordered : Ordered lib config buffer state waiting handled ready) {key : Char}
    (taken : displayStep state key = some after) :
    ∃ ready : BoundedFifo FrameWithResults resultBound,
    Ordered lib config buffer after waiting handled ready := by
  unfold displayStep at taken
  cases display : state.display with
  | stopped =>
    rw [display] at taken
    contradiction
  | loop =>
    rw [display] at taken
    cases Option.some.inj taken
    exact ⟨ready,{ ordered with }⟩
  | showing =>
    rw [display] at taken
    simp only at taken
    split at taken <;> cases Option.some.inj taken <;> exact ⟨ready,{ ordered with }⟩
  | dequeuing =>
    have delivered := ordered.delivered
    rw [display] at taken
    obtain ⟨rest,represents,⟨reply,same⟩ | ⟨value,reply,split⟩⟩ := ordered.resultQueue.dequeue_cases
    · rw [reply] at taken
      rw [same] at delivered
      cases Option.some.inj taken
      exact ⟨_,{ ordered with resultQueue := represents, delivered := delivered }⟩
    · rw [reply] at taken
      rw [split] at delivered
      cases Option.some.inj taken
      refine ⟨_,{ ordered with resultQueue := represents, delivered := ?_ }⟩
      simpa [takenResults] using delivered

theorem Ordered.step (created : TensorBuffer.new config = .ok buffer)
    (ordered : Ordered lib config buffer state waiting handled ready)
    (fewer : state.dequeued.length < 2^64) {action : Action}
    (taken : next lib config state action = some after) :
    ∃ (waiting : BoundedFifo Mat frameBound) (handled : List Mat)
    (ready : BoundedFifo FrameWithResults resultBound),
      Ordered lib config buffer after waiting handled ready := by
  cases action with
  | signal =>
    cases Option.some.inj taken
    exact ⟨waiting,handled,ready,{ ordered with }⟩
  | producer capture =>
    obtain ⟨rest,kept⟩ := ordered.producer taken
    exact ⟨rest,handled,ready,kept⟩
  | consumer iteration => exact ordered.consumer created fewer taken
  | display key =>
    obtain ⟨rest,kept⟩ := ordered.display taken
    exact ⟨waiting,handled,rest,kept⟩

theorem next_dequeued {action : Action} (taken : next lib config state action = some after) :
    state.dequeued.length ≤ after.dequeued.length := by
  cases action with
  | signal =>
    cases Option.some.inj taken
    exact le_rfl
  | producer capture =>
    simp only [next,producerStep] at taken
    split at taken
    next => cases Option.some.inj taken; exact le_rfl
    next =>
      split at taken
      · split at taken <;> cases Option.some.inj taken <;> exact le_rfl
      · cases Option.some.inj taken
        exact le_rfl
    next => cases Option.some.inj taken; exact le_rfl
    next => contradiction
  | consumer iteration =>
    simp only [next,consumerStep] at taken
    split at taken
    next => cases Option.some.inj taken; exact le_rfl
    next =>
      split at taken <;> cases Option.some.inj taken
      · exact le_rfl
      · simp
    next => split at taken <;> cases taken <;> exact le_rfl
    next => cases Option.some.inj taken; exact le_rfl
    next => contradiction
  | display key =>
    simp only [next,displayStep] at taken
    split at taken
    next => cases Option.some.inj taken; exact le_rfl
    next => split at taken <;> cases Option.some.inj taken <;> exact le_rfl
    next => split at taken <;> cases Option.some.inj taken <;> exact le_rfl
    next => contradiction

end Steps

private theorem ordered_new (frameSize resultSize : Nat) (frameSlots : 1 ≤ frameSize)
    (resultSlots : 1 ≤ resultSize) :
    Ordered lib config buffer (State.new buffer frameSize resultSize)
    (.empty : BoundedFifo Mat (frameSize - 1)) []
      (.empty : BoundedFifo FrameWithResults (resultSize - 1)) where
  frameQueue := new_represents frameSize frameSlots
  resultQueue := new_represents resultSize resultSlots
  dequeued := rfl
  captured := List.Sublist.refl []
  delivered := ⟨List.Sublist.refl [],nofun⟩
  skips := rfl
  frames := rfl
  layout := ⟨rfl,rfl,rfl⟩

theorem ordered_reachable (created : TensorBuffer.new config = .ok buffer) {frameSize resultSize : Nat}
    (frameSlots : 2 ≤ frameSize) (resultSlots : 2 ≤ resultSize) {state : State}
    (reachable : (pipeline lib config buffer frameSize resultSize).Reachable Machine.always state)
    (fewer : state.dequeued.length < 2^64) :
    ∃ (waiting : BoundedFifo Mat (frameSize - 1)) (handled : List Mat)
      (ready : BoundedFifo FrameWithResults (resultSize - 1)),
      Ordered lib config buffer state waiting handled ready := by
  refine Machine.Reachable.invariant (fun state => state.dequeued.length < 2^64 →
    ∃ (waiting : BoundedFifo Mat (frameSize - 1)) (handled : List Mat)
      (ready : BoundedFifo FrameWithResults (resultSize - 1)),
      Ordered lib config buffer state waiting handled ready)
    ?_ ?_ reachable fewer
  · exact fun _ => ⟨.empty,[],.empty,ordered_new frameSize resultSize (by omega) (by omega)⟩
  · intro before action after earlier _ taken fewer
    have shorter := (next_dequeued taken).trans_lt fewer
    obtain ⟨waiting,handled,ready,ordered⟩ := earlier shorter
    exact ordered.step created shorter taken

/-- Frames arrive at the display in capture order, each with the results of its own third dequeued
frame. -/
theorem displayed_ordered (created : TensorBuffer.new config = .ok buffer) {frameSize resultSize : Nat}
    (frameSlots : 2 ≤ frameSize) (resultSlots : 2 ≤ resultSize) {state : State}
    (reachable : (pipeline lib config buffer frameSize resultSize).Reachable Machine.always state)
    (fewer : state.dequeued.length < 2^64) :
    (state.displayed.map (fun pair => pair.results.frameId)).Pairwise (· < ·) ∧
    (state.displayed.map (fun pair => pair.frame)).Sublist
      (state.captured.filter (fun frame => !frame.empty)) ∧
    ∀ pair ∈ state.displayed,
      1 ≤ pair.results.frameId ∧ state.dequeued[3 * pair.results.frameId - 1]? = some pair.frame ∧
      ∃ iteration, Consumer.fresh lib config pair.results.frameId pair.frame iteration =
        .ok (some pair) := by
  obtain ⟨waiting,handled,ready,ordered⟩ :=
    ordered_reachable created frameSlots resultSlots reachable fewer
  have shown : state.displayed.Sublist (state.displayed ++ ready.items ++ computed state.consumer) :=
    (List.sublist_append_left _ _).trans (List.sublist_append_left _ _)
  have delivered := ordered.delivered.sublist shown
  have prior : handled.Sublist state.dequeued := by
    rw [ordered.dequeued]
    exact List.sublist_append_left _ _
  refine ⟨?_,?_,?_⟩
  · have numbers := delivered.thirds.map Prod.fst
    rw [List.map_map] at numbers
    exact (sample_increasing (by decide) handled).sublist numbers
  · have frames := delivered.thirds.map Prod.snd
    rw [List.map_map] at frames
    have dequeued : state.dequeued.Sublist (nonEmpty state.captured) :=
      ((List.sublist_append_left _ _).trans (List.sublist_append_left _ _)).trans ordered.captured
    exact frames.trans ((sample_values handled).trans (prior.trans dequeued))
  · intro pair member
    have third : number pair ∈ sample 3 handled := delivered.thirds.subset (List.mem_map_of_mem member)
    obtain ⟨first,found⟩ := (mem_sample (by decide)).mp third
    refine ⟨first,?_,delivered.results pair member⟩
    obtain ⟨inside,_⟩ := List.getElem?_eq_some_iff.mp found
    rw [ordered.dequeued,List.getElem?_append_left inside]
    exact found

def threeFrames (frame : Mat) (iteration : Iteration) : List Action :=
  let bring : List Action :=
    [.producer frame,.producer frame,.producer frame,.consumer iteration,.consumer iteration,
      .consumer iteration]
  bring ++ bring ++ bring ++ [.consumer iteration,.display 'a',.display 'a',.display 'a']

theorem threeFrames_ordered :
    let lib : External := ⟨fun frame _ _ _ _ _ => frame.data,fun input _ => input,fun _ _ _ _ =>
      some []⟩
    let config : ModelConfig := ⟨1,0,0,1 / 4,9 / 20⟩
    let buffer : TensorBuffer := ⟨[0,0,0],[1,3,1,1],3,1,rfl⟩
    let frame : Mat := ⟨1,1,3,[0,0,0]⟩
    ∃ state, (pipeline lib config buffer 2 2).run Machine.always (.new buffer 2 2)
        (threeFrames frame ⟨0,0,0,0,7,.none⟩) = some state ∧
      state.displayed = [⟨frame,⟨[],1,0,0,0⟩⟩] ∧ state.dequeued[3 * 1 - 1]? = some frame := by
  intro lib config buffer frame
  have shown : ((pipeline lib config buffer 2 2).run Machine.always (.new buffer 2 2)
      (threeFrames frame ⟨0,0,0,0,7,.none⟩)).map (fun state =>
        (state.displayed,state.dequeued.length)) =
        some ([⟨frame,⟨[],1,0,0,0⟩⟩],3) := by decide +kernel
  obtain ⟨state,ran,same⟩ := Option.map_eq_some_iff.mp shown
  obtain ⟨displayed,count⟩ := Prod.mk.inj same
  have created : TensorBuffer.new config = .ok buffer := by decide +kernel
  have ordered := displayed_ordered created (by decide) (by decide) (Machine.reachable_of_run .init ran)
    (by rw [count]; decide)
  have third := ordered.right.right ⟨frame,⟨[],1,0,0,0⟩⟩
    (by rw [displayed]; exact List.mem_singleton_self _)
  exact ⟨state,ran,displayed,third.right.left⟩

end YoloEngine.Pipeline
