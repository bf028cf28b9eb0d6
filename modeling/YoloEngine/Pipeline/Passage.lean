import YoloEngine.Pipeline.Genuine

/-! How frames pass through the program when its queues do what they promise. The consumer's work
says nothing of the queues: every third frame it handles has an outcome, numbered in order. With
one item at most taken off by each store to `head` order is kept on the whole way; with no full
queue nothing is lost but what throws. -/
namespace YoloEngine
open Foundation

namespace Foundation
variable {α : Type} {period : ℕ}

private theorem sample_front {earlier later : List α} (front : earlier <+: later) :
    sample period earlier <+: sample period later := by
  obtain ⟨rest,rfl⟩ := front
  induction rest using List.reverseRecOn with
  | nil => simp
  | append_singleton rest item ih =>
    rw [← List.append_assoc,sample_append]
    exact ih.trans (List.prefix_append _ _)

end Foundation

namespace Accesses
open Concurrent
open Pipeline (ProducerPc ConsumerPc DisplayPc Action takenFrame takenResults nonEmpty fetched number)
variable {lib : External} {config : ModelConfig} {buffer : TensorBuffer}

variable (lib config) in
def Outcome (entry : Nat × Mat) (outcome : Option FrameWithResults) : Prop :=
  ∃ iteration, Consumer.fresh lib config entry.1 entry.2 iteration = .ok outcome

variable (lib config buffer) in
/-- `handled` are the frames the consumer is done with, and every third of them has its outcome. -/
structure Handled (state : State) (handled : List Mat)
    (outcomes : List (Option FrameWithResults)) : Prop where
  dequeued : state.dequeued = handled ++ fetched state.consumer
  known : List.Forall₂ (Outcome lib config) (sample 3 handled) outcomes
  begun : Interleaving.begun state.results = outcomes.reduceOption
  skips : state.locals.frameSkipCounter = handled.length
  frames : state.locals.frameCounter = handled.length / 3
  layout : state.locals.buffer.SameLayout buffer

private theorem outcomes_numbered {entries : List (Nat × Mat)}
    {outcomes : List (Option FrameWithResults)}
    (known : List.Forall₂ (Outcome lib config) entries outcomes) :
    (outcomes.reduceOption.map number).Sublist entries ∧
      (∀ value ∈ outcomes.reduceOption, ∃ iteration,
        Consumer.fresh lib config value.results.frameId value.frame iteration = .ok (some value)) ∧
      ((∀ outcome ∈ outcomes, outcome ≠ none) → outcomes.reduceOption.map number = entries) := by
  induction known with
  | nil => exact ⟨List.Sublist.refl _,by simp,fun _ => rfl⟩
  | @cons entry outcome entries outcomes first rest ih =>
    obtain ⟨thirds,results,whole⟩ := ih
    cases outcome with
    | none =>
      rw [List.reduceOption_cons_of_none]
      exact ⟨thirds.cons _,results,fun all => absurd rfl (all none List.mem_cons_self)⟩
    | some value =>
      obtain ⟨iteration,computed⟩ := first
      obtain ⟨same,frameId⟩ := Consumer.fresh_numbered computed
      have entered : number value = entry := by rw [number,same,frameId]
      rw [List.reduceOption_cons_of_some,List.map_cons,entered]
      refine ⟨thirds.cons_cons _,fun other member => ?_,fun all => ?_⟩
      · rcases List.mem_cons.mp member with rfl | later
        · exact ⟨iteration,by rw [same,frameId]; exact computed⟩
        · exact results other later
      · rw [whole (fun outcome member => all outcome (List.mem_cons_of_mem _ member))]

section Steps
variable {state after : State} {handled : List Mat} {outcomes : List (Option FrameWithResults)}

/-- Steps that are not the consumer's work on a frame. -/
theorem Handled.same (work : Handled lib config buffer state handled outcomes)
    (locals : after.locals = state.locals)
    (dequeued : after.dequeued = handled ++ fetched after.consumer)
    (results : Interleaving.begun after.results = Interleaving.begun state.results) :
    Handled lib config buffer after handled outcomes where
  dequeued := dequeued
  known := work.known
  begun := results.trans work.begun
  skips := by rw [locals]; exact work.skips
  frames := by rw [locals]; exact work.frames
  layout := by rw [locals]; exact work.layout

/-- The work on one frame: it is skipped, or it is a third one and has an outcome. -/
theorem Handled.work (created : TensorBuffer.new config = .ok buffer)
    (work : Handled lib config buffer state handled outcomes) (fewer : handled.length + 1 < 2^64)
    {frame : Mat} {iteration : Iteration} {locals : Consumer} {delivered : Option FrameWithResults}
    (processed : state.locals.process lib config frame iteration = .ok (locals,delivered)) :
    locals.frameSkipCounter = (handled ++ [frame]).length ∧
    locals.frameCounter = (handled ++ [frame]).length / 3 ∧
      locals.buffer.SameLayout buffer ∧
      ∃ more, List.Forall₂ (Outcome lib config) (sample 3 (handled ++ [frame])) (outcomes ++ more) ∧
        more.reduceOption = delivered.toList := by
  have counter : (state.locals.frameSkipCounter + 1) % 2^64 = handled.length + 1 := by
    rw [work.skips]
    exact Nat.mod_eq_of_lt fewer
  have number : (state.locals.frameCounter + 1) % 2^64 = handled.length / 3 + 1 := by
    rw [work.frames]
    omega
  rw [sample_append,List.length_append,List.length_singleton]
  by_cases chosen : (handled.length + 1) % 3 = 0
  · obtain ⟨last,skips,frames,layout,worked⟩ :=
      Consumer.process_fresh lib created state.locals work.layout
      frame iteration (by rw [counter]; exact chosen)
    rw [processed,number] at worked
    rw [counter] at skips
    rw [number] at frames
    have third : handled.length / 3 + 1 = (handled.length + 1) / 3 := by omega
    rw [third] at worked frames
    cases computed : Consumer.fresh lib config ((handled.length + 1) / 3) frame iteration with
    | error abort =>
      rw [computed] at worked
      contradiction
    | ok outcome =>
      rw [computed] at worked
      cases Except.ok.inj worked
      refine ⟨skips,frames,layout,[delivered],?_,by cases delivered <;> rfl⟩
      rw [if_pos chosen]
      exact List.rel_append work.known (.cons ⟨iteration,computed⟩ .nil)
  · rw [Consumer.process_skipped lib config state.locals frame iteration
      (by rw [counter]; exact chosen)] at processed
    cases Except.ok.inj processed
    refine ⟨counter,?_,work.layout,[],?_,rfl⟩
    · have frames := work.frames
      show state.locals.frameCounter = _
      omega
    · rw [if_neg chosen,List.append_nil,List.append_nil]
      exact work.known

theorem Handled.consumer (created : TensorBuffer.new config = .ok buffer)
    (work : Handled lib config buffer state handled outcomes) (fewer : state.dequeued.length < 2^64)
    {iteration : Iteration} (move : ConsumerMove lib config state iteration after) :
    ∃ handled outcomes, Handled lib config buffer after handled outcomes := by
  have dequeued := work.dequeued
  have fits {frame : Mat} (pc : state.consumer = .fetched frame) : handled.length + 1 < 2^64 := by
    rw [dequeued,pc,fetched,List.length_append,List.length_singleton] at fewer
    exact fewer
  have all {frame : Mat} (pc : state.consumer = .fetched frame) :
      state.dequeued = handled ++ [frame] ++ [] := by
    rw [dequeued,pc,List.append_nil]
    rfl
  cases move with
  | stop pc off =>
    rw [pc] at dequeued
    exact ⟨handled,outcomes,work.same rfl dequeued rfl⟩
  | ask pc on called =>
    rw [pc] at dequeued
    exact ⟨handled,outcomes,work.same rfl dequeued rfl⟩
  | access pc taken pending => exact ⟨handled,outcomes,work.same rfl dequeued rfl⟩
  | nullopt pc taken drained =>
    rw [pc] at dequeued
    exact ⟨handled,outcomes,work.same rfl dequeued rfl⟩
  | fetch pc taken found =>
    rw [pc] at dequeued
    simp only [fetched,List.append_nil] at dequeued
    exact ⟨handled,outcomes,work.same rfl (by rw [dequeued]; rfl) rfl⟩
  | deliver pc taken pending =>
    rw [pc] at dequeued
    exact ⟨handled,outcomes,work.same rfl dequeued (accessed_producer taken).left⟩
  | record pc taken done =>
    rw [pc] at dequeued
    exact ⟨handled,outcomes,work.same rfl dequeued (accessed_producer taken).left⟩
  | @pass frame pc locals processed =>
    obtain ⟨skips,frames,layout,more,known,delivered⟩ := work.work created (fits pc) processed
    refine ⟨handled ++ [frame],outcomes ++ more,all pc,known,?_,skips,frames,layout⟩
    rw [List.reduceOption_append,delivered,← work.begun]
    exact (List.append_nil _).symm
  | @offer frame pc locals value processed results called =>
    obtain ⟨skips,frames,layout,more,known,delivered⟩ := work.work created (fits pc) processed
    refine ⟨handled ++ [frame],outcomes ++ more,all pc,known,?_,skips,frames,layout⟩
    rw [List.reduceOption_append,delivered,← work.begun,(called_enqueue called).left]
    rfl

theorem Handled.step (created : TensorBuffer.new config = .ok buffer)
    (work : Handled lib config buffer state handled outcomes) (fewer : state.dequeued.length < 2^64)
    {action : Action} (taken : next lib config state action = some after) :
    ∃ handled outcomes, Handled lib config buffer after handled outcomes := by
  have dequeued := work.dequeued
  cases action with
  | signal =>
    cases Option.some.inj taken
    exact ⟨handled,outcomes,work.same rfl dequeued rfl⟩
  | producer capture =>
    refine ⟨handled,outcomes,?_⟩
    cases producerStep_move taken <;> exact work.same rfl dequeued rfl
  | consumer iteration => exact work.consumer created fewer (consumerStep_move taken)
  | display key =>
    refine ⟨handled,outcomes,?_⟩
    cases displayStep_move taken with
    | ask pc on called => exact work.same rfl dequeued (called_dequeue called).left
    | access pc accessed _ | nullopt pc accessed _ | fetch pc accessed _ =>
      exact work.same rfl dequeued (accessed_consumer accessed).left
    | stop pc _ | quit pc _ | carryOn pc _ => exact work.same rfl dequeued rfl

theorem next_dequeued {action : Action} (taken : next lib config state action = some after) :
    state.dequeued.length ≤ after.dequeued.length := by
  cases action with
  | signal =>
    cases Option.some.inj taken
    exact le_rfl
  | producer capture => cases producerStep_move taken <;> exact le_rfl
  | consumer iteration =>
    cases consumerStep_move taken with
    | fetch pc _ found => simp
    | _ => exact le_rfl
  | display key => cases displayStep_move taken <;> exact le_rfl

end Steps

theorem handled_reachable (created : TensorBuffer.new config = .ok buffer) {frameSize resultSize : Nat}
    {guard : State → Action → Prop} {state : State}
    (reachable : (program lib config buffer frameSize resultSize).Reachable guard state)
    (fewer : state.dequeued.length < 2^64) :
    ∃ handled outcomes, Handled lib config buffer state handled outcomes := by
  refine Machine.Reachable.invariant (fun state => state.dequeued.length < 2^64 →
    ∃ handled outcomes, Handled lib config buffer state handled outcomes) ?_ ?_ reachable fewer
  · exact fun _ => ⟨[],[],rfl,.nil,rfl,rfl,rfl,⟨rfl,rfl,rfl⟩⟩
  · intro before action after earlier _ taken fewer
    have shorter := (next_dequeued taken).trans_lt fewer
    obtain ⟨handled,outcomes,work⟩ := earlier shorter
    exact work.step created shorter taken

section Queues
variable {state : State}

theorem Recorded.dequeued_items (recorded : Recorded state) {items : List Mat}
    (same : Interleaving.answers state.frames = items.map .item) : state.dequeued = items := by
  rw [recorded.dequeued,same,List.map_map]
  exact List.map_id _

theorem Recorded.displayed_items (recorded : Recorded state) {items : List FrameWithResults}
    (same : Interleaving.answers state.results = items.map .item) : state.displayed = items := by
  rw [recorded.displayed,same,List.map_map]
  exact List.map_id _

theorem Handled.front {handled : List Mat} {outcomes : List (Option FrameWithResults)}
    (work : Handled lib config buffer state handled outcomes) : handled <+: state.dequeued := by
  rw [work.dequeued]
  exact List.prefix_append _ _

end Queues

variable {frameSize resultSize : Nat} {state : State}

/-- The second frame comes before the first is fetched, and the first is dropped. -/
def oldestDropped (frame : Nat → Mat) (iteration : Iteration) : List Action :=
  let fetches : List Action := List.replicate 6 (.consumer iteration)
  List.replicate 6 (.producer (frame 0)) ++ List.replicate 8 (.producer (frame 1)) ++ fetches ++
    List.replicate 6 (.producer (frame 2)) ++ fetches ++ List.replicate 6 (.producer (frame 3)) ++
    fetches ++ List.replicate 4 (.consumer iteration) ++ List.replicate 6 (.display 'a')

/-- Access by access, as long as no `enqueue` finds its queue full: the frames dequeued so far are
the first captures that are not empty, the pairs displayed so far are the first that the consumer
has computed, and if nothing has thrown the `k`-th of them is the `3k`-th of those captures. -/
theorem accesses_complete (created : TensorBuffer.new config = .ok buffer) (frameSlots : 2 ≤ frameSize)
    (resultSlots : 2 ≤ resultSize)
    (reachable : (program lib config buffer frameSize resultSize).Reachable
      (onQueues lib config Interleaving.keepsUp) state) (fewer : state.dequeued.length < 2^64) :
    state.dequeued <+: state.captured.filter (fun frame => !frame.empty) ∧
    ∃ handled outcomes, state.dequeued = handled ++ fetched state.consumer ∧
      List.Forall₂ (Outcome lib config) (sample 3 handled) outcomes ∧
      state.displayed <+: outcomes.reduceOption ∧
      ((∀ outcome ∈ outcomes, outcome ≠ none) →
        state.displayed.map (fun pair => (pair.results.frameId,pair.frame)) <+:
          sample 3 (state.captured.filter (fun frame => !frame.empty))) := by
  have recorded := recorded_reachable reachable
  obtain ⟨handled,outcomes,work⟩ := handled_reachable created reachable fewer
  obtain ⟨count,answeredFrames⟩ := Interleaving.answers_complete frameSlots (frames_reachable reachable)
  obtain ⟨shown,answeredPairs⟩ :=
    Interleaving.answers_complete resultSlots (results_reachable reachable)
  have dequeued := recorded.dequeued_items answeredFrames
  have displayed := recorded.displayed_items answeredPairs
  rw [recorded.captured] at dequeued
  rw [work.begun] at displayed
  have first : state.dequeued <+: nonEmpty state.captured := dequeued ▸ List.take_prefix _ _
  have pairs : state.displayed <+: outcomes.reduceOption := displayed ▸ List.take_prefix _ _
  refine ⟨first,handled,outcomes,work.dequeued,work.known,pairs,fun all => ?_⟩
  obtain ⟨_,_,whole⟩ := outcomes_numbered work.known
  have numbered : state.displayed.map number <+: sample 3 handled := by
    rw [← whole all]
    exact pairs.map number
  exact numbered.trans (sample_front (work.front.trans first))

theorem oneByOne_complete :
    let config : ModelConfig := ⟨1,1,1,1 / 4,9 / 20⟩
    let buffer : TensorBuffer := ⟨[0,0,0],[1,3,1,1],3,1,rfl⟩
    let frame : Mat := ⟨1,1,3,[0,0,0]⟩
    ∃ state, (program onePerson config buffer 2 2).run (onQueues onePerson config Interleaving.keepsUp)
        (.new buffer 2 2) (oneByOne frame ⟨0,0,0,0,7,.none⟩) = some state ∧
      state.displayed.length = 1 ∧
      [frame,frame,frame] <+: state.captured.filter (fun frame => !frame.empty) := by
  intro config buffer frame
  have shown : ((program onePerson config buffer 2 2).run
      (onQueues onePerson config Interleaving.keepsUp) (.new buffer 2 2)
      (oneByOne frame ⟨0,0,0,0,7,.none⟩)).map
        (fun state => (state.dequeued,state.displayed.length)) =
      some ([frame,frame,frame],1) := by decide +kernel
  obtain ⟨state,ran,same⟩ := Option.map_eq_some_iff.mp shown
  obtain ⟨dequeued,displayed⟩ := Prod.mk.inj same
  have created : TensorBuffer.new config = .ok buffer := by decide +kernel
  obtain ⟨first,_⟩ := accesses_complete created (by decide) (by decide)
    (Machine.reachable_of_run .init ran)
    (by rw [dequeued]; decide)
  exact ⟨state,ran,displayed,dequeued ▸ first⟩

end Accesses
end YoloEngine
