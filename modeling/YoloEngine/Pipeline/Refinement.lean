import YoloEngine.Pipeline.Records
import YoloEngine.Queue.Refinement

/-! From accesses to single steps. Where every enqueue finds room, it takes effect with its last
access, and a dequeue with the access that decides its answer; the program whose calls are single
steps then reaches what this one reaches. A dequeue that finds nothing in a queue that is not empty
has no counterpart there; until a dequeue has found an item, its thread may therefore be taken not
to have begun it. -/
namespace YoloEngine.Concurrent
open Foundation LockFreeQueue
open Pipeline (ConsumerPc DisplayPc Action)

section Atomic
variable {α : Type} {size : Nat} {items : List (Cell α)} {atomic : LockFreeQueue α}

/-- A queue on which nobody is inside a call, with the items that are present. -/
def Stands (size : Nat) (present : List (Cell α)) (atomic : LockFreeQueue α) : Prop :=
  ∃ fifo : BoundedFifo α (size - 1), atomic.Represents fifo ∧ present = fifo.items.map .item

private theorem stands_new (positive : 1 ≤ size) : Stands size [] (.new size : LockFreeQueue α) :=
  ⟨.empty,new_represents size positive,rfl⟩

theorem Stands.contents (stands : Stands size items atomic) : atomic.contents = items := by
  obtain ⟨_,represents,same⟩ := stands
  exact represents.right.contents_eq.trans same.symm

theorem Stands.offered (stands : Stands size items atomic) (room : items.length + 1 < size)
    (value : α) :
    Stands size (items ++ [.item value]) (atomic.enqueueMove value).1 := by
  obtain ⟨fifo,represents,rfl⟩ := stands
  rw [List.length_map] at room
  refine ⟨fifo.push value,represents.enqueueWith .move value,?_⟩
  rw [fifo.push_room value (by omega),List.map_append]
  rfl

theorem Stands.found {cell : Cell α} (stands : Stands size (cell :: items) atomic) :
    ∃ rest, atomic.dequeue = (rest,some cell) ∧ Stands size items rest := by
  obtain ⟨fifo,represents,same⟩ := stands
  obtain ⟨remains,answer⟩ := represents.dequeue
  obtain ⟨item,others,held,rfl,rfl⟩ := List.map_eq_cons_iff.mp same.symm
  refine ⟨_,Prod.ext rfl (answer.trans ?_),fifo.pop.1,remains,?_⟩
  · simp [BoundedFifo.pop,held]
  · simp [BoundedFifo.pop,held]

end Atomic

variable {Queue Act : Type → Type} {Choice ι : Type} {calls : QueueCalls Queue Act Choice}
  {begun : ∀ {α : Type}, Queue α → List α} {answers present : ∀ {α : Type}, Queue α → List (Cell α)}
  {seeking : ∀ {α : Type}, Queue α → Bool} {condition : ∀ {α : Type}, Queue α → Act α → Prop}

/-- A queue serves its two threads in runs that meet the condition: an enqueue finds room and puts
its value at the end with its last access; a dequeue takes off the first item with its last access,
or answers nothing while it seeks. -/
structure Serves (calls : QueueCalls Queue Act Choice) (begun : ∀ {α : Type}, Queue α → List α)
    (present : ∀ {α : Type}, Queue α → List (Cell α)) (seeking : ∀ {α : Type}, Queue α → Bool)
    (condition : ∀ {α : Type}, Queue α → Act α → Prop) (size : Nat) : Prop where
  positive : 1 ≤ size
  new {α : Type} : present (calls.new size : Queue α) = []
  callEnqueue {α : Type} {before after : Queue α} {value : α}
    (called : calls.next before (calls.callEnqueue value) = some after) :
    present after = present before ∧ seeking after = seeking before
  producer {α : Type} {before after : Queue α} {choice : Choice}
    (reachable : (calls.machine size).Reachable condition before)
    (allowed : condition before (calls.producer choice))
    (taken : calls.next before (calls.producer choice) = some after) :
    seeking after = seeking before ∧
      (calls.finished after = false ∧ present after = present before ∨
        calls.finished after = true ∧ (present before).length + 1 < size ∧
          ∃ value, (begun before).getLast? = some value ∧
            present after = present before ++ [.item value])
  callDequeue {α : Type} {before after : Queue α}
    (called : calls.next before calls.callDequeue = some after) :
    present after = present before ∧ seeking after = true
  consumer {α : Type} {before after : Queue α} {choice : Choice}
    (reachable : (calls.machine size).Reachable condition before)
    (taken : calls.next before (calls.consumer choice) = some after) :
    (calls.answered before after = none ∧ (seeking after = true → seeking before = true) ∧
        present after = present before) ∨
      (calls.answered before after = some none ∧ seeking before = true ∧
        present after = present before) ∨
      ∃ cell, calls.answered before after = some (some cell) ∧ seeking before = false ∧
        present before = cell :: present after

section Calls
variable {α : Type} {size : Nat} {before after : Queue α} {choice : Choice}

theorem Serves.pending (serves : Serves calls @begun @present @seeking @condition size)
    (reachable : (calls.machine size).Reachable condition before)
    (taken : calls.next before (calls.consumer choice) = some after)
    (pending : calls.answered before after = none) :
    (seeking after = true → seeking before = true) ∧ present after = present before := by
  obtain ⟨_,same⟩ | ⟨other,_⟩ | ⟨_,other,_⟩ := serves.consumer reachable taken
  · exact same
  · simp [other] at pending
  · simp [other] at pending

theorem Serves.drained (serves : Serves calls @begun @present @seeking @condition size)
    (reachable : (calls.machine size).Reachable condition before)
    (taken : calls.next before (calls.consumer choice) = some after)
    (drained : calls.answered before after = some none) :
    seeking before = true ∧ present after = present before := by
  obtain ⟨other,_⟩ | ⟨_,same⟩ | ⟨_,other,_⟩ := serves.consumer reachable taken
  · simp [other] at drained
  · exact same
  · simp [other] at drained

theorem Serves.found (serves : Serves calls @begun @present @seeking @condition size)
    (reachable : (calls.machine size).Reachable condition before)
    (taken : calls.next before (calls.consumer choice) = some after) {cell : Cell α}
    (found : calls.answered before after = some (some cell)) :
    seeking before = false ∧ present before = cell :: present after := by
  obtain ⟨other,_⟩ | ⟨other,_⟩ | ⟨held,same,first⟩ := serves.consumer reachable taken
  · simp [other] at found
  · simp [other] at found
  · simp only [same,Option.some.injEq] at found
    exact found ▸ first

private theorem Serves.unfinished (serves : Serves calls @begun @present @seeking @condition size)
    (reachable : (calls.machine size).Reachable condition before)
    (allowed : condition before (calls.producer choice))
    (taken : calls.next before (calls.producer choice) = some after)
    (pending : calls.finished after = false) :
    seeking after = seeking before ∧ present after = present before := by
  obtain ⟨seeks,⟨_,same⟩ | ⟨other,_⟩⟩ := serves.producer reachable allowed taken
  · exact ⟨seeks,same⟩
  · simp [other] at pending

theorem Serves.finished (serves : Serves calls @begun @present @seeking @condition size)
    (reachable : (calls.machine size).Reachable condition before)
    (allowed : condition before (calls.producer choice))
    (taken : calls.next before (calls.producer choice) = some after)
    (done : calls.finished after = true) {value : α} (last : (begun before).getLast? = some value) :
    seeking after = seeking before ∧ (present before).length + 1 < size ∧
      present after = present before ++ [.item value] := by
  obtain ⟨seeks,⟨other,_⟩ | ⟨_,room,passed,same,grown⟩⟩ := serves.producer reachable allowed taken
  · simp [other] at done
  · rw [last,Option.some.injEq] at same
    exact ⟨seeks,room,same ▸ grown⟩

end Calls

/-- Which of the two threads that dequeue are taken not to have begun, if they are still seeking. -/
structure Early where
  consumer : Bool
  display : Bool

def consumerAs (early seeks : Bool) : ConsumerPc → ConsumerPc
  | .dequeuing => if early && seeks then .loop else .dequeuing
  | pc => pc

def displayAs (early seeks : Bool) : DisplayPc → DisplayPc
  | .dequeuing => if early && seeks then .loop else .dequeuing
  | pc => pc

/-- The program's state with atomic queues in place of the two. -/
def atomic (seeking : ∀ {α : Type}, Queue α → Bool) (early : Early) (state : State Queue)
    (frameQueue : LockFreeQueue Mat)
    (resultQueue : LockFreeQueue FrameWithResults) : Pipeline.State :=
  ⟨state.isRunning,frameQueue,resultQueue,state.producer,state.emptyFrameRetries,
    consumerAs early.consumer (seeking state.frames) state.consumer,state.locals,state.latenciesUs,
    displayAs early.display (seeking state.results) state.display,state.captured,state.dequeued,
    state.displayed⟩

/-- Each resolution of the state after a step comes from one of the state before it, from which the
atomic program stays or takes the same thread's step, and its queues hold what is present. -/
def Follows (present : ∀ {α : Type}, Queue α → List (Cell α))
    (seeking : ∀ {α : Type}, Queue α → Bool) (lib : External) (config : ModelConfig)
    (frameSize resultSize : Nat) (state after : State Queue) (action : Action)
    (early : Early) : Prop :=
  ∃ earlier, ∀ frameQueue resultQueue, Stands frameSize (present state.frames) frameQueue →
    Stands resultSize (present state.results) resultQueue →
    ∃ laterFrames laterResults, Stands frameSize (present after.frames) laterFrames ∧
      Stands resultSize (present after.results) laterResults ∧
      (atomic @seeking early after laterFrames laterResults =
          atomic @seeking earlier state frameQueue resultQueue ∨
        Pipeline.next lib config (atomic @seeking earlier state frameQueue resultQueue) action =
          some (atomic @seeking early after laterFrames laterResults))

section Follows
variable {lib : External} {config : ModelConfig} {frameSize resultSize : Nat}
  {state after : State Queue} {choice : Choice} (recorded : Recorded @begun @answers state)
  (framesServe : Serves calls @begun @present @seeking @condition frameSize)
  (resultsServe : Serves calls @begun @present @seeking @condition resultSize)
  (framesReached : (calls.machine frameSize).Reachable condition state.frames)
  (resultsReached : (calls.machine resultSize).Reachable condition state.results)
include recorded framesServe framesReached

private theorem producer_follows {capture : Mat}
    (allowed : onQueues calls lib config condition state (.producer capture) choice)
    (move : ProducerMove calls state capture choice after) (early : Early) :
    Follows @present @seeking lib config frameSize resultSize state after
      (.producer capture) early := by
  refine ⟨early,fun frameQueue resultQueue frames results => ?_⟩
  cases move with
  | test pc =>
    exact ⟨frameQueue,resultQueue,frames,results,
      Or.inr (by simp [Pipeline.next,Pipeline.producerStep,atomic,pc])⟩
  | retry pc empty few =>
    refine ⟨frameQueue,resultQueue,frames,results,Or.inr ?_⟩
    simp only [Pipeline.next,Pipeline.producerStep,atomic,pc,empty,few,if_true,if_false]
  | giveUp pc empty many =>
    refine ⟨frameQueue,resultQueue,frames,results,Or.inr ?_⟩
    simp only [Pipeline.next,Pipeline.producerStep,atomic,pc,empty,many,if_true]
  | offer pc full called =>
    obtain ⟨same,seeks⟩ := framesServe.callEnqueue called
    refine ⟨frameQueue,resultQueue,same ▸ frames,results,Or.inr ?_⟩
    simp [Pipeline.next,Pipeline.producerStep,atomic,seeks,pc,full]
  | @access frameClone pc queue accessed =>
    have permitted := allowed.left (calls.producer choice) (by simp [frameAct,pc])
    cases done : calls.finished queue with
    | false =>
      obtain ⟨seeks,same⟩ := framesServe.unfinished framesReached permitted accessed done
      refine ⟨frameQueue,resultQueue,same ▸ frames,results,Or.inl ?_⟩
      simp [atomic,seeks,pc]
    | true =>
      obtain ⟨seeks,room,grown⟩ :=
        framesServe.finished framesReached permitted accessed done (recorded.frame frameClone pc)
      refine ⟨_,resultQueue,grown ▸ frames.offered room frameClone,results,Or.inr ?_⟩
      simp [Pipeline.next,Pipeline.producerStep,atomic,seeks,pc]

include resultsServe resultsReached

/-- Where a dequeue ends with nothing, the atomic program has not begun it. -/
private theorem consumer_follows {iteration : Iteration}
    (allowed : onQueues calls lib config condition state (.consumer iteration) choice)
    (move : ConsumerMove calls lib config state iteration choice after) (early : Early) :
    Follows @present @seeking lib config frameSize resultSize state after
      (.consumer iteration) early := by
  cases move with
  | stop pc off =>
    refine ⟨early,fun frameQueue resultQueue frames results =>
      ⟨frameQueue,resultQueue,frames,results,Or.inr ?_⟩⟩
    simp [Pipeline.next,Pipeline.consumerStep,atomic,consumerAs,pc,off]
  | ask pc on called =>
    obtain ⟨same,seeks⟩ := framesServe.callDequeue called
    refine ⟨early,fun frameQueue resultQueue frames results =>
      ⟨frameQueue,resultQueue,same ▸ frames,results,?_⟩⟩
    cases begins : early.consumer with
    | true => exact Or.inl (by simp [atomic,consumerAs,seeks,pc,begins])
    | false =>
      exact Or.inr (by simp [Pipeline.next,Pipeline.consumerStep,atomic,consumerAs,pc,on,begins])
  | @access pc queue accessed pending =>
    obtain ⟨seeks,same⟩ := framesServe.pending framesReached accessed pending
    refine ⟨⟨early.consumer && seeking queue,early.display⟩,fun frameQueue resultQueue frames results =>
      ⟨frameQueue,resultQueue,same ▸ frames,results,Or.inl ?_⟩⟩
    cases still : seeking queue with
    | true => simp [atomic,still,seeks still]
    | false => simp [atomic,consumerAs,pc,still]
  | nullopt pc accessed drained =>
    obtain ⟨seeks,same⟩ := framesServe.drained framesReached accessed drained
    refine ⟨⟨true,early.display⟩,fun frameQueue resultQueue frames results =>
      ⟨frameQueue,resultQueue,same ▸ frames,results,Or.inl ?_⟩⟩
    simp [atomic,consumerAs,pc,seeks]
  | fetch pc accessed found =>
    obtain ⟨seeks,first⟩ := framesServe.found framesReached accessed found
    refine ⟨early,fun frameQueue resultQueue frames results => ?_⟩
    rw [first] at frames
    obtain ⟨rest,answer,stands⟩ := frames.found
    refine ⟨rest,resultQueue,stands,results,Or.inr ?_⟩
    simp [Pipeline.next,Pipeline.consumerStep,atomic,consumerAs,pc,seeks,answer]
  | pass pc processed =>
    refine ⟨early,fun frameQueue resultQueue frames results =>
      ⟨frameQueue,resultQueue,frames,results,Or.inr ?_⟩⟩
    simp [Pipeline.next,Pipeline.consumerStep,atomic,consumerAs,pc,processed]
  | offer pc processed called =>
    obtain ⟨same,seeks⟩ := resultsServe.callEnqueue called
    refine ⟨early,fun frameQueue resultQueue frames results =>
      ⟨frameQueue,resultQueue,frames,same ▸ results,Or.inr ?_⟩⟩
    simp [Pipeline.next,Pipeline.consumerStep,atomic,consumerAs,seeks,pc,processed]
  | deliver pc accessed pending =>
    have permitted := allowed.right (calls.producer choice) (by simp [resultAct,pc])
    obtain ⟨seeks,same⟩ := resultsServe.unfinished resultsReached permitted accessed pending
    refine ⟨early,fun frameQueue resultQueue frames results =>
      ⟨frameQueue,resultQueue,frames,same ▸ results,Or.inl ?_⟩⟩
    simp [atomic,seeks,pc]
  | record pc accessed done =>
    have permitted := allowed.right (calls.producer choice) (by simp [resultAct,pc])
    obtain ⟨seeks,room,grown⟩ :=
      resultsServe.finished resultsReached permitted accessed done (recorded.result _ _ pc)
    refine ⟨early,fun frameQueue resultQueue frames results =>
      ⟨frameQueue,_,frames,grown ▸ results.offered room _,Or.inr ?_⟩⟩
    simp [Pipeline.next,Pipeline.consumerStep,atomic,consumerAs,seeks,pc]

omit recorded framesServe framesReached

private theorem display_follows {key : Char} (move : DisplayMove calls state key choice after)
    (early : Early) :
    Follows @present @seeking lib config frameSize resultSize state after (.display key) early := by
  cases move with
  | stop pc off =>
    refine ⟨early,fun frameQueue resultQueue frames results =>
      ⟨frameQueue,resultQueue,frames,results,Or.inr ?_⟩⟩
    simp [Pipeline.next,Pipeline.displayStep,atomic,displayAs,pc,off]
  | ask pc on called =>
    obtain ⟨same,seeks⟩ := resultsServe.callDequeue called
    refine ⟨early,fun frameQueue resultQueue frames results =>
      ⟨frameQueue,resultQueue,frames,same ▸ results,?_⟩⟩
    cases begins : early.display with
    | true => exact Or.inl (by simp [atomic,displayAs,seeks,pc,begins])
    | false => exact Or.inr (by simp [Pipeline.next,Pipeline.displayStep,atomic,displayAs,pc,on,begins])
  | @access pc queue accessed pending =>
    obtain ⟨seeks,same⟩ := resultsServe.pending resultsReached accessed pending
    refine ⟨⟨early.consumer,early.display && seeking queue⟩,fun frameQueue resultQueue frames results =>
      ⟨frameQueue,resultQueue,frames,same ▸ results,Or.inl ?_⟩⟩
    cases still : seeking queue with
    | true => simp [atomic,still,seeks still]
    | false => simp [atomic,displayAs,pc,still]
  | nullopt pc accessed drained =>
    obtain ⟨seeks,same⟩ := resultsServe.drained resultsReached accessed drained
    refine ⟨⟨early.consumer,true⟩,fun frameQueue resultQueue frames results =>
      ⟨frameQueue,resultQueue,frames,same ▸ results,Or.inl ?_⟩⟩
    simp [atomic,displayAs,pc,seeks]
  | fetch pc accessed found =>
    obtain ⟨seeks,first⟩ := resultsServe.found resultsReached accessed found
    refine ⟨early,fun frameQueue resultQueue frames results => ?_⟩
    rw [first] at results
    obtain ⟨rest,answer,stands⟩ := results.found
    refine ⟨frameQueue,rest,frames,stands,Or.inr ?_⟩
    simp [Pipeline.next,Pipeline.displayStep,atomic,displayAs,pc,seeks,answer]
  | quit pc pressed =>
    refine ⟨early,fun frameQueue resultQueue frames results =>
      ⟨frameQueue,resultQueue,frames,results,Or.inr ?_⟩⟩
    simp only [Pipeline.next,Pipeline.displayStep,atomic,displayAs,pc,pressed,if_true]
  | carryOn pc other =>
    refine ⟨early,fun frameQueue resultQueue frames results =>
      ⟨frameQueue,resultQueue,frames,results,Or.inr ?_⟩⟩
    simp only [Pipeline.next,Pipeline.displayStep,atomic,displayAs,pc,other,if_false]

end Follows

def Matches (present : ∀ {α : Type}, Queue α → List (Cell α)) (seeking : ∀ {α : Type}, Queue α → Bool)
    (frameSize resultSize : Nat) (early : Early) (state : State Queue)
    (spec : Pipeline.State) : Prop :=
  ∃ frameQueue resultQueue, spec = atomic @seeking early state frameQueue resultQueue ∧
    Stands frameSize (present state.frames) frameQueue ∧
    Stands resultSize (present state.results) resultQueue

section Runs
variable {read : ι → Action × Choice} {lib : External} {config : ModelConfig} {buffer : TensorBuffer}
  {frameSize resultSize : Nat} {guard : State Queue → ι → Prop} {state after : State Queue}
  (records : Records calls @begun @answers)
  (framesServe : Serves calls @begun @present @seeking @condition frameSize)
  (resultsServe : Serves calls @begun @present @seeking @condition resultSize)
  (meets : ∀ state input, guard state input →
    onQueues calls lib config condition state (read input).1 (read input).2)
  (reachable : (program calls read lib config buffer frameSize resultSize).Reachable guard state)
include records framesServe resultsServe meets reachable

private theorem step_follows {input : ι} (allowed : guard state input)
    (taken : step calls lib config state (read input).1 (read input).2 = some after)
    (early : Early) :
    Follows @present @seeking lib config frameSize resultSize state after (read input).1 early := by
  have recorded := recorded_reachable records reachable
  have framesReached := frames_reachable meets reachable
  have resultsReached := results_reachable meets reachable
  have permitted := meets state input allowed
  generalize read input = entry at taken permitted
  obtain ⟨action,choice⟩ := entry
  cases action with
  | signal =>
    cases Option.some.inj taken
    exact ⟨early,fun frameQueue resultQueue frames results =>
      ⟨frameQueue,resultQueue,frames,results,Or.inr rfl⟩⟩
  | producer capture =>
    exact producer_follows recorded framesServe framesReached permitted (producerStep_move taken) early
  | consumer iteration =>
    exact consumer_follows recorded framesServe resultsServe framesReached resultsReached permitted
      (consumerStep_move taken) early
  | display key => exact display_follows resultsServe resultsReached (displayStep_move taken) early

theorem atomic_reachable (early : Early) :
    ∃ frameQueue resultQueue,
      (Pipeline.pipeline lib config buffer frameSize resultSize).Reachable Machine.always
        (atomic @seeking early state frameQueue resultQueue) ∧
      Stands frameSize (present state.frames) frameQueue ∧
      Stands resultSize (present state.results) resultQueue := by
  have resolved : ∃ spec,
    (Pipeline.pipeline lib config buffer frameSize resultSize).Reachable Machine.always spec ∧
      Matches @present @seeking frameSize resultSize early state spec := by
    apply reachable.resolved (Matches @present @seeking frameSize resultSize)
    · intro early
      refine ⟨_,_,rfl,?_,?_⟩
      · exact framesServe.new ▸ stands_new framesServe.positive
      · exact resultsServe.new ▸ stands_new resultsServe.positive
    · intro before input after earlier allowed taken early
      obtain ⟨source,follows⟩ :=
        step_follows records framesServe resultsServe meets earlier allowed taken early
      refine ⟨source,fun spec known reached => ?_⟩
      obtain ⟨frameQueue,resultQueue,rfl,frames,results⟩ := known
      obtain ⟨laterFrames,laterResults,standsFrames,standsResults,same | stepped⟩ :=
        follows _ _ frames results
      · exact ⟨_,reached,laterFrames,laterResults,same.symm,standsFrames,standsResults⟩
      · exact ⟨_,reached.step trivial stepped,laterFrames,laterResults,rfl,standsFrames,standsResults⟩
  obtain ⟨_,reached,frameQueue,resultQueue,rfl,frames,results⟩ := resolved
  exact ⟨frameQueue,resultQueue,reached,frames,results⟩

end Runs
end YoloEngine.Concurrent
