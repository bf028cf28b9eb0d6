import YoloEngine.Pipeline.Refinement
import YoloEngine.Pipeline.Work
import YoloEngine.Queue.Linearization

/-! The program whose threads interleave access by access refines the one whose calls on the
queues are single steps. As long as no `enqueue` finds its queue full, the log of a queue has
nothing for an access that goes on, an append for the end of an enqueue, and for the end of a
dequeue what it answers. -/
namespace YoloEngine
open Foundation LockFreeQueue

namespace Interleaving
variable {α : Type} {size : Nat} {state after : State α} {action : Action α}

/-- No enqueue stands in its full branch. -/
def Smooth (size : Nat) (state : State α) : Prop :=
  pendingDrop state.producer = 0 ∧ ∃ position, Apart size position state

theorem Smooth.apart (smooth : Smooth size state) (action : Action α) : apart state action := by
  obtain ⟨noDrop,_⟩ := smooth
  cases action with
  | callEnqueue how value => trivial
  | callDequeue => trivial
  | consumer => exact fun _ => noDrop
  | producer =>
    intro stores
    cases pc : state.producer <;> simp [pc,pendingDrop,storedHead] at noDrop stores

private theorem keepsUp_noDrop (noDrop : pendingDrop state.producer = 0) (room : keepsUp state action)
    (taken : next state action = some after) : pendingDrop after.producer = 0 := by
  obtain ⟨how,value,rfl,idle,rfl⟩ | ⟨rfl,rfl⟩ | ⟨rfl,idle,rfl⟩ | ⟨rfl,rfl⟩ := next_cases taken
  · rfl
  · cases pc : state.producer with
    | loadHead how item currentTail nextTail =>
      have free : ¬ nextTail = state.queue.head :=
        fun full => room (by simp [takesFull,testedTail,pc,full])
      simp [producerStep,pc,enqueueStep,free,pendingDrop]
    | reloadHead how item currentTail nextTail => simp [pc,pendingDrop] at noDrop
    | storeHead how item currentTail nextTail newHead => simp [pc,pendingDrop] at noDrop
    | _ => simp [producerStep,pc,enqueueStep,pendingDrop]
  · exact noDrop
  · rw [(consumerStep_kept state).left]
    exact noDrop

private theorem smooth_reachable (large : 2 ≤ size)
    (reachable : (spsc size).Reachable keepsUp state) : Smooth size state := by
  apply reachable.invariant (Smooth size)
  · exact ⟨rfl,0,apart_new size (by omega)⟩
  · intro before action after smooth room taken
    have allowed := smooth.apart action
    obtain ⟨noDrop,position,separate⟩ := smooth
    exact ⟨keepsUp_noDrop noDrop room taken,_,separate.step large allowed taken⟩

theorem Smooth.emits (large : 2 ≤ size) (smooth : Smooth size state)
    (taken : next state action = some after) :
    LossyFifo.Steps (size - 1) (present state) (emitted state action) (present after) := by
  have allowed := smooth.apart action
  obtain ⟨_,position,separate⟩ := smooth
  rw [separate.present_eq (by omega),(separate.step large allowed taken).present_eq (by omega)]
  exact separate.emits large allowed taken

end Interleaving

namespace Accesses
open Concurrent
open Pipeline (Action)

section Calls
variable {α : Type} {size : Nat} {before after : Interleaving.State α}

/-- Inside a `dequeue` that has found no item yet. -/
def seeking (queue : Interleaving.State α) : Bool :=
  match queue.consumer with
  | .loadHead => true
  | .loadTail _ => true
  | _ => false

theorem emitted_answered (taken : Interleaving.next before .consumer = some after) :
    Interleaving.emitted before .consumer =
      match answered before after with
      | none => []
      | some none => [.empty]
      | some (some cell) => [.pop cell] := by
  obtain ⟨_,_,impossible,_⟩ | ⟨impossible,_⟩ | ⟨impossible,_⟩ | ⟨_,rfl⟩ := Interleaving.next_cases taken
  · cases impossible
  · cases impossible
  · cases impossible
  · cases pc : before.consumer with
    | idle =>
      rw [Interleaving.next,pc] at taken
      contradiction
    | loadTail currentHead =>
      by_cases empty : currentHead = before.queue.tail <;>
        simp [Interleaving.emitted,answered,Interleaving.consumerStep,pc,dequeueStep,empty]
    | _ => simp [Interleaving.emitted,answered,Interleaving.consumerStep,pc,dequeueStep]

private theorem called_present {how : Overload} {value : α}
    (called : Interleaving.next before (.callEnqueue how value) = some after) :
    Interleaving.present after = Interleaving.present before ∧ seeking after = seeking before := by
  obtain ⟨_,_,_,_,rfl⟩ | ⟨impossible,_⟩ | ⟨impossible,_⟩ | ⟨impossible,_⟩ :=
    Interleaving.next_cases called
  · exact ⟨rfl,rfl⟩
  · cases impossible
  · cases impossible
  · cases impossible

private theorem asked_present (called : Interleaving.next before .callDequeue = some after) :
    Interleaving.present after = Interleaving.present before ∧ seeking after = true := by
  obtain ⟨_,_,impossible,_⟩ | ⟨impossible,_⟩ | ⟨_,idle,rfl⟩ | ⟨impossible,_⟩ :=
    Interleaving.next_cases called
  · cases impossible
  · cases impossible
  · refine ⟨?_,rfl⟩
    rw [Interleaving.present,Interleaving.present,idle]
    rfl
  · cases impossible

/-- An enqueue that finds room puts its value at the end with its last access, and completes nothing
before it. -/
private theorem offered_present (large : 2 ≤ size) (smooth : Interleaving.Smooth size before)
    (taken : Interleaving.next before .producer = some after) :
    finished after = false ∧ Interleaving.present after = Interleaving.present before ∨
      finished after = true ∧ (Interleaving.present before).length + 1 < size ∧
        ∃ value, (Interleaving.begun before).getLast? = some value ∧
          Interleaving.present after = Interleaving.present before ++ [.item value] := by
  have emits := smooth.emits large taken
  obtain ⟨noDrop,position,separate⟩ := smooth
  obtain ⟨_,_,impossible,_⟩ | ⟨_,rfl⟩ | ⟨impossible,_⟩ | ⟨impossible,_⟩ := Interleaving.next_cases taken
  · cases impossible
  · cases pc : before.producer with
    | idle =>
      rw [Interleaving.next,pc] at taken
      contradiction
    | storeHead how item currentTail nextTail newHead => simp [pc,Interleaving.pendingDrop] at noDrop
    | storeTail left nextTail =>
      obtain ⟨item,lookup,found,_⟩ := separate.newest pc
      have at_pc := separate.window.producerAt
      simp only [pc,Interleaving.ProducerAt] at at_pc
      have final : before.written.getLast? = some item := by
        rw [List.getLast?_eq_getElem?,at_pc.left]
        exact lookup
      simp only [Interleaving.emitted,pc,found] at emits
      obtain ⟨room,grown⟩ := emits.append_inv
      refine Or.inr ⟨by simp [Interleaving.producerStep,pc,enqueueStep,finished],by omega,
        item.value,?_,grown⟩
      simp [Interleaving.begun,pc,Interleaving.unwritten,final]
    | loadHead how item currentTail nextTail =>
      simp only [Interleaving.emitted,pc] at emits
      refine Or.inl ⟨?_,emits.silent_inv⟩
      by_cases full : nextTail = before.queue.head <;>
        simp [Interleaving.producerStep,pc,enqueueStep,finished,full]
    | _ =>
      simp only [Interleaving.emitted,pc] at emits
      exact Or.inl ⟨by simp [Interleaving.producerStep,pc,enqueueStep,finished],emits.silent_inv⟩
  · cases impossible
  · cases impossible

/-- A dequeue takes off the first item with its last access, or finds the queue empty while it seeks. -/
private theorem fetched_present (large : 2 ≤ size) (smooth : Interleaving.Smooth size before)
    (taken : Interleaving.next before .consumer = some after) :
    (answered before after = none ∧ (seeking after = true → seeking before = true) ∧
        Interleaving.present after = Interleaving.present before) ∨
      (answered before after = some none ∧ seeking before = true ∧
        Interleaving.present after = Interleaving.present before) ∨
      ∃ cell, answered before after = some (some cell) ∧ seeking before = false ∧
        Interleaving.present before = cell :: Interleaving.present after := by
  have emits := smooth.emits large taken
  have seeks : (answered before after = none → seeking after = true → seeking before = true) ∧
      (answered before after = some none → seeking before = true) ∧
      ∀ cell, answered before after = some (some cell) → seeking before = false := by
    obtain ⟨_,_,impossible,_⟩ | ⟨impossible,_⟩ | ⟨impossible,_⟩ | ⟨_,rfl⟩ :=
      Interleaving.next_cases taken
    · cases impossible
    · cases impossible
    · cases impossible
    · cases pc : before.consumer with
      | loadTail currentHead =>
        by_cases empty : currentHead = before.queue.tail <;>
          simp [seeking,answered,Interleaving.consumerStep,pc,dequeueStep,empty]
      | idle =>
        rw [Interleaving.next,pc] at taken
        contradiction
      | _ => simp [seeking,answered,Interleaving.consumerStep,pc,dequeueStep]
  rw [emitted_answered taken] at emits
  obtain ⟨goes,ends,takes⟩ := seeks
  cases answer : answered before after with
  | none =>
    rw [answer] at emits
    exact Or.inl ⟨rfl,goes answer,emits.silent_inv⟩
  | some reply =>
    rw [answer] at emits
    cases reply with
    | none =>
      obtain ⟨nothing,left⟩ := emits.empty_inv
      exact Or.inr (Or.inl ⟨rfl,ends answer,left.trans nothing.symm⟩)
    | some cell => exact Or.inr (Or.inr ⟨cell,rfl,takes cell answer,emits.pop_inv⟩)

theorem serves (large : 2 ≤ size) :
    Serves queueCalls Interleaving.begun Interleaving.present seeking Interleaving.keepsUp size where
  positive := by omega
  new := by
    simp [queueCalls,Interleaving.present,Interleaving.State.new,LockFreeQueue.new,
      Interleaving.pendingRead,contents,LockFreeQueue.size,sizeFrom,Ring.window]
  callEnqueue called := called_present called
  producer reachable _ taken := by
    have consumer := (accessed_producer taken).right.right
    exact ⟨by rw [seeking,seeking,consumer],
      offered_present large (Interleaving.smooth_reachable large reachable) taken⟩
  callDequeue called := asked_present called
  consumer reachable taken := fetched_present large
    (Interleaving.smooth_reachable large reachable) taken

end Calls

/-- The program's state with atomic queues in place of the two. -/
def atomic (state : State) (frameQueue : LockFreeQueue Mat)
    (resultQueue : LockFreeQueue FrameWithResults) :
    Pipeline.State :=
  ⟨state.isRunning,frameQueue,resultQueue,state.producer,state.emptyFrameRetries,state.consumer,
    state.locals,state.latenciesUs,state.display,state.captured,state.dequeued,state.displayed⟩

private theorem atomic_begun (state : State) (frameQueue : LockFreeQueue Mat)
    (resultQueue : LockFreeQueue FrameWithResults) :
    Concurrent.atomic seeking ⟨false,false⟩ state frameQueue resultQueue =
      atomic state frameQueue resultQueue := by
  have consumer (seeks : Bool) : consumerAs false seeks state.consumer = state.consumer := by
    cases state.consumer <;> rfl
  have display (seeks : Bool) : displayAs false seeks state.display = state.display := by
    cases state.display <;> rfl
  rw [Concurrent.atomic,consumer,display,atomic]

/-- As long as no `enqueue` finds its queue full, however the accesses of the three threads mix: the
program whose calls are single steps reaches a state that differs from this one inside the queues
alone, with the items that lie between the cursors in its queues. -/
theorem accesses_refine {lib : External} {config : ModelConfig} {buffer : TensorBuffer}
    {frameSize resultSize : Nat} (frameSlots : 2 ≤ frameSize) (resultSlots : 2 ≤ resultSize)
    {state : State}
    (reachable : (program lib config buffer frameSize resultSize).Reachable
      (onQueues lib config Interleaving.keepsUp) state) :
    ∃ frameQueue resultQueue,
      (Pipeline.pipeline lib config buffer frameSize resultSize).Reachable Machine.always
        (atomic state frameQueue resultQueue) ∧
      frameQueue.contents = Interleaving.present state.frames ∧
      resultQueue.contents = Interleaving.present state.results := by
  obtain ⟨frameQueue,resultQueue,reached,frames,results⟩ := atomic_reachable records (serves frameSlots)
    (serves resultSlots) (fun _ _ allowed => allowed) reachable ⟨false,false⟩
  rw [atomic_begun] at reached
  exact ⟨frameQueue,resultQueue,reached,frames.contents,results.contents⟩

/-- A dequeue starts while an enqueue stands before its last access, and is answered after it. -/
def overlapping (frame : Mat) (iteration : Iteration) : List Action :=
  List.replicate 5 (.producer frame) ++ List.replicate 2 (.consumer iteration) ++ [.producer frame] ++
    List.replicate 2 (.consumer iteration)

theorem overlapping_refines :
    let config : ModelConfig := ⟨1,1,1,1 / 4,9 / 20⟩
    let buffer : TensorBuffer := ⟨[0,0,0],[1,3,1,1],3,1,rfl⟩
    let frame : Mat := ⟨1,1,3,[0,0,0]⟩
    let lib : External := ⟨fun frame _ _ _ _ _ => frame.data,fun _ _ => [],fun _ _ _ _ => none⟩
    ∃ state frameQueue resultQueue,
      (program lib config buffer 2 2).run (onQueues lib config Interleaving.keepsUp)
        (.new buffer 2 2) (overlapping frame ⟨0,0,0,0,7,.none⟩) = some state ∧
      (Pipeline.pipeline lib config buffer 2 2).Reachable Machine.always
        (atomic state frameQueue resultQueue) ∧
      frameQueue.contents = [.item frame] ∧ state.consumer = .dequeuing ∧ state.producer = .loop := by
  intro config buffer frame lib
  obtain ⟨state,ran,there,consumer,producer⟩ : ∃ state,
      (program lib config buffer 2 2).run (onQueues lib config Interleaving.keepsUp) (.new buffer 2 2)
        (overlapping frame ⟨0,0,0,0,7,.none⟩) = some state ∧
          Interleaving.present state.frames = [.item frame] ∧
      state.consumer = .dequeuing ∧ state.producer = .loop := ⟨_,rfl,rfl,rfl,rfl⟩
  obtain ⟨frameQueue,resultQueue,reached,contents,_⟩ :=
    accesses_refine (by decide) (by decide) (Machine.reachable_of_run .init ran)
  exact ⟨state,frameQueue,resultQueue,ran,reached,contents.trans there,consumer,producer⟩

end Accesses
end YoloEngine
