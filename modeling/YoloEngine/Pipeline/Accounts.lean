import YoloEngine.Pipeline.Passage
import YoloEngine.Queue.Linearization

/-! Where every frame has gone. Each queue carries what is offered to it: it has been received, it
was dropped for a full queue, it still lies there, or its `enqueue` is under way. The consumer
stands between the two queues, so that the books of the whole program balance in every state. -/
namespace YoloEngine
open Foundation

namespace Interleaving
open LockFreeQueue
variable {α : Type}

/-- The value of an `enqueue` that has not taken effect yet. -/
def underway (state : State α) : List α := (begun state).drop state.enqueued

def calling : EnqueuePc (Tagged α) → Nat
  | .idle => 0
  | _ => 1

private theorem Window.underway_length {size position : Nat} {state : State α}
    (window : Window size position state) :
    (underway state).length = calling state.producer := by
  have at_pc := window.producerAt
  rw [underway,begun,List.length_drop,List.length_map,List.length_append]
  cases pc : state.producer <;> rw [pc] at at_pc <;> simp only [ProducerAt] at at_pc <;>
    simp only [unwritten,calling,List.length_nil,List.length_singleton] <;> omega

/-- What a queue has done with the values offered to it. -/
structure Carried (bound : Nat) (state : State α) (log : List (LossyFifo.Event (Cell α)))
    (received : List α) : Prop where
  run : LossyFifo.Run bound log (present state)
  offered : (begun state).map .item = log.filterMap LossyFifo.removed ++ present state ++
    (underway state).map .item
  popped : log.filterMap LossyFifo.popped = received.map .item
  dropped : (log.filterMap LossyFifo.dropped).length + pendingDrop state.producer = state.fulls
  size : state.queue.size = (present state).length
  one : (underway state).length = calling state.producer

theorem carried_reachable {size : Nat} (large : 2 ≤ size) {state : State α}
    (reachable : (spsc size).Reachable apart state) :
    ∃ log received, Carried (size - 1) state log received ∧ answers state = received.map .item := by
  obtain ⟨log,logged⟩ := reachable.logged emitted
  obtain ⟨position,separate,run,tallied⟩ : ∃ position, Apart size position state ∧
      LossyFifo.Run (size - 1) log (published state.written position state.enqueued) ∧
      Tallied state log :=
    apart_reachable large logged
  rw [← separate.present_eq (by omega)] at run
  have offered : (begun state).map .item =
      log.filterMap LossyFifo.removed ++ present state ++ (underway state).map .item := by
    rw [← run.conserved,tallied.appended separate.window,underway,← List.map_append,
      List.take_append_drop]
  have some : (log.filterMap LossyFifo.popped).Sublist ((begun state).map .item) := by
    rw [offered,List.append_assoc]
    exact (LossyFifo.popped_removed log).trans (List.sublist_append_left _ _)
  obtain ⟨received,_,popped⟩ := List.sublist_map_iff.mp some
  exact ⟨log,received,⟨run,offered,popped,tallied.drops,separate.size_present (by omega),
    separate.window.underway_length⟩,tallied.pops.symm.trans popped⟩

section Balance
variable {bound : Nat} {state : State α} {log : List (LossyFifo.Event (Cell α))} {received : List α}

private theorem Carried.balance (carried : Carried bound state log received) :
    (begun state).length + pendingDrop state.producer =
      received.length + state.fulls + state.queue.size + calling state.producer := by
  have offered := congrArg List.length carried.offered
  have popped := congrArg List.length carried.popped
  have dropped := carried.dropped
  have size := carried.size
  have one := carried.one
  simp only [List.length_map,List.length_append,LossyFifo.removed_length] at offered popped
  omega

end Balance
end Interleaving

namespace Accesses
open Concurrent
open Pipeline (ProducerPc ConsumerPc DisplayPc Action takenFrame takenResults nonEmpty fetched)
variable {lib : External} {config : ModelConfig} {buffer : TensorBuffer}
  {frameSize resultSize : Nat} {state : State}

/-- All three threads have left their loops. -/
structure Joined (state : State) : Prop where
  producer : state.producer = .stopped
  consumer : state.consumer = .stopped
  display : state.display = .stopped

theorem Joined.idle (joined : Joined state) (coherent : Coherent state) :
    state.frames.producer = .idle ∧ state.results.producer = .idle := by
  constructor
  · by_contra busy
    have offering := coherent.offering.mpr busy
    rw [joined.producer] at offering
    exact offering
  · by_contra busy
    have delivering := coherent.delivering.mpr busy
    rw [joined.consumer] at delivering
    exact delivering

/-- As long as the threads' stores to a `head` keep apart, every frame is accounted for. Frames go
in capture order through one bounded list and results through another; between the two, every third
frame the consumer is done with has an outcome. So the captures that are not empty are those
dequeued, those dropped for a full queue, those waiting and the one under way, and the results are
those displayed, dropped, waiting and under way; after the joins nothing is under way. -/
theorem captures_accounted (created : TensorBuffer.new config = .ok buffer) (frameSlots : 2 ≤ frameSize)
    (resultSlots : 2 ≤ resultSize)
    (reachable : (program lib config buffer frameSize resultSize).Reachable
      (onQueues lib config Interleaving.apart) state) (fewer : state.dequeued.length < 2^64) :
    ∃ handled outcomes frameLog resultLog,
      state.dequeued = handled ++ fetched state.consumer ∧
      List.Forall₂ (Outcome lib config) (sample 3 handled) outcomes ∧
      outcomes.length = handled.length / 3 ∧
      Interleaving.begun state.frames = state.captured.filter (fun frame => !frame.empty) ∧
      Interleaving.Carried (frameSize - 1) state.frames frameLog state.dequeued ∧
      Interleaving.begun state.results = outcomes.reduceOption ∧
      Interleaving.Carried (resultSize - 1) state.results resultLog state.displayed ∧
      (Interleaving.begun state.frames).length + Interleaving.pendingDrop state.frames.producer =
        state.dequeued.length + state.frames.fulls + state.frames.queue.size +
          Interleaving.calling state.frames.producer ∧
      (Interleaving.begun state.results).length + Interleaving.pendingDrop state.results.producer =
        state.displayed.length + state.results.fulls + state.results.queue.size +
          Interleaving.calling state.results.producer ∧
      (Joined state → handled = state.dequeued ∧
        (Interleaving.begun state.frames).length =
          state.dequeued.length + state.frames.fulls + state.frames.queue.size ∧
        (Interleaving.begun state.results).length =
          state.displayed.length + state.results.fulls + state.results.queue.size) := by
  have recorded := recorded_reachable reachable
  obtain ⟨handled,outcomes,work⟩ := handled_reachable created reachable fewer
  obtain ⟨frameLog,frames,carriedFrames,answeredFrames⟩ :=
    Interleaving.carried_reachable frameSlots (frames_reachable reachable)
  obtain ⟨resultLog,pairs,carriedPairs,answeredPairs⟩ :=
    Interleaving.carried_reachable resultSlots (results_reachable reachable)
  rw [← recorded.dequeued_items answeredFrames] at carriedFrames
  rw [← recorded.displayed_items answeredPairs] at carriedPairs
  have balanceFrames := carriedFrames.balance
  have balancePairs := carriedPairs.balance
  refine ⟨handled,outcomes,frameLog,resultLog,work.dequeued,work.known,?_,recorded.captured,
    carriedFrames,work.begun,carriedPairs,balanceFrames,balancePairs,fun joined => ?_⟩
  · rw [← work.known.length_eq,sample_length]
  · obtain ⟨frameIdle,resultIdle⟩ := joined.idle (coherent_reachable reachable)
    rw [frameIdle] at balanceFrames
    rw [resultIdle] at balancePairs
    refine ⟨?_,balanceFrames,balancePairs⟩
    rw [work.dequeued,joined.consumer]
    exact (List.append_nil _).symm

/-- The oldest of four frames is dropped, the last is shown, and a signal ends it all. -/
theorem oldestDropped_accounted :
    let config : ModelConfig := ⟨1,1,1,1 / 4,9 / 20⟩
    let buffer : TensorBuffer := ⟨[0,0,0],[1,3,1,1],3,1,rfl⟩
    let frame : Nat → Mat := fun place => ⟨1,1,3,[place,0,0]⟩
    let iteration : Iteration := ⟨0,0,0,0,7,.none⟩
    ∃ state, (program onePerson config buffer 2 2).run
      (onQueues onePerson config Interleaving.apart) (.new buffer 2 2)
        (oldestDropped frame iteration ++ [.signal,.producer (frame 4),.consumer iteration,
          .display 'a']) = some state ∧
      state.dequeued.length = 3 ∧ state.frames.fulls = 1 ∧ state.frames.queue.size = 0 ∧
      (Interleaving.begun state.frames).length = 3 + 1 + 0 := by
  intro config buffer frame iteration
  have ended : ((program onePerson config buffer 2 2).run
    (onQueues onePerson config Interleaving.apart) (.new buffer 2 2)
      (oldestDropped frame iteration ++ [.signal,.producer (frame 4),.consumer iteration,
        .display 'a'])).map
        (fun state => (state.dequeued.length,state.frames.fulls,state.frames.queue.size,
          state.producer,state.consumer,state.display)) =
      some (3,1,0,.stopped,.stopped,.stopped) := by decide +kernel
  obtain ⟨state,ran,same⟩ := Option.map_eq_some_iff.mp ended
  simp only [Prod.mk.injEq] at same
  obtain ⟨dequeued,fulls,size,producer,consumer,display⟩ := same
  have created : TensorBuffer.new config = .ok buffer := by decide +kernel
  obtain ⟨_,_,_,_,_,_,_,_,_,_,_,_,_,balanced⟩ := captures_accounted created (by decide) (by decide)
    (Machine.reachable_of_run .init ran) (by rw [dequeued]; decide)
  obtain ⟨_,frames,_⟩ := balanced ⟨producer,consumer,display⟩
  rw [dequeued,fulls,size] at frames
  exact ⟨state,ran,dequeued,fulls,size,frames⟩

end Accesses
end YoloEngine
