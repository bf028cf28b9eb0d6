import YoloEngine.Pipeline.Orders
import YoloEngine.Pipeline.Genuine
import YoloEngine.Pipeline.Realization
import YoloEngine.Queue.Present

/-! The memory orders add nothing to the camera program. As long as no `enqueue` finds its queue
full, what the threads reach with loads that may be stale, the program whose calls are single steps
reaches too, and with it the program whose accesses all see the newest store. -/
namespace YoloEngine.Orders
open Foundation MemoryOrders LockFreeQueue Concurrent
open Pipeline (takenFrame takenResults nonEmpty)

section Calls
variable {α : Type} {size given published choice : Nat} {before after : MemoryOrders.State α}

theorem finished_iff (queue : MemoryOrders.State α) :
    finished queue = true ↔ queue.producer = .idle := by
  cases pc : queue.producer <;> simp [finished,pc]

theorem called_enqueue {how : Overload} {value : α}
    (called : MemoryOrders.next before (.callEnqueue how value) = some after) :
    after = { before with producer := .loadTail how value, begun := before.begun ++ [value] } := by
  simp only [MemoryOrders.next] at called
  split at called
  next => exact (Option.some.inj called).symm
  next => contradiction

theorem called_dequeue (called : MemoryOrders.next before .callDequeue = some after) :
    after = { before with consumer := .loadHead } := by
  simp only [MemoryOrders.next] at called
  split at called
  next => exact (Option.some.inj called).symm
  next => contradiction

theorem accessed_producer (taken : MemoryOrders.next before (.producer choice) = some after) :
    after.begun = before.begun ∧ after.returned = before.returned := by
  simp only [MemoryOrders.next] at taken
  unfold MemoryOrders.producerStep at taken
  cases pc : before.producer with
  | idle =>
    rw [pc] at taken
    contradiction
  | loadTail _ _ | loadHead _ _ _ _ | reloadHead _ _ _ _ | write _ _ _ _ =>
    rw [pc] at taken
    obtain ⟨_,_,rest⟩ := Option.bind_eq_some_iff.mp taken
    cases Option.some.inj rest
    exact ⟨rfl,rfl⟩
  | storeHead _ _ _ _ _ | storeTail _ _ =>
    rw [pc] at taken
    obtain ⟨_,stored⟩ := Option.ite_none_right_eq_some.mp taken
    cases Option.some.inj stored
    exact ⟨rfl,rfl⟩

/-- A dequeue answers with its last access, and with the cell it has read if it has read one. -/
theorem accessed_consumer (taken : MemoryOrders.next before (.consumer choice) = some after) :
    after.begun = before.begun ∧
      after.returned = before.returned ++ (answered before after).join.toList := by
  simp only [MemoryOrders.next] at taken
  unfold MemoryOrders.consumerStep at taken
  split at taken
  next => contradiction
  next pc =>
    obtain ⟨message,_,rest⟩ := Option.bind_eq_some_iff.mp taken
    cases Option.some.inj rest
    exact ⟨rfl,by simp [answered,pc]⟩
  next currentHead pc =>
    obtain ⟨message,_,rest⟩ := Option.bind_eq_some_iff.mp taken
    cases Option.some.inj rest
    by_cases empty : currentHead = message.value <;> simp [answered,pc,empty]
  next pc =>
    obtain ⟨slot,_,rest⟩ := Option.bind_eq_some_iff.mp taken
    cases Option.some.inj rest
    exact ⟨rfl,by simp [answered,pc]⟩
  next pc =>
    split at taken
    next =>
      cases Option.some.inj taken
      exact ⟨rfl,by simp [answered,pc]⟩
    next => contradiction

theorem answered_cases (flow : Flow size given published before)
    (taken : MemoryOrders.next before (.consumer choice) = some after) :
    (answered before after = none ∧ (seeking after = true → seeking before = true) ∧
      present after = present before) ∨
      (answered before after = some none ∧ seeking before = true ∧ present after = present before) ∨
      ∃ item, answered before after = some (some (.item item)) ∧ seeking before = false ∧
        present before = item :: present after := by
  obtain ⟨going,seeks,unread,left⟩ | ⟨idle,seeks,left⟩ | ⟨head,item,pc,left⟩ := flow.dequeues taken
  · refine Or.inl ⟨?_,seeks,left⟩
    cases pc : before.consumer with
    | storeHead head cell => exact absurd pc (unread head cell)
    | _ =>
      cases later : after.consumer with
      | idle => exact absurd later going
      | _ => simp [answered,pc,later]
  · refine Or.inr (Or.inl ⟨?_,seeks,left⟩)
    cases pc : before.consumer <;> simp [seeking,pc] at seeks <;> simp [answered,pc,idle]
  · exact Or.inr (Or.inr ⟨item,by simp [answered,pc],by simp [seeking,pc],left⟩)

theorem records : Records queueCalls MemoryOrders.State.begun MemoryOrders.State.returned where
  new _ := ⟨rfl,rfl⟩
  callEnqueue called := by
    rw [called_enqueue called]
    exact ⟨rfl,rfl⟩
  producer taken := accessed_producer taken
  callDequeue called := by
    rw [called_dequeue called]
    exact ⟨rfl,rfl⟩
  consumer taken := accessed_consumer taken

theorem serves (large : 2 ≤ size) : Serves queueCalls MemoryOrders.State.begun
    (fun queue => (present queue).map .item) seeking findsRoom size where
  positive := by omega
  new := rfl
  callEnqueue called := by
    rw [called_enqueue called]
    exact ⟨rfl,rfl⟩
  producer reachable allowed taken := by
    obtain ⟨_,_,flow⟩ := flow_reachable large reachable
    obtain ⟨consumer,⟨going,same⟩ | ⟨idle,room,value,last,grown⟩⟩ := flow.enqueues allowed taken
    · refine ⟨by rw [seeking,seeking,consumer],Or.inl ⟨?_,by rw [same]⟩⟩
      exact Bool.eq_false_iff.mpr fun done => going ((finished_iff _).mp done)
    · refine ⟨by rw [seeking,seeking,consumer],Or.inr ⟨(finished_iff _).mpr idle,?_,value,last,?_⟩⟩
      · rwa [List.length_map]
      · rw [grown,List.map_append]
        rfl
  callDequeue called := by
    rw [called_dequeue called]
    exact ⟨rfl,rfl⟩
  consumer reachable taken := by
    obtain ⟨_,_,flow⟩ := flow_reachable large reachable
    obtain ⟨pending,seeks,same⟩ | ⟨drained,seeks,same⟩ | ⟨item,found,seeks,first⟩ :=
      answered_cases flow taken
    · exact Or.inl ⟨pending,seeks,by rw [same]⟩
    · exact Or.inr (Or.inl ⟨drained,seeks,by rw [same]⟩)
    · exact Or.inr (Or.inr ⟨.item item,found,seeks,by rw [first]; rfl⟩)

end Calls

private theorem flow_frames {lib : External} {config : ModelConfig} {buffer : TensorBuffer}
    {frameSize resultSize : Nat} {state : State} (frameSlots : 2 ≤ frameSize)
    (reachable : (program lib config buffer frameSize resultSize).Reachable
      (findRoom lib config) state) :
    ∃ taken given, Flow frameSize taken given state.frames :=
    flow_reachable frameSlots (frames_reachable reachable)

private theorem flow_results {lib : External} {config : ModelConfig} {buffer : TensorBuffer}
    {frameSize resultSize : Nat} {state : State} (resultSlots : 2 ≤ resultSize)
    (reachable : (program lib config buffer frameSize resultSize).Reachable
      (findRoom lib config) state) :
    ∃ taken given, Flow resultSize taken given state.results :=
    flow_reachable resultSlots (results_reachable reachable)

/-- The program's state with atomic queues in place of the two. -/
def atomic (early : Early) (state : State) (frameQueue : LockFreeQueue Mat)
    (resultQueue : LockFreeQueue FrameWithResults) : Pipeline.State :=
  Concurrent.atomic seeking early state frameQueue resultQueue

section Runs
variable {lib : External} {config : ModelConfig} {buffer : TensorBuffer}
  {frameSize resultSize : Nat} {state : State}

private theorem resolved_reachable (frameSlots : 2 ≤ frameSize) (resultSlots : 2 ≤ resultSize)
    (reachable : (program lib config buffer frameSize resultSize).Reachable (findRoom lib config) state)
    (early : Early) :
    ∃ frameQueue resultQueue,
      (Pipeline.pipeline lib config buffer frameSize resultSize).Reachable Machine.always
        (atomic early state frameQueue resultQueue) ∧
      frameQueue.contents = (present state.frames).map .item ∧
      resultQueue.contents = (present state.results).map .item := by
  obtain ⟨frameQueue,resultQueue,reached,frames,results⟩ := atomic_reachable records (serves frameSlots)
    (serves resultSlots) (fun _ _ allowed => allowed) reachable early
  exact ⟨frameQueue,resultQueue,reached,frames.contents,results.contents⟩

/-- As long as no `enqueue` finds its queue full by the `head` it loads, whatever stores the loads
read: no accesses to a slot race, and the program whose accesses all see the newest store reaches a
state with the same items in its queues that differs from this one inside the queues alone, and in a
thread that is still seeking if it is taken not to have begun its dequeue. -/
theorem orders_refine (frameSlots : 2 ≤ frameSize) (resultSlots : 2 ≤ resultSize)
    (reachable : (program lib config buffer frameSize resultSize).Reachable (findRoom lib config) state)
    (early : Early) :
    state.frames.raced = false ∧ state.results.raced = false ∧
    ∃ sequential frameQueue resultQueue,
      (Accesses.program lib config buffer frameSize resultSize).Reachable
        (Accesses.onQueues lib config Interleaving.apart) sequential ∧
      Accesses.atomic sequential frameQueue resultQueue = atomic early state frameQueue resultQueue ∧
      frameQueue = Interleaving.untag sequential.frames.queue ∧
      resultQueue = Interleaving.untag sequential.results.queue ∧
      frameQueue.contents = (present state.frames).map .item ∧
      resultQueue.contents = (present state.results).map .item := by
  obtain ⟨_,_,framesFlow⟩ := flow_frames frameSlots reachable
  obtain ⟨_,_,resultsFlow⟩ := flow_results resultSlots reachable
  obtain ⟨frameQueue,resultQueue,reached,frames,results⟩ :=
    resolved_reachable frameSlots resultSlots reachable early
  obtain ⟨sequential,there,realizes⟩ := Accesses.realized_reachable reached
  have same := realizes.same
  have frameQueues : frameQueue = Interleaving.untag sequential.frames.queue :=
    congrArg Pipeline.State.frameQueue same
  have resultQueues : resultQueue = Interleaving.untag sequential.results.queue :=
    congrArg Pipeline.State.resultQueue same
  refine ⟨framesFlow.quiet,resultsFlow.quiet,sequential,frameQueue,resultQueue,there,?_,frameQueues,
    resultQueues,frames,results⟩
  rw [same,← frameQueues,← resultQueues]

/-- The consumer overlooks a frame that is there, and begins to dequeue again. -/
def overlooked (frame : Mat) (iteration : Iteration) : List Action :=
  [.producer frame 0,.producer frame 0,.producer frame 0,.producer frame 0,.producer frame 0,
    .producer frame 1,
    .consumer iteration 0,.consumer iteration 0,.consumer iteration 0,.consumer iteration 0]

theorem overlooked_refines :
    let config : ModelConfig := ⟨1,1,1,1 / 4,9 / 20⟩
    let buffer : TensorBuffer := ⟨[0,0,0],[1,3,1,1],3,1,rfl⟩
    let frame : Mat := ⟨1,1,3,[0,0,0]⟩
    let lib : External := ⟨fun frame _ _ _ _ _ => frame.data,fun _ _ => [],fun _ _ _ _ => none⟩
    ∃ state sequential, (program lib config buffer 2 2).run (findRoom lib config) (.new buffer 2 2)
        (overlooked frame ⟨0,0,0,0,7,.none⟩) = some state ∧
      (Accesses.program lib config buffer 2 2).Reachable
        (Accesses.onQueues lib config Interleaving.apart) sequential ∧
      state.consumer = .dequeuing ∧ sequential.consumer = .loop ∧
      (Interleaving.untag sequential.frames.queue).contents = [.item frame] := by
  intro config buffer frame lib
  obtain ⟨state,ran,there,consumer,seeks⟩ : ∃ state,
      (program lib config buffer 2 2).run (findRoom lib config) (.new buffer 2 2)
        (overlooked frame ⟨0,0,0,0,7,.none⟩) = some state ∧ present state.frames = [frame] ∧
      state.consumer = .dequeuing ∧ seeking state.frames = true := ⟨_,rfl,rfl,rfl,rfl⟩
  obtain ⟨_,_,sequential,_,_,reached,same,rfl,rfl,contents,_⟩ :=
    orders_refine (by decide) (by decide) (Machine.reachable_of_run .init ran) ⟨true,false⟩
  have waits := congrArg Pipeline.State.consumer same
  refine ⟨state,sequential,ran,reached,consumer,waits.trans ?_,contents.trans (by rw [there]; rfl)⟩
  simp [atomic,Concurrent.atomic,consumerAs,consumer,seeks]

/-- As long as no `enqueue` finds its queue full by the `head` it loads, whatever stores the loads
read: every capture that is not empty has been dequeued, lies in the frame queue or is the one being
enqueued, in order, and so with the results up to the display; and the pairs displayed are numbered
in order, number `k` with the `3k`-th such capture and what is computed from it. -/
theorem orders_deliver (created : TensorBuffer.new config = .ok buffer) (frameSlots : 2 ≤ frameSize)
    (resultSlots : 2 ≤ resultSize)
    (reachable : (program lib config buffer frameSize resultSize).Reachable (findRoom lib config) state)
    (fewer : state.dequeued.length < 2^64) :
    state.captured.filter (fun frame => !frame.empty) =
      state.dequeued ++ present state.frames ++ underway state.frames ∧
    state.results.begun = state.displayed ++ present state.results ++ underway state.results ∧
    (underway state.frames).length ≤ 1 ∧ (underway state.results).length ≤ 1 ∧
    (state.displayed.map (fun pair => pair.results.frameId)).Pairwise (· < ·) ∧
    ∀ pair ∈ state.displayed,
      1 ≤ pair.results.frameId ∧
      (state.captured.filter (fun frame => !frame.empty))[3 * pair.results.frameId - 1]? =
        some pair.frame ∧
      ∃ iteration, Consumer.fresh lib config pair.results.frameId pair.frame iteration =
        .ok (some pair) := by
  have recorded := recorded_reachable records reachable
  obtain ⟨framesTaken,_,framesFlow⟩ := flow_frames frameSlots reachable
  obtain ⟨resultsTaken,_,resultsFlow⟩ := flow_results resultSlots reachable
  obtain ⟨_,_,reached,_⟩ := resolved_reachable frameSlots resultSlots reachable ⟨false,false⟩
  obtain ⟨_,handled,ready,ordered⟩ :=
    Pipeline.ordered_reachable created frameSlots resultSlots reached fewer
  have dequeued : state.dequeued = state.frames.written.take framesTaken := by
    rw [recorded.dequeued,framesFlow.returned,List.map_map]
    exact List.map_id _
  have displayed : state.displayed = state.results.written.take resultsTaken := by
    rw [recorded.displayed,resultsFlow.returned,List.map_map]
    exact List.map_id _
  have whole : nonEmpty state.captured =
      state.dequeued ++ present state.frames ++ underway state.frames := by
    rw [dequeued,← framesFlow.begun_eq]
    exact recorded.captured.symm
  have shown : state.displayed.Sublist
      (state.displayed ++ ready.items ++ Pipeline.computed state.consumer) :=
    (List.sublist_append_left _ _).trans (List.sublist_append_left _ _)
  have computed : Pipeline.computed (consumerAs false (seeking state.frames) state.consumer) =
      Pipeline.computed state.consumer := by
    cases state.consumer <;> rfl
  have delivered : Pipeline.Delivered lib config handled state.displayed :=
    ordered.delivered.sublist (by rw [← computed] at shown; exact shown)
  refine ⟨whole,by rw [displayed]; exact resultsFlow.begun_eq,framesFlow.underway_le,
    resultsFlow.underway_le,?_,fun pair member => ?_⟩
  · have numbers := delivered.thirds.map Prod.fst
    rw [List.map_map] at numbers
    exact (sample_increasing (by decide) handled).sublist numbers
  · have third : Pipeline.number pair ∈ sample 3 handled :=
      delivered.thirds.subset (List.mem_map_of_mem member)
    obtain ⟨first,found⟩ := (mem_sample (by decide)).mp third
    refine ⟨first,?_,delivered.results pair member⟩
    obtain ⟨rest,front⟩ : handled <+: nonEmpty state.captured := by
      rw [whole,show state.dequeued = _ from ordered.dequeued,List.append_assoc,List.append_assoc]
      exact List.prefix_append _ _
    obtain ⟨inside,_⟩ := List.getElem?_eq_some_iff.mp found
    rw [show state.captured.filter _ = handled ++ rest from front.symm,List.getElem?_append_left inside]
    exact found

/-- Three frames are brought through the frame queue; each is overlooked once before it is dequeued,
and the third is shown. -/
def overlookedEach (frame : Mat) (iteration : Iteration) : List Action :=
  let enqueues (k : Nat) : List Action := [0,0,k,k,0,k + 1].map (.producer frame)
  let dequeues (k : Nat) : List Action := [0,k,k,0,k,k + 1,0,k + 1,0].map (.consumer iteration)
  enqueues 0 ++ dequeues 0 ++ enqueues 1 ++ dequeues 1 ++ enqueues 2 ++ dequeues 2 ++
    [0,0,0,1].map (.consumer iteration) ++ [0,0,0,0,0,1,0,1].map (.display 'a')

theorem overlookedEach_delivered :
    let config : ModelConfig := ⟨1,1,1,1 / 4,9 / 20⟩
    let buffer : TensorBuffer := ⟨[0,0,0],[1,3,1,1],3,1,rfl⟩
    let frame : Mat := ⟨1,1,3,[0,0,0]⟩
    ∃ state, (program Accesses.onePerson config buffer 2 2).run (findRoom Accesses.onePerson config)
      (.new buffer 2 2)
        (overlookedEach frame ⟨0,0,0,0,7,.none⟩) = some state ∧
      state.dequeued = [frame,frame,frame] ∧ state.displayed.length = 1 ∧
      ∀ pair ∈ state.displayed,
        (state.captured.filter (fun frame => !frame.empty))[3 * pair.results.frameId - 1]? =
          some pair.frame := by
  intro config buffer frame
  have shown : ((program Accesses.onePerson config buffer 2 2).run (findRoom Accesses.onePerson config)
      (.new buffer 2 2) (overlookedEach frame ⟨0,0,0,0,7,.none⟩)).map
        (fun state => (state.dequeued,state.displayed.length)) = some ([frame,frame,frame],1) := by
          decide +kernel
  obtain ⟨state,ran,same⟩ := Option.map_eq_some_iff.mp shown
  obtain ⟨dequeued,displayed⟩ := Prod.mk.inj same
  have created : TensorBuffer.new config = .ok buffer := by decide +kernel
  obtain ⟨_,_,_,_,_,pairs⟩ := orders_deliver created (by decide) (by decide)
    (Machine.reachable_of_run .init ran)
    (by rw [dequeued]; decide)
  exact ⟨state,ran,dequeued,displayed,fun pair member => (pairs pair member).right.left⟩

end Runs
end YoloEngine.Orders
