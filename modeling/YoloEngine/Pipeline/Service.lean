import YoloEngine.Pipeline.Accounts
import YoloEngine.Pipeline.Atomicity
import YoloEngine.Pipeline.Shutdown

/-! No item waits in a queue for long. While the threads' stores to a `head` keep apart, a dequeue
finds nothing only when nothing is there; so every round of the reading thread takes the oldest
item off, or the writing thread has dropped it, and what lay in the queue has left it after a
bounded number of the reader's steps, whatever the other threads do meanwhile. -/
namespace YoloEngine
open Foundation

namespace Interleaving
open LockFreeQueue Accesses
variable {α : Type} {size position : Nat} {before after : State α}

/-- How many items have left the queue, to a dequeue or dropped. -/
def departed (state : State α) : Nat := state.enqueued - state.queue.size

private theorem Apart.departed_eq (separate : Apart size position before) (positive : 0 < size) :
    departed before = position := by
  have count := separate.window.size_eq positive
  unfold departed
  omega

private theorem separate_reachable (large : 2 ≤ size) (reachable : (spsc size).Reachable apart before) :
    ∃ position, Apart size position before := by
  obtain ⟨log,logged⟩ := reachable.logged emitted
  obtain ⟨position,separate,_⟩ := apart_reachable large logged
  exact ⟨position,separate⟩

private theorem next_enqueued {action : Action α} (taken : next before action = some after) :
    before.enqueued ≤ after.enqueued := by
  obtain ⟨_,_,_,_,rfl⟩ | ⟨_,rfl⟩ | ⟨_,_,rfl⟩ | ⟨_,rfl⟩ := next_cases taken
  · exact Nat.le_refl _
  · exact (producerStep_keeps before).right.left
  · exact Nat.le_refl _
  · cases pc : before.consumer <;> simp [consumerStep,pc]

private theorem moved_departed (large : 2 ≤ size) (reachable : (spsc size).Reachable apart before)
    {act : Option (Action α)} (moved : (spsc size).Moves before after act)
    (allowed : ∀ inner ∈ act, apart before inner) :
    departed before ≤ departed after ∧ before.enqueued ≤ after.enqueued := by
  cases act with
  | none => exact moved ▸ ⟨Nat.le_refl _,Nat.le_refl _⟩
  | some inner =>
    obtain ⟨position,separate⟩ := separate_reachable large reachable
    have moves : next before inner = some after := moved
    have later := separate.step large (allowed inner rfl) moves
    refine ⟨?_,next_enqueued moves⟩
    rw [separate.departed_eq (by omega),later.departed_eq (by omega)]
    exact Nat.le_add_right _ _

private theorem size_lt (large : 2 ≤ size) (reachable : (spsc size).Reachable apart before) :
    before.queue.size < size := by
  obtain ⟨position,separate⟩ := separate_reachable large reachable
  have count := separate.window.size_eq (by omega)
  have tailLt := separate.window.tailLt
  omega

/-- A dequeue finds nothing only when everything has left, and what it answers with has just left. -/
private theorem answered_departed (large : 2 ≤ size) (reachable : (spsc size).Reachable apart before)
    (allowed : apart before .consumer) (taken : next before .consumer = some after) :
    (answered before after = some none → before.enqueued ≤ departed before) ∧
      ∀ cell, answered before after = some (some cell) → departed after = departed before + 1 := by
  obtain ⟨position,separate⟩ := separate_reachable large reachable
  have later := separate.step large allowed taken
  have emits := separate.emits large allowed taken
  have lengthBefore : (published before.written position before.enqueued).length = _ :=
    published_length (separate.window.producerAt.written_bounds separate.window.tailLt).left
  have lengthAfter : (published after.written (position + (storedHead before .consumer).isSome.toNat)
      after.enqueued).length = _ := published_length
        (later.window.producerAt.written_bounds later.window.tailLt).left
  have grown := next_enqueued taken
  have headLe := later.window.headLe
  rw [separate.departed_eq (by omega),later.departed_eq (by omega)]
  rw [emitted_answered taken] at emits
  constructor
  · intro drained
    rw [drained] at emits
    rw [emits.empty_inv.left,List.length_nil] at lengthBefore
    omega
  · intro cell found
    rw [found] at emits
    rw [emits.pop_inv,List.length_cons] at lengthBefore
    have one := Bool.toNat_le (storedHead before .consumer).isSome
    omega

/-- The first values enqueued have left the queue: each was received, or it was dropped. -/
def Served (bound count : Nat) (state : State α) (received : List α) : Prop :=
  ∃ log, Carried bound state log received ∧
    ((begun state).take count).map .item = (log.filterMap LossyFifo.removed).take count ∧
    count ≤ (log.filterMap LossyFifo.removed).length

private theorem served_of_departed (large : 2 ≤ size)
    (reachable : (spsc size).Reachable apart after) {count : Nat}
    (enough : count ≤ departed after) :
    ∃ received, Served (size - 1) count after received ∧ answers after = received.map .item := by
  obtain ⟨log,received,carried,answered⟩ := carried_reachable large reachable
  have conserved := congrArg List.length carried.offered
  have present := carried.size
  have removed : count ≤ (log.filterMap LossyFifo.removed).length := by
    have underway : (underway after).length = (begun after).length - after.enqueued := List.length_drop
    have begins : after.written.length ≤ (begun after).length := by simp [begun]
    obtain ⟨position,separate⟩ := separate_reachable large reachable
    have written := (separate.window.producerAt.written_bounds separate.window.tailLt).left
    simp only [List.length_map,List.length_append] at conserved
    unfold departed at enough
    omega
  refine ⟨received,⟨log,carried,?_,removed⟩,answered⟩
  rw [List.map_take,carried.offered,List.append_assoc,List.take_append_of_le_length removed]

end Interleaving

namespace Accesses
open Concurrent
open Pipeline (ProducerPc ConsumerPc DisplayPc Action)
variable {lib : External} {config : ModelConfig} {buffer : TensorBuffer}
  {frameSize resultSize target : Nat} {state after : State} {action : Action}

private theorem asked_accesses {α : Type} {before after : Interleaving.State α}
    (called : Interleaving.next before .callDequeue = some after) : after.consumer.accesses = 4 := by
  obtain ⟨_,_,impossible,_⟩ | ⟨impossible,_⟩ | ⟨_,_,rfl⟩ | ⟨impossible,_⟩ :=
    Interleaving.next_cases called
  · cases impossible
  · cases impossible
  · rfl
  · cases impossible

/-- The steps a thread still takes in its round, counted from the middle of one round to the middle
of the next. -/
def consumerRound (state : State) : Nat :=
  match state.consumer with
  | .loop => 5
  | .dequeuing => state.frames.consumer.accesses
  | .fetched _ => 12
  | .offering _ _ => state.results.producer.accesses + 5
  | .stopped => 0

def displayRound (state : State) : Nat :=
  match state.display with
  | .loop => 5
  | .dequeuing => state.results.consumer.accesses
  | .showing => 6
  | .stopped => 0

/-- A bound on the steps of the consumer until the first `target` frames have left the frame queue. -/
def consumerWait (target : Nat) (state : State) : Nat :=
  12 * (target - Interleaving.departed state.frames) + consumerRound state

def displayWait (target : Nat) (state : State) : Nat :=
  6 * (target - Interleaving.departed state.results) + displayRound state

private theorem consumerWait_falls (frameSlots : 2 ≤ frameSize)
    (reachable : (program lib config buffer frameSize resultSize).Reachable
      (onQueues lib config Interleaving.apart) state)
    (enqueued : target ≤ state.frames.enqueued)
    (allowed : onQueues lib config Interleaving.apart state action)
    (taken : next lib config state action = some after) :
    target ≤ Interleaving.departed after.frames ∨
      consumerWait target after + (if ofConsumer action then 1 else 0) ≤ consumerWait target state := by
  obtain ⟨grown,_⟩ := Interleaving.moved_departed frameSlots (frames_reachable reachable)
    (frames_move taken) allowed.left
  have fewer : 12 * (target - Interleaving.departed after.frames) ≤
    12 * (target - Interleaving.departed state.frames) := by
    omega
  rw [or_iff_not_imp_left,not_le]
  intro waiting
  unfold consumerWait
  cases action with
  | signal =>
    cases Option.some.inj taken
    exact Nat.le_refl _
  | producer capture =>
    obtain ⟨consumer,inside,_,results⟩ := (producerStep_move taken).frame
    rw [consumerRound,consumer,inside,results]
    exact Nat.add_le_add_right fewer _
  | display key =>
    obtain ⟨_,consumer,frames,inside⟩ := (displayStep_move taken).frame
    rw [consumerRound,consumer,frames,inside]
    exact Nat.le_refl _
  | consumer iteration =>
    cases consumerStep_move taken with
    | stop pc off => simp [consumerRound,ofConsumer,pc]
    | ask pc on called =>
      have entry := asked_accesses called
      simp only [consumerRound,ofConsumer,pc,if_true] at fewer ⊢
      omega
    | access pc accessed pending =>
      have lower := consumer_accesses accessed
      simp only [consumerRound,ofConsumer,pc,if_true] at fewer ⊢
      omega
    | nullopt pc accessed drained =>
      have nothing := (Interleaving.answered_departed frameSlots (frames_reachable reachable)
        (allowed.left .consumer (by simp [frameAct,pc])) accessed).left drained
      dsimp only at grown waiting
      omega
    | fetch pc accessed found =>
      have lower := consumer_accesses accessed
      have one := (Interleaving.answered_departed frameSlots (frames_reachable reachable)
        (allowed.left .consumer (by simp [frameAct,pc])) accessed).right _ found
      simp only [consumerRound,ofConsumer,pc,if_true] at fewer waiting ⊢
      omega
    | pass pc processed => simp [consumerRound,ofConsumer,pc]
    | offer pc processed called => simp [consumerRound,ofConsumer,pc,called_accesses called]
    | deliver pc accessed pending =>
      have lower := producer_accesses accessed
      simp only [consumerRound,ofConsumer,pc,if_true]
      omega
    | record pc accessed done =>
      have lower := producer_accesses accessed
      simp only [consumerRound,ofConsumer,pc,if_true]
      omega

private theorem displayWait_falls (resultSlots : 2 ≤ resultSize)
    (reachable : (program lib config buffer frameSize resultSize).Reachable
      (onQueues lib config Interleaving.apart) state)
    (enqueued : target ≤ state.results.enqueued)
    (allowed : onQueues lib config Interleaving.apart state action)
    (taken : next lib config state action = some after) :
    target ≤ Interleaving.departed after.results ∨
      displayWait target after + (if ofDisplay action then 1 else 0) ≤ displayWait target state := by
  obtain ⟨grown,_⟩ := Interleaving.moved_departed resultSlots (results_reachable reachable)
    (results_move taken)
    allowed.right
  have fewer : 6 * (target - Interleaving.departed after.results) ≤
    6 * (target - Interleaving.departed state.results) := by
    omega
  rw [or_iff_not_imp_left,not_le]
  intro waiting
  unfold displayWait
  cases action with
  | signal =>
    cases Option.some.inj taken
    exact Nat.le_refl _
  | producer capture =>
    obtain ⟨_,_,display,results⟩ := (producerStep_move taken).frame
    rw [displayRound,display,results]
    exact Nat.le_refl _
  | consumer iteration =>
    obtain ⟨_,_,display,inside⟩ := (consumerStep_move taken).frame
    rw [displayRound,display,inside]
    exact Nat.add_le_add_right fewer _
  | display key =>
    cases displayStep_move taken with
    | stop pc off => simp [displayRound,ofDisplay,pc]
    | ask pc on called =>
      have entry := asked_accesses called
      simp only [displayRound,ofDisplay,pc,if_true] at fewer ⊢
      omega
    | access pc accessed pending =>
      have lower := consumer_accesses accessed
      simp only [displayRound,ofDisplay,pc,if_true] at fewer ⊢
      omega
    | nullopt pc accessed drained =>
      have nothing := (Interleaving.answered_departed resultSlots (results_reachable reachable)
        (allowed.right .consumer (by simp [resultAct,pc])) accessed).left drained
      dsimp only at grown waiting
      omega
    | fetch pc accessed found =>
      have lower := consumer_accesses accessed
      have one := (Interleaving.answered_departed resultSlots (results_reachable reachable)
        (allowed.right .consumer (by simp [resultAct,pc])) accessed).right _ found
      simp only [displayRound,ofDisplay,pc,if_true] at fewer waiting ⊢
      omega
    | quit pc pressed | carryOn pc _ => simp [displayRound,ofDisplay,pc]

private theorem consumerRound_le (state : State) : consumerRound state ≤ 12 := by
  have fetching := dequeue_accesses_le state.frames.consumer
  have delivering := enqueue_accesses_le state.results.producer
  cases pc : state.consumer <;> simp only [consumerRound,pc] <;> omega

private theorem displayRound_le (state : State) : displayRound state ≤ 6 := by
  have inside := dequeue_accesses_le state.results.consumer
  cases pc : state.display <;> simp only [displayRound,pc] <;> omega

section Waits
variable {first last : State} {actions : List Action}

private theorem departed_remaining {α : Type} (queue : Interleaving.State α) :
    queue.enqueued - Interleaving.departed queue ≤ queue.queue.size := by
  unfold Interleaving.departed
  omega

/-- The rule for both queues: what lay in the queue leaves it, or the reader's steps stay within its
wait. -/
private theorem left_or_waiting {α : Type} (queue : State → Interleaving.State α)
    (wait : State → Nat) (own : Action → Bool)
    (grows : ∀ before action after,
      (program lib config buffer frameSize resultSize).Reachable
        (onQueues lib config Interleaving.apart) before →
      onQueues lib config Interleaving.apart before action →
      next lib config before action = some after →
      Interleaving.departed (queue before) ≤ Interleaving.departed (queue after) ∧
        (queue before).enqueued ≤ (queue after).enqueued)
    (falls : ∀ before action after,
      (program lib config buffer frameSize resultSize).Reachable
        (onQueues lib config Interleaving.apart) before →
      (queue first).enqueued ≤ (queue before).enqueued →
      onQueues lib config Interleaving.apart before action →
      next lib config before action = some after →
      (queue first).enqueued ≤ Interleaving.departed (queue after) ∨
        wait after + (if own action then 1 else 0) ≤ wait before)
    (reachable : (program lib config buffer frameSize resultSize).Reachable
      (onQueues lib config Interleaving.apart) first)
    (ran : (program lib config buffer frameSize resultSize).run
      (onQueues lib config Interleaving.apart) first actions = some last) :
    (queue first).enqueued ≤ Interleaving.departed (queue last) ∨
    actions.countP own + wait last ≤ wait first :=
  Machine.run_until
    (fun state => (program lib config buffer frameSize resultSize).Reachable
      (onQueues lib config Interleaving.apart) state ∧
      (queue first).enqueued ≤ (queue state).enqueued)
    (fun state => (queue first).enqueued ≤ Interleaving.departed (queue state)) wait own
    (fun _ _ _ known allowed taken => ⟨known.left.step allowed taken,
      known.right.trans (grows _ _ _ known.left allowed taken).right⟩)
    (fun _ _ _ known allowed taken left => left.trans (grows _ _ _ known.left allowed taken).left)
    (fun _ _ _ known allowed taken => falls _ _ _ known.left known.right allowed taken)
    ⟨reachable,Nat.le_refl _⟩ ran

private theorem frames_leave (frameSlots : 2 ≤ frameSize)
    (reachable : (program lib config buffer frameSize resultSize).Reachable
      (onQueues lib config Interleaving.apart) first)
    (ran : (program lib config buffer frameSize resultSize).run
      (onQueues lib config Interleaving.apart) first actions = some last)
    (rounds : 12 * (first.frames.queue.size + 1) < actions.countP ofConsumer) :
    first.frames.enqueued ≤ Interleaving.departed last.frames := by
  have spent := left_or_waiting State.frames (consumerWait first.frames.enqueued) ofConsumer
    (fun _ _ _ known allowed taken =>
      Interleaving.moved_departed frameSlots (frames_reachable known) (frames_move taken) allowed.left)
    (fun _ _ _ known enqueued allowed taken =>
      consumerWait_falls frameSlots known enqueued allowed taken) reachable ran
  refine spent.resolve_right fun many => ?_
  have bound := consumerRound_le first
  have waiting := departed_remaining first.frames
  unfold consumerWait at many
  omega

private theorem results_leave (resultSlots : 2 ≤ resultSize)
    (reachable : (program lib config buffer frameSize resultSize).Reachable
      (onQueues lib config Interleaving.apart) first)
    (ran : (program lib config buffer frameSize resultSize).run
      (onQueues lib config Interleaving.apart) first actions = some last)
    (rounds : 6 * (first.results.queue.size + 1) < actions.countP ofDisplay) :
    first.results.enqueued ≤ Interleaving.departed last.results := by
  have spent := left_or_waiting State.results (displayWait first.results.enqueued) ofDisplay
    (fun _ _ _ known allowed taken =>
      Interleaving.moved_departed resultSlots (results_reachable known)
        (results_move taken) allowed.right)
    (fun _ _ _ known enqueued allowed taken =>
      displayWait_falls resultSlots known enqueued allowed taken) reachable ran
  refine spent.resolve_right fun many => ?_
  have bound := displayRound_le first
  have waiting := departed_remaining first.results
  unfold displayWait at many
  omega

/-- While the threads' stores to a `head` keep apart: from any reachable state, once the consumer
has taken twelve steps for each frame that lay in the frame queue and twelve more, each of these has
been dequeued or dropped, and once the display has taken six for each result and six more, each of
these has been displayed or dropped, however the producer and the others are scheduled meanwhile. -/
theorem queues_served (frameSlots : 2 ≤ frameSize) (resultSlots : 2 ≤ resultSize)
    (reachable : (program lib config buffer frameSize resultSize).Reachable
      (onQueues lib config Interleaving.apart) first)
    (ran : (program lib config buffer frameSize resultSize).run
      (onQueues lib config Interleaving.apart) first actions = some last) :
    first.frames.queue.size < frameSize ∧ first.results.queue.size < resultSize ∧
      Interleaving.begun last.frames = last.captured.filter (fun frame => !frame.empty) ∧
      (12 * (first.frames.queue.size + 1) < actions.countP ofConsumer →
        Interleaving.Served (frameSize - 1) first.frames.enqueued last.frames last.dequeued) ∧
      (6 * (first.results.queue.size + 1) < actions.countP ofDisplay →
        Interleaving.Served (resultSize - 1) first.results.enqueued last.results last.displayed) := by
  have reached := Machine.reachable_of_run reachable ran
  have recorded := recorded_reachable reached
  refine ⟨Interleaving.size_lt frameSlots (frames_reachable reachable),
    Interleaving.size_lt resultSlots (results_reachable reachable),recorded.captured,fun rounds =>
      ?_,fun rounds => ?_⟩
  · obtain ⟨frames,served,answered⟩ :=
      Interleaving.served_of_departed frameSlots (frames_reachable reached)
      (frames_leave frameSlots reachable ran rounds)
    rw [recorded.dequeued_items answered]
    exact served
  · obtain ⟨pairs,served,answered⟩ :=
      Interleaving.served_of_departed resultSlots (results_reachable reached)
      (results_leave resultSlots reachable ran rounds)
    rw [recorded.displayed_items answered]
    exact served

/-- One frame waits; the producer is about to enqueue another. -/
def waitingFrame (frame : Mat) : List Action := List.replicate 8 (.producer frame)

def busyReader (frame : Mat) (iteration : Iteration) : List Action :=
  List.replicate 12 (.consumer iteration) ++ List.replicate 4 (.producer frame) ++ List.replicate 13
    (.consumer iteration)

theorem busyReader_served :
    let config : ModelConfig := ⟨1,1,1,1 / 4,9 / 20⟩
    let buffer : TensorBuffer := ⟨[0,0,0],[1,3,1,1],3,1,rfl⟩
    let frame : Mat := ⟨1,1,3,[0,0,0]⟩
    let iteration : Iteration := ⟨0,0,0,0,7,.none⟩
    ∃ first last, (program onePerson config buffer 2 2).run
      (onQueues onePerson config Interleaving.apart) (.new buffer 2 2)
        (waitingFrame frame) = some first ∧
      (program onePerson config buffer 2 2).run (onQueues onePerson config Interleaving.apart) first
        (busyReader frame iteration) = some last ∧
      first.frames.enqueued = 1 ∧ last.dequeued = [frame,frame] ∧
      Interleaving.Served 1 1 last.frames [frame,frame] := by
  intro config buffer frame iteration
  have shown : ((program onePerson config buffer 2 2).run
    (onQueues onePerson config Interleaving.apart) (.new buffer 2 2)
      (waitingFrame frame)).bind (fun first => ((program onePerson config buffer 2 2).run
        (onQueues onePerson config Interleaving.apart) first (busyReader frame iteration)).map
          (fun last => (first.frames.enqueued,first.frames.queue.size,last.dequeued))) =
      some (1,1,[frame,frame]) := by decide +kernel
  obtain ⟨first,ran,rest⟩ := Option.bind_eq_some_iff.mp shown
  obtain ⟨last,ended,same⟩ := Option.map_eq_some_iff.mp rest
  simp only [Prod.mk.injEq] at same
  obtain ⟨enqueued,waiting,dequeued⟩ := same
  obtain ⟨_,_,_,served,_⟩ := queues_served (by decide) (by decide)
    (Machine.reachable_of_run .init ran) ended
  rw [enqueued,waiting,dequeued] at served
  exact ⟨first,last,ran,ended,enqueued,dequeued,served (by decide)⟩

end Waits
end Accesses
end YoloEngine
