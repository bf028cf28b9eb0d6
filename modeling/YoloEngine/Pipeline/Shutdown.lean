import YoloEngine.Pipeline.Genuine
import YoloEngine.Queue.Progress

/-! The program stops. Once `is_running` is false it stays false, and each thread reaches its end
after a bounded number of its own steps, wherever in a queue it stands and whatever the others do;
until then no thread waits for another. -/
namespace YoloEngine.Accesses
open Foundation LockFreeQueue Concurrent
open Pipeline (ProducerPc ConsumerPc DisplayPc Action takenFrame takenResults maxRetries)

section Calls
variable {α : Type} {before after : Interleaving.State α}

theorem producer_accesses (taken : Interleaving.next before .producer = some after) :
    after.producer.accesses + 1 ≤ before.producer.accesses := by
  obtain ⟨_,_,impossible,_⟩ | ⟨_,rfl⟩ | ⟨impossible,_⟩ | ⟨impossible,_⟩ := Interleaving.next_cases taken
  · cases impossible
  · apply enqueueStep_accesses before.queue
    cases pc : before.producer with
    | idle =>
      rw [Interleaving.next,pc] at taken
      contradiction
    | _ => exact Nat.succ_pos _
  · cases impossible
  · cases impossible

theorem consumer_accesses (taken : Interleaving.next before .consumer = some after) :
    after.consumer.accesses + 1 ≤ before.consumer.accesses := by
  obtain ⟨_,_,impossible,_⟩ | ⟨impossible,_⟩ | ⟨impossible,_⟩ | ⟨_,rfl⟩ := Interleaving.next_cases taken
  · cases impossible
  · cases impossible
  · cases impossible
  · apply dequeueStep_accesses before.queue
    cases pc : before.consumer with
    | idle =>
      rw [Interleaving.next,pc] at taken
      contradiction
    | _ => exact Nat.succ_pos _

theorem called_accesses {how : Overload} {value : α}
    (called : Interleaving.next before (.callEnqueue how value) = some after) :
    after.producer.accesses = 6 := by
  obtain ⟨how,value,_,_,rfl⟩ | ⟨impossible,_⟩ | ⟨impossible,_⟩ | ⟨impossible,_⟩ :=
    Interleaving.next_cases called
  · rfl
  · cases impossible
  · cases impossible
  · cases impossible

theorem enqueue_accesses_le (pc : EnqueuePc α) : pc.accesses ≤ 6 := by
  cases pc <;> simp [EnqueuePc.accesses]

theorem dequeue_accesses_le (pc : DequeuePc α) : pc.accesses ≤ 4 := by
  cases pc <;> simp [DequeuePc.accesses]

theorem producer_ready (inside : before.producer ≠ .idle) :
    ∃ after, Interleaving.next before .producer = some after := by
  cases pc : before.producer with
  | idle => exact absurd pc inside
  | _ => exact ⟨_,by rw [Interleaving.next,pc]⟩

theorem consumer_ready (inside : before.consumer ≠ .idle) :
    ∃ after, Interleaving.next before .consumer = some after := by
  cases pc : before.consumer with
  | idle => exact absurd pc inside
  | _ => exact ⟨_,by rw [Interleaving.next,pc]⟩

private theorem enqueue_ready (how : Overload) (value : α) (idle : before.producer = .idle) :
    ∃ after, Interleaving.next before (.callEnqueue how value) = some after :=
    ⟨_,by rw [Interleaving.next,idle]⟩

private theorem dequeue_ready (idle : before.consumer = .idle) :
    ∃ after, Interleaving.next before .callDequeue = some after := ⟨_,by rw [Interleaving.next,idle]⟩

end Calls

/-- The steps each thread still takes once `is_running` is false. -/
def producerRank (state : State) : Nat :=
  match state.producer with
  | .loop => 1
  | .capturing => 8
  | .offering _ => state.frames.producer.accesses + 1
  | .stopped => 0

def consumerRank (state : State) : Nat :=
  match state.consumer with
  | .loop => 1
  | .dequeuing => state.frames.consumer.accesses + 8
  | .fetched _ => 8
  | .offering _ _ => state.results.producer.accesses + 1
  | .stopped => 0

def displayRank (state : State) : Nat :=
  match state.display with
  | .loop => 1
  | .dequeuing => state.results.consumer.accesses + 2
  | .showing => 2
  | .stopped => 0

def ofProducer : Action → Bool
  | .producer _ => true
  | _ => false

def ofConsumer : Action → Bool
  | .consumer _ => true
  | _ => false

def ofDisplay : Action → Bool
  | .display _ => true
  | _ => false

section Steps
variable {lib : External} {config : ModelConfig} {state after : State} {action : Action}

/-- What a step of each thread leaves alone. -/
theorem ProducerMove.frame {capture : Mat} (move : ProducerMove state capture after) :
    after.consumer = state.consumer ∧ after.frames.consumer = state.frames.consumer ∧
      after.display = state.display ∧ after.results = state.results := by
  cases move with
  | offer pc full called => exact ⟨rfl,(called_enqueue called).right.right.right,rfl,rfl⟩
  | access pc accessed => exact ⟨rfl,(accessed_producer accessed).right.right,rfl,rfl⟩
  | _ => exact ⟨rfl,rfl,rfl,rfl⟩

theorem ConsumerMove.frame {iteration : Iteration}
    (move : ConsumerMove lib config state iteration after) :
    after.producer = state.producer ∧ after.frames.producer = state.frames.producer ∧
      after.display = state.display ∧ after.results.consumer = state.results.consumer := by
  cases move with
  | ask pc on called => exact ⟨rfl,(called_dequeue called).right.right.left,rfl,rfl⟩
  | access pc accessed _ | nullopt pc accessed _ | fetch pc accessed _ =>
    exact ⟨rfl,(accessed_consumer accessed).right,rfl,rfl⟩
  | offer pc processed called => exact ⟨rfl,rfl,rfl,(called_enqueue called).right.right.right⟩
  | deliver pc accessed _ | record pc accessed _ =>
    exact ⟨rfl,rfl,rfl,(accessed_producer accessed).right.right⟩
  | _ => exact ⟨rfl,rfl,rfl,rfl⟩

theorem DisplayMove.frame {key : Char} (move : DisplayMove state key after) :
    after.producer = state.producer ∧ after.consumer = state.consumer ∧ after.frames = state.frames ∧
      after.results.producer = state.results.producer := by
  cases move with
  | ask pc on called => exact ⟨rfl,rfl,rfl,(called_dequeue called).right.right.left⟩
  | access pc accessed _ | nullopt pc accessed _ | fetch pc accessed _ =>
    exact ⟨rfl,rfl,rfl,(accessed_consumer accessed).right⟩
  | _ => exact ⟨rfl,rfl,rfl,rfl⟩

private theorem stays_off (off : state.isRunning = false)
    (taken : next lib config state action = some after) :
    after.isRunning = false := by
  cases action with
  | signal =>
    cases Option.some.inj taken
    rfl
  | producer capture => cases producerStep_move taken <;> first | exact off | rfl
  | consumer iteration => cases consumerStep_move taken <;> exact off
  | display key => cases displayStep_move taken <;> first | exact off | rfl

private theorem producerRank_falls (off : state.isRunning = false)
    (taken : next lib config state action = some after) :
    producerRank after + (if ofProducer action then 1 else 0) ≤ producerRank state := by
  cases action with
  | signal =>
    cases Option.some.inj taken
    exact Nat.le_refl _
  | producer capture =>
    cases producerStep_move taken with
    | test pc => simp [producerRank,ofProducer,pc,off]
    | retry pc _ _ | giveUp pc _ _ => simp [producerRank,ofProducer,pc]
    | offer pc _ called => simp [producerRank,ofProducer,pc,called_accesses called]
    | @access frameClone pc frames accessed =>
      have fewer := producer_accesses accessed
      cases done : queueCalls.finished frames <;> simp only [producerRank,ofProducer,pc,if_true] <;>
        simp <;> omega
  | consumer iteration =>
    obtain ⟨producer,inside,_⟩ := (consumerStep_move taken).frame
    rw [producerRank,producer,inside]
    exact Nat.le_refl _
  | display key => cases displayStep_move taken <;> exact Nat.le_refl _

private theorem consumerRank_falls (off : state.isRunning = false)
    (taken : next lib config state action = some after) :
    consumerRank after + (if ofConsumer action then 1 else 0) ≤ consumerRank state := by
  cases action with
  | signal =>
    cases Option.some.inj taken
    exact Nat.le_refl _
  | producer capture =>
    obtain ⟨consumer,inside,_,results⟩ := (producerStep_move taken).frame
    rw [consumerRank,consumer,inside,results]
    exact Nat.le_refl _
  | consumer iteration =>
    cases consumerStep_move taken with
    | stop pc _ => simp [consumerRank,ofConsumer,pc]
    | ask pc on called => simp [off] at on
    | access pc accessed pending =>
      have fewer := consumer_accesses accessed
      simp only [consumerRank,ofConsumer,pc,if_true]
      omega
    | nullopt pc accessed drained =>
      simp only [consumerRank,ofConsumer,pc,if_true]
      omega
    | fetch pc accessed found =>
      have fewer := consumer_accesses accessed
      simp only [consumerRank,ofConsumer,pc,if_true]
      omega
    | pass pc processed => simp [consumerRank,ofConsumer,pc]
    | offer pc processed called => simp [consumerRank,ofConsumer,pc,called_accesses called]
    | deliver pc accessed pending =>
      have fewer := producer_accesses accessed
      simp only [consumerRank,ofConsumer,pc,if_true]
      omega
    | record pc accessed done =>
      have fewer := producer_accesses accessed
      simp only [consumerRank,ofConsumer,pc,if_true]
      omega
  | display key =>
    obtain ⟨_,consumer,frames,inside⟩ := (displayStep_move taken).frame
    rw [consumerRank,consumer,frames,inside]
    exact Nat.le_refl _

private theorem displayRank_falls (off : state.isRunning = false)
    (taken : next lib config state action = some after) :
    displayRank after + (if ofDisplay action then 1 else 0) ≤ displayRank state := by
  cases action with
  | signal =>
    cases Option.some.inj taken
    exact Nat.le_refl _
  | producer capture => cases producerStep_move taken <;> exact Nat.le_refl _
  | consumer iteration =>
    obtain ⟨_,_,display,inside⟩ := (consumerStep_move taken).frame
    rw [displayRank,display,inside]
    exact Nat.le_refl _
  | display key =>
    cases displayStep_move taken with
    | stop pc _ => simp [displayRank,ofDisplay,pc]
    | ask pc on called => simp [off] at on
    | access pc accessed pending =>
      have fewer := consumer_accesses accessed
      simp only [displayRank,ofDisplay,pc,if_true]
      omega
    | nullopt pc accessed drained =>
      have fewer := consumer_accesses accessed
      simp only [displayRank,ofDisplay,pc,if_true]
      omega
    | fetch pc accessed found =>
      have fewer := consumer_accesses accessed
      simp only [displayRank,ofDisplay,pc,if_true]
      omega
    | quit pc pressed | carryOn pc _ => simp [displayRank,ofDisplay,pc]

private theorem producer_steps (coherent : Coherent state) (going : state.producer ≠ .stopped)
    (capture : Mat) :
    ∃ after, next lib config state (.producer capture) = some after := by
  cases pc : state.producer with
  | loop => exact ⟨_,by rw [next,step,producerStep,pc]⟩
  | capturing =>
    have idle : state.frames.producer = .idle := by
      by_contra inside
      have offering := coherent.offering.mpr inside
      rw [pc] at offering
      exact offering
    obtain ⟨frames,called⟩ := enqueue_ready .move capture idle
    by_cases empty : capture.empty = true
    · by_cases many : state.emptyFrameRetries + 1 > maxRetries <;>
        simp [next,step,producerStep,pc,empty,many]
    · simp [next,step,producerStep,pc,empty,called]
  | offering frameClone =>
    obtain ⟨frames,accessed⟩ := producer_ready (coherent.offering.mp (by rw [pc]; trivial))
    simp [next,step,producerStep,pc,accessed]
  | stopped => exact absurd pc going

private theorem display_steps (coherent : Coherent state) (going : state.display ≠ .stopped)
    (key : Char) :
    ∃ after, next lib config state (.display key) = some after := by
  cases pc : state.display with
  | loop =>
    have idle : state.results.consumer = .idle := by
      by_contra inside
      have showing := coherent.showing.mpr inside
      rw [pc] at showing
      contradiction
    obtain ⟨results,called⟩ := dequeue_ready idle
    cases on : state.isRunning <;> simp [next,step,displayStep,pc,on,called]
  | dequeuing =>
    obtain ⟨results,accessed⟩ := consumer_ready (coherent.showing.mp pc)
    cases answer : answered state.results results with
    | none => simp [next,step,displayStep,pc,accessed,answer]
    | some found => cases found <;> simp [next,step,displayStep,pc,accessed,answer]
  | showing => by_cases pressed : key = 'q' ∨ key.toNat = 27 <;> simp [next,step,displayStep,pc,pressed]
  | stopped => exact absurd pc going

/-- Only a frame whose processing leaves defined behaviour holds the consumer. -/
private theorem consumer_steps (coherent : Coherent state) (going : state.consumer ≠ .stopped)
    (iteration : Iteration)
    (defined : ∀ frame, state.consumer = .fetched frame →
      ∃ locals passed, state.locals.process lib config frame iteration = .ok (locals,passed)) :
    ∃ after, next lib config state (.consumer iteration) = some after := by
  cases pc : state.consumer with
  | loop =>
    have idle : state.frames.consumer = .idle := by
      by_contra inside
      have fetching := coherent.fetching.mpr inside
      rw [pc] at fetching
      contradiction
    obtain ⟨frames,called⟩ := dequeue_ready idle
    cases on : state.isRunning <;> simp [next,step,consumerStep,pc,on,called]
  | dequeuing =>
    obtain ⟨frames,accessed⟩ := consumer_ready (coherent.fetching.mp pc)
    cases answer : answered state.frames frames with
    | none => simp [next,step,consumerStep,pc,accessed,answer]
    | some found => cases found <;> simp [next,step,consumerStep,pc,accessed,answer]
  | fetched frame =>
    obtain ⟨locals,passed,processed⟩ := defined frame pc
    have idle : state.results.producer = .idle := by
      by_contra inside
      have delivering := coherent.delivering.mpr inside
      rw [pc] at delivering
      exact delivering
    cases passed with
    | none => simp [next,step,consumerStep,pc,processed]
    | some value =>
      obtain ⟨results,called⟩ := enqueue_ready .move value idle
      simp [next,step,consumerStep,pc,processed,called]
  | offering value totalStart =>
    obtain ⟨results,accessed⟩ := producer_ready (coherent.delivering.mp (by rw [pc]; trivial))
    cases done : finished results <;> simp [next,step,consumerStep,pc,accessed,done]
  | stopped => exact absurd pc going

end Steps

private theorem producerRank_le (state : State) : producerRank state ≤ 8 := by
  have inside := enqueue_accesses_le state.frames.producer
  cases pc : state.producer <;> simp only [producerRank,pc] <;> omega

private theorem consumerRank_le (state : State) : consumerRank state ≤ 12 := by
  have fetching := dequeue_accesses_le state.frames.consumer
  have delivering := enqueue_accesses_le state.results.producer
  cases pc : state.consumer <;> simp only [consumerRank,pc] <;> omega

private theorem displayRank_le (state : State) : displayRank state ≤ 6 := by
  have inside := dequeue_accesses_le state.results.consumer
  cases pc : state.display <;> simp only [displayRank,pc] <;> omega

/-- The signal finds each thread inside a call. -/
def interrupted (frame : Mat) (iteration : Iteration) : List Action :=
  List.replicate 4 (.producer frame) ++ [.consumer iteration,.display 'a',.signal]

def windingDown (frame : Mat) (iteration : Iteration) : List Action :=
  List.replicate 3 (.producer frame) ++ List.replicate 6 (.consumer iteration) ++
    List.replicate 3 (.display 'a')

end YoloEngine.Accesses
