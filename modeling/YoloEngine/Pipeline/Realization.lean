import YoloEngine.Pipeline.Atomicity

/-! The other direction: the program whose calls are single steps does nothing that the program at
access level cannot do. A call whose accesses nobody interrupts is the sequential function, also
where it finds its queue full, so that every run of the one is a run of the other. -/
namespace YoloEngine
open Foundation LockFreeQueue

namespace Interleaving
variable {α : Type}

/-- The queue without the tags. -/
def untag (queue : LockFreeQueue (Tagged α)) : LockFreeQueue α :=
  ⟨queue.buffer.map untagged,queue.head,queue.tail,queue.bufferCapacity⟩

section Sequential
variable (queue : LockFreeQueue (Tagged α))

private theorem untag_assign (index : Nat) (cell : Cell (Tagged α)) :
    untag (queue.assign index cell) = (untag queue).assign index (untagged cell) := by
  simp [untag,assign,List.map_set]

private theorem untag_slot (index : Nat) : (untag queue).slot index = untagged (queue.slot index) := by
  simp only [untag,slot,List.getD_eq_getElem?_getD,List.getElem?_map]
  cases queue.buffer[index]? <;> rfl

private theorem untagged_moved (cell : Cell (Tagged α)) :
    untagged cell.moved = (untagged cell).moved := by
  cases cell <;> rfl

private theorem untag_enqueue (how : Overload) (item : Tagged α) :
    untag (enqueueWith how queue item).1 = (enqueueWith how (untag queue) item.value).1 := by
  by_cases full : (queue.tail + 1) % queue.bufferCapacity = queue.head <;>
    simp [enqueueWith,untag,assign,List.map_set,untagged,full]

private theorem untag_dequeue :
    (untag queue).dequeue = (untag queue.dequeue.1,queue.dequeue.2.map untagged) := by
  by_cases empty : queue.head = queue.tail
  · simp [dequeue,untag,empty]
  · have apart : ¬ (untag queue).head = (untag queue).tail := empty
    rw [dequeue,dequeue,if_neg apart,if_neg empty]
    have moved := untag_assign queue queue.head (queue.slot queue.head).moved
    rw [untagged_moved,← untag_slot] at moved
    exact Prod.ext (congrArg (fun left =>
      { left with head := (queue.head + 1) % queue.bufferCapacity }) moved.symm)
      (congrArg some (untag_slot queue queue.head))

end Sequential

section Alone
variable {state : State α}

private theorem producerStep_sequential (state : State α) :
    ((producerStep state).queue,(producerStep state).producer) =
      enqueueStep state.queue state.producer := by
  cases pc : state.producer with
  | loadHead how item currentTail nextTail =>
    by_cases full : nextTail = state.queue.head <;> simp [producerStep,pc,enqueueStep,full]
  | _ => simp [producerStep,pc,enqueueStep]

private theorem producerSteps_sequential (count : Nat) (state : State α) :
    ((producerStep^[count] state).queue,(producerStep^[count] state).producer) =
      (fun entry => enqueueStep entry.1 entry.2)^[count] (state.queue,state.producer) :=
  Function.Semiconj.iterate_right (f := fun state : State α => (state.queue,state.producer))
    (fun state => producerStep_sequential state) count state

private theorem consumerStep_sequential (state : State α) :
    ((consumerStep state).queue,(consumerStep state).consumer) =
      dequeueStep state.queue state.consumer := by
  cases pc : state.consumer with
  | loadTail currentHead =>
    by_cases empty : currentHead = state.queue.tail <;> simp [consumerStep,pc,dequeueStep,empty]
  | _ => simp [consumerStep,pc,dequeueStep]

private theorem consumerSteps_sequential (count : Nat) (state : State α) :
    ((consumerStep^[count] state).queue,(consumerStep^[count] state).consumer) =
      (fun entry => dequeueStep entry.1 entry.2)^[count] (state.queue,state.consumer) :=
  Function.Semiconj.iterate_right (f := fun state : State α => (state.queue,state.consumer))
    (fun state => consumerStep_sequential state) count state

private theorem producerStep_idle (idle : state.producer = .idle) : producerStep state = state := by
  obtain ⟨queue,producer,consumer,started,fulls,written,enqueued,read,returned⟩ := state
  cases (show producer = .idle from idle)
  rfl

private theorem consumerStep_idle (idle : state.consumer = .idle) : consumerStep state = state := by
  obtain ⟨queue,producer,consumer,started,fulls,written,enqueued,read,returned⟩ := state
  cases (show consumer = .idle from idle)
  rfl

/-- What the accesses of a thread lead to, if each but the last keeps it going. -/
private theorem steps_lead {step : State α → State α} (Idle During After : State α → Prop)
    (rests : ∀ state, Idle state → step state = state)
    (goes : ∀ state, During state → ¬ Idle state → ¬ Idle (step state) → During (step state))
    (ends : ∀ state, During state → ¬ Idle state → Idle (step state) → After (step state))
    (count : Nat) (begins : During state) (busy : ¬ Idle state) (idle : Idle (step^[count] state)) :
    After (step^[count] state) := by
  induction count generalizing state with
  | zero => exact absurd idle busy
  | succ count ih =>
    rw [Function.iterate_succ_apply] at idle ⊢
    by_cases last : Idle (step state)
    · rw [Function.iterate_fixed (rests _ last)]
      exact ends state begins busy last
    · exact ih (goes state begins busy last) last idle

/-- An enqueue that runs without interruption ends as the sequential function does. -/
private theorem enqueue_leads {During After : State α → Prop}
    (goes : ∀ state, During state → state.producer ≠ .idle → (producerStep state).producer ≠ .idle →
      During (producerStep state))
    (ends : ∀ state, During state → state.producer ≠ .idle → (producerStep state).producer = .idle →
      After (producerStep state))
    (begins : During state) {how : Overload} {item : Tagged α}
    (calls : state.producer = .loadTail how item) :
    ∃ after, After after ∧ after.producer = .idle ∧ after.consumer = state.consumer ∧
      untag after.queue = (enqueueWith how (untag state.queue) item.value).1 := by
  have ran := producerSteps_sequential 6 state
  rw [calls,enqueue_alone] at ran
  obtain ⟨queue,idle⟩ := Prod.mk.inj ran
  have kept (count : Nat) : (producerStep^[count] state).consumer = state.consumer := by
    induction count with
    | zero => rfl
    | succ count ih =>
      rw [Function.iterate_succ_apply',(producerStep_keeps _).left]
      exact ih
  refine ⟨producerStep^[6] state,steps_lead (fun entry => entry.producer = .idle) During After
    (fun _ => producerStep_idle) goes ends 6 begins (by simp [calls]) idle,
    idle,kept 6,?_⟩
  rw [queue,untag_enqueue]

private theorem dequeue_returned (calls : state.consumer = .loadHead) :
    (consumerStep^[4] state).returned = state.returned ++ state.queue.dequeue.2.toList := by
  by_cases empty : state.queue.head = state.queue.tail <;>
    simp [consumerStep,calls,dequeueStep,dequeue,empty]

open Accesses in
/-- The access that ends a dequeue gives its answer, and returns what it answers. -/
private theorem answered_returned (busy : state.consumer ≠ .idle) :
    ((consumerStep state).consumer ≠ .idle → answered state (consumerStep state) = none ∧
      (consumerStep state).returned = state.returned) ∧
    ((consumerStep state).consumer = .idle → ∃ answer : Option (Cell (Tagged α)),
      answered state (consumerStep state) = some (answer.map untagged) ∧
        (consumerStep state).returned = state.returned ++ answer.toList) := by
  cases pc : state.consumer with
  | idle => exact absurd pc busy
  | loadTail currentHead =>
    by_cases empty : currentHead = state.queue.tail
    · simp [consumerStep,pc,dequeueStep,empty,answered]
    · simp [consumerStep,pc,dequeueStep,empty,answered]
  | storeHead currentHead cell =>
    refine ⟨by simp [consumerStep,pc,dequeueStep],fun _ => ⟨some cell,?_⟩⟩
    simp [consumerStep,pc,dequeueStep,answered]
  | _ => simp [consumerStep,pc,dequeueStep,answered]

open Accesses in
private theorem dequeue_leads {During : State α → Prop} {After : State α → Option (Cell α) → Prop}
    (goes : ∀ state, During state → state.consumer ≠ .idle →
      answered state (consumerStep state) = none →
      During (consumerStep state))
    (ends : ∀ state answer, During state → state.consumer ≠ .idle →
      answered state (consumerStep state) = some answer → After (consumerStep state) answer)
    (begins : During state) (calls : state.consumer = .loadHead) :
    ∃ after, After after (untag state.queue).dequeue.2 ∧ after.consumer = .idle ∧
    after.producer = state.producer ∧
      untag after.queue = (untag state.queue).dequeue.1 := by
  have ran := consumerSteps_sequential 4 state
  rw [calls,dequeue_alone] at ran
  obtain ⟨queue,idle⟩ := Prod.mk.inj ran
  have kept (count : Nat) : (consumerStep^[count] state).producer = state.producer := by
    induction count with
    | zero => rfl
    | succ count ih =>
      rw [Function.iterate_succ_apply',(consumerStep_kept _).left]
      exact ih
  have done : ∃ answer : Option (Cell (Tagged α)),
    After (consumerStep^[4] state) (answer.map untagged) ∧
      (consumerStep^[4] state).returned = state.returned ++ answer.toList := by
    refine steps_lead (fun entry => entry.consumer = .idle)
      (fun entry => During entry ∧ entry.returned = state.returned)
      (fun entry => ∃ answer : Option (Cell (Tagged α)), After entry (answer.map untagged) ∧
        entry.returned = state.returned ++ answer.toList)
      (fun _ => consumerStep_idle) ?_ ?_ 4 ⟨begins,rfl⟩ (by simp [calls]) idle
    · intro entry during busy later
      obtain ⟨pending,same⟩ := (answered_returned busy).left later
      exact ⟨goes entry during.left busy pending,same.trans during.right⟩
    · intro entry during busy last
      obtain ⟨answer,answers,grown⟩ := (answered_returned busy).right last
      exact ⟨answer,ends entry _ during.left busy answers,by rw [grown,during.right]⟩
  obtain ⟨answer,holds,returned⟩ := done
  rw [dequeue_returned calls,List.append_cancel_left_eq] at returned
  have answers : state.queue.dequeue.2 = answer := by simpa using congrArg List.head? returned
  refine ⟨consumerStep^[4] state,?_,idle,kept 4,by rw [queue,untag_dequeue]⟩
  rw [untag_dequeue,answers]
  exact holds

private theorem next_producer (busy : state.producer ≠ .idle) :
    next state .producer = some (producerStep state) := by
  cases pc : state.producer with
  | idle => exact absurd pc busy
  | _ => simp only [next,pc]

private theorem next_consumer (busy : state.consumer ≠ .idle) :
    next state .consumer = some (consumerStep state) := by
  cases pc : state.consumer with
  | idle => exact absurd pc busy
  | _ => simp only [next,pc]

end Alone
end Interleaving

namespace Accesses
open Concurrent
open Pipeline (ProducerPc ConsumerPc DisplayPc Action takenFrame takenResults maxRetries)
variable {lib : External} {config : ModelConfig} {buffer : TensorBuffer}
  {frameSize resultSize : Nat} {state : State}

/-- A call on the queue has made no access yet. -/
structure Poised {α : Type} (queue : Interleaving.State α) (offered : Option α)
    (asked : Bool) : Prop where
  producer : ∀ value ∈ offered, ∃ tag, queue.producer = .loadTail .move ⟨tag,value⟩
  consumer : asked = true → queue.consumer = .loadHead
  calm : offered = none → queue.producer = .idle
  quiet : asked = false → queue.consumer = .idle

section Queue
variable {α : Type} {queue : Interleaving.State α} {offered : Option α} {asked : Bool}

theorem Poised.unread (poised : Poised queue offered asked) :
    Interleaving.cachedHead queue.consumer = none := by
  cases asked with
  | false => rw [poised.quiet rfl]; rfl
  | true => rw [poised.consumer rfl]; rfl

private theorem Poised.undropped (poised : Poised queue offered asked) :
    Interleaving.pendingDrop queue.producer = 0 := by
  cases offered with
  | none => rw [poised.calm rfl]; rfl
  | some value =>
    obtain ⟨tag,calls⟩ := poised.producer value rfl
    rw [calls]
    rfl

/-- The accesses of an enqueue that has made none yet, if nobody comes between. -/
theorem Poised.offers {value : α} (poised : Poised queue (some value) asked)
    (During After : Interleaving.State α → Prop)
    (access : ∀ queue, During queue → queue.producer ≠ .idle →
      Interleaving.cachedHead queue.consumer = none →
      if finished (Interleaving.producerStep queue) then After (Interleaving.producerStep queue)
      else During (Interleaving.producerStep queue))
    (begins : During queue) :
    ∃ after, After after ∧ Poised after none asked ∧
      Interleaving.untag after.queue = ((Interleaving.untag queue.queue).enqueueMove value).1 := by
  obtain ⟨tag,calls⟩ := poised.producer value rfl
  let Unread (queue : Interleaving.State α) : Prop :=
    During queue ∧ Interleaving.cachedHead queue.consumer = none
  have goes (queue : Interleaving.State α) (during : Unread queue) (busy : queue.producer ≠ .idle)
      (later : (Interleaving.producerStep queue).producer ≠ .idle) :
        Unread (Interleaving.producerStep queue) := by
    have reached := access queue during.left busy during.right
    rw [if_neg (by rwa [finished_iff])] at reached
    exact ⟨reached,by rw [(Interleaving.producerStep_keeps queue).left]; exact during.right⟩
  have ends (queue : Interleaving.State α) (during : Unread queue) (busy : queue.producer ≠ .idle)
      (last : (Interleaving.producerStep queue).producer = .idle) :
        After (Interleaving.producerStep queue) := by
    have reached := access queue during.left busy during.right
    rwa [if_pos (by rwa [finished_iff])] at reached
  obtain ⟨after,done,idle,consumer,same⟩ :=
    Interleaving.enqueue_leads goes ends (show Unread queue from ⟨begins,poised.unread⟩) calls
  refine ⟨after,done,⟨by simp,?_,fun _ => idle,?_⟩,same⟩
  · rw [consumer]
    exact poised.consumer
  · rw [consumer]
    exact poised.quiet

private theorem Poised.asks (poised : Poised queue offered true) (During : Interleaving.State α → Prop)
    (After : Interleaving.State α → Option (Cell α) → Prop)
    (access : ∀ queue, During queue → queue.consumer ≠ .idle →
      Interleaving.pendingDrop queue.producer = 0 →
      match answered queue (Interleaving.consumerStep queue) with
      | none => During (Interleaving.consumerStep queue)
      | some answer => After (Interleaving.consumerStep queue) answer)
    (begins : During queue) :
    ∃ after, After after (Interleaving.untag queue.queue).dequeue.2 ∧ Poised after offered false ∧
      Interleaving.untag after.queue = (Interleaving.untag queue.queue).dequeue.1 := by
  let Undropped (queue : Interleaving.State α) : Prop :=
    During queue ∧ Interleaving.pendingDrop queue.producer = 0
  have goes (queue : Interleaving.State α) (during : Undropped queue) (busy : queue.consumer ≠ .idle)
      (pending : answered queue (Interleaving.consumerStep queue) = none) :
        Undropped (Interleaving.consumerStep queue) := by
    have reached := access queue during.left busy during.right
    rw [pending] at reached
    exact ⟨reached,by rw [(Interleaving.consumerStep_kept queue).left]; exact during.right⟩
  have ends (queue : Interleaving.State α) (answer : Option (Cell α)) (during : Undropped queue)
      (busy : queue.consumer ≠ .idle)
      (answers : answered queue (Interleaving.consumerStep queue) = some answer) :
      After (Interleaving.consumerStep queue) answer := by
    have reached := access queue during.left busy during.right
    rwa [answers] at reached
  obtain ⟨after,done,idle,producer,same⟩ := Interleaving.dequeue_leads goes ends
    (show Undropped queue from ⟨begins,poised.undropped⟩) (poised.consumer rfl)
  refine ⟨after,done,⟨?_,by simp,?_,fun _ => idle⟩,same⟩
  · rw [producer]
    exact poised.producer
  · rw [producer]
    exact poised.calm

end Queue

variable (lib config buffer frameSize resultSize) in
/-- Reached at access level, with the stores to `head` kept apart. -/
def Reached (state : State) : Prop :=
  (program lib config buffer frameSize resultSize).Reachable
    (onQueues lib config Interleaving.apart) state

theorem Reached.act (reached : Reached lib config buffer frameSize resultSize state) (action : Action)
    (allowed : onQueues lib config Interleaving.apart state action) {after : State}
    (taken : next lib config state action = some after) :
    Reached lib config buffer frameSize resultSize after :=
  Machine.Reachable.step reached allowed taken

section Calls
variable {frameOffered : Option Mat} {resultOffered : Option FrameWithResults} {asked : Bool}

private theorem frame_offered {frameClone : Mat}
    (reached : Reached lib config buffer frameSize resultSize state)
    (pc : state.producer = .offering frameClone)
    (poised : Poised state.frames (some frameClone) asked) (capture : Mat) :
    ∃ frames, Reached lib config buffer frameSize resultSize
      { state with frames := frames, producer := .loop } ∧
      Poised frames none asked ∧
      Interleaving.untag frames.queue =
        ((Interleaving.untag state.frames.queue).enqueueMove frameClone).1 := by
  let during (frames : Interleaving.State Mat) : State :=
    { state with frames := frames, producer := .offering frameClone }
  refine poised.offers (fun frames => Reached lib config buffer frameSize resultSize
    (during frames)) _ ?_
    (by rw [show during state.frames = state by simp [during,← pc]]; exact reached)
  intro frames reached busy unread
  have allowed : onQueues lib config Interleaving.apart (during frames) (.producer capture) :=
    ⟨by
      simp only [frameAct,during,Option.mem_def,Option.some.injEq,forall_eq']
      exact fun _ => unread,by simp [resultAct]⟩
  split
  next done =>
    exact reached.act _ allowed
      (by simp [next,step,producerStep,during,Interleaving.next_producer busy,done])
  next going =>
    exact reached.act _ allowed
      (by simp [next,step,producerStep,during,Interleaving.next_producer busy,going])

private theorem result_offered {value : FrameWithResults} {totalStart : Int}
    (reached : Reached lib config buffer frameSize resultSize state)
    (pc : state.consumer = .offering value totalStart)
    (poised : Poised state.results (some value) asked) (iteration : Iteration) :
    ∃ results, Reached lib config buffer frameSize resultSize { state with
          results := results
          latenciesUs := LatencyTracker.record state.latenciesUs (iteration.totalEnd - totalStart)
          consumer := .loop } ∧
      Poised results none asked ∧
      Interleaving.untag results.queue =
        ((Interleaving.untag state.results.queue).enqueueMove value).1 := by
  let during (results : Interleaving.State FrameWithResults) : State :=
    { state with results := results, consumer := .offering value totalStart }
  refine poised.offers (fun results => Reached lib config buffer frameSize resultSize
    (during results)) _ ?_
    (by rw [show during state.results = state by simp [during,← pc]]; exact reached)
  intro results reached busy unread
  have allowed : onQueues lib config Interleaving.apart (during results) (.consumer iteration) :=
    ⟨by simp [frameAct,during],
      by
        simp only [resultAct,during,Option.mem_def,Option.some.injEq,forall_eq']
        exact fun _ => unread⟩
  split
  next done =>
    exact reached.act _ allowed
      (by simp [next,step,consumerStep,during,Interleaving.next_producer busy,done])
  next going =>
    exact reached.act _ allowed
      (by simp [next,step,consumerStep,during,Interleaving.next_producer busy,going])

private theorem frame_asked (reached : Reached lib config buffer frameSize resultSize state)
    (pc : state.consumer = .dequeuing) (poised : Poised state.frames frameOffered true)
    (iteration : Iteration) :
    ∃ frames, (match (Interleaving.untag state.frames.queue).dequeue.2 with
        | none =>
          Reached lib config buffer frameSize resultSize
            { state with frames := frames, consumer := .loop }
        | some cell => Reached lib config buffer frameSize resultSize { state with
            frames := frames
            dequeued := state.dequeued ++ [takenFrame cell]
            consumer := .fetched (takenFrame cell) }) ∧
      Poised frames frameOffered false ∧
      Interleaving.untag frames.queue = (Interleaving.untag state.frames.queue).dequeue.1 := by
  let during (frames : Interleaving.State Mat) : State :=
    { state with frames := frames, consumer := .dequeuing }
  refine poised.asks (fun frames => Reached lib config buffer frameSize resultSize (during frames))
    (fun frames answer => match answer with
      | none =>
        Reached lib config buffer frameSize resultSize
          { state with frames := frames, consumer := .loop }
      | some cell => Reached lib config buffer frameSize resultSize { state with
          frames := frames
          dequeued := state.dequeued ++ [takenFrame cell]
          consumer := .fetched (takenFrame cell) }) ?_
    (by rw [show during state.frames = state by simp [during,← pc]]; exact reached)
  intro frames reached busy undropped
  have allowed : onQueues lib config Interleaving.apart (during frames) (.consumer iteration) :=
    ⟨by
      simp only [frameAct,during,Option.mem_def,Option.some.injEq,forall_eq']
      exact fun _ => undropped,by simp [resultAct,during]⟩
  have taken := Interleaving.next_consumer busy
  cases answers : answered frames (Interleaving.consumerStep frames) with
  | none => exact reached.act _ allowed (by simp [next,step,consumerStep,during,taken,answers])
  | some answer =>
    cases answer with
    | none => exact reached.act _ allowed (by simp [next,step,consumerStep,during,taken,answers])
    | some cell => exact reached.act _ allowed (by simp [next,step,consumerStep,during,taken,answers])

private theorem result_asked (reached : Reached lib config buffer frameSize resultSize state)
    (pc : state.display = .dequeuing) (poised : Poised state.results resultOffered true)
    (key : Char) :
    ∃ results, (match (Interleaving.untag state.results.queue).dequeue.2 with
        | none =>
          Reached lib config buffer frameSize resultSize
            { state with results := results, display := .loop }
        | some cell => Reached lib config buffer frameSize resultSize { state with
            results := results
            displayed := state.displayed ++ [takenResults cell]
            display := .showing }) ∧
      Poised results resultOffered false ∧
      Interleaving.untag results.queue = (Interleaving.untag state.results.queue).dequeue.1 := by
  let during (results : Interleaving.State FrameWithResults) : State :=
    { state with results := results, display := .dequeuing }
  refine poised.asks (fun results => Reached lib config buffer frameSize resultSize (during results))
    (fun results answer => match answer with
      | none =>
        Reached lib config buffer frameSize resultSize
          { state with results := results, display := .loop }
      | some cell => Reached lib config buffer frameSize resultSize { state with
          results := results
          displayed := state.displayed ++ [takenResults cell]
          display := .showing }) ?_
    (by rw [show during state.results = state by simp [during,← pc]]; exact reached)
  intro results reached busy undropped
  have allowed : onQueues lib config Interleaving.apart (during results) (.display key) :=
    ⟨by simp [frameAct],
      by
        simp only [resultAct,during,Option.mem_def,Option.some.injEq,forall_eq']
        exact fun _ => undropped⟩
  have taken := Interleaving.next_consumer busy
  cases answers : answered results (Interleaving.consumerStep results) with
  | none => exact reached.act _ allowed (by simp [next,step,displayStep,during,taken,answers])
  | some answer =>
    cases answer with
    | none => exact reached.act _ allowed (by simp [next,step,displayStep,during,taken,answers])
    | some cell => exact reached.act _ allowed (by simp [next,step,displayStep,during,taken,answers])

end Calls
def offeredFrame : ProducerPc → Option Mat
  | .offering frameClone => some frameClone
  | _ => none

def offeredResult : ConsumerPc → Option FrameWithResults
  | .offering value _ => some value
  | _ => none

def asksFrame : ConsumerPc → Bool
  | .dequeuing => true
  | _ => false

def asksResult : DisplayPc → Bool
  | .dequeuing => true
  | _ => false

/-- The same state of the threads, with every call before its first access. -/
structure Realizes (state : State) (spec : Pipeline.State) : Prop where
  same : spec = atomic state (Interleaving.untag state.frames.queue)
    (Interleaving.untag state.results.queue)
  frames : Poised state.frames (offeredFrame state.producer) (asksFrame state.consumer)
  results : Poised state.results (offeredResult state.consumer) (asksResult state.display)

variable (lib config buffer frameSize resultSize) in
def Realized (spec : Pipeline.State) : Prop :=
  ∃ state, Reached lib config buffer frameSize resultSize state ∧ Realizes state spec

section Steps
variable {spec after : Pipeline.State}

private theorem Poised.begin {α : Type} {queue : Interleaving.State α} {asked : Bool}
    (poised : Poised queue none asked) (value : α) : ∃ called, Interleaving.next queue
    (.callEnqueue .move value) = some called ∧
      Poised called (some value) asked ∧ called.queue = queue.queue := by
  refine ⟨{ queue with
    producer := .loadTail .move ⟨queue.started,value⟩, started := queue.started + 1 },?_,?_,rfl⟩
  · simp [Interleaving.next,poised.calm rfl]
  · exact ⟨by simp,poised.consumer,by simp,poised.quiet⟩

theorem Poised.ask {α : Type} {queue : Interleaving.State α} {offered : Option α}
    (poised : Poised queue offered false) :
    ∃ called, Interleaving.next queue .callDequeue = some called ∧ Poised called offered true ∧
      called.queue = queue.queue := by
  refine ⟨{ queue with consumer := .loadHead },?_,?_,rfl⟩
  · simp [Interleaving.next,poised.quiet rfl]
  · exact ⟨poised.producer,fun _ => rfl,poised.calm,by simp⟩

private theorem producer_realized (reached : Reached lib config buffer frameSize resultSize state)
    (realizes : Realizes state spec) {capture : Mat}
    (taken : Pipeline.producerStep spec capture = some after) :
    Realized lib config buffer frameSize resultSize after := by
  obtain ⟨rfl,frames,results⟩ := realizes
  cases pc : state.producer with
  | loop =>
    rw [pc] at frames
    simp only [Pipeline.producerStep,atomic,pc,Option.some.injEq] at taken
    subst taken
    refine ⟨{ state with producer := if state.isRunning then .capturing else .stopped },
      reached.act (.producer capture)
      ⟨by simp [frameAct,pc],by simp [resultAct]⟩ (by simp [next,step,producerStep,pc]),rfl,?_,results⟩
    cases state.isRunning <;> exact frames
  | capturing =>
    rw [pc] at frames
    simp only [Pipeline.producerStep,atomic,pc] at taken
    cases empty : capture.empty with
    | true =>
      simp only [empty,if_true] at taken
      split at taken
      next many =>
        cases Option.some.inj taken
        exact ⟨{ state with
            captured := state.captured ++ [capture], emptyFrameRetries := state.emptyFrameRetries + 1
            isRunning := false, producer := .stopped },
          reached.act (.producer capture) ⟨by simp [frameAct,pc,empty],by simp [resultAct]⟩
            (by simp only [next,step,producerStep,pc,empty,many,if_true]),rfl,frames,results⟩
      next few =>
        cases Option.some.inj taken
        exact ⟨{ state with
            captured := state.captured ++ [capture],
            emptyFrameRetries := state.emptyFrameRetries + 1, producer := .loop },
          reached.act (.producer capture) ⟨by simp [frameAct,pc,empty],by simp [resultAct]⟩
            (by simp only [next,step,producerStep,pc,empty,few,if_true,if_false]),rfl,frames,results⟩
    | false =>
      simp only [empty,Bool.false_eq_true,if_false,Option.some.injEq] at taken
      subst taken
      obtain ⟨called,begins,poised,queue⟩ := frames.begin capture
      refine ⟨{ state with
          captured := state.captured ++ [capture], emptyFrameRetries := 0, frames := called,
          producer := .offering capture },
        reached.act (.producer capture) ⟨by simp [frameAct,pc,empty,Interleaving.apart],
          by simp [resultAct]⟩
          (by simp [next,step,producerStep,pc,empty,begins]),?_,poised,results⟩
      simp only [atomic,queue]
  | offering frameClone =>
    rw [pc] at frames
    simp only [Pipeline.producerStep,atomic,pc,Option.some.injEq] at taken
    subst taken
    obtain ⟨later,there,poised,queue⟩ := frame_offered reached pc frames capture
    refine ⟨_,there,?_,poised,results⟩
    simp only [atomic,queue]
  | stopped => simp [Pipeline.producerStep,atomic,pc] at taken

private theorem consumer_realized (reached : Reached lib config buffer frameSize resultSize state)
    (realizes : Realizes state spec) {iteration : Iteration}
    (taken : Pipeline.consumerStep lib config spec iteration = some after) :
    Realized lib config buffer frameSize resultSize after := by
  obtain ⟨rfl,frames,results⟩ := realizes
  cases pc : state.consumer with
  | loop =>
    rw [pc] at frames results
    simp only [Pipeline.consumerStep,atomic,pc,Option.some.injEq] at taken
    subst taken
    cases running : state.isRunning with
    | true =>
      obtain ⟨called,begins,poised,queue⟩ := frames.ask
      refine ⟨{ state with frames := called, consumer := .dequeuing },reached.act (.consumer iteration)
        ⟨by simp [frameAct,pc,running,Interleaving.apart],by simp [resultAct,pc]⟩
        (by simp [next,step,consumerStep,pc,running,begins]),?_,poised,results⟩
      simp [atomic,queue,running]
    | false =>
      refine ⟨{ state with consumer := .stopped },reached.act (.consumer iteration)
        ⟨by simp [frameAct,pc,running],by simp [resultAct,pc]⟩
          (by simp [next,step,consumerStep,pc,running]),?_,frames,results⟩
      simp [atomic,running]
  | dequeuing =>
    rw [pc] at frames results
    obtain ⟨later,there,poised,queue⟩ := frame_asked reached pc frames iteration
    simp only [Pipeline.consumerStep,atomic,pc] at taken
    cases answer : (Interleaving.untag state.frames.queue).dequeue with
    | mk rest reply =>
      rw [answer] at there queue taken
      cases reply <;> cases Option.some.inj taken <;> exact ⟨_,there,
        by simp only [atomic,queue],poised,results⟩
  | fetched frame =>
    rw [pc] at frames results
    simp only [Pipeline.consumerStep,atomic,pc] at taken
    split at taken
    next locals processed =>
      cases Option.some.inj taken
      exact ⟨{ state with locals := locals, consumer := .loop },reached.act (.consumer iteration)
        ⟨by simp [frameAct,pc],by simp [resultAct,pc,processed]⟩
          (by simp [next,step,consumerStep,pc,processed]),
        rfl,frames,results⟩
    next locals value processed =>
      cases Option.some.inj taken
      obtain ⟨called,begins,poised,queue⟩ := results.begin value
      refine ⟨{ state with
          locals := locals, results := called, consumer := .offering value iteration.totalStart },
        reached.act (.consumer iteration) ⟨by simp [frameAct,pc],
          by simp [resultAct,pc,processed,Interleaving.apart]⟩
          (by simp [next,step,consumerStep,pc,processed,begins]),?_,frames,poised⟩
      simp only [atomic,queue]
    next => contradiction
  | offering value totalStart =>
    rw [pc] at frames results
    simp only [Pipeline.consumerStep,atomic,pc,Option.some.injEq] at taken
    subst taken
    obtain ⟨later,there,poised,queue⟩ := result_offered reached pc results iteration
    refine ⟨_,there,?_,frames,poised⟩
    simp only [atomic,queue]
  | stopped => simp [Pipeline.consumerStep,atomic,pc] at taken

private theorem display_realized (reached : Reached lib config buffer frameSize resultSize state)
    (realizes : Realizes state spec) {key : Char}
    (taken : Pipeline.displayStep spec key = some after) :
    Realized lib config buffer frameSize resultSize after := by
  obtain ⟨rfl,frames,results⟩ := realizes
  cases pc : state.display with
  | loop =>
    rw [pc] at results
    simp only [Pipeline.displayStep,atomic,pc,Option.some.injEq] at taken
    subst taken
    cases running : state.isRunning with
    | true =>
      obtain ⟨called,begins,poised,queue⟩ := results.ask
      refine ⟨{ state with results := called, display := .dequeuing },reached.act (.display key)
        ⟨by simp [frameAct],by simp [resultAct,pc,running,Interleaving.apart]⟩
        (by simp [next,step,displayStep,pc,running,begins]),?_,frames,poised⟩
      simp [atomic,queue,running]
    | false =>
      refine ⟨{ state with display := .stopped },reached.act (.display key)
        ⟨by simp [frameAct],by simp [resultAct,pc,running]⟩
          (by simp [next,step,displayStep,pc,running]),?_,frames,results⟩
      simp [atomic,running]
  | dequeuing =>
    rw [pc] at results
    obtain ⟨later,there,poised,queue⟩ := result_asked reached pc results key
    simp only [Pipeline.displayStep,atomic,pc] at taken
    cases answer : (Interleaving.untag state.results.queue).dequeue with
    | mk rest reply =>
      rw [answer] at there queue taken
      cases reply <;> cases Option.some.inj taken <;>
        exact ⟨_,there,by simp only [atomic,queue],frames,poised⟩
  | showing =>
    rw [pc] at results
    simp only [Pipeline.displayStep,atomic,pc] at taken
    split at taken
    next pressed =>
      cases Option.some.inj taken
      exact ⟨{ state with isRunning := false, display := .stopped },reached.act (.display key)
        ⟨by simp [frameAct],by simp [resultAct,pc]⟩
          (by simp only [next,step,displayStep,pc,pressed,if_true]),rfl,frames,results⟩
    next other =>
      cases Option.some.inj taken
      exact ⟨{ state with display := .loop },reached.act (.display key)
        ⟨by simp [frameAct],by simp [resultAct,pc]⟩
          (by simp only [next,step,displayStep,pc,other,if_false]),rfl,frames,results⟩
  | stopped => simp [Pipeline.displayStep,atomic,pc] at taken

private theorem step_realized (realized : Realized lib config buffer frameSize resultSize spec)
    {action : Action} (taken : Pipeline.next lib config spec action = some after) :
    Realized lib config buffer frameSize resultSize after := by
  obtain ⟨state,reached,realizes⟩ := realized
  cases action with
  | signal =>
    cases Option.some.inj taken
    obtain ⟨rfl,frames,results⟩ := realizes
    exact ⟨{ state with isRunning := false },
      reached.act .signal ⟨by simp [frameAct],by simp [resultAct]⟩ rfl,
      rfl,frames,results⟩
  | producer capture => exact producer_realized reached realizes taken
  | consumer iteration => exact consumer_realized reached realizes taken
  | display key => exact display_realized reached realizes taken

end Steps

theorem realized_reachable {spec : Pipeline.State}
    (reachable :
      (Pipeline.pipeline lib config buffer frameSize resultSize).Reachable Machine.always spec) :
    Realized lib config buffer frameSize resultSize spec := by
  apply reachable.invariant (Realized lib config buffer frameSize resultSize)
  · refine ⟨.new buffer frameSize resultSize,.init,?_,⟨nofun,nofun,fun _ => rfl,fun _ => rfl⟩,
      ⟨nofun,nofun,fun _ => rfl,fun _ => rfl⟩⟩
    simp [Pipeline.pipeline,Pipeline.State.new,atomic,State.new,Interleaving.State.new,
      Interleaving.untag,LockFreeQueue.new,Interleaving.untagged]
  · exact fun _ _ _ realized _ taken => step_realized realized taken

/-- Every run of the program whose calls are single steps, also one that fills its queues, is a run
at access level: it reaches the same state of all threads, with the same cursors and cells in both
queues, and the stores to each `head` keep apart on the way. -/
theorem atomic_realized {spec : Pipeline.State}
    (reachable :
      (Pipeline.pipeline lib config buffer frameSize resultSize).Reachable Machine.always spec) :
    ∃ state, (program lib config buffer frameSize resultSize).Reachable
      (onQueues lib config Interleaving.apart) state ∧
      spec = atomic state spec.frameQueue spec.resultQueue ∧
      spec.frameQueue = Interleaving.untag state.frames.queue ∧
      spec.resultQueue = Interleaving.untag state.results.queue := by
  obtain ⟨state,reached,rfl,_⟩ := realized_reachable reachable
  exact ⟨state,reached,rfl,rfl,rfl⟩

/-- A second frame takes the place of the first before anything is fetched. -/
def overfilled (frame : Nat → Mat) : List Action :=
  List.replicate 3 (.producer (frame 0)) ++ List.replicate 3 (.producer (frame 1)) ++
    [.consumer ⟨0,0,0,0,7,.none⟩]

theorem overfilled_realized :
    let config : ModelConfig := ⟨1,1,1,1 / 4,9 / 20⟩
    let buffer : TensorBuffer := ⟨[0,0,0],[1,3,1,1],3,1,rfl⟩
    let frame : Nat → Mat := fun place => ⟨1,1,3,[place,0,0]⟩
    let lib : External := ⟨fun frame _ _ _ _ _ => frame.data,fun _ _ => [],fun _ _ _ _ => none⟩
    ∃ state, (program lib config buffer 2 2).Reachable (onQueues lib config Interleaving.apart) state ∧
      state.captured = [frame 0,frame 1] ∧ state.consumer = .dequeuing ∧
      (Interleaving.untag state.frames.queue).contents = [.item (frame 1)] := by
  intro config buffer frame lib
  have shown : ((Pipeline.pipeline lib config buffer 2 2).run Machine.always (.new buffer 2 2)
    (overfilled frame)).map
      (fun spec => (spec.captured,spec.consumer,spec.frameQueue.contents)) =
      some ([frame 0,frame 1],.dequeuing,[.item (frame 1)]) := by decide +kernel
  obtain ⟨spec,ran,found⟩ := Option.map_eq_some_iff.mp shown
  simp only [Prod.mk.injEq] at found
  obtain ⟨captured,consumer,left⟩ := found
  obtain ⟨state,reached,same,frames,_⟩ := atomic_realized (Machine.reachable_of_run .init ran)
  rw [same] at captured consumer
  exact ⟨state,reached,captured,consumer,by rw [← frames]; exact left⟩

end Accesses
end YoloEngine
