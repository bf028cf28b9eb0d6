import YoloEngine.Pipeline.Concurrent

/-! What one step of each thread does, case by case, and what follows for the two queues: the
frame queue is used by one producer and one consumer, and so is the result queue, so that what
holds of a queue in every run of two threads holds of it in the program. -/
namespace YoloEngine.Concurrent
open Foundation LockFreeQueue
open Pipeline (Action takenFrame takenResults maxRetries)
variable {Queue Act : Type → Type} {Choice ι : Type}

inductive ProducerMove (calls : QueueCalls Queue Act Choice) (state : State Queue) (capture : Mat)
    (choice : Choice) : State Queue → Prop
  | test (pc : state.producer = .loop) :
      ProducerMove calls state capture choice
        { state with producer := if state.isRunning then .capturing else .stopped }
  | retry (pc : state.producer = .capturing) (empty : capture.empty = true)
      (few : ¬ state.emptyFrameRetries + 1 > maxRetries) :
      ProducerMove calls state capture choice { state with
        captured := state.captured ++ [capture], emptyFrameRetries := state.emptyFrameRetries + 1,
        producer := .loop }
  | giveUp (pc : state.producer = .capturing) (empty : capture.empty = true)
      (many : state.emptyFrameRetries + 1 > maxRetries) :
      ProducerMove calls state capture choice { state with
        captured := state.captured ++ [capture], emptyFrameRetries := state.emptyFrameRetries + 1
        isRunning := false, producer := .stopped }
  | offer (pc : state.producer = .capturing) (full : capture.empty = false) {frames : Queue Mat}
      (called : calls.next state.frames (calls.callEnqueue capture) = some frames) :
      ProducerMove calls state capture choice { state with
        captured := state.captured ++ [capture], emptyFrameRetries := 0, frames := frames,
        producer := .offering capture }
  | access {frameClone : Mat} (pc : state.producer = .offering frameClone) {frames : Queue Mat}
      (taken : calls.next state.frames (calls.producer choice) = some frames) :
      ProducerMove calls state capture choice { state with
        frames := frames, producer := if calls.finished frames then .loop else .offering frameClone }

inductive ConsumerMove (calls : QueueCalls Queue Act Choice) (lib : External) (config : ModelConfig)
    (state : State Queue) (iteration : Iteration) (choice : Choice) : State Queue → Prop
  | stop (pc : state.consumer = .loop) (off : state.isRunning = false) :
      ConsumerMove calls lib config state iteration choice { state with consumer := .stopped }
  | ask (pc : state.consumer = .loop) (on : state.isRunning = true) {frames : Queue Mat}
      (called : calls.next state.frames calls.callDequeue = some frames) :
      ConsumerMove calls lib config state iteration choice
        { state with frames := frames, consumer := .dequeuing }
  | access (pc : state.consumer = .dequeuing) {frames : Queue Mat}
      (taken : calls.next state.frames (calls.consumer choice) = some frames)
        (pending : calls.answered state.frames frames = none) :
      ConsumerMove calls lib config state iteration choice { state with frames := frames }
  | nullopt (pc : state.consumer = .dequeuing) {frames : Queue Mat}
      (taken : calls.next state.frames (calls.consumer choice) = some frames)
      (drained : calls.answered state.frames frames = some none) :
      ConsumerMove calls lib config state iteration choice
        { state with frames := frames, consumer := .loop }
  | fetch (pc : state.consumer = .dequeuing) {frames : Queue Mat}
      (taken : calls.next state.frames (calls.consumer choice) = some frames) {cell : Cell Mat}
      (found : calls.answered state.frames frames = some (some cell)) :
      ConsumerMove calls lib config state iteration choice { state with
        frames := frames, dequeued := state.dequeued ++ [takenFrame cell],
        consumer := .fetched (takenFrame cell) }
  | pass {frame : Mat} (pc : state.consumer = .fetched frame) {locals : Consumer}
      (processed : state.locals.process lib config frame iteration = .ok (locals,none)) :
      ConsumerMove calls lib config state iteration choice
        { state with locals := locals, consumer := .loop }
  | offer {frame : Mat} (pc : state.consumer = .fetched frame) {locals : Consumer}
      {value : FrameWithResults}
      (processed : state.locals.process lib config frame iteration = .ok (locals,some value))
      {results : Queue FrameWithResults}
      (called : calls.next state.results (calls.callEnqueue value) = some results) :
      ConsumerMove calls lib config state iteration choice { state with
        locals := locals, results := results, consumer := .offering value iteration.totalStart }
  | deliver {value : FrameWithResults} {totalStart : Int}
      (pc : state.consumer = .offering value totalStart)
      {results : Queue FrameWithResults}
      (taken : calls.next state.results (calls.producer choice) = some results)
      (pending : calls.finished results = false) :
      ConsumerMove calls lib config state iteration choice
        { state with results := results, consumer := .offering value totalStart }
  | record {value : FrameWithResults} {totalStart : Int}
      (pc : state.consumer = .offering value totalStart)
      {results : Queue FrameWithResults}
      (taken : calls.next state.results (calls.producer choice) = some results)
      (done : calls.finished results = true) :
      ConsumerMove calls lib config state iteration choice { state with
        results := results
        latenciesUs := LatencyTracker.record state.latenciesUs (iteration.totalEnd - totalStart)
        consumer := .loop }

inductive DisplayMove (calls : QueueCalls Queue Act Choice) (state : State Queue) (key : Char)
    (choice : Choice) : State Queue → Prop
  | stop (pc : state.display = .loop) (off : state.isRunning = false) :
      DisplayMove calls state key choice { state with display := .stopped }
  | ask (pc : state.display = .loop) (on : state.isRunning = true) {results : Queue FrameWithResults}
      (called : calls.next state.results calls.callDequeue = some results) :
      DisplayMove calls state key choice { state with results := results, display := .dequeuing }
  | access (pc : state.display = .dequeuing) {results : Queue FrameWithResults}
      (taken : calls.next state.results (calls.consumer choice) = some results)
      (pending : calls.answered state.results results = none) :
      DisplayMove calls state key choice { state with results := results }
  | nullopt (pc : state.display = .dequeuing) {results : Queue FrameWithResults}
      (taken : calls.next state.results (calls.consumer choice) = some results)
      (drained : calls.answered state.results results = some none) :
      DisplayMove calls state key choice { state with results := results, display := .loop }
  | fetch (pc : state.display = .dequeuing) {results : Queue FrameWithResults}
      (taken : calls.next state.results (calls.consumer choice) = some results)
        {cell : Cell FrameWithResults}
      (found : calls.answered state.results results = some (some cell)) :
      DisplayMove calls state key choice { state with
        results := results, displayed := state.displayed ++ [takenResults cell], display := .showing }
  | quit (pc : state.display = .showing) (pressed : key = 'q' ∨ key.toNat = 27) :
      DisplayMove calls state key choice { state with isRunning := false, display := .stopped }
  | carryOn (pc : state.display = .showing) (other : ¬ (key = 'q' ∨ key.toNat = 27)) :
      DisplayMove calls state key choice { state with display := .loop }

section Inversion
variable {calls : QueueCalls Queue Act Choice} {lib : External} {config : ModelConfig}
  {state after : State Queue} {choice : Choice}

theorem producerStep_move {capture : Mat}
    (taken : producerStep calls state capture choice = some after) :
    ProducerMove calls state capture choice after := by
  unfold producerStep at taken
  split at taken
  next pc =>
    cases Option.some.inj taken
    exact .test pc
  next pc =>
    dsimp only at taken
    split at taken
    next empty =>
      split at taken
      next many =>
        cases Option.some.inj taken
        exact .giveUp pc empty many
      next few =>
        cases Option.some.inj taken
        exact .retry pc empty few
    next full =>
      obtain ⟨frames,called,rest⟩ := Option.bind_eq_some_iff.mp taken
      cases Option.some.inj rest
      exact .offer pc (by simpa using full) called
  next pc =>
    obtain ⟨frames,accessed,rest⟩ := Option.bind_eq_some_iff.mp taken
    cases Option.some.inj rest
    exact .access pc accessed
  next => contradiction

theorem consumerStep_move {iteration : Iteration}
    (taken : consumerStep calls lib config state iteration choice = some after) :
    ConsumerMove calls lib config state iteration choice after := by
  unfold consumerStep at taken
  split at taken
  next pc =>
    split at taken
    next on =>
      obtain ⟨frames,called,rest⟩ := Option.bind_eq_some_iff.mp taken
      cases Option.some.inj rest
      exact .ask pc on called
    next off =>
      cases Option.some.inj taken
      exact .stop pc (by simpa using off)
  next pc =>
    obtain ⟨frames,accessed,rest⟩ := Option.bind_eq_some_iff.mp taken
    split at rest
    next pending =>
      cases Option.some.inj rest
      exact .access pc accessed pending
    next drained =>
      cases Option.some.inj rest
      exact .nullopt pc accessed drained
    next cell found =>
      cases Option.some.inj rest
      exact .fetch pc accessed found
  next frame pc =>
    split at taken
    next locals processed =>
      cases Option.some.inj taken
      exact .pass pc processed
    next locals value processed =>
      obtain ⟨results,called,rest⟩ := Option.bind_eq_some_iff.mp taken
      cases Option.some.inj rest
      exact .offer pc processed called
    next => contradiction
  next value totalStart pc =>
    obtain ⟨results,accessed,rest⟩ := Option.bind_eq_some_iff.mp taken
    split at rest
    next done =>
      cases Option.some.inj rest
      exact .record pc accessed done
    next pending =>
      cases Option.some.inj rest
      exact .deliver pc accessed (by simpa using pending)
  next => contradiction

theorem displayStep_move {key : Char} (taken : displayStep calls state key choice = some after) :
    DisplayMove calls state key choice after := by
  unfold displayStep at taken
  split at taken
  next pc =>
    split at taken
    next on =>
      obtain ⟨results,called,rest⟩ := Option.bind_eq_some_iff.mp taken
      cases Option.some.inj rest
      exact .ask pc on called
    next off =>
      cases Option.some.inj taken
      exact .stop pc (by simpa using off)
  next pc =>
    obtain ⟨results,accessed,rest⟩ := Option.bind_eq_some_iff.mp taken
    split at rest
    next pending =>
      cases Option.some.inj rest
      exact .access pc accessed pending
    next drained =>
      cases Option.some.inj rest
      exact .nullopt pc accessed drained
    next cell found =>
      cases Option.some.inj rest
      exact .fetch pc accessed found
  next pc =>
    split at taken
    next pressed =>
      cases Option.some.inj taken
      exact .quit pc pressed
    next other =>
      cases Option.some.inj taken
      exact .carryOn pc other
  next => contradiction

theorem frames_move {size : Nat} {action : Action}
    (taken : step calls lib config state action choice = some after) :
    (calls.machine size).Moves state.frames after.frames (frameAct calls state action choice) := by
  cases action with
  | signal =>
    cases Option.some.inj taken
    rfl
  | producer capture =>
    cases producerStep_move taken with
    | test pc => simp [frameAct,pc,Machine.Moves]
    | retry pc empty few => simp [frameAct,pc,empty,Machine.Moves]
    | giveUp pc empty many => simp [frameAct,pc,empty,Machine.Moves]
    | offer pc full called => simpa [frameAct,pc,full,Machine.Moves,QueueCalls.machine] using called
    | access pc accessed => simpa [frameAct,pc,Machine.Moves,QueueCalls.machine] using accessed
  | consumer iteration =>
    cases consumerStep_move taken with
    | stop pc off => simp [frameAct,pc,off,Machine.Moves]
    | ask pc on called => simpa [frameAct,pc,on,Machine.Moves,QueueCalls.machine] using called
    | access pc accessed _ | nullopt pc accessed _ | fetch pc accessed _ =>
      simpa [frameAct,pc,Machine.Moves,QueueCalls.machine] using accessed
    | pass pc _ | offer pc _ _ | deliver pc _ _ | record pc _ _ => simp [frameAct,pc,Machine.Moves]
  | display key => cases displayStep_move taken <;> rfl

theorem results_move {size : Nat} {action : Action}
    (taken : step calls lib config state action choice = some after) :
    (calls.machine size).Moves state.results after.results
      (resultAct calls lib config state action choice) := by
  cases action with
  | signal =>
    cases Option.some.inj taken
    rfl
  | producer capture => cases producerStep_move taken <;> rfl
  | consumer iteration =>
    cases consumerStep_move taken with
    | offer pc processed called =>
      simpa [resultAct,pc,processed,Machine.Moves,QueueCalls.machine] using called
    | deliver pc accessed _ | record pc accessed _ =>
      simpa [resultAct,pc,Machine.Moves,QueueCalls.machine] using accessed
    | pass pc processed => simp [resultAct,pc,processed,Machine.Moves]
    | stop pc _ | ask pc _ _ | access pc _ _ | nullopt pc _ _ | fetch pc _ _ =>
      simp [resultAct,pc,Machine.Moves]
  | display key =>
    cases displayStep_move taken with
    | stop pc off => simp [resultAct,pc,off,Machine.Moves]
    | ask pc on called => simpa [resultAct,pc,on,Machine.Moves,QueueCalls.machine] using called
    | access pc accessed _ | nullopt pc accessed _ | fetch pc accessed _ =>
      simpa [resultAct,pc,Machine.Moves,QueueCalls.machine] using accessed
    | quit pc _ | carryOn pc _ => simp [resultAct,pc,Machine.Moves]

end Inversion

section Queues
variable {calls : QueueCalls Queue Act Choice} {read : ι → Action × Choice} {lib : External}
  {config : ModelConfig} {buffer : TensorBuffer} {frameSize resultSize : Nat}
  {condition : ∀ {α : Type}, Queue α → Act α → Prop} {guard : State Queue → ι → Prop}
  {state : State Queue}

/-- The frame queue sees one producer and one consumer, in runs that meet the same condition. -/
theorem frames_reachable
    (meets : ∀ state input, guard state input →
      onQueues calls lib config condition state (read input).1 (read input).2)
    (reachable : (program calls read lib config buffer frameSize resultSize).Reachable guard state) :
    (calls.machine frameSize).Reachable condition state.frames :=
  reachable.component State.frames (fun state input =>
    frameAct calls state (read input).1 (read input).2) rfl
    (fun _ _ _ taken => frames_move taken) (fun _ _ allowed => (meets _ _ allowed).left)

theorem results_reachable
    (meets : ∀ state input, guard state input →
      onQueues calls lib config condition state (read input).1 (read input).2)
    (reachable : (program calls read lib config buffer frameSize resultSize).Reachable guard state) :
    (calls.machine resultSize).Reachable condition state.results :=
  reachable.component State.results (fun state input =>
    resultAct calls lib config state (read input).1 (read input).2)
    rfl (fun _ _ _ taken => results_move taken) (fun _ _ allowed => (meets _ _ allowed).right)

end Queues
end YoloEngine.Concurrent
