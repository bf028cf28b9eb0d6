import YoloEngine.Pipeline.Moves
import YoloEngine.Pipeline.Order

/-! What the program keeps of its run against what its queues keep of their calls. Whatever happens
inside a queue, the frames enqueued are the captures that are not empty, and the frames dequeued and
the pairs displayed are what the queues have answered. -/
namespace YoloEngine.Concurrent
open Foundation
open Pipeline (Action takenFrame takenResults nonEmpty)
variable {Queue Act : Type → Type} {Choice ι : Type} {calls : QueueCalls Queue Act Choice}
  {begun : ∀ {α : Type}, Queue α → List α} {answers : ∀ {α : Type}, Queue α → List (Cell α)}

/-- A queue keeps the values passed to `enqueue` and the cells that `dequeue` has answered. -/
structure Records (calls : QueueCalls Queue Act Choice) (begun : ∀ {α : Type}, Queue α → List α)
    (answers : ∀ {α : Type}, Queue α → List (Cell α)) : Prop where
  new {α : Type} (maxSize : Nat) :
    begun (calls.new maxSize : Queue α) = [] ∧ answers (calls.new maxSize : Queue α) = []
  callEnqueue {α : Type} {before after : Queue α} {value : α}
    (called : calls.next before (calls.callEnqueue value) = some after) :
    begun after = begun before ++ [value] ∧ answers after = answers before
  producer {α : Type} {before after : Queue α} {choice : Choice}
    (taken : calls.next before (calls.producer choice) = some after) :
    begun after = begun before ∧ answers after = answers before
  callDequeue {α : Type} {before after : Queue α}
    (called : calls.next before calls.callDequeue = some after) :
    begun after = begun before ∧ answers after = answers before
  consumer {α : Type} {before after : Queue α} {choice : Choice}
    (taken : calls.next before (calls.consumer choice) = some after) :
    begun after = begun before ∧
      answers after = answers before ++ (calls.answered before after).join.toList

/-- The captures that are not empty are enqueued, a thread inside `enqueue` passes the value begun
last, and what the program has fetched and shown is what its queues have answered. -/
structure Recorded (begun : ∀ {α : Type}, Queue α → List α)
    (answers : ∀ {α : Type}, Queue α → List (Cell α)) (state : State Queue) : Prop where
  captured : begun state.frames = nonEmpty state.captured
  frame : ∀ frameClone, state.producer = .offering frameClone →
    (begun state.frames).getLast? = some frameClone
  result : ∀ value totalStart, state.consumer = .offering value totalStart →
    (begun state.results).getLast? = some value
  dequeued : state.dequeued = (answers state.frames).map takenFrame
  displayed : state.displayed = (answers state.results).map takenResults

section Steps
variable {lib : External} {config : ModelConfig} {state after : State Queue} {choice : Choice}

theorem Recorded.producer (records : Records calls @begun @answers)
    (recorded : Recorded @begun @answers state) {capture : Mat}
    (move : ProducerMove calls state capture choice after) :
    Recorded @begun @answers after := by
  obtain ⟨captured,frame,result,dequeued,displayed⟩ := recorded
  cases move with
  | test pc => exact ⟨captured,by cases state.isRunning <;> simp,result,dequeued,displayed⟩
  | retry pc empty _ | giveUp pc empty _ =>
    exact ⟨captured.trans (Pipeline.nonEmpty_empty _ empty).symm,by simp,result,dequeued,displayed⟩
  | offer pc full called =>
    obtain ⟨grown,same⟩ := records.callEnqueue called
    refine ⟨?_,fun frameClone offered => ?_,result,by rw [same]; exact dequeued,displayed⟩
    · rw [grown,captured,Pipeline.nonEmpty_capture _ full]
    · cases offered
      simp [grown]
  | @access frameClone pc frames taken =>
    obtain ⟨kept,same⟩ := records.producer taken
    refine ⟨by rw [kept]; exact captured,fun passed offered => ?_,result,
      by rw [same]; exact dequeued,displayed⟩
    cases done : calls.finished frames with
    | true => simp [done] at offered
    | false =>
      simp only [done] at offered
      cases offered
      rw [kept]
      exact frame _ pc

theorem Recorded.consumer (records : Records calls @begun @answers)
    (recorded : Recorded @begun @answers state) {iteration : Iteration}
    (move : ConsumerMove calls lib config state iteration choice after) :
    Recorded @begun @answers after := by
  obtain ⟨captured,frame,result,dequeued,displayed⟩ := recorded
  cases move with
  | stop pc _ | pass pc _ => exact ⟨captured,frame,by simp,dequeued,displayed⟩
  | ask pc on called =>
    obtain ⟨kept,same⟩ := records.callDequeue called
    exact ⟨by rw [kept]; exact captured,by rw [kept]; exact frame,by simp,
      by rw [same]; exact dequeued,displayed⟩
  | access pc taken pending =>
    obtain ⟨kept,same⟩ := records.consumer taken
    rw [pending] at same
    refine ⟨by rw [kept]; exact captured,by rw [kept]; exact frame,result,?_,displayed⟩
    simpa [same] using dequeued
  | nullopt pc taken drained =>
    obtain ⟨kept,same⟩ := records.consumer taken
    rw [drained] at same
    refine ⟨by rw [kept]; exact captured,by rw [kept]; exact frame,by simp,?_,displayed⟩
    simpa [same] using dequeued
  | fetch pc taken found =>
    obtain ⟨kept,grown⟩ := records.consumer taken
    rw [found] at grown
    refine ⟨by rw [kept]; exact captured,by rw [kept]; exact frame,by simp,?_,displayed⟩
    simp [grown,dequeued]
  | offer pc processed called =>
    obtain ⟨grown,same⟩ := records.callEnqueue called
    refine ⟨captured,frame,fun value totalStart offered => ?_,dequeued,by rw [same]; exact displayed⟩
    cases offered
    simp [grown]
  | deliver pc taken pending =>
    obtain ⟨kept,same⟩ := records.producer taken
    refine ⟨captured,frame,fun value totalStart offered => ?_,dequeued,by rw [same]; exact displayed⟩
    cases offered
    rw [kept]
    exact result _ _ pc
  | record pc taken done =>
    obtain ⟨_,same⟩ := records.producer taken
    exact ⟨captured,frame,by simp,dequeued,by rw [same]; exact displayed⟩

theorem Recorded.display (records : Records calls @begun @answers)
    (recorded : Recorded @begun @answers state) {key : Char}
    (move : DisplayMove calls state key choice after) :
    Recorded @begun @answers after := by
  obtain ⟨captured,frame,result,dequeued,displayed⟩ := recorded
  cases move with
  | stop pc _ | quit pc _ | carryOn pc _ => exact ⟨captured,frame,result,dequeued,displayed⟩
  | ask pc on called =>
    obtain ⟨kept,same⟩ := records.callDequeue called
    exact ⟨captured,frame,by rw [kept]; exact result,dequeued,by rw [same]; exact displayed⟩
  | access pc taken pending =>
    obtain ⟨kept,same⟩ := records.consumer taken
    rw [pending] at same
    refine ⟨captured,frame,by rw [kept]; exact result,dequeued,?_⟩
    simpa [same] using displayed
  | nullopt pc taken drained =>
    obtain ⟨kept,same⟩ := records.consumer taken
    rw [drained] at same
    refine ⟨captured,frame,by rw [kept]; exact result,dequeued,?_⟩
    simpa [same] using displayed
  | fetch pc taken found =>
    obtain ⟨kept,grown⟩ := records.consumer taken
    rw [found] at grown
    refine ⟨captured,frame,by rw [kept]; exact result,dequeued,?_⟩
    simp [grown,displayed]

theorem Recorded.step (records : Records calls @begun @answers)
    (recorded : Recorded @begun @answers state) {action : Action}
    (taken : step calls lib config state action choice = some after) :
    Recorded @begun @answers after := by
  cases action with
  | signal =>
    cases Option.some.inj taken
    exact { recorded with }
  | producer capture => exact recorded.producer records (producerStep_move taken)
  | consumer iteration => exact recorded.consumer records (consumerStep_move taken)
  | display key => exact recorded.display records (displayStep_move taken)

end Steps

theorem recorded_reachable (records : Records calls @begun @answers) {read : ι → Action × Choice}
    {lib : External} {config : ModelConfig} {buffer : TensorBuffer} {frameSize resultSize : Nat}
    {guard : State Queue → ι → Prop} {state : State Queue}
    (reachable : (program calls read lib config buffer frameSize resultSize).Reachable guard state) :
    Recorded @begun @answers state := by
  apply reachable.invariant (Recorded @begun @answers)
  · obtain ⟨noFrames,noneFetched⟩ := @records.new Mat frameSize
    obtain ⟨_,noneShown⟩ := @records.new FrameWithResults resultSize
    exact ⟨noFrames,by simp [program,State.new],by simp [program,State.new],
      by simp [program,State.new,noneFetched],by simp [program,State.new,noneShown]⟩
  · exact fun _ _ _ recorded _ taken => recorded.step records taken

end YoloEngine.Concurrent
