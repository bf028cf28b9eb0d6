import YoloEngine.Foundation.Streak
import YoloEngine.Pipeline.Order

/-! What `producerThread` makes of a stream of captures while no other thread clears
`is_running`: it passes on every capture that is not empty, and stops at the first place
that ends thirty-one empty captures in a row. -/
namespace YoloEngine.Pipeline
open Foundation
variable {lib : External} {config : ModelConfig} {buffer : TensorBuffer} {frameSize resultSize : Nat}

/-- The frame a step passes to `frame_queue.enqueue`. -/
def passes (state : State) : Action → List Mat
  | .producer _ => cloned state.producer
  | _ => []

/-- The queue after the frames have been enqueued in turn. -/
def enqueueEach (queue : LockFreeQueue Mat) (frames : List Mat) : LockFreeQueue Mat :=
  frames.foldl (fun queue frame => (queue.enqueueMove frame).1) queue

/-- The camera delivers the given captures, and neither a signal nor a key clears `is_running`. -/
def undisturbed (captures : ℕ → Mat) (state : State) : Action → Prop
  | .signal => False
  | .producer capture => state.producer = .capturing → capture = captures state.captured.length
  | .consumer _ => True
  | .display key => state.display = .showing → ¬ (key = 'q' ∨ key.toNat = 27)

instance (captures : ℕ → Mat) (state : State) (action : Action) :
    Decidable (undisturbed captures state action) := by
  cases action <;> unfold undisturbed <;> infer_instance

def AllEmpty (captures : ℕ → Mat) (last : ℕ) : Prop :=
  30 ≤ last ∧ ∀ i, last - 30 ≤ i → i ≤ last → (captures i).empty = true

def emptyAt (captures : ℕ → Mat) (i : ℕ) : Bool := (captures i).empty

private theorem allEmpty_iff {captures : ℕ → Mat} {last : ℕ} :
    AllEmpty captures last ↔ maxRetries < streak (emptyAt captures) (last + 1) := by
  have limit : maxRetries = 30 := rfl
  rw [← Nat.succ_le_iff,le_streak_iff]
  constructor
  · intro window
    obtain ⟨room,window⟩ := window
    exact ⟨Nat.succ_le_succ room,fun i late inside => window i (by omega) (by omega)⟩
  · intro window
    obtain ⟨room,window⟩ := window
    exact ⟨Nat.le_of_succ_le_succ room,fun i late inside =>
      window i (by omega) (by omega)⟩

/-- The retry counter is the number of empty captures in a row, and it has not passed its limit
before. -/
structure Producing (captures : ℕ → Mat) (state : State) (passed : List Mat) : Prop where
  captured : state.captured = (List.range state.captured.length).map captures
  passed : passed ++ cloned state.producer = nonEmpty state.captured
  retries : state.emptyFrameRetries = streak (emptyAt captures) state.captured.length
  running : state.isRunning = false ↔ state.producer = .stopped
  stopped : state.producer = .stopped ↔ maxRetries < streak (emptyAt captures) state.captured.length
  earlier : ∀ place < state.captured.length, streak (emptyAt captures) place ≤ maxRetries

section Steps
variable {captures : ℕ → Mat} {state after : State} {passed : List Mat}

theorem Producing.capture (producing : Producing captures state passed)
    (capturing : state.producer = .capturing) {capture : Mat}
    (delivered : capture = captures state.captured.length)
    (taken : producerStep state capture = some after) : Producing captures after passed := by
  obtain ⟨captured,cloning,retries,running,stopped,earlier⟩ := producing
  have below : streak (emptyAt captures) state.captured.length ≤ maxRetries := by
    rw [← not_lt,← stopped,capturing]
    simp
  have on : state.isRunning = true := by
    cases off : state.isRunning with
    | true => rfl
    | false => exact absurd (running.mp off) (by simp [capturing])
  have length : (state.captured ++ [capture]).length = state.captured.length + 1 := by simp
  have grown : state.captured ++ [capture] =
    (List.range (state.captured ++ [capture]).length).map captures := by
    rw [length,List.range_succ,List.map_append,← captured,List.map_singleton,delivered]
  have before : ∀ place < (state.captured ++ [capture]).length, streak (emptyAt captures) place ≤
    maxRetries := by
    intro place inside
    rw [length] at inside
    rcases Nat.lt_succ_iff_lt_or_eq.mp inside with old | rfl
    · exact earlier place old
    · exact below
  rw [capturing] at cloning
  simp only [cloned,List.append_nil] at cloning
  rw [producerStep,capturing] at taken
  cases empty : capture.empty with
  | true =>
    have marks : emptyAt captures state.captured.length = true := by rw [emptyAt,← delivered,empty]
    have counted : state.emptyFrameRetries + 1 = streak (emptyAt captures)
      (state.captured ++ [capture]).length := by
      rw [length,streak_marked marks,retries]
    have kept : passed = nonEmpty (state.captured ++ [capture]) := by
      rw [nonEmpty_empty _ empty]
      exact cloning
    simp only [empty,if_true] at taken
    split at taken
    next limit =>
      cases Option.some.inj taken
      exact ⟨grown,by simpa [cloned] using kept,counted,iff_of_true rfl rfl,
        iff_of_true rfl (by rw [← counted]; exact limit),before⟩
    next limit =>
      cases Option.some.inj taken
      refine ⟨grown,by simpa [cloned] using kept,counted,iff_of_false (by simp [on]) (by simp),
        iff_of_false (by simp) (by rw [← counted]; exact limit),before⟩
  | false =>
    have clears : emptyAt captures state.captured.length = false := by rw [emptyAt,← delivered,empty]
    have reset : 0 = streak (emptyAt captures) (state.captured ++ [capture]).length := by
      rw [length,streak_unmarked clears]
    simp only [empty] at taken
    cases Option.some.inj taken
    refine ⟨grown,?_,reset,iff_of_false (by simp [on]) (by simp),
      iff_of_false (by simp) (by rw [← reset]; exact Nat.not_lt_zero _),before⟩
    rw [nonEmpty_capture _ empty,← cloning]
    rfl

theorem Producing.producer (producing : Producing captures state passed) {capture : Mat}
    (delivered : undisturbed captures state (.producer capture))
    (taken : producerStep state capture = some after) :
    Producing captures after (passed ++ passes state (.producer capture)) := by
  obtain ⟨captured,cloning,retries,running,stopped,earlier⟩ := producing
  simp only [passes]
  cases producer : state.producer with
  | stopped =>
    rw [producerStep,producer] at taken
    contradiction
  | capturing =>
    have kept := Producing.capture ⟨captured,cloning,retries,running,stopped,earlier⟩ producer
      (delivered producer) taken
    simpa [cloned] using kept
  | loop =>
    rw [producer] at cloning running stopped
    have on : state.isRunning = true := by
      cases off : state.isRunning with
      | true => rfl
      | false => exact absurd (running.mp off) (by simp)
    have below := stopped.not.mp (by simp)
    simp only [producerStep,producer,on,if_true] at taken
    cases Option.some.inj taken
    simp only [cloned,List.append_nil] at cloning ⊢
    exact ⟨captured,by simpa [cloned] using cloning,retries,iff_of_false (by simp) (by simp),
      iff_of_false (by simp) below,earlier⟩
  | offering frameClone =>
    rw [producer] at cloning running stopped
    have below := stopped.not.mp (by simp)
    have on := running.not.mpr (by simp)
    simp only [producerStep,producer] at taken
    cases Option.some.inj taken
    exact ⟨captured,by simpa [cloned] using cloning,retries,iff_of_false on (by simp),
      iff_of_false (by simp) below,earlier⟩

/-- Steps of the other threads touch nothing the producer works on. -/
theorem Producing.other (producing : Producing captures state passed)
    (frames : after.captured = state.captured) (producer : after.producer = state.producer)
    (retries : after.emptyFrameRetries = state.emptyFrameRetries)
    (running : after.isRunning = state.isRunning) : Producing captures after passed where
  captured := by rw [frames]; exact producing.captured
  passed := by rw [frames,producer]; exact producing.passed
  retries := by rw [frames,retries]; exact producing.retries
  running := by rw [running,producer]; exact producing.running
  stopped := by rw [frames,producer]; exact producing.stopped
  earlier := by rw [frames]; exact producing.earlier

private theorem consumerStep_other {iteration : Iteration}
    (taken : consumerStep lib config state iteration = some after) :
    after.captured = state.captured ∧ after.producer = state.producer ∧
      after.emptyFrameRetries = state.emptyFrameRetries ∧ after.isRunning = state.isRunning := by
  unfold consumerStep at taken
  split at taken
  next => cases Option.some.inj taken; exact ⟨rfl,rfl,rfl,rfl⟩
  next => split at taken <;> cases Option.some.inj taken <;> exact ⟨rfl,rfl,rfl,rfl⟩
  next =>
    split at taken
    next => cases Option.some.inj taken; exact ⟨rfl,rfl,rfl,rfl⟩
    next => cases Option.some.inj taken; exact ⟨rfl,rfl,rfl,rfl⟩
    next => contradiction
  next => cases Option.some.inj taken; exact ⟨rfl,rfl,rfl,rfl⟩
  next => contradiction

private theorem displayStep_other {key : Char} (allowed : undisturbed captures state (.display key))
    (taken : displayStep state key = some after) :
    after.captured = state.captured ∧ after.producer = state.producer ∧
      after.emptyFrameRetries = state.emptyFrameRetries ∧ after.isRunning = state.isRunning := by
  unfold displayStep at taken
  split at taken
  next => cases Option.some.inj taken; exact ⟨rfl,rfl,rfl,rfl⟩
  next => split at taken <;> cases Option.some.inj taken <;> exact ⟨rfl,rfl,rfl,rfl⟩
  next showing =>
    rw [if_neg (allowed showing)] at taken
    cases Option.some.inj taken
    exact ⟨rfl,rfl,rfl,rfl⟩
  next => contradiction

theorem Producing.step (producing : Producing captures state passed) {action : Action}
    (allowed : undisturbed captures state action)
    (taken : next lib config state action = some after) :
    Producing captures after (passed ++ passes state action) := by
  cases action with
  | signal => exact allowed.elim
  | producer capture => exact producing.producer allowed taken
  | consumer iteration =>
    obtain ⟨frames,producer,retries,running⟩ := consumerStep_other taken
    simpa [passes] using producing.other frames producer retries running
  | display key =>
    obtain ⟨frames,producer,retries,running⟩ := displayStep_other allowed taken
    simpa [passes] using producing.other frames producer retries running

end Steps

theorem producer_ready {state : State} (going : state.producer ≠ .stopped) (capture : Mat) :
    ∃ after, next lib config state (.producer capture) = some after := by
  simp only [next,producerStep]
  cases producer : state.producer with
  | stopped => exact absurd producer going
  | loop | offering frameClone => exact ⟨_,rfl⟩
  | capturing =>
    dsimp only
    split
    · split <;> exact ⟨_,rfl⟩
    · exact ⟨_,rfl⟩

private theorem producerStep_enqueues {state after : State} {capture : Mat}
    (taken : next lib config state (.producer capture) = some after) :
    after.frameQueue = enqueueEach state.frameQueue (passes state (.producer capture)) := by
  simp only [next,producerStep] at taken
  cases producer : state.producer with
  | stopped => simp [producer] at taken
  | loop | offering frameClone =>
    simp only [producer,Option.some.injEq] at taken
    simp [← taken,passes,producer,cloned,enqueueEach]
  | capturing =>
    have kept : after.frameQueue = state.frameQueue := by
      simp only [producer] at taken
      split at taken
      · split at taken <;> cases Option.some.inj taken <;> rfl
      · cases Option.some.inj taken
        rfl
    simp [kept,passes,producer,cloned,enqueueEach]

/-- A step that passes no frame does not enqueue. -/
private theorem next_dequeues {state after : State} {action : Action} (none : passes state action = [])
    (taken : next lib config state action = some after) :
    after.frameQueue = state.frameQueue ∨ after.frameQueue = state.frameQueue.dequeue.1 := by
  cases action with
  | signal =>
    cases Option.some.inj taken
    exact Or.inl rfl
  | producer capture =>
    rw [producerStep_enqueues taken,none]
    exact Or.inl rfl
  | consumer iteration =>
    simp only [next] at taken
    unfold consumerStep at taken
    split at taken
    next => cases Option.some.inj taken; exact Or.inl rfl
    next =>
      split at taken
      next queue answer =>
        cases Option.some.inj taken
        exact Or.inr (by rw [answer])
      next queue cell answer =>
        cases Option.some.inj taken
        exact Or.inr (by rw [answer])
    next => split at taken <;> cases taken <;> exact Or.inl rfl
    next => cases Option.some.inj taken; exact Or.inl rfl
    next => contradiction
  | display key =>
    simp only [next] at taken
    unfold displayStep at taken
    split at taken
    next => cases Option.some.inj taken; exact Or.inl rfl
    next => split at taken <;> cases Option.some.inj taken <;> exact Or.inl rfl
    next => split at taken <;> cases Option.some.inj taken <;> exact Or.inl rfl
    next => contradiction

/-- However the threads interleave, as long as only the producer may clear `is_running`: it has
enqueued the captures that are not empty, and it stops with the first capture that ends a window of
empty ones. -/
theorem producer_stops_iff (captures : ℕ → Mat) {state : State} {passed : List Mat}
    (reachable : ((pipeline lib config buffer frameSize resultSize).logged passes).Reachable
      (fun entry => undisturbed captures entry.1) (state,passed)) :
    state.captured = (List.range state.captured.length).map captures ∧
    passed ++ cloned state.producer = nonEmpty state.captured ∧
    (state.isRunning = false ↔ state.producer = .stopped) ∧
    (∀ m, state.captured.length = m + 1 →
      (state.producer = .stopped ↔ AllEmpty captures m ∧ ∀ earlier < m, ¬ AllEmpty captures earlier)) ∧
    (state.captured = [] → state.producer ≠ .stopped) ∧
    (state.producer ≠ .stopped → ∀ capture, ∃ after,
      next lib config state (.producer capture) = some after) ∧
    (∀ capture after, next lib config state (.producer capture) = some after →
      after.frameQueue = enqueueEach state.frameQueue (passes state (.producer capture))) ∧
    (∀ action after, passes state action = [] → next lib config state action = some after →
      after.frameQueue = state.frameQueue ∨ after.frameQueue = state.frameQueue.dequeue.1) := by
  have producing : Producing captures state passed := by
    apply reachable.invariant (fun entry => Producing captures entry.1 entry.2)
    · exact ⟨rfl,rfl,rfl,iff_of_false nofun nofun,iff_of_false nofun (Nat.not_lt_zero _),nofun⟩
    · intro before action after earlier allowed taken
      obtain ⟨stepped,emitted⟩ := Machine.logged_next taken
      rw [emitted]
      exact earlier.step allowed stepped
  refine ⟨producing.captured,producing.passed,producing.running,fun m length => ?_,fun none => ?_,
    fun going capture => producer_ready going capture,fun capture after taken =>
      producerStep_enqueues taken,
    fun action after none taken => next_dequeues none taken⟩
  · rw [producing.stopped,length,allEmpty_iff]
    refine ⟨fun limit => ⟨limit,fun earlier before => ?_⟩,fun window => window.left⟩
    rw [allEmpty_iff,not_lt]
    exact producing.earlier _ (by omega)
  · rw [Ne,producing.stopped,none]
    exact Nat.not_lt_zero _

/-- One frame, and then the camera is gone. -/
def cameraGone (frame : Mat) : ℕ → Mat
  | 0 => frame
  | _ + 1 => .released

def readsCameraGone (frame : Mat) : List Action :=
  [.producer frame,.producer frame,.producer frame] ++ List.replicate 62 (.producer .released)

theorem cameraGone_stops :
    let lib : External := ⟨fun _ _ _ _ _ _ => [],fun _ _ => [],fun _ _ _ _ => some []⟩
    let frame : Mat := ⟨1,1,3,[0,0,0]⟩
    let config : ModelConfig := ⟨1,0,0,1 / 4,9 / 20⟩
    ∃ buffer, TensorBuffer.new config = .ok buffer ∧ ∃ state passed,
      ((pipeline lib config buffer 5 5).logged passes).run
        (fun entry => undisturbed (cameraGone frame) entry.1) (.new buffer 5 5,[])
        (readsCameraGone frame) = some (state,passed) ∧
      passed = [frame] ∧ AllEmpty (cameraGone frame) 31 ∧ state.isRunning = false ∧
      state.frameQueue.contents = [.item frame] := by
  intro lib frame config
  refine ⟨_,rfl,?_⟩
  let buffer : TensorBuffer := ⟨List.replicate 3 0,[1,3,1,1],3,1,rfl⟩
  have shown : (((pipeline lib config buffer 5 5).logged passes).run
      (fun entry => undisturbed (cameraGone frame) entry.1) (.new buffer 5 5,[])
        (readsCameraGone frame)).map
        (fun entry => (entry.1.captured.length,entry.1.producer,entry.1.frameQueue.contents)) =
      some (32,.stopped,[.item frame]) := by decide +kernel
  obtain ⟨⟨state,passed⟩,ran,same⟩ := Option.map_eq_some_iff.mp shown
  obtain ⟨length,same⟩ := Prod.mk.inj same
  obtain ⟨stopped,contents⟩ := Prod.mk.inj same
  obtain ⟨captured,passing,running,stops,_⟩ := producer_stops_iff (cameraGone frame)
    (Machine.reachable_of_run .init ran)
  refine ⟨state,passed,ran,?_,((stops 31 length).mp stopped).left,running.mpr stopped,contents⟩
  have frames : nonEmpty ((List.range 32).map (cameraGone frame)) = [frame] := by decide +kernel
  dsimp only at length stopped
  rw [stopped,captured,length,frames] at passing
  simpa [cloned] using passing

end YoloEngine.Pipeline
