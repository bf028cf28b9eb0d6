import YoloEngine.Pipeline.Accesses
import Mathlib.Data.List.DropRight

/-! Why the program stops. `is_running` is cleared by a signal, by a key, or by the producer when
more than thirty captures in a row were empty, and by nothing else; no thread leaves its loop
before one of these has happened. -/
namespace YoloEngine.Accesses
open Foundation
open Pipeline (ProducerPc ConsumerPc DisplayPc Action maxRetries)
variable {lib : External} {config : ModelConfig} {buffer : TensorBuffer} {frameSize resultSize : Nat}

inductive Reason where
  | signal
  | gaveUp
  | key
  deriving Repr, DecidableEq

/-- How many of the last captures were empty. -/
def emptyRun (captured : List Mat) : Nat := (captured.rtakeWhile Mat.empty).length

/-- What a step gives as a reason to stop, judged by the captures themselves. -/
def reasons (state : State) : Action → List Reason
  | .signal => [.signal]
  | .producer capture =>
    if state.producer = .capturing ∧
    maxRetries < emptyRun (state.captured ++ [capture]) then [.gaveUp] else []
  | .consumer _ => []
  | .display key => if state.display = .showing ∧ (key = 'q' ∨ key.toNat = 27) then [.key] else []

section Counting
variable {captured : List Mat} {capture : Mat}

private theorem emptyRun_empty (empty : capture.empty = true) :
    emptyRun (captured ++ [capture]) = emptyRun captured + 1 := by
  rw [emptyRun,List.rtakeWhile_concat_pos _ _ _ empty,List.length_append,List.length_singleton,emptyRun]

private theorem emptyRun_full (full : capture.empty = false) :
    emptyRun (captured ++ [capture]) = 0 := by
  rw [emptyRun,List.rtakeWhile_concat_neg _ _ _ (by simp [full]),List.length_nil]

/-- The captures before the last one, or fewer. -/
private theorem front_cases {front : List Mat} (begins : front <+: captured ++ [capture])
    (shorter : front ≠ captured ++ [capture]) : front <+: captured := by
  obtain ⟨rest,same⟩ := begins
  cases rest using List.reverseRecOn with
  | nil => exact absurd (by simpa using same) shorter
  | append_singleton rest last =>
    rw [← List.append_assoc] at same
    exact ⟨rest,(List.append_inj' same rfl).left⟩

end Counting

structure Stopping (state : State) (log : List Reason) : Prop where
  running : state.isRunning = false ↔ log ≠ []
  retries : state.emptyFrameRetries = emptyRun state.captured
  gaveUp : .gaveUp ∈ log ↔ maxRetries < emptyRun state.captured
  earlier : ∀ front, front <+: state.captured → front ≠ state.captured → emptyRun front ≤ maxRetries
  going : state.producer ≠ .stopped → emptyRun state.captured ≤ maxRetries
  stopped : state.producer = .stopped ∨ state.consumer = .stopped ∨ state.display = .stopped →
    state.isRunning = false

theorem Stopping.new (buffer : TensorBuffer) (frameSize resultSize : Nat) :
    Stopping (State.new buffer frameSize resultSize) [] where
  running := by simp [State.new]
  retries := rfl
  gaveUp := by simp [State.new,emptyRun]
  earlier := by simp [State.new]
  going := by simp [State.new,emptyRun]
  stopped := by simp [State.new]

section Steps
variable {state after : State} {log : List Reason}

/-- Steps that neither capture nor clear `is_running`. -/
theorem Stopping.same (stopping : Stopping state log) (running : after.isRunning = state.isRunning)
    (retries : after.emptyFrameRetries = state.emptyFrameRetries)
    (captured : after.captured = state.captured)
    (going : after.producer ≠ .stopped → state.producer ≠ .stopped)
    (stopped : after.producer = .stopped ∨ after.consumer = .stopped ∨ after.display = .stopped →
      state.isRunning = false) : Stopping after (log ++ []) := by
  rw [List.append_nil]
  exact {
    running := by rw [running]; exact stopping.running
    retries := by rw [retries,captured]; exact stopping.retries
    gaveUp := by rw [captured]; exact stopping.gaveUp
    earlier := by rw [captured]; exact stopping.earlier
    going := fun busy => by rw [captured]; exact stopping.going (going busy)
    stopped := fun left => by rw [running]; exact stopped left }

/-- Steps that clear `is_running` without capturing. -/
theorem Stopping.cleared (stopping : Stopping state log) {reason : Reason} (other : reason ≠ .gaveUp)
    (off : after.isRunning = false) (retries : after.emptyFrameRetries = state.emptyFrameRetries)
    (captured : after.captured = state.captured) (producer : after.producer = state.producer) :
    Stopping after (log ++ [reason]) where
  running := iff_of_true off (by simp)
  retries := by rw [retries,captured]; exact stopping.retries
  gaveUp := by
    rw [captured,List.mem_append,List.mem_singleton,or_iff_left other.symm]
    exact stopping.gaveUp
  earlier := by rw [captured]; exact stopping.earlier
  going := by rw [captured,producer]; exact stopping.going
  stopped := fun _ => off

theorem Stopping.capture (stopping : Stopping state log) (pc : state.producer = .capturing)
    {capture : Mat} :
    ∀ front, front <+: state.captured ++ [capture] → front ≠ state.captured ++ [capture] →
      emptyRun front ≤ maxRetries := by
  intro front begins shorter
  by_cases whole : front = state.captured
  · rw [whole]
    exact stopping.going (by simp [pc])
  · exact stopping.earlier front (front_cases begins shorter) whole

theorem Stopping.producer (stopping : Stopping state log) {capture : Mat}
    (move : ProducerMove state capture after) :
    Stopping after (log ++ reasons state (.producer capture)) := by
  cases move with
  | test pc =>
    simp only [reasons,pc,reduceCtorEq,false_and,if_false]
    refine stopping.same rfl rfl rfl (fun _ => by simp [pc]) fun left => ?_
    cases on : state.isRunning with
    | false => rfl
    | true =>
      simp only [on,if_true,reduceCtorEq,false_or] at left
      exact on ▸ stopping.stopped (Or.inr left)
  | @retry pc empty few =>
    have counted : emptyRun (state.captured ++ [capture]) = state.emptyFrameRetries + 1 := by
      rw [emptyRun_empty empty,stopping.retries]
    have within : ¬ maxRetries < emptyRun (state.captured ++ [capture]) := by rwa [counted]
    have before : ¬ maxRetries < emptyRun state.captured := not_lt.mpr (stopping.going (by simp [pc]))
    rw [reasons,if_neg (by simp [within]),List.append_nil]
    exact {
      running := stopping.running
      retries := counted.symm
      gaveUp := iff_of_false (stopping.gaveUp.not.mpr before) within
      earlier := stopping.capture pc
      going := fun _ => not_lt.mp within
      stopped := fun left => stopping.stopped (Or.inr (by simpa using left)) }
  | giveUp pc empty many =>
    have counted : emptyRun (state.captured ++ [capture]) = state.emptyFrameRetries + 1 := by
      rw [emptyRun_empty empty,stopping.retries]
    have beyond : maxRetries < emptyRun (state.captured ++ [capture]) := by rwa [counted]
    rw [reasons,if_pos ⟨pc,beyond⟩]
    exact {
      running := iff_of_true rfl (by simp)
      retries := counted.symm
      gaveUp := iff_of_true (by simp) beyond
      earlier := stopping.capture pc
      going := fun busy => absurd rfl busy
      stopped := fun _ => rfl }
  | offer pc full called =>
    have none : emptyRun (state.captured ++ [capture]) = 0 := emptyRun_full full
    have before : ¬ maxRetries < emptyRun state.captured := not_lt.mpr (stopping.going (by simp [pc]))
    rw [reasons,if_neg (by simp [none]),List.append_nil]
    exact {
      running := stopping.running
      retries := none.symm
      gaveUp := iff_of_false (stopping.gaveUp.not.mpr before) (by simp [none])
      earlier := stopping.capture pc
      going := fun _ => by simp [none]
      stopped := fun left => stopping.stopped (Or.inr (by simpa using left)) }
  | @access frameClone pc frames taken =>
    simp only [reasons,pc,reduceCtorEq,false_and,if_false]
    refine stopping.same rfl rfl rfl (fun _ => by simp [pc]) fun left => stopping.stopped (Or.inr ?_)
    rcases left with returned | others
    · cases done : finished frames <;> simp [done] at returned
    · exact others

theorem Stopping.consumer (stopping : Stopping state log) {iteration : Iteration}
    (move : ConsumerMove lib config state iteration after) :
    Stopping after (log ++ reasons state (.consumer iteration)) := by
  cases move with
  | stop pc off => exact stopping.same rfl rfl rfl (fun busy => busy) (fun _ => off)
  | access pc taken pending => exact stopping.same rfl rfl rfl (fun busy => busy) stopping.stopped
  | _ =>
    refine stopping.same rfl rfl rfl (fun busy => busy) fun left => stopping.stopped ?_
    simp only [reduceCtorEq,false_or] at left
    exact left.imp_right Or.inr

theorem Stopping.display (stopping : Stopping state log) {key : Char}
    (move : DisplayMove state key after) :
    Stopping after (log ++ reasons state (.display key)) := by
  cases move with
  | stop pc off =>
    simp only [reasons,pc,reduceCtorEq,false_and,if_false]
    exact stopping.same rfl rfl rfl (fun busy => busy) (fun _ => off)
  | access pc taken pending =>
    simp only [reasons,pc,reduceCtorEq,false_and,if_false]
    exact stopping.same rfl rfl rfl (fun busy => busy) fun left =>
      stopping.stopped (by simpa [pc] using left)
  | quit pc pressed =>
    rw [reasons,if_pos ⟨pc,pressed⟩]
    exact stopping.cleared (by simp) rfl rfl rfl rfl
  | carryOn pc other =>
    rw [reasons,if_neg (fun both => other both.right)]
    refine stopping.same rfl rfl rfl (fun busy => busy) fun left => stopping.stopped ?_
    simp only [reduceCtorEq,or_false] at left
    exact left.imp_right Or.inl
  | ask pc _ _ | nullopt pc _ _ | fetch pc _ _ =>
    simp only [reasons,pc,reduceCtorEq,false_and,if_false]
    refine stopping.same rfl rfl rfl (fun busy => busy) fun left => stopping.stopped ?_
    simp only [reduceCtorEq,or_false] at left
    exact left.imp_right Or.inl

theorem Stopping.step (stopping : Stopping state log) {action : Action}
    (taken : next lib config state action = some after) :
    Stopping after (log ++ reasons state action) := by
  cases action with
  | signal =>
    cases Option.some.inj taken
    exact stopping.cleared (by simp) rfl rfl rfl rfl
  | producer capture => exact stopping.producer (producerStep_move taken)
  | consumer iteration => exact stopping.consumer (consumerStep_move taken)
  | display key => exact stopping.display (displayStep_move taken)

end Steps

/-- In every run: `is_running` is false exactly when a signal, a key or the producer has cleared it;
the producer does so exactly with the first capture that ends more than thirty empty ones in a row;
and no thread has left its loop before. -/
theorem running_cleared_iff {state : State} {log : List Reason}
    (reachable :
      ((program lib config buffer frameSize resultSize).logged reasons).Reachable Machine.always
        (state,log)) :
    (state.isRunning = false ↔ log ≠ []) ∧
    (.gaveUp ∈ log ↔ maxRetries < emptyRun state.captured) ∧
    (∀ front, front <+: state.captured → front ≠ state.captured → emptyRun front ≤ maxRetries) ∧
    state.emptyFrameRetries = emptyRun state.captured ∧
    (state.producer = .stopped ∨ state.consumer = .stopped ∨ state.display = .stopped → log ≠ []) := by
  have stopping : Stopping state log := by
    apply reachable.invariant (fun entry => Stopping entry.1 entry.2)
    · exact .new buffer frameSize resultSize
    · intro before action after earlier _ taken
      obtain ⟨stepped,emitted⟩ := Machine.logged_next taken
      rw [emitted]
      exact earlier.step stepped
  exact ⟨stopping.running,stopping.gaveUp,stopping.earlier,stopping.retries,
    fun left => stopping.running.mp (stopping.stopped left)⟩

/-- The camera is gone from the start; the consumer and the display notice. -/
def unplugged (iteration : Iteration) : List Action :=
  [.consumer iteration] ++ List.replicate 62 (.producer .released) ++
    List.replicate 2 (.consumer iteration) ++ [.display 'a']

theorem unplugged_gaveUp :
    let lib : External := ⟨fun _ _ _ _ _ _ => [],fun _ _ => [],fun _ _ _ _ => some []⟩
    let config : ModelConfig := ⟨1,1,1,1 / 4,9 / 20⟩
    let buffer : TensorBuffer := ⟨[0,0,0],[1,3,1,1],3,1,rfl⟩
    let iteration : Iteration := ⟨0,0,0,0,7,.none⟩
    ∃ state log, ((program lib config buffer 2 2).logged reasons).run Machine.always
      (.new buffer 2 2,[]) (unplugged iteration) = some (state,log) ∧
      log = [.gaveUp] ∧ state.isRunning = false ∧ maxRetries < emptyRun state.captured ∧
      state.producer = .stopped ∧ state.consumer = .loop ∧ state.display = .stopped := by
  intro lib config buffer iteration
  have shown : (((program lib config buffer 2 2).logged reasons).run Machine.always (.new buffer 2 2,[])
      (unplugged iteration)).map (fun entry =>
        (entry.2,entry.1.producer,entry.1.consumer,entry.1.display)) =
      some ([.gaveUp],.stopped,.loop,.stopped) := by decide +kernel
  obtain ⟨⟨state,log⟩,ran,same⟩ := Option.map_eq_some_iff.mp shown
  obtain ⟨logged,ended⟩ := Prod.mk.inj same
  obtain ⟨producer,ended⟩ := Prod.mk.inj ended
  obtain ⟨consumer,display⟩ := Prod.mk.inj ended
  obtain ⟨running,gaveUp,_⟩ := running_cleared_iff (Machine.reachable_of_run .init ran)
  dsimp only at logged
  exact ⟨state,log,ran,logged,running.mpr (by simp [logged]),gaveUp.mp (by simp [logged]),producer,
    consumer,display⟩

end YoloEngine.Accesses
