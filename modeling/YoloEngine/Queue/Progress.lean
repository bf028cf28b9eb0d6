import YoloEngine.Foundation.Composition
import YoloEngine.Queue.Sharing

/-! Every operation of the queue is wait-free. However many threads are in whatever calls, and
however they are scheduled, no thread waits for another, and a call returns after at most six
steps of its own thread. -/
namespace YoloEngine
namespace LockFreeQueue
variable {α : Type}

/-- The most accesses a thread still makes from this point on. -/
def EnqueuePc.accesses : EnqueuePc α → Nat
  | .idle => 0
  | .loadTail _ _ => 6
  | .loadHead _ _ _ _ => 5
  | .reloadHead _ _ _ _ => 4
  | .storeHead _ _ _ _ _ => 3
  | .write _ _ _ _ => 2
  | .storeTail _ _ => 1

def DequeuePc.accesses : DequeuePc α → Nat
  | .idle => 0
  | .loadHead => 4
  | .loadTail _ => 3
  | .read _ => 2
  | .storeHead _ _ => 1

def CallPc.accesses : CallPc α → Nat
  | .idle => 0
  | .enqueuing pc => pc.accesses
  | .dequeuing pc => pc.accesses
  | .isEmptyLoadHead => 2
  | .isEmptyLoadTail _ => 1
  | .sizeLoadHead => 2
  | .sizeLoadTail _ => 1
  | .clearStoreHead => 2
  | .clearStoreTail => 1

/-- A thread is inside a call only as long as an access remains. -/
def CallPc.Busy (pc : CallPc α) : Prop := pc ≠ .idle → 0 < pc.accesses

theorem enqueueStep_accesses (queue : LockFreeQueue α) {pc : EnqueuePc α} (inside : 0 < pc.accesses) :
    (enqueueStep queue pc).2.accesses + 1 ≤ pc.accesses := by
  cases pc with
  | idle => contradiction
  | loadHead how item currentTail nextTail =>
    simp only [enqueueStep]
    split <;> simp [EnqueuePc.accesses]
  | _ => simp [enqueueStep,EnqueuePc.accesses]

theorem dequeueStep_accesses (queue : LockFreeQueue α) {pc : DequeuePc α} (inside : 0 < pc.accesses) :
    (dequeueStep queue pc).2.accesses + 1 ≤ pc.accesses := by
  cases pc with
  | idle => contradiction
  | loadTail currentHead =>
    simp only [dequeueStep]
    split <;> simp [DequeuePc.accesses]
  | _ => simp [dequeueStep,DequeuePc.accesses]

private theorem CallPc.enqueued_accesses (pc : EnqueuePc α) :
    (CallPc.enqueued pc).accesses = pc.accesses ∧ (CallPc.enqueued pc).Busy := by
  cases pc <;> simp [CallPc.enqueued,CallPc.Busy,CallPc.accesses,EnqueuePc.accesses]

private theorem CallPc.dequeued_accesses (pc : DequeuePc α) :
    (CallPc.dequeued pc).accesses = pc.accesses ∧ (CallPc.dequeued pc).Busy := by
  cases pc <;> simp [CallPc.dequeued,CallPc.Busy,CallPc.accesses,DequeuePc.accesses]

private theorem callStep_accesses (queue : LockFreeQueue α) {pc : CallPc α} (inside : 0 < pc.accesses) :
    (callStep queue pc).2.accesses + 1 ≤ pc.accesses ∧ (callStep queue pc).2.Busy := by
  cases pc with
  | idle => contradiction
  | enqueuing pc =>
    obtain ⟨same,busy⟩ := CallPc.enqueued_accesses (enqueueStep queue pc).2
    exact ⟨Nat.le_trans (Nat.le_of_eq (congrArg (· + 1) same)) (enqueueStep_accesses queue inside),busy⟩
  | dequeuing pc =>
    obtain ⟨same,busy⟩ := CallPc.dequeued_accesses (dequeueStep queue pc).2
    exact ⟨Nat.le_trans (Nat.le_of_eq (congrArg (· + 1) same)) (dequeueStep_accesses queue inside),busy⟩
  | _ => simp [callStep,CallPc.accesses,CallPc.Busy]

private theorem Call.entry_busy (call : Call α) : call.entry.Busy := by
  cases call <;> simp [Call.entry,CallPc.Busy,CallPc.accesses,EnqueuePc.accesses,DequeuePc.accesses]

end LockFreeQueue

namespace Sharing
open Foundation LockFreeQueue
variable {ι α : Type} [DecidableEq ι]

/-- Runs in which one thread begins no call. -/
def stays (thread : ι) (_ : State ι α) : Action ι α → Prop
  | .call other _ => other ≠ thread
  | .step _ => True

instance (thread : ι) (state : State ι α) (action : Action ι α) :
    Decidable (stays thread state action) := by
  cases action <;> unfold stays <;> infer_instance

def ownStep (thread : ι) : Action ι α → Bool
  | .call _ _ => false
  | .step other => other == thread

def AllBusy (state : State ι α) : Prop := ∀ thread, (state.threads thread).Busy

private theorem update_busy {threads : ι → CallPc α} (busy : ∀ thread, (threads thread).Busy)
    (thread : ι) {pc : CallPc α} (moved : pc.Busy) (other : ι) :
    (Function.update threads thread pc other).Busy := by
  by_cases same : other = thread
  · rw [same,Function.update_self]
    exact moved
  · rw [Function.update_of_ne same]
    exact busy other

private theorem step_inside {state after : State ι α} {thread : ι} (busy : AllBusy state)
    (taken : next state (.step thread) = some after) : 0 < (state.threads thread).accesses := by
  apply busy thread
  intro idle
  rw [next,idle] at taken
  contradiction

theorem AllBusy.step {state after : State ι α} {action : Action ι α} (busy : AllBusy state)
    (taken : next state action = some after) : AllBusy after := by
  obtain ⟨thread,call,rfl,rfl⟩ | ⟨thread,rfl,_,moved,_⟩ := next_cases taken
  · exact update_busy busy thread call.entry_busy
  · have stepped := callStep_accesses state.queue (step_inside busy taken)
    rw [AllBusy,moved]
    exact update_busy busy thread stepped.right

/-- A step of the thread itself leaves it fewer accesses; the other threads do not touch its point. -/
private theorem accesses_fall {state after : State ι α} {thread : ι} {action : Action ι α}
    (busy : AllBusy state) (begins : stays thread state action)
    (taken : next state action = some after) :
    (after.threads thread).accesses + (if ownStep thread action then 1 else 0) ≤
      (state.threads thread).accesses := by
  obtain ⟨other,call,rfl,rfl⟩ | ⟨other,rfl,_,moved,_⟩ := next_cases taken
  · simp only [ownStep]
    rw [Function.update_of_ne (Ne.symm begins)]
    exact Nat.le_refl _
  · rw [moved]
    by_cases same : thread = other
    · subst same
      rw [Function.update_self]
      simpa [ownStep] using (callStep_accesses state.queue (step_inside busy taken)).left
    · rw [Function.update_of_ne same]
      simp [ownStep,Ne.symm same]

private theorem step_ready {state : State ι α} {thread : ι} (inside : state.threads thread ≠ .idle) :
    ∃ after, next state (.step thread) = some after := by
  cases pc : state.threads thread with
  | idle => exact absurd pc inside
  | _ => exact ⟨_,by rw [next,pc]⟩

/-- Whatever the other threads do meanwhile, a call takes at most `accesses` steps of its own
thread, is over after that many, and can take its next step as long as it is not over. -/
theorem call_waitFree {size : Nat} {first called last : State ι α} {thread : ι} {call : Call α}
    {actions : List (Action ι α)} (reachable : (shared size).Reachable Machine.always first)
    (begun : next first (.call thread call) = some called)
    (ran : (shared size).run (stays thread) called actions = some last) :
    actions.countP (ownStep thread) ≤ call.entry.accesses ∧
      call.entry.accesses ≤
        (match call with | .enqueueCopy _ | .enqueueMove _ => 6 | .dequeue => 4 | _ => 2) ∧
      (actions.countP (ownStep thread) = call.entry.accesses → last.threads thread = .idle) ∧
      (last.threads thread ≠ .idle → ∃ after, next last (.step thread) = some after) := by
  have busy : AllBusy first := reachable.invariant AllBusy (fun _ idle => absurd rfl idle)
    (fun _ _ _ earlier _ taken => earlier.step taken)
  have entered : AllBusy called := busy.step begun
  have ended : AllBusy last := Machine.run_invariant AllBusy (fun _ _ _ earlier _ taken =>
    earlier.step taken) entered ran
  have spent := Machine.run_rank AllBusy (fun state => (state.threads thread).accesses) (ownStep thread)
    (fun _ _ _ earlier _ taken => earlier.step taken) (fun _ _ _ earlier begins taken =>
      accesses_fall earlier begins taken)
    entered ran
  have start : called.threads thread = call.entry := by
    obtain ⟨other,entry,same,rfl⟩ | ⟨_,same,_⟩ := next_cases begun
    · cases same
      exact Function.update_self _ _ _
    · cases same
  rw [start] at spent
  refine ⟨by omega,by cases call <;> exact Nat.le_refl _,fun all => ?_,step_ready⟩
  by_contra going
  have remaining := ended thread going
  omega

/-- Another thread clears the queue and a third dequeues between the six steps of an enqueue that
found it full. -/
def enqueueAmidOthers : List (Action Nat Unit) :=
  [.step 0,.call 1 .clear,.step 0,.step 0,.step 1,.call 2 .dequeue,.step 2,.step 0,.step 2,.step 0,
    .step 1,.step 0]

theorem enqueueAmidOthers_returns : ∃ first called last : State Nat Unit,
    (shared 2).run Machine.always (.new 2) [.call 0 (.enqueueCopy ()),.step 0,
      .step 0,.step 0,.step 0] = some first ∧
    next first (.call 0 (.enqueueMove ())) = some called ∧
    (shared 2).run (stays 0) called enqueueAmidOthers = some last ∧
    last.threads 0 = .idle ∧ last.threads 2 = .dequeuing (.read 0) := by
  obtain ⟨first,called,last,ran,begun,interleaved,reading⟩ : ∃ first called last : State Nat Unit,
      (shared 2).run Machine.always (.new 2) [.call 0 (.enqueueCopy ()),.step 0,
        .step 0,.step 0,.step 0] = some first ∧
        next first (.call 0 (.enqueueMove ())) = some called ∧
        (shared 2).run (stays 0) called enqueueAmidOthers = some last ∧
        last.threads 2 = .dequeuing (.read 0) := ⟨_,_,_,rfl,rfl,rfl,rfl⟩
  obtain ⟨_,_,returns,_⟩ := call_waitFree (Machine.reachable_of_run .init ran) begun interleaved
  exact ⟨first,called,last,ran,begun,interleaved,returns rfl,reading⟩

end Sharing
end YoloEngine
