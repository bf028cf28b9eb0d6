import YoloEngine.Queue.Interleaving
import YoloEngine.Queue.Refinement
import Mathlib.Logic.Function.Basic

/-! Any number of threads on one queue, each in any operation, interleaved access by access.
Nothing is promised about the items then, but every index that a thread holds is in range,
and so are both cursors and every answer of `size`. -/
namespace YoloEngine
namespace LockFreeQueue
variable {α : Type}

inductive CallPc (α : Type) where
  | idle
  | enqueuing (pc : EnqueuePc α)
  | dequeuing (pc : DequeuePc α)
  | isEmptyLoadHead
  | isEmptyLoadTail (h : Nat)
  | sizeLoadHead
  | sizeLoadTail (h : Nat)
  | clearStoreHead
  | clearStoreTail
  deriving Repr, DecidableEq

def Call.entry : Call α → CallPc α
  | .enqueueCopy item => .enqueuing (.loadTail .copy item)
  | .enqueueMove item => .enqueuing (.loadTail .move item)
  | .dequeue => .dequeuing .loadHead
  | .isEmpty => .isEmptyLoadHead
  | .size => .sizeLoadHead
  | .clear => .clearStoreHead

def word64 (value : Int) : Nat := (value % 2^64).toNat

/-- `size` in `size_t`, where a difference below zero wraps round. -/
def sizeWord (bufferCapacity h t : Nat) : Nat :=
  if t ≥ h then word64 (t - h) else word64 (word64 (bufferCapacity - h) + t)

def CallPc.enqueued : EnqueuePc α → CallPc α
  | .idle => .idle
  | pc => .enqueuing pc

def CallPc.dequeued : DequeuePc α → CallPc α
  | .idle => .idle
  | pc => .dequeuing pc

/-- The operands of `==` in `isEmpty` are read from left to right. -/
def callStep (queue : LockFreeQueue α) : CallPc α → LockFreeQueue α × CallPc α
  | .idle => (queue,.idle)
  | .enqueuing pc =>
    let (queue,pc) := enqueueStep queue pc
    (queue,.enqueued pc)
  | .dequeuing pc =>
    let (queue,pc) := dequeueStep queue pc
    (queue,.dequeued pc)
  | .isEmptyLoadHead => (queue,.isEmptyLoadTail queue.head)
  | .isEmptyLoadTail _ => (queue,.idle)
  | .sizeLoadHead => (queue,.sizeLoadTail queue.head)
  | .sizeLoadTail _ => (queue,.idle)
  | .clearStoreHead => ({ queue with head := 0 },.clearStoreTail)
  | .clearStoreTail => ({ queue with tail := 0 },.idle)

end LockFreeQueue

namespace Sharing
open Foundation LockFreeQueue
variable {ι α : Type}

/-- A finished call of `size`: what its two loads saw and what it answered. -/
structure Sizing where
  head : Nat
  tail : Nat
  answer : Nat
  deriving Repr, DecidableEq

structure State (ι α : Type) where
  queue : LockFreeQueue α
  threads : ι → CallPc α
  sizes : List Sizing

def State.new (maxSize : Nat) : State ι α := ⟨.new maxSize,fun _ => .idle,[]⟩

inductive Action (ι α : Type) where
  | call (thread : ι) (call : Call α)
  | step (thread : ι)

def next [DecidableEq ι] (state : State ι α) : Action ι α → Option (State ι α)
  | .call thread call =>
    match state.threads thread with
    | .idle => some { state with threads := Function.update state.threads thread call.entry }
    | _ => none
  | .step thread =>
    match state.threads thread with
    | .idle => none
    | pc =>
      let (queue,after) := callStep state.queue pc
      let sizes := match pc with
        | .sizeLoadTail h =>
          state.sizes ++ [⟨h,state.queue.tail,sizeWord state.queue.bufferCapacity h state.queue.tail⟩]
        | _ => state.sizes
      some { queue := queue, threads := Function.update state.threads thread after, sizes := sizes }

def shared [DecidableEq ι] (maxSize : Nat) : Machine (State ι α) (Action ι α) := ⟨.new maxSize,next⟩

def usedSlot : CallPc α → Option Nat
  | .enqueuing (.write _ _ currentTail _) => some currentTail
  | .dequeuing (.read currentHead) => some currentHead
  | _ => none

structure CursorsInside (size : Nat) (queue : LockFreeQueue α) : Prop where
  capacity : queue.bufferCapacity = size
  sized : queue.buffer.length = size
  head : queue.head < size
  tail : queue.tail < size

def EnqueueInside (size : Nat) : EnqueuePc α → Prop
  | .idle => True
  | .loadTail _ _ => True
  | .loadHead _ _ currentTail nextTail => currentTail < size ∧ nextTail < size
  | .reloadHead _ _ currentTail nextTail => currentTail < size ∧ nextTail < size
  | .storeHead _ _ currentTail nextTail newHead => currentTail < size ∧ nextTail < size ∧ newHead < size
  | .write _ _ currentTail nextTail => currentTail < size ∧ nextTail < size
  | .storeTail _ nextTail => nextTail < size

def DequeueInside (size : Nat) : DequeuePc α → Prop
  | .idle => True
  | .loadHead => True
  | .loadTail currentHead => currentHead < size
  | .read currentHead => currentHead < size
  | .storeHead currentHead _ => currentHead < size

def CallInside (size : Nat) : CallPc α → Prop
  | .enqueuing pc => EnqueueInside size pc
  | .dequeuing pc => DequeueInside size pc
  | .isEmptyLoadTail h => h < size
  | .sizeLoadTail h => h < size
  | _ => True

/-- No subtraction of the call went below zero, and its answer is one the queue can have. -/
structure Sizing.Exact (size : Nat) (sizing : Sizing) : Prop where
  head : sizing.head ≤ size
  answer : (sizing.answer : Int) =
    if sizing.tail ≥ sizing.head then (sizing.tail : Int) - sizing.head
      else size - sizing.head + sizing.tail
  bounded : sizing.answer ≤ size - 1

structure Inside (size : Nat) (state : State ι α) : Prop where
  cursors : CursorsInside size state.queue
  threads : ∀ thread, CallInside size (state.threads thread)
  sizes : ∀ sizing ∈ state.sizes, sizing.Exact size

section Steps
variable {size : Nat} {queue : LockFreeQueue α}

theorem CursorsInside.succ (inside : CursorsInside size queue) (index : Nat) :
    (index + 1) % queue.bufferCapacity < size := by
  rw [inside.capacity]
  exact Nat.mod_lt _ (Nat.zero_lt_of_lt inside.head)

theorem CursorsInside.assign (inside : CursorsInside size queue) (index : Nat) (cell : Cell α) :
    CursorsInside size (queue.assign index cell) where
  capacity := inside.capacity
  sized := by simpa using inside.sized
  head := inside.head
  tail := inside.tail

theorem enqueueStep_inside (inside : CursorsInside size queue) {pc : EnqueuePc α}
    (at_pc : EnqueueInside size pc) :
    CursorsInside size (enqueueStep queue pc).1 ∧ EnqueueInside size (enqueueStep queue pc).2 := by
  cases pc with
  | idle => exact ⟨inside,trivial⟩
  | loadTail how item => exact ⟨inside,inside.tail,inside.succ _⟩
  | loadHead how item currentTail nextTail =>
    simp only [enqueueStep]
    split <;> exact ⟨inside,at_pc⟩
  | reloadHead how item currentTail nextTail => exact ⟨inside,at_pc.left,at_pc.right,inside.succ _⟩
  | storeHead how item currentTail nextTail newHead =>
    obtain ⟨current,target,stored⟩ := at_pc
    exact ⟨{ inside with head := stored },current,target⟩
  | write how item currentTail nextTail => exact ⟨inside.assign _ _,at_pc.right⟩
  | storeTail left nextTail => exact ⟨{ inside with tail := at_pc },trivial⟩

theorem dequeueStep_inside (inside : CursorsInside size queue) {pc : DequeuePc α}
    (at_pc : DequeueInside size pc) :
    CursorsInside size (dequeueStep queue pc).1 ∧ DequeueInside size (dequeueStep queue pc).2 := by
  cases pc with
  | idle => exact ⟨inside,trivial⟩
  | loadHead => exact ⟨inside,inside.head⟩
  | loadTail currentHead =>
    simp only [dequeueStep]
    split
    · exact ⟨inside,trivial⟩
    · exact ⟨inside,at_pc⟩
  | read currentHead => exact ⟨inside.assign _ _,at_pc⟩
  | storeHead currentHead item => exact ⟨{ inside with head := inside.succ _ },trivial⟩

private theorem callStep_inside (inside : CursorsInside size queue) {pc : CallPc α}
    (at_pc : CallInside size pc) :
    CursorsInside size (callStep queue pc).1 ∧ CallInside size (callStep queue pc).2 := by
  have positive := Nat.zero_lt_of_lt inside.head
  cases pc with
  | idle => exact ⟨inside,trivial⟩
  | enqueuing pc =>
    obtain ⟨cursors,stepped⟩ := enqueueStep_inside inside at_pc
    refine ⟨cursors,?_⟩
    simp only [callStep]
    cases reached : (enqueueStep queue pc).2 <;> rw [reached] at stepped <;> exact stepped
  | dequeuing pc =>
    obtain ⟨cursors,stepped⟩ := dequeueStep_inside inside at_pc
    refine ⟨cursors,?_⟩
    simp only [callStep]
    cases reached : (dequeueStep queue pc).2 <;> rw [reached] at stepped <;> exact stepped
  | isEmptyLoadHead => exact ⟨inside,inside.head⟩
  | isEmptyLoadTail h => exact ⟨inside,trivial⟩
  | sizeLoadHead => exact ⟨inside,inside.head⟩
  | sizeLoadTail h => exact ⟨inside,trivial⟩
  | clearStoreHead => exact ⟨{ inside with head := positive },trivial⟩
  | clearStoreTail => exact ⟨{ inside with tail := positive },trivial⟩

private theorem word64_of_lt {value : Int} (nonneg : 0 ≤ value) (small : value < 2^64) :
    (word64 value : Int) = value := by
  rw [word64,Int.toNat_of_nonneg (Int.emod_nonneg _ (by decide)),Int.emod_eq_of_lt nonneg small]

/-- Two cursors that were never current together still give an answer in range. -/
private theorem sizeWord_exact (addressable : size < 2^64) {h t : Nat} (head : h < size)
    (tail : t < size) :
    Sizing.Exact size ⟨h,t,sizeWord size h t⟩ := by
  by_cases ordered : t ≥ h
  · have answer : (sizeWord size h t : Int) = t - h := by
      rw [sizeWord,if_pos ordered]
      exact word64_of_lt (by omega) (by omega)
    refine ⟨head.le,?_,?_⟩
    · simp only [ordered,if_true]
      exact answer
    · simp only
      omega
  · have difference : (word64 ((size : Int) - h) : Int) = size - h := word64_of_lt (by omega) (by omega)
    have answer : (sizeWord size h t : Int) = size - h + t := by
      rw [sizeWord,if_neg ordered,difference]
      exact word64_of_lt (by omega) (by omega)
    refine ⟨head.le,?_,?_⟩
    · simp only [ordered,if_false]
      exact answer
    · simp only
      omega

end Steps

private theorem inside_new (size : Nat) (positive : 0 < size) :
    Inside size (State.new size : State ι α) where
  cursors := ⟨rfl,List.length_replicate,positive,positive⟩
  threads := fun _ => trivial
  sizes := nofun

variable [DecidableEq ι]

theorem next_cases {state after : State ι α} {action : Action ι α}
    (taken : next state action = some after) :
    (∃ thread call, action = .call thread call ∧
      after = { state with threads := Function.update state.threads thread call.entry }) ∨
    ∃ thread, action = .step thread ∧ after.queue = (callStep state.queue (state.threads thread)).1 ∧
      after.threads = Function.update state.threads thread
        (callStep state.queue (state.threads thread)).2 ∧
      ∀ sizing ∈ after.sizes, sizing ∈ state.sizes ∨ ∃ h, state.threads thread = .sizeLoadTail h ∧
        sizing = ⟨h,state.queue.tail,sizeWord state.queue.bufferCapacity h state.queue.tail⟩ := by
  cases action with
  | call thread call =>
    simp only [next] at taken
    split at taken
    next => exact Or.inl ⟨thread,call,rfl,(Option.some.inj taken).symm⟩
    next => contradiction
  | step thread =>
    refine Or.inr ⟨thread,rfl,?_⟩
    simp only [next] at taken
    cases pc : state.threads thread with
    | idle =>
      rw [pc] at taken
      contradiction
    | sizeLoadTail h =>
      rw [pc] at taken
      cases Option.some.inj taken
      refine ⟨rfl,rfl,fun sizing member => ?_⟩
      rcases List.mem_append.mp member with earlier | added
      · exact Or.inl earlier
      · exact Or.inr ⟨h,rfl,List.mem_singleton.mp added⟩
    | _ =>
      rw [pc] at taken
      cases Option.some.inj taken
      exact ⟨rfl,rfl,fun _ member => Or.inl member⟩

theorem Inside.step {size : Nat} (addressable : size < 2^64) {state after : State ι α}
    (inside : Inside size state) {action : Action ι α}
    (taken : next state action = some after) : Inside size after := by
  have threads {thread : ι} {pc : CallPc α} (at_pc : CallInside size pc) (other : ι) :
      CallInside size (Function.update state.threads thread pc other) := by
    by_cases same : other = thread
    · rw [same,Function.update_self]
      exact at_pc
    · rw [Function.update_of_ne same]
      exact inside.threads other
  obtain ⟨thread,call,rfl,rfl⟩ | ⟨thread,rfl,queue,moved,answers⟩ := next_cases taken
  · exact { inside with threads := threads (by cases call <;> trivial) }
  · obtain ⟨cursors,at_pc⟩ := callStep_inside inside.cursors (inside.threads thread)
    refine ⟨queue ▸ cursors,moved ▸ threads at_pc,fun sizing member => ?_⟩
    obtain earlier | ⟨h,pc,rfl⟩ := answers sizing member
    · exact inside.sizes sizing earlier
    · have head := inside.threads thread
      rw [pc] at head
      rw [inside.cursors.capacity]
      exact sizeWord_exact addressable head inside.cursors.tail

/-- However many threads call whatever they like, every cursor, every slot index and every answer of
`size` stays in range. -/
theorem indices_inside {size : Nat} (positive : 0 < size) (addressable : size < 2^64)
    {state : State ι α} (reachable : (shared size).Reachable Machine.always state) :
    state.queue.head < size ∧ state.queue.tail < size ∧ state.queue.buffer.length = size ∧
      (∀ thread, ∀ index ∈ usedSlot (state.threads thread), index < size) ∧
      ∀ sizing ∈ state.sizes,
        sizing.head ≤ size ∧
        (sizing.answer : Int) = (if sizing.tail ≥ sizing.head then (sizing.tail : Int) - sizing.head
          else size - sizing.head + sizing.tail) ∧
        sizing.answer ≤ state.queue.capacity := by
  have inside : Inside size state := reachable.invariant (Inside size) (inside_new size positive)
    (fun _ _ _ earlier _ taken => earlier.step addressable taken)
  obtain ⟨cursors,threads,sizes⟩ := inside
  refine ⟨cursors.head,cursors.tail,cursors.sized,?_,?_⟩
  · intro thread index used
    have at_pc := threads thread
    revert used at_pc
    cases state.threads thread with
    | enqueuing pc => cases pc <;> simp +contextual [usedSlot,CallInside,EnqueueInside]
    | dequeuing pc => cases pc <;> simp +contextual [usedSlot,CallInside,DequeueInside]
    | _ => simp [usedSlot]
  · intro sizing member
    obtain ⟨head,answer,bounded⟩ := sizes sizing member
    rw [capacity,cursors.capacity]
    exact ⟨head,answer,bounded⟩

/-- A thread has loaded `head` for `size`; the queue is cleared before it loads `tail`. -/
def clearedUnderSize : List (Action Nat Unit) :=
  [.call 0 (.enqueueCopy ()),.step 0,.step 0,.step 0,.step 0,
    .call 0 (.enqueueMove ()),.step 0,.step 0,.step 0,.step 0,.step 0,.step 0,
    .call 1 .size,.step 1,.call 2 .clear,.step 2,.step 2,.step 1]

theorem clearedUnderSize_inside : ∃ state : State Nat Unit,
    (shared 2).run Machine.always (.new 2) clearedUnderSize = some state ∧
    state.sizes = [⟨1,0,1⟩] ∧ state.queue.head = 0 ∧ state.queue.tail = 0 ∧
    1 ≤ state.queue.capacity := by
  obtain ⟨state,ran,sizes,head,tail⟩ : ∃ state : State Nat Unit,
      (shared 2).run Machine.always (.new 2) clearedUnderSize = some state ∧
        state.sizes = [⟨1,0,1⟩] ∧ state.queue.head = 0 ∧ state.queue.tail = 0 := ⟨_,rfl,rfl,rfl,rfl⟩
  obtain ⟨_,_,_,_,exact_sizes⟩ :=
    indices_inside (by decide) (by decide) (Machine.reachable_of_run .init ran)
  have answered := exact_sizes ⟨1,0,1⟩ (by rw [sizes]; exact List.mem_singleton_self _)
  exact ⟨state,ran,sizes,head,tail,answered.right.right⟩

end Sharing
end YoloEngine
