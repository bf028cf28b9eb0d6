import YoloEngine.Foundation.BoundedFifo
import YoloEngine.Foundation.Machine
import YoloEngine.Queue.LockFreeQueue

/-! Sequential calls on a `LockFreeQueue` refine a bounded drop-oldest list.
The slots from `head` up to `tail` are the list, whatever the operations left in
the slots outside that window. -/
namespace YoloEngine.LockFreeQueue
open Foundation Foundation.Ring
variable {α : Type}

def contents (queue : LockFreeQueue α) : List (Cell α) :=
  window queue.slot queue.bufferCapacity queue.head queue.size

structure Holds (queue : LockFreeQueue α) (items : List α) : Prop where
  sized : queue.buffer.length = queue.bufferCapacity
  headInside : queue.head < queue.bufferCapacity
  room : items.length < queue.bufferCapacity
  tailAt : queue.tail = (queue.head + items.length) % queue.bufferCapacity
  stored : window queue.slot queue.bufferCapacity queue.head items.length = items.map .item

theorem size_at {size head count : Nat} (inside : head < size) (few : count < size) :
    sizeFrom size head ((head + count) % size) = count := by
  unfold sizeFrom
  by_cases wrap : head + count < size
  · rw [Nat.mod_eq_of_lt wrap,if_pos (by omega)]
    omega
  · have wrapped : (head + count) % size = head + count - size := by
      rw [Nat.mod_eq_sub_mod (by omega),Nat.mod_eq_of_lt (by omega)]
    rw [wrapped,if_neg (by omega)]
    omega

theorem Holds.size_eq {queue : LockFreeQueue α} {items : List α} (holds : queue.Holds items) :
    queue.size = items.length := by
  unfold size
  rw [holds.tailAt]
  exact size_at holds.headInside holds.room

theorem Holds.contents_eq {queue : LockFreeQueue α} {items : List α} (holds : queue.Holds items) :
    queue.contents = items.map .item := by
  unfold contents
  rw [holds.size_eq]
  exact holds.stored

private theorem Holds.empty_iff {queue : LockFreeQueue α} {items : List α} (holds : queue.Holds items) :
    queue.head = queue.tail ↔ items = [] := by
  have inside := Nat.mod_eq_of_lt holds.headInside
  rw [holds.tailAt]
  constructor
  · intro same
    have none := slot_inj (Nat.le_add_right _ _) (by have := holds.room; omega) (inside.trans same)
    exact List.length_eq_zero_iff.mp (by omega)
  · intro none
    rw [none]
    exact inside.symm

theorem new_holds (maxSize : Nat) (positive : 0 < maxSize) :
    (new maxSize : LockFreeQueue α).Holds [] where
  sized := by simp [new]
  headInside := positive
  room := positive
  tailAt := by simp [new]
  stored := rfl

private theorem Holds.full_iff {queue : LockFreeQueue α} {items : List α} (holds : queue.Holds items) :
    (queue.tail + 1) % queue.bufferCapacity = queue.head ↔ items.length + 1 = queue.bufferCapacity := by
  have inside := Nat.mod_eq_of_lt holds.headInside
  have room := holds.room
  rw [holds.tailAt,slot_succ]
  constructor
  · intro same
    by_contra less
    exact slot_ne (by omega) (by omega) (inside.trans same.symm)
  · intro full
    rw [Nat.add_assoc,full,Nat.add_mod_right]
    exact inside

theorem Holds.write {queue : LockFreeQueue α} {items : List α} (holds : queue.Holds items) (item : α) :
    window (queue.assign queue.tail (.item item)).slot queue.bufferCapacity queue.head
      (items.length + 1) = (items ++ [item]).map .item := by
  have room := holds.room
  have positive : 0 < queue.bufferCapacity := by omega
  rw [window_last,List.map_append,List.map_singleton]
  congr 1
  · rw [← holds.stored]
    apply window_update _ _ _ _ _ queue.tail
    · intro i other
      exact assign_slot_other _ _ _ _ other
    · intro i bound
      rw [holds.tailAt]
      exact slot_ne (by omega) (by omega)
  · rw [← holds.tailAt,assign_slot_same]
    rw [holds.sized,holds.tailAt]
    exact Nat.mod_lt _ positive

theorem enqueueWith_holds (how : Overload) {queue : LockFreeQueue α} {items : List α}
    (holds : queue.Holds items) (item : α) : (enqueueWith how queue item).1.Holds
      ((items ++ [item]).rtake (queue.bufferCapacity - 1)) := by
  have inside := holds.headInside
  have room := holds.room
  have written := holds.write item
  by_cases full : items.length + 1 = queue.bufferCapacity
  · have kept : (items ++ [item]).rtake (queue.bufferCapacity - 1) = (items ++ [item]).tail := by
      have one : items.length + 1 - (queue.bufferCapacity - 1) = 1 := by omega
      simp [List.rtake,one]
    have size : (items ++ [item]).tail.length = items.length := by simp
    rw [kept]
    simp only [enqueueWith,holds.full_iff.mpr full,if_true]
    refine ⟨by simpa using holds.sized,Nat.mod_lt _ (by omega),by simpa using room,?_,?_⟩
    · simp only [assign_bufferCapacity,assign_head,size]
      rw [Nat.mod_add_mod,Nat.add_assoc,Nat.add_comm 1 items.length,full,Nat.add_mod_right]
      exact (Nat.mod_eq_of_lt inside).symm
    · rw [size]
      simp only [assign_bufferCapacity,assign_head]
      rw [window_start]
      rw [window_first] at written
      have rest := congrArg List.tail written
      rw [List.tail_cons,← List.map_tail] at rest
      exact rest
  · have kept : (items ++ [item]).rtake (queue.bufferCapacity - 1) = items ++ [item] := by
      have none : items.length + 1 - (queue.bufferCapacity - 1) = 0 := by omega
      simp [List.rtake,none]
    have size : (items ++ [item]).length = items.length + 1 := by simp
    have free : ¬ (queue.tail + 1) % queue.bufferCapacity = queue.head :=
      fun same => full (holds.full_iff.mp same)
    rw [kept]
    simp only [enqueueWith,free,if_false]
    refine ⟨by simpa using holds.sized,inside,by simp; omega,?_,?_⟩
    · simp only [assign_bufferCapacity,assign_head,size]
      rw [holds.tailAt,slot_succ,Nat.add_assoc]
    · rw [size]
      exact written

theorem dequeue_holds {queue : LockFreeQueue α} {items : List α} (holds : queue.Holds items) :
    (dequeue queue).1.Holds items.tail ∧ (dequeue queue).2 = items.head?.map .item := by
  have inside := holds.headInside
  cases items with
  | nil =>
    simp only [dequeue,holds.empty_iff.mpr rfl,if_true]
    exact ⟨holds,rfl⟩
  | cons first rest =>
    have room := holds.room
    have filled : ¬ queue.head = queue.tail := fun same => by simpa using holds.empty_iff.mp same
    have stored := holds.stored
    simp only [List.length_cons] at room stored
    rw [window_first,Nat.mod_eq_of_lt inside,List.map_cons] at stored
    obtain ⟨front,others⟩ := List.cons.inj stored
    simp only [dequeue,filled,if_false,front]
    refine ⟨⟨by simpa using holds.sized,Nat.mod_lt _ (by simp; omega),by simp; omega,?_,?_⟩,rfl⟩
    · simp only [assign_tail,assign_bufferCapacity,List.tail_cons]
      rw [holds.tailAt,Nat.mod_add_mod,List.length_cons]
      congr 1
      omega
    · simp only [assign_bufferCapacity,List.tail_cons]
      rw [window_start,← others]
      apply window_update _ _ _ _ _ queue.head
      · intro i other
        exact assign_slot_other _ _ _ _ other
      · intro i bound same
        exact slot_ne (by omega) (by omega) ((Nat.mod_eq_of_lt inside).trans same.symm)

theorem clear_holds {queue : LockFreeQueue α} {items : List α} (holds : queue.Holds items) :
    queue.clear.Holds [] where
  sized := holds.sized
  headInside := by have := holds.room; simp only [clear]; omega
  room := by have := holds.room; simp only [clear,List.length_nil]; omega
  tailAt := by simp [clear]
  stored := rfl

inductive Call (α : Type) where
  | enqueueCopy (item : α)
  | enqueueMove (item : α)
  | dequeue
  | clear
  | isEmpty
  | size

inductive Reply (α : Type) where
  | enqueued (left : Cell α) (accepted : Bool)
  | dequeued (item : Option (Cell α))
  | cleared
  | isEmpty (answer : Bool)
  | size (count : Nat)

def call (queue : LockFreeQueue α) : Call α → LockFreeQueue α × Reply α
  | .enqueueCopy item =>
    let (after,left,accepted) := enqueueCopy queue item
    (after,.enqueued left accepted)
  | .enqueueMove item =>
    let (after,left,accepted) := enqueueMove queue item
    (after,.enqueued left accepted)
  | .dequeue =>
    let (after,item) := queue.dequeue
    (after,.dequeued item)
  | .clear => (queue.clear,.cleared)
  | .isEmpty => (queue,.isEmpty queue.isEmpty)
  | .size => (queue,.size queue.size)

def calls : Transducer (LockFreeQueue α) (Call α) (Reply α) := ⟨call⟩

/-- What the queue is for: a list of the last `bound` items not yet taken. -/
def fifoCall {bound : Nat} (fifo : BoundedFifo α bound) : Call α → BoundedFifo α bound × Reply α
  | .enqueueCopy item => (fifo.push item,.enqueued (.item item) true)
  | .enqueueMove item => (fifo.push item,.enqueued (.movedFrom item) true)
  | .dequeue => (fifo.pop.1,.dequeued (fifo.pop.2.map .item))
  | .clear => (.empty,.cleared)
  | .isEmpty => (fifo,.isEmpty fifo.items.isEmpty)
  | .size => (fifo,.size fifo.items.length)

def fifoCalls (bound : Nat) : Transducer (BoundedFifo α bound) (Call α) (Reply α) := ⟨fifoCall⟩

/-- The concrete queue stands for the list, with one slot more than the list may hold. -/
def Represents {bound : Nat} (queue : LockFreeQueue α) (fifo : BoundedFifo α bound) : Prop :=
  queue.bufferCapacity = bound + 1 ∧ queue.Holds fifo.items

section Represented
variable {bound : Nat} {queue : LockFreeQueue α} {fifo : BoundedFifo α bound}

theorem new_represents (maxSize : Nat) (positive : 1 ≤ maxSize) :
    (new maxSize : LockFreeQueue α).Represents (.empty : BoundedFifo α (maxSize - 1)) :=
  ⟨(Nat.sub_add_cancel positive).symm,new_holds maxSize positive⟩

theorem Represents.enqueueWith (represents : queue.Represents fifo) (how : Overload) (item : α) :
    (enqueueWith how queue item).1.Represents (fifo.push item) := by
  obtain ⟨slots,holds⟩ := represents
  have after := enqueueWith_holds how holds item
  rw [slots,Nat.add_sub_cancel] at after
  refine ⟨?_,after⟩
  simp only [LockFreeQueue.enqueueWith]
  split <;> exact slots

theorem Represents.dequeue (represents : queue.Represents fifo) :
    queue.dequeue.1.Represents fifo.pop.1 ∧ queue.dequeue.2 = fifo.pop.2.map .item := by
  obtain ⟨slots,holds⟩ := represents
  obtain ⟨after,answer⟩ := dequeue_holds holds
  refine ⟨⟨?_,after⟩,answer⟩
  simp only [LockFreeQueue.dequeue]
  split <;> exact slots

/-- A dequeue finds the queue empty or takes the oldest item. -/
theorem Represents.dequeue_cases (represents : queue.Represents fifo) :
    ∃ rest, rest.Represents fifo.pop.1 ∧
    ((queue.dequeue = (rest,none) ∧ fifo.items = fifo.pop.1.items) ∨
      ∃ item, queue.dequeue = (rest,some (.item item)) ∧ fifo.items = item :: fifo.pop.1.items) := by
  obtain ⟨after,answer⟩ := represents.dequeue
  have split := fifo.pop_append
  refine ⟨_,after,?_⟩
  cases popped : fifo.pop.2 with
  | none =>
    rw [popped] at answer split
    exact Or.inl ⟨Prod.ext rfl answer,split.symm⟩
  | some item =>
    rw [popped] at answer split
    exact Or.inr ⟨item,Prod.ext rfl answer,split.symm⟩

end Represented

private theorem call_represents {bound : Nat} (queue : LockFreeQueue α) (fifo : BoundedFifo α bound)
    (request : Call α) (represents : queue.Represents fifo) :
    (call queue request).1.Represents (fifoCall fifo request).1 ∧
      (call queue request).2 = (fifoCall fifo request).2 := by
  have slots := represents.left
  have holds := represents.right
  cases request with
  | enqueueCopy item => exact ⟨represents.enqueueWith .copy item,rfl⟩
  | enqueueMove item => exact ⟨represents.enqueueWith .move item,rfl⟩
  | dequeue =>
    obtain ⟨after,answer⟩ := represents.dequeue
    exact ⟨after,congrArg Reply.dequeued answer⟩
  | clear => exact ⟨⟨slots,clear_holds holds⟩,rfl⟩
  | isEmpty =>
    refine ⟨represents,congrArg Reply.isEmpty ?_⟩
    simp only [isEmpty]
    rw [Bool.eq_iff_iff,beq_iff_eq,List.isEmpty_iff]
    exact holds.empty_iff
  | size => exact ⟨represents,congrArg Reply.size holds.size_eq⟩

/-- Any sequence of calls answers as the list does and leaves the list in the window;
an enqueue drops the oldest item exactly when `capacity()` items are present. -/
theorem calls_refine_fifo (maxSize : Nat) (positive : 1 ≤ maxSize) (requests : List (Call α)) :
    let queue := (calls.run (new maxSize) requests).1
    let fifo := ((fifoCalls (maxSize - 1)).run .empty requests).1
    (calls.run (new maxSize) requests).2 = ((fifoCalls (maxSize - 1)).run .empty requests).2 ∧
      queue.contents = fifo.items.map .item ∧ queue.size = fifo.items.length ∧
      queue.capacity = maxSize - 1 ∧ queue.size ≤ queue.capacity ∧
      ∀ how item, (enqueueWith how queue item).1.contents =
        if queue.size = queue.capacity then (queue.contents ++ [Cell.item item]).tail
        else queue.contents ++ [Cell.item item] := by
  intro queue fifo
  obtain ⟨⟨slots,holds⟩,answers⟩ := Transducer.run_simulates calls (fifoCalls (maxSize - 1)) Represents
    call_represents requests _ _ (new_represents maxSize positive)
  have capacity_eq : queue.capacity = maxSize - 1 := Nat.sub_eq_of_eq_add slots
  have size_eq : queue.size = fifo.items.length := holds.size_eq
  have contents_eq : queue.contents = fifo.items.map .item := holds.contents_eq
  refine ⟨answers,contents_eq,size_eq,capacity_eq,?_,?_⟩
  · rw [size_eq,capacity_eq]
    exact fifo.bounded
  · intro how item
    have after := (enqueueWith_holds how holds item).contents_eq
    have bound_eq : (calls.run (new maxSize) requests).1.bufferCapacity - 1 = maxSize - 1 := capacity_eq
    rw [bound_eq] at after
    rw [after,size_eq,capacity_eq,contents_eq]
    split
    next full =>
      rw [← List.map_singleton,← List.map_append,← List.map_tail]
      exact congrArg (List.map Cell.item) (fifo.push_full item full)
    next room =>
      have few : fifo.items.length < maxSize - 1 := Nat.lt_of_le_of_ne fifo.bounded room
      rw [← List.map_singleton,← List.map_append]
      exact congrArg (List.map Cell.item) (fifo.push_room item few)

def overflowing : List (Call Nat) := [.enqueueMove 7,.enqueueCopy 8,.enqueueMove 9,.dequeue,.size]

theorem overflowing_refines :
    (calls.run (new 3) overflowing).2 = ((fifoCalls 2).run .empty overflowing).2 ∧
    (calls.run (new 3) overflowing).1.contents = [.item 9] := by
  obtain ⟨answers,contents,_⟩ := calls_refine_fifo 3 (by decide) overflowing
  exact ⟨answers,contents⟩

end YoloEngine.LockFreeQueue
