import YoloEngine.Queue.Races

/-! How old an item can be that a dequeue reads, whatever the two threads do to `head`. The
producer alone writes slots and stores to `tail`, so slots are written in cyclic order; and in
the first lap no store to `head`, stale or not, takes it past the published items. -/
namespace YoloEngine.Interleaving
open Foundation Foundation.Ring LockFreeQueue
variable {α : Type}

/-- The item itself, or what is left of it after a move. -/
def Remains (item : Tagged α) (cell : Cell (Tagged α)) : Prop := cell = .item item ∨
    cell = .movedFrom item

def ProducerLap (size enqueued written : Nat) : EnqueuePc (Tagged α) → Prop
  | .idle => written = enqueued
  | .loadTail _ _ => written = enqueued
  | .loadHead _ _ currentTail nextTail => written = enqueued ∧ currentTail = enqueued % size ∧
      nextTail = (enqueued + 1) % size
  | .reloadHead _ _ currentTail nextTail => written = enqueued ∧ currentTail = enqueued % size ∧
      nextTail = (enqueued + 1) % size ∧ size ≤ enqueued + 1
  | .storeHead _ _ currentTail nextTail newHead => written = enqueued ∧ currentTail = enqueued % size ∧
      nextTail = (enqueued + 1) % size ∧ size ≤ enqueued + 1 ∧ newHead < size
  | .write _ _ currentTail nextTail => written = enqueued ∧ currentTail = enqueued % size ∧
      nextTail = (enqueued + 1) % size
  | .storeTail _ nextTail => written = enqueued + 1 ∧ nextTail = (enqueued + 1) % size

def ConsumerLap (size enqueued written : Nat) : DequeuePc (Tagged α) → Prop
  | .idle => True
  | .loadHead => True
  | .loadTail currentHead => currentHead < size ∧ (written < size → currentHead ≤ enqueued)
  | .read currentHead => currentHead < size ∧ (written < size → currentHead < enqueued)
  | .storeHead currentHead _ => currentHead < size ∧ (written < size → currentHead < enqueued)

structure Lap (size : Nat) (state : State α) : Prop where
  capacity : state.queue.bufferCapacity = size
  sized : state.queue.buffer.length = size
  headInside : state.queue.head < size
  headLe : state.written.length < size → state.queue.head ≤ state.enqueued
  tailAt : state.queue.tail = state.enqueued % size
  published : state.enqueued ≤ state.written.length
  recent : ∀ (index : Nat) (item : Tagged α), state.written[index]? = some item →
    state.written.length ≤ index + size → Remains item (state.queue.slot (index % size))
  producerAt : ProducerLap size state.enqueued state.written.length state.producer
  consumerAt : ConsumerLap size state.enqueued state.written.length state.consumer
  returns : state.read = state.returned ++ pendingRead state.consumer

theorem ConsumerLap.mono {size enqueued more written longer : Nat} {pc : DequeuePc (Tagged α)}
    (at_pc : ConsumerLap size enqueued written pc) (published : enqueued ≤ more)
    (grown : written ≤ longer) :
    ConsumerLap size more longer pc := by
  cases pc with
  | idle | loadHead => trivial
  | loadTail currentHead | read currentHead | storeHead currentHead item =>
    obtain ⟨inside,early⟩ := at_pc
    refine ⟨inside,fun first => ?_⟩
    have bound := early (by omega)
    omega

theorem lap_new (size : Nat) (positive : 0 < size) : Lap size (State.new size : State α) where
  capacity := rfl
  sized := List.length_replicate
  headInside := positive
  headLe := fun _ => Nat.le_refl _
  tailAt := (Nat.zero_mod size).symm
  published := Nat.le_refl _
  recent := by simp [State.new]
  producerAt := rfl
  consumerAt := trivial
  returns := rfl

section Steps
variable {size : Nat} {state : State α}

theorem Lap.producerWrite (lap : Lap size state) {how : Overload} {item : Tagged α}
    {currentTail nextTail : Nat}
    (pc : state.producer = .write how item currentTail nextTail) : Lap size
    (producerStep state) := by
  have at_pc := lap.producerAt
  have positive := lap.headInside
  simp only [pc,ProducerLap] at at_pc
  obtain ⟨same,rfl,target⟩ := at_pc
  simp only [producerStep,pc,enqueueStep]
  exact { lap with
    sized := by simpa using lap.sized
    headLe := by
      intro first
      simp only [List.length_append,List.length_singleton] at first
      exact lap.headLe (by omega)
    published := by simp only [List.length_append,List.length_singleton]; omega
    recent := by
      intro index found lookup young
      simp only [List.length_append,List.length_singleton] at young
      rcases snoc_lookup lookup with earlier | ⟨rfl,rfl⟩
      · have inside := (List.getElem?_eq_some_iff.mp earlier).1
        rw [assign_slot_other _ _ _ _ (by rw [← same]; exact slot_ne inside (by omega))]
        exact lap.recent index found earlier (by omega)
      · rw [same,assign_slot_same _ _ _ (by rw [lap.sized]; exact Nat.mod_lt _ (by omega))]
        exact Or.inl rfl
    producerAt := ⟨by simp only [List.length_append,List.length_singleton,same],target⟩
    consumerAt := lap.consumerAt.mono (Nat.le_refl _) (by simp) }

theorem Lap.producerStep (lap : Lap size state) : Lap size (producerStep state) := by
  have at_pc := lap.producerAt
  have positive := lap.headInside
  cases pc : state.producer with
  | write how item currentTail nextTail => exact lap.producerWrite pc
  | idle =>
    simp only [pc,ProducerLap] at at_pc
    simp only [Interleaving.producerStep,pc,enqueueStep]
    exact { lap with producerAt := at_pc }
  | loadTail how item =>
    simp only [pc,ProducerLap] at at_pc
    simp only [Interleaving.producerStep,pc,enqueueStep]
    exact { lap with
      producerAt := ⟨at_pc,lap.tailAt,by rw [lap.tailAt,lap.capacity,slot_succ]⟩ }
  | loadHead how item currentTail nextTail =>
    simp only [pc,ProducerLap] at at_pc
    obtain ⟨same,current,target⟩ := at_pc
    simp only [Interleaving.producerStep,pc,enqueueStep]
    by_cases full : nextTail = state.queue.head
    · -- the full branch is entered in the first lap only at its end
      have lapped : size ≤ state.enqueued + 1 := by
        by_contra early
        have bound := lap.headLe (by omega)
        rw [← full,target,Nat.mod_eq_of_lt (by omega)] at bound
        omega
      simp only [full,if_true]
      exact { lap with producerAt := ⟨same,current,full.symm.trans target,lapped⟩ }
    · simp only [full,if_false]
      exact { lap with producerAt := ⟨same,current,target⟩ }
  | reloadHead how item currentTail nextTail =>
    simp only [pc,ProducerLap] at at_pc
    obtain ⟨same,current,target,lapped⟩ := at_pc
    simp only [Interleaving.producerStep,pc,enqueueStep]
    exact { lap with
      producerAt := ⟨same,current,target,lapped,by rw [lap.capacity]; exact Nat.mod_lt _ (by omega)⟩ }
  | storeHead how item currentTail nextTail newHead =>
    simp only [pc,ProducerLap] at at_pc
    obtain ⟨same,current,target,lapped,inside⟩ := at_pc
    simp only [Interleaving.producerStep,pc,enqueueStep]
    exact { lap with
      headInside := inside
      headLe := fun _ => by simp only; omega
      producerAt := ⟨same,current,target⟩ }
  | storeTail left nextTail =>
    simp only [pc,ProducerLap] at at_pc
    obtain ⟨same,target⟩ := at_pc
    simp only [Interleaving.producerStep,pc,enqueueStep]
    exact { lap with
      headLe := fun first => Nat.le_succ_of_le (lap.headLe first)
      tailAt := target
      published := by simp only; omega
      producerAt := same
      consumerAt := lap.consumerAt.mono (Nat.le_succ _) (Nat.le_refl _) }

/-- The slot a dequeue is about to read holds what is left of the latest item written to it. -/
theorem Lap.reading (lap : Lap size state) {currentHead : Nat}
    (pc : state.consumer = .read currentHead) :
    ∃ index item, state.written[index]? = some item ∧ state.written.length ≤ index + size ∧
      index % size = currentHead ∧ Remains item (state.queue.slot currentHead) := by
  have at_pc := lap.consumerAt
  have published := lap.published
  simp only [pc,ConsumerLap] at at_pc
  obtain ⟨inside,early⟩ := at_pc
  have below : currentHead < state.written.length := by
    by_contra unwritten
    have bound := early (by omega)
    omega
  obtain ⟨index,_,bound,young,slot⟩ := exists_latest (show 0 < size by omega) below
  rw [Nat.mod_eq_of_lt inside] at slot
  have lookup := List.getElem?_eq_getElem bound
  have found := lap.recent index _ lookup young
  rw [slot] at found
  exact ⟨index,_,lookup,young,slot,found⟩

theorem Lap.consumerRead (lap : Lap size state) {currentHead : Nat}
    (pc : state.consumer = .read currentHead) :
    Lap size (consumerStep state) := by
  have at_pc := lap.consumerAt
  have returns := lap.returns
  simp only [pc,ConsumerLap,pendingRead,List.append_nil] at at_pc returns
  have moved (item : Tagged α) (cell : Cell
    (Tagged α)) (remains : Remains item cell) : Remains item cell.moved := by
    obtain rfl | rfl := remains <;> exact Or.inr rfl
  simp only [consumerStep,pc,dequeueStep]
  exact { lap with
    sized := by simpa using lap.sized
    recent := by
      intro index item lookup young
      have remains := lap.recent index item lookup young
      by_cases same : index % size = currentHead
      · rw [same] at remains ⊢
        rw [assign_slot_same _ _ _ (by rw [lap.sized]; exact at_pc.left)]
        exact moved _ _ remains
      · rw [assign_slot_other _ _ _ _ same]
        exact remains
    consumerAt := at_pc
    returns := by simp only [pendingRead,returns] }

theorem Lap.consumerStep (lap : Lap size state) : Lap size (consumerStep state) := by
  have at_pc := lap.consumerAt
  have returns := lap.returns
  have positive := lap.headInside
  have published := lap.published
  cases pc : state.consumer with
  | read currentHead => exact lap.consumerRead pc
  | idle =>
    simp only [pc,pendingRead] at returns
    simp only [Interleaving.consumerStep,pc,dequeueStep]
    exact { lap with consumerAt := trivial, returns := returns }
  | loadHead =>
    simp only [pc,pendingRead] at returns
    simp only [Interleaving.consumerStep,pc,dequeueStep]
    exact { lap with consumerAt := ⟨positive,lap.headLe⟩, returns := returns }
  | loadTail currentHead =>
    simp only [pc,ConsumerLap,pendingRead] at at_pc returns
    obtain ⟨inside,early⟩ := at_pc
    simp only [Interleaving.consumerStep,pc,dequeueStep]
    by_cases empty : currentHead = state.queue.tail
    · simp only [empty,if_true]
      exact { lap with consumerAt := trivial, returns := returns }
    · simp only [empty,if_false]
      refine { lap with consumerAt := ⟨inside,
        fun (first : state.written.length < size) => ?_⟩, returns := returns }
      have bound := early first
      rw [lap.tailAt,Nat.mod_eq_of_lt (by omega)] at empty
      exact Nat.lt_of_le_of_ne bound empty
  | storeHead currentHead item =>
    simp only [pc,ConsumerLap,pendingRead] at at_pc returns
    obtain ⟨inside,early⟩ := at_pc
    simp only [Interleaving.consumerStep,pc,dequeueStep,lap.capacity]
    refine { lap with
      capacity := rfl
      headInside := Nat.mod_lt _ (by omega)
      headLe := fun (first : state.written.length < size) => ?_
      consumerAt := trivial
      returns := by simp only [pendingRead,List.append_nil,returns] }
    have bound := early first
    simp only
    rw [Nat.mod_eq_of_lt (by omega)]
    exact bound

theorem Lap.step (lap : Lap size state) {after : State α} {action : Action α}
    (taken : next state action = some after) :
    Lap size after := by
  obtain ⟨how,value,rfl,idle,rfl⟩ | ⟨rfl,rfl⟩ | ⟨rfl,idle,rfl⟩ | ⟨rfl,rfl⟩ := next_cases taken
  · have at_pc := lap.producerAt
    rw [idle] at at_pc
    exact { lap with producerAt := at_pc }
  · exact lap.producerStep
  · have returns := lap.returns
    rw [idle] at returns
    exact { lap with consumerAt := trivial, returns := returns }
  · exact lap.consumerStep

end Steps

/-- In every run a dequeue reads one of the last `size` items written, or what is left of it, and
dequeues return what they read. -/
theorem reads_recent {size : Nat} (positive : 0 < size) {state : State α}
    (reachable : (spsc size).Reachable Machine.always state) :
    (∀ currentHead, state.consumer = .read currentHead →
      ∃ index item, state.written[index]? = some item ∧ state.written.length ≤ index + size ∧
        ∃ cell, (cell = .item item ∨ cell = .movedFrom item) ∧
          (consumerStep state).read = state.read ++ [cell] ∧
          (consumerStep state).consumer = .storeHead currentHead cell) ∧
    state.read = state.returned ++ pendingRead state.consumer := by
  have lap : Lap size state := reachable.invariant (Lap size) (lap_new size positive)
    (fun _ _ _ earlier _ taken => earlier.step taken)
  refine ⟨fun currentHead reading => ?_,lap.returns⟩
  obtain ⟨index,item,lookup,young,_,remains⟩ := lap.reading reading
  refine ⟨index,item,lookup,young,_,remains,?_,?_⟩ <;> simp [consumerStep,reading,dequeueStep]

/-- A store of `head` that came too late leads the dequeue to a slot that was read before. -/
theorem staleProducerStore_reads_recent : ∃ state : State Unit,
    (spsc 3).run Machine.always (.new 3) staleProducerStore.dropLast.dropLast = some state ∧
    state.written.length = 3 ∧ ∃ cell, (consumerStep state).consumer = .storeHead 1 cell ∧
      ∃ item ∈ state.written, cell = .item item ∨ cell = .movedFrom item := by
  obtain ⟨state,ran,written,reading⟩ : ∃ state : State Unit,
      (spsc 3).run Machine.always (.new 3) staleProducerStore.dropLast.dropLast = some state ∧
        state.written.length = 3 ∧ state.consumer = .read 1 := ⟨_,rfl,rfl,rfl⟩
  obtain ⟨recent,_⟩ := reads_recent (by decide) (Machine.reachable_of_run .init ran)
  obtain ⟨_,item,lookup,_,cell,remains,_,stored⟩ := recent 1 reading
  exact ⟨state,ran,written,cell,stored,item,List.mem_of_getElem? lookup,remains⟩

end YoloEngine.Interleaving
