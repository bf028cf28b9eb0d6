import YoloEngine.Queue.Races

/-! Every enqueue is accounted for by a dequeue, a full enqueue or a slot between the cursors,
as long as no store of the consumer to `head` is stale. The producer's may be: what matters is
that no store has taken `head` further than the items returned and dropped account for. -/
namespace YoloEngine.Interleaving
open Foundation Foundation.Ring LockFreeQueue
variable {α : Type}

def Accounted (state : State α) : Prop :=
  state.producer = .idle → state.consumer = .idle →
    state.enqueued ≤ state.returned.length + state.fulls + state.queue.size

/-- What an enqueue has computed; `removed` counts the items returned and the enqueues that were
full. -/
def EnqueueAt (size position enqueued removed : Nat) : EnqueuePc (Tagged α) → Prop
  | .idle => True
  | .loadTail _ _ => True
  | .loadHead _ _ _ nextTail => nextTail = (enqueued + 1) % size
  | .reloadHead _ _ _ nextTail => nextTail = (enqueued + 1) % size
  | .storeHead _ _ _ nextTail newHead => nextTail = (enqueued + 1) % size ∧
      ∃ loaded, newHead = (loaded + 1) % size ∧ loaded + 1 ≤ removed ∧ enqueued < loaded + size
  | .write _ _ _ nextTail => nextTail = (enqueued + 1) % size ∧ enqueued + 1 < position + size
  | .storeTail _ nextTail => nextTail = (enqueued + 1) % size ∧ enqueued + 1 < position + size

/-- `head` may be past `tail`, and a stale store of the producer may take its position back; it has
never passed more items than were returned or found the queue full. -/
structure Balanced (size position : Nat) (state : State α) : Prop where
  capacity : state.queue.bufferCapacity = size
  headAt : state.queue.head = position % size
  tailAt : state.queue.tail = state.enqueued % size
  room : state.enqueued < position + size
  producerAt : EnqueueAt size position state.enqueued
    (state.returned.length + state.fulls) state.producer
  removed : position + pendingDrop state.producer ≤ state.returned.length + state.fulls

theorem EnqueueAt.mono {size position later enqueued removed more : Nat} {pc : EnqueuePc (Tagged α)}
    (at_pc : EnqueueAt size position enqueued removed pc) (onward : position ≤ later)
    (grown : removed ≤ more) :
    EnqueueAt size later enqueued more pc := by
  cases pc with
  | idle | loadTail _ _ | loadHead _ _ _ _ | reloadHead _ _ _ _ => exact at_pc
  | storeHead how item currentTail nextTail newHead =>
    obtain ⟨target,loaded,computed,passed,room⟩ := at_pc
    exact ⟨target,loaded,computed,Nat.le_trans passed grown,room⟩
  | write how item currentTail nextTail | storeTail left nextTail =>
    obtain ⟨target,room⟩ := at_pc
    exact ⟨target,by omega⟩

private theorem balanced_new (size : Nat) (positive : 0 < size) :
    Balanced size 0 (State.new size : State α) where
  capacity := rfl
  headAt := (Nat.zero_mod size).symm
  tailAt := (Nat.zero_mod size).symm
  room := by simpa [State.new] using positive
  producerAt := trivial
  removed := Nat.le_refl _

section Balance
variable {size position : Nat} {state : State α}

theorem Balanced.producerStep (balanced : Balanced size position state) :
    ∃ later, Balanced size later (producerStep state) := by
  have room := balanced.room
  have at_pc := balanced.producerAt
  have removed := balanced.removed
  cases pc : state.producer with
  | idle | loadTail how item =>
    simp only [pc,EnqueueAt,pendingDrop] at at_pc removed
    simp only [Interleaving.producerStep,pc,enqueueStep]
    refine ⟨position,{ balanced with producerAt := ?_, removed := removed }⟩
    simp only [EnqueueAt,balanced.tailAt,balanced.capacity,slot_succ]
  | loadHead how item currentTail nextTail =>
    simp only [pc,EnqueueAt,pendingDrop] at at_pc removed
    simp only [Interleaving.producerStep,pc,enqueueStep]
    by_cases full : nextTail = state.queue.head
    · simp only [full,if_true]
      exact ⟨position,{ balanced with
        producerAt := full.symm.trans at_pc
        removed := by simp only [pendingDrop]; omega }⟩
    · simp only [full,if_false]
      have free : state.enqueued + 1 ≠ position + size := by
        intro filled
        exact full (by rw [at_pc,filled,Nat.add_mod_right,balanced.headAt])
      have near : state.enqueued + 1 < position + size := by omega
      exact ⟨position,{ balanced with producerAt := ⟨at_pc,near⟩, removed := removed }⟩
  | reloadHead how item currentTail nextTail =>
    simp only [pc,EnqueueAt,pendingDrop] at at_pc removed
    simp only [Interleaving.producerStep,pc,enqueueStep]
    have computed : (state.queue.head + 1) % state.queue.bufferCapacity = (position + 1) % size := by
      rw [balanced.headAt,balanced.capacity,slot_succ]
    exact ⟨position,{ balanced with
      producerAt := ⟨at_pc,position,computed,removed,room⟩
      removed := removed }⟩
  | storeHead how item currentTail nextTail newHead =>
    simp only [pc,EnqueueAt] at at_pc
    obtain ⟨target,loaded,computed,passed,near⟩ := at_pc
    simp only [Interleaving.producerStep,pc,enqueueStep]
    -- the store takes the position to where it was computed, whatever the consumer has done since
    have after : state.enqueued + 1 < loaded + 1 + size := by omega
    exact ⟨loaded + 1,{ balanced with
      headAt := computed
      room := by simp only; omega
      producerAt := ⟨target,after⟩
      removed := passed }⟩
  | write how item currentTail nextTail =>
    simp only [pc,EnqueueAt,pendingDrop] at at_pc removed
    simp only [Interleaving.producerStep,pc,enqueueStep]
    exact ⟨position,{ balanced with producerAt := at_pc, removed := removed }⟩
  | storeTail left nextTail =>
    simp only [pc,EnqueueAt,pendingDrop] at at_pc removed
    obtain ⟨target,near⟩ := at_pc
    simp only [Interleaving.producerStep,pc,enqueueStep]
    exact ⟨position,{ balanced with
      tailAt := target, room := near, producerAt := trivial, removed := removed }⟩

theorem Balanced.consumerStep (balanced : Balanced size position state)
    (onward : movesOn state .consumer) :
    ∃ later, Balanced size later (consumerStep state) := by
  have room := balanced.room
  have removed := balanced.removed
  cases pc : state.consumer with
  | storeHead currentHead item =>
    have store := onward rfl ((currentHead + 1) % state.queue.bufferCapacity) (by simp [storedHead,pc])
    have returned : (state.returned ++ [item]).length = state.returned.length + 1 := by simp
    simp only [Interleaving.consumerStep,pc,dequeueStep]
    rcases store with kept | moved
    · exact ⟨position,{ balanced with
        headAt := kept.trans balanced.headAt
        producerAt := balanced.producerAt.mono (Nat.le_refl _) (by simp only [returned]; omega)
        removed := by simp only [returned]; omega }⟩
    · exact ⟨position + 1,{ balanced with
        headAt := by rw [moved,balanced.headAt,balanced.capacity,slot_succ]
        room := by simp only; omega
        producerAt := balanced.producerAt.mono (Nat.le_succ _) (by simp only [returned]; omega)
        removed := by simp only [returned]; omega }⟩
  | loadTail currentHead =>
    by_cases empty : currentHead = state.queue.tail
    · simp only [Interleaving.consumerStep,pc,dequeueStep,empty,if_true]
      exact ⟨position,{ balanced with }⟩
    · simp only [Interleaving.consumerStep,pc,dequeueStep,empty,if_false]
      exact ⟨position,{ balanced with }⟩
  | _ =>
    simp only [Interleaving.consumerStep,pc,dequeueStep]
    exact ⟨position,{ balanced with }⟩

theorem Balanced.step (balanced : Balanced size position state) {action : Action α} {after : State α}
    (onward : movesOn state action) (taken : next state action = some after) :
    ∃ later, Balanced size later after := by
  obtain ⟨how,value,rfl,idle,rfl⟩ | ⟨rfl,rfl⟩ | ⟨rfl,idle,rfl⟩ | ⟨rfl,rfl⟩ := next_cases taken
  · have removed := balanced.removed
    simp only [idle,pendingDrop] at removed
    exact ⟨position,{ balanced with producerAt := trivial, removed := removed }⟩
  · exact balanced.producerStep
  · exact ⟨position,{ balanced with }⟩
  · exact balanced.consumerStep onward

private theorem Balanced.accounted (balanced : Balanced size position state) (positive : 0 < size) :
    state.enqueued ≤ state.returned.length + state.fulls + state.queue.size := by
  have room := balanced.room
  have removed := balanced.removed
  rcases Nat.lt_or_ge state.enqueued position with past | behind
  · omega
  · have count : position + state.queue.size = state.enqueued := by
      rw [LockFreeQueue.size,balanced.capacity,balanced.headAt,balanced.tailAt]
      exact sizeFrom_positions positive behind room
    omega

end Balance

/-- Nothing vanishes in a run in which the consumer stores to `head` what it holds or the slot after
it; a stale store of the producer brings items back, and what it passes over is counted among the
full enqueues. -/
theorem nothing_vanishes {size : Nat} (large : 2 ≤ size) {state : State α}
    (reachable : (spsc size).Reachable movesOn state) : Accounted state := by
  obtain ⟨position,balanced⟩ : ∃ position, Balanced size position state := by
    apply reachable.invariant (fun state => ∃ position, Balanced size position state)
    · exact ⟨0,balanced_new size (by omega)⟩
    · intro before action after earlier onward taken
      obtain ⟨position,balanced⟩ := earlier
      exact balanced.step onward taken
  exact fun _ _ => balanced.accounted (by omega)

/-- A dequeue has read its slot; two full enqueues pass; its late store puts `head` on `tail`. -/
def staleConsumerStore : List (Action Unit) :=
  [.callEnqueue .move (),.producer,.producer,.producer,.producer,
    .callEnqueue .move (),.producer,.producer,.producer,.producer,
    .callDequeue,.consumer,.consumer,.consumer,
    .callEnqueue .move (),.producer,.producer,.producer,.producer,.producer,.producer,
    .callEnqueue .move (),.producer,.producer,.producer,.producer,.producer,.producer,
    .consumer]

theorem staleConsumerStore_loses : ∃ state : State Unit, (spsc 3).Reachable Machine.always state ∧
    state.enqueued = 4 ∧ state.returned.length = 1 ∧ state.fulls = 2 ∧ state.queue.size = 0 ∧
    ¬ Accounted state := by
  obtain ⟨state,ran,producer,consumer,enqueued,returned,fulls,size⟩ :
      ∃ state, (spsc 3).run Machine.always (.new 3) staleConsumerStore = some state ∧
        state.producer = .idle ∧ state.consumer = .idle ∧ state.enqueued = 4 ∧
        state.returned.length = 1 ∧
        state.fulls = 2 ∧ state.queue.size = 0 := ⟨_,rfl,rfl,rfl,rfl,rfl,rfl,rfl⟩
  refine ⟨state,Machine.reachable_of_run .init ran,enqueued,returned,fulls,size,?_⟩
  intro accounted
  have bound := accounted producer consumer
  omega

/-- The store of the producer is stale, and the moved-from slot it brings back is returned. -/
theorem staleProducerStore_accounted : ∃ state : State Unit,
    (spsc 3).run movesOn (.new 3) staleProducerStore = some state ∧ state.enqueued = 3 ∧
    state.fulls = 1 ∧
    Accounted state := by
  obtain ⟨state,ran,enqueued,fulls⟩ : ∃ state,
    (spsc 3).run movesOn (.new 3) staleProducerStore = some state ∧
      state.enqueued = 3 ∧ state.fulls = 1 := ⟨_,rfl,rfl,rfl⟩
  exact ⟨state,ran,enqueued,fulls,nothing_vanishes (by decide) (Machine.reachable_of_run .init ran)⟩

end YoloEngine.Interleaving
