import YoloEngine.Queue.Refinement
import YoloEngine.Queue.Window

/-! What the queue promises a producer and a consumer that run at once, and the runs on
which it does not. Both threads store to `head`, each a value computed from an earlier
load; the promises hold as long as every such store takes at most one item off. -/
namespace YoloEngine.Interleaving
open Foundation Foundation.Ring LockFreeQueue
variable {α : Type}

/-- Dequeues have returned items only, each later than the one before, in every run whose
stores to `head` take at most one item off a queue that is not empty. -/
theorem returned_inOrder {size : Nat} (large : 2 ≤ size) {state : State α}
    (reachable : (spsc size).Reachable popsOne state) : InOrder state.returned := by
  obtain ⟨position,window⟩ := window_reachable large reachable
  have reads := window.reads
  rw [window.returns] at reads
  exact reads.left

/-- The producer computes `new_head`, the consumer drains the queue, and the store moves
`head` back onto a slot that was moved out of. -/
def staleProducerStore : List (Action Unit) :=
  [.callEnqueue .move (),.producer,.producer,.producer,.producer,
    .callEnqueue .move (),.producer,.producer,.producer,.producer,
    .callEnqueue .move (),.producer,.producer,.producer,
    .callDequeue,.consumer,.consumer,.consumer,.consumer,
    .callDequeue,.consumer,.consumer,.consumer,.consumer,
    .producer,.producer,.producer,
    .callDequeue,.consumer,.consumer,.consumer,.consumer]

theorem staleProducerStore_returns_movedFrom : ∃ state :
    State Unit, (spsc 3).Reachable Machine.always state ∧
    state.returned = [.item ⟨0,()⟩,.item ⟨1,()⟩,.movedFrom ⟨1,()⟩] ∧ ¬ InOrder state.returned := by
  have ran : ∃ state, (spsc 3).run Machine.always (.new 3) staleProducerStore = some state ∧
      state.returned = [.item ⟨0,()⟩,.item ⟨1,()⟩,.movedFrom ⟨1,()⟩] := ⟨_,rfl,rfl⟩
  obtain ⟨state,ran,returned⟩ := ran
  refine ⟨state,Machine.reachable_of_run .init ran,returned,?_⟩
  intro ordered
  obtain ⟨items,same,_⟩ := ordered
  have member : Cell.movedFrom ⟨1,()⟩ ∈ items.map Cell.item := by rw [← same,returned]; simp
  simp at member

def takingTurns : List (Action Unit) :=
  [.callEnqueue .copy (),.producer,.producer,.producer,.producer,
    .callEnqueue .copy (),.producer,.producer,.producer,.producer,
    .callEnqueue .move (),.producer,.producer,.producer,.producer,.producer,.producer,
    .callDequeue,.consumer,.consumer,.consumer,.consumer]

theorem takingTurns_inOrder : ∃ state :
    State Unit, (spsc 3).run popsOne (.new 3) takingTurns = some state ∧
    state.returned = [.item ⟨1,()⟩] ∧ InOrder state.returned := by
  obtain ⟨state,ran,returned⟩ : ∃ state, (spsc 3).run popsOne (.new 3) takingTurns = some state ∧
      state.returned = [.item ⟨1,()⟩] := ⟨_,rfl,rfl⟩
  exact ⟨state,ran,returned,returned_inOrder (by decide) (Machine.reachable_of_run .init ran)⟩

theorem sizeFrom_positions {size first last : Nat} (positive : 0 < size) (ordered : first ≤ last)
    (close : last < first + size) : first + sizeFrom size (first % size) (last % size) = last := by
  have apart : last = first + (last - first) := by omega
  rw [apart,← Nat.mod_add_mod,size_at (Nat.mod_lt _ positive) (by omega)]

theorem Window.size_eq {size position : Nat} {state : State α} (window : Window size position state)
    (positive : 0 < size) : position + state.queue.size = state.enqueued := by
  rw [LockFreeQueue.size,window.capacity,window.headAt,window.tailAt]
  exact sizeFrom_positions positive window.headLe window.tailLt

/-- The producer is about to write the slot that the consumer is about to read and move. -/
def Clash (state : State α) : Prop :=
  ∃ how item currentTail nextTail currentHead, state.producer = .write how item currentTail nextTail ∧
    state.consumer = .read currentHead ∧ currentHead = currentTail

theorem Window.position_kept {size position later : Nat} {state after : State α} (large : 2 ≤ size)
    (window : Window size position state) (kept : Window size later after)
    (grown : position ≤ later) (one : later ≤ position + 1)
    (same : after.queue.head = state.queue.head) :
    later = position := by
  have equal : position % size = later % size := by rw [← window.headAt,← kept.headAt,same]
  exact (slot_inj grown (by omega) equal).symm

theorem producerStep_keeps (state : State α) : (producerStep state).consumer = state.consumer ∧
    state.enqueued ≤ (producerStep state).enqueued ∧
    ((producerStep state).queue.head = state.queue.head ∨
      storedHead state .producer = some (producerStep state).queue.head) := by
  cases pc : state.producer with
  | loadHead how item currentTail nextTail =>
    by_cases full : nextTail = state.queue.head <;> simp [producerStep,pc,enqueueStep,full]
  | _ => simp [producerStep,pc,enqueueStep,storedHead]

/-- The item being written, if its enqueue is past the store to `head`. -/
def pendingTail : EnqueuePc (Tagged α) → Nat
  | .write _ _ _ _ => 1
  | .storeTail _ _ => 1
  | _ => 0

/-- A dequeue that holds an old `head` faces a queue that every further enqueue finds full. -/
def Trails (size position : Nat) (state : State α) : Prop :=
  ∀ held ∈ heldHead state, ∃ seen, held = seen % size ∧ seen ≤ position ∧
    (seen < position → pendingDrop state.producer = 1 → state.enqueued + 1 = position + size) ∧
    (seen + 1 < position → state.enqueued + pendingTail state.producer + 1 = position + size) ∧
    (state.consumer = .read held → seen < state.enqueued)

private theorem consumerStep_keeps (state : State α) : (consumerStep state).producer = state.producer ∧
    ∀ currentHead, (consumerStep state).consumer = .read currentHead →
    currentHead ≠ state.queue.tail := by
  cases pc : state.consumer with
  | loadTail currentHead =>
    by_cases empty : currentHead = state.queue.tail
    · simp [consumerStep,pc,dequeueStep,empty]
    · simp [consumerStep,pc,dequeueStep,empty]
  | _ => simp [consumerStep,pc,dequeueStep]

private theorem producerStep_writes {state : State α} {how : Overload} {item : Tagged α}
    {currentTail nextTail : Nat}
    (writing : (producerStep state).producer = .write how item currentTail nextTail) :
    (producerStep state).enqueued = state.enqueued ∧ pendingTail state.producer = 0 := by
  cases pc : state.producer with
  | loadHead how item currentTail nextTail =>
    by_cases full : nextTail = state.queue.head <;> simp [producerStep,pc,pendingTail,full]
  | storeHead how item currentTail nextTail newHead => simp [producerStep,pc,pendingTail]
  | _ => simp [producerStep,pc,enqueueStep] at writing

section Exclusion
variable {size position later : Nat} {state : State α}

theorem Trails.producer (large : 2 ≤ size) (window : Window size position state)
    (trails : Trails size position state) (kept : Window size later (producerStep state))
    (grown : position ≤ later) (one : later ≤ position + 1) :
    Trails size later (producerStep state) := by
  have at_pc := window.producerAt
  have near := kept.producerAt
  intro held holds
  have consumer := (producerStep_keeps state).left
  simp only [heldHead,consumer] at holds
  obtain ⟨seen,current,old,full,passed,filled⟩ := trails held holds
  refine ⟨seen,current,Nat.le_trans old grown,?_⟩
  rw [consumer]
  have same (unmoved : (producerStep state).queue.head = state.queue.head) : later = position :=
    window.position_kept large kept grown one unmoved
  cases pc : state.producer with
  | storeHead how item currentTail nextTail newHead =>
    -- the position moves with the store, or the queue has room already
    have dropping (behind : seen < position) : state.enqueued + 1 = position + size :=
      full behind (by simp [pc,pendingDrop])
    simp only [producerStep,pc,enqueueStep,ProducerAt,pendingDrop,pendingTail] at near passed ⊢
    obtain ⟨_,_,_,_,_,room⟩ := near
    exact ⟨by omega,by omega,filled⟩
  | loadHead how item currentTail nextTail =>
    simp only [pc,ProducerAt] at at_pc
    obtain ⟨_,_,_,_,target⟩ := at_pc
    have headLe := window.headLe
    have tailLt := window.tailLt
    by_cases found : nextTail = state.queue.head
    · have unmoved := same (by simp [producerStep,pc,enqueueStep,found])
      have wrapped : state.enqueued + 1 = position + size := by
        by_contra room
        have close : state.enqueued + 1 < position + size := by omega
        have equal := slot_inj (show position ≤ state.enqueued + 1 by omega) close
          (by rw [← target,found,window.headAt])
        omega
      simp only [producerStep,pc,enqueueStep,found,if_true,pendingDrop,pendingTail] at passed ⊢
      exact ⟨by omega,by omega,filled⟩
    · have unmoved := same (by simp [producerStep,pc,enqueueStep,found])
      simp only [producerStep,pc,enqueueStep,found,if_false,ProducerAt,pendingDrop,
        pendingTail] at near passed ⊢
      obtain ⟨_,_,_,_,_,room⟩ := near
      exact ⟨by omega,by omega,filled⟩
  | storeTail left nextTail =>
    have unmoved := same (by simp [producerStep,pc,enqueueStep])
    simp only [producerStep,pc,enqueueStep,pendingDrop,pendingTail] at passed ⊢
    exact ⟨by omega,by omega,fun reading => Nat.lt_succ_of_lt (filled reading)⟩
  | reloadHead how item currentTail nextTail =>
    rw [same (by simp [producerStep,pc,enqueueStep])]
    rw [pc] at full passed
    simp only [producerStep,pc,enqueueStep]
    exact ⟨full,passed,filled⟩
  | _ =>
    rw [same (by simp [producerStep,pc,enqueueStep])]
    rw [pc] at passed
    simp only [producerStep,pc,enqueueStep]
    exact ⟨by simp [pendingDrop],passed,filled⟩

theorem Trails.consumer (large : 2 ≤ size) (window : Window size position state)
    (trails : Trails size position state) (kept : Window size later (consumerStep state))
    (grown : position ≤ later) (one : later ≤ position + 1) :
    Trails size later (consumerStep state) := by
  cases pc : state.consumer with
  | idle | read currentHead | storeHead currentHead item =>
    simp [Trails,heldHead,consumerStep,pc,dequeueStep]
  | loadHead =>
    have equal := window.position_kept large kept grown one (by simp [consumerStep,pc,dequeueStep])
    subst equal
    simp only [consumerStep,pc,dequeueStep]
    intro held holds
    cases Option.some.inj holds
    exact ⟨later,window.headAt,Nat.le_refl _,by omega,by omega,by simp⟩
  | loadTail currentHead =>
    obtain ⟨seen,current,old,full,passed,_⟩ := trails currentHead (by simp [heldHead,pc])
    by_cases empty : currentHead = state.queue.tail
    · simp [consumerStep,pc,dequeueStep,empty,Trails,heldHead]
    · have equal := window.position_kept large kept grown one
        (by simp [consumerStep,pc,dequeueStep,empty])
      subst equal
      simp only [consumerStep,pc,dequeueStep,empty,if_false]
      intro held holds
      cases Option.some.inj holds
      refine ⟨seen,current,old,full,passed,fun _ => ?_⟩
      have headLe := window.headLe
      refine Nat.lt_of_le_of_ne (by simp only; omega) ?_
      intro drained
      exact empty (current.trans (by rw [window.tailAt,← drained]))

theorem Trails.step {after : State α} {action : Action α} (large : 2 ≤ size)
    (window : Window size position state) (trails : Trails size position state)
    (kept : Window size later after) (grown : position ≤ later) (one : later ≤ position + 1)
    (taken : next state action = some after) :
    Trails size later after := by
  obtain ⟨how,value,rfl,idle,rfl⟩ | ⟨rfl,rfl⟩ | ⟨rfl,idle,rfl⟩ | ⟨rfl,rfl⟩ := next_cases taken
  · have equal := window.position_kept large kept grown one rfl
    subst equal
    simpa [Trails,heldHead,idle,pendingDrop,pendingTail] using trails
  · exact trails.producer large window kept grown one
  · simp [Trails,heldHead]
  · exact trails.consumer large window kept grown one

/-- The producer reaches its write of a slot that nobody is about to read. -/
theorem Trails.writes (large : 2 ≤ size) (window : Window size position state)
    (trails : Trails size position state) (kept : Window size later (producerStep state))
    (grown : position ≤ later) (one : later ≤ position + 1)
    (lapped : lapsNone state .producer) : ¬ Clash (producerStep state) := by
  intro clash
  obtain ⟨how,item,currentTail,nextTail,currentHead,writing,reading,same⟩ := clash
  obtain ⟨consumer,published,store⟩ := producerStep_keeps state
  rw [consumer] at reading
  have near := kept.producerAt
  have headLe := kept.headLe
  simp only [writing,ProducerAt] at near
  obtain ⟨_,_,_,target,_,room⟩ := near
  obtain ⟨unpublished,none⟩ := producerStep_writes writing
  obtain ⟨seen,current,old,full,passed,filled⟩ := trails currentHead (by simp [heldHead,reading])
  rw [unpublished] at target room headLe
  by_cases unmoved : (producerStep state).queue.head = state.queue.head
  · have equal := window.position_kept large kept grown one unmoved
    have close : state.enqueued < seen + size := by
      by_contra far
      have wrapped := passed (by omega)
      omega
    exact slot_ne (filled reading) close (by rw [← current,← target,same])
  · have first := lapped rfl _ (store.resolve_left unmoved) unmoved currentHead
      (by simp [readingHead,reading])
    have moved : later ≠ position := by
      intro equal
      exact unmoved (by rw [kept.headAt,window.headAt,equal])
    exact slot_ne (show position < state.enqueued by omega) window.tailLt
      (by rw [← window.headAt,← first,← target,same])

theorem Trails.exclusive {after : State α} {action : Action α} (large : 2 ≤ size)
    (window : Window size position state) (trails : Trails size position state)
    (kept : Window size later after) (grown : position ≤ later) (one : later ≤ position + 1)
    (lapped : lapsNone state action) (taken : next state action = some after) :
    ¬ Clash after := by
  obtain ⟨how,value,rfl,idle,rfl⟩ | ⟨rfl,rfl⟩ | ⟨rfl,idle,rfl⟩ | ⟨rfl,rfl⟩ := next_cases taken
  · simp [Clash]
  · exact trails.writes large window kept grown one lapped
  · simp [Clash]
  · intro clash
    obtain ⟨how,item,currentTail,nextTail,currentHead,writing,reading,same⟩ := clash
    rw [(consumerStep_keeps state).left] at writing
    have at_pc := window.producerAt
    simp only [writing,ProducerAt] at at_pc
    obtain ⟨_,_,_,target,_⟩ := at_pc
    have tested := (consumerStep_keeps state).right currentHead reading
    exact tested (same.trans (target.trans window.tailAt.symm))

end Exclusion

/-- The two threads are never about to access one slot in a run whose stores to `head` take
at most one item off and never move it twice under a dequeue that is about to read. -/
theorem slots_exclusive {size : Nat} (large : 2 ≤ size) {state : State α}
    (reachable : (spsc size).Reachable
      (fun state action => popsOne state action ∧ lapsNone state action) state) :
    ¬ Clash state := by
  obtain ⟨position,_,_,exclusive⟩ : ∃ position, Window size position state ∧
    Trails size position state ∧ ¬ Clash state := by
    apply reachable.invariant (fun state => ∃ position, Window size position state ∧
      Trails size position state ∧
      ¬ Clash state)
    · exact ⟨0,window_new size (by omega),by simp [Trails,heldHead,spsc,State.new],
        by simp [Clash,spsc,State.new]⟩
    · intro before action after earlier allowed taken
      obtain ⟨position,window,trails,_⟩ := earlier
      obtain ⟨popped,lapped⟩ := allowed
      obtain ⟨later,grown,one,kept⟩ := window.step large popped taken
      exact ⟨later,kept,trails.step large window kept grown one taken,
        trails.exclusive large window kept grown one lapped taken⟩
  exact exclusive

/-- A dequeue has passed its emptiness test; two full enqueues reach the slot it is about to read. -/
def lappedReader : List (Action Unit) :=
  [.callEnqueue .move (),.producer,.producer,.producer,.producer,
    .callDequeue,.consumer,.consumer,
    .callEnqueue .move (),.producer,.producer,.producer,.producer,.producer,.producer,
    .callEnqueue .move (),.producer,.producer,.producer,.producer]

theorem lappedReader_clashes : ∃ state : State Unit, (spsc 2).Reachable Machine.always state ∧
    state.producer = .write .move ⟨2,()⟩ 0 1 ∧ state.consumer = .read 0 ∧ Clash state := by
  obtain ⟨state,ran,writing,reading⟩ :
      ∃ state, (spsc 2).run Machine.always (.new 2) lappedReader = some state ∧
        state.producer = .write .move ⟨2,()⟩ 0 1 ∧ state.consumer = .read 0 := ⟨_,rfl,rfl,rfl⟩
  exact ⟨state,Machine.reachable_of_run .init ran,writing,reading,_,_,_,_,_,writing,reading,rfl⟩

/-- Three full enqueues pass between the load of `head` and the test of a dequeue. -/
def overtakenReader : List (Action Unit) :=
  let enqueue : List (Action Unit) := .callEnqueue .move () :: List.replicate 4 .producer
  let full : List (Action Unit) := .callEnqueue .move () :: List.replicate 6 .producer
  enqueue ++ enqueue ++ enqueue ++ [.callDequeue,.consumer] ++ full ++ full ++
    full.dropLast.dropLast ++ [.consumer]

theorem overtakenReader_exclusive : ∃ state : State Unit,
    (spsc 4).run (fun state action => popsOne state action ∧ lapsNone state action)
      (.new 4) overtakenReader =
      some state ∧ state.queue.head = 3 ∧ state.producer = .write .move ⟨5,()⟩ 1 2 ∧
      state.consumer = .read 0 ∧
      ¬ Clash state := by
  obtain ⟨state,ran,head,writing,reading⟩ : ∃ state,
      (spsc 4).run (fun state action => popsOne state action ∧ lapsNone state action)
        (.new 4) overtakenReader =
        some state ∧ state.queue.head = 3 ∧ state.producer = .write .move ⟨5,()⟩ 1 2 ∧
        state.consumer = .read 0 :=
    ⟨_,rfl,rfl,rfl,rfl⟩
  exact ⟨state,ran,head,writing,reading,
    slots_exclusive (by decide) (Machine.reachable_of_run .init ran)⟩

end YoloEngine.Interleaving
