import YoloEngine.Queue.Races

/-! Exact delivery while the consumer keeps up. In a run that never takes the full branch
only the consumer stores to `head`, so the position of `head` counts the dequeues that
returned an item, and what dequeues read is the front of what enqueues wrote. -/
namespace YoloEngine.Interleaving
open Foundation Foundation.Ring LockFreeQueue
variable {α : Type}

def keepsUp (state : State α) (action : Action α) : Prop := ¬ takesFull state action

instance (state : State α) (action : Action α) : Decidable (keepsUp state action) :=
  inferInstanceAs (Decidable (¬ _))

def cachedHead : DequeuePc (Tagged α) → Option Nat
  | .loadTail currentHead => some currentHead
  | .read currentHead => some currentHead
  | .storeHead currentHead _ => some currentHead
  | _ => none

def passedTest : DequeuePc (Tagged α) → Prop
  | .read _ => True
  | .storeHead _ _ => True
  | _ => False

structure Lossless (size position : Nat) (state : State α) : Prop where
  window : Window size position state
  noDrop : pendingDrop state.producer = 0
  counted : position = state.returned.length
  current : ∀ held ∈ cachedHead state.consumer, held = position % size
  filled : passedTest state.consumer → position < state.enqueued
  front : state.read = (state.written.take state.read.length).map .item

theorem lossless_new (size : Nat) (positive : 0 < size) :
    Lossless size 0 (State.new size : State α) where
  window := window_new size positive
  noDrop := rfl
  counted := rfl
  current := nofun
  filled := nofun
  front := rfl

section Steps
variable {size position : Nat} {state : State α}

theorem Lossless.popsOne (lossless : Lossless size position state) (action : Action α) :
    popsOne state action := by
  have window := lossless.window
  have tailLt := window.tailLt
  intro stored store
  cases action with
  | callEnqueue how value => cases store
  | callDequeue => cases store
  | producer =>
    have noDrop := lossless.noDrop
    cases pc : state.producer with
    | storeHead how item currentTail nextTail newHead => simp [pc,pendingDrop] at noDrop
    | _ => simp [storedHead,pc] at store
  | consumer =>
    cases pc : state.consumer with
    | storeHead currentHead item =>
      have current := lossless.current currentHead (by simp [pc,cachedHead])
      have filled := lossless.filled (by simp [pc,passedTest])
      simp only [storedHead,pc] at store
      refine Or.inr ⟨?_,?_⟩
      · rw [window.headAt,window.tailAt]
        exact slot_ne filled tailLt
      · rw [← Option.some.inj store,current,window.headAt]
    | _ => simp [storedHead,pc] at store

private theorem Lossless.read_le (lossless : Lossless size position state) :
    state.read.length ≤ state.written.length := by
  have counted := congrArg List.length lossless.front
  simp only [List.length_map,List.length_take] at counted
  omega

theorem Lossless.readBound_le (lossless : Lossless size position state) :
    readBound state.read ≤ state.read.length := by
  have front := lossless.front
  have tags := lossless.window.tags
  rcases List.eq_nil_or_concat state.read with none | ⟨earlier,last,some⟩
  · rw [none]
    exact Nat.le_refl _
  · rw [List.concat_eq_append] at some
    have found := congrArg (fun cells => cells[earlier.length]?) front
    simp only [some,List.length_append,List.length_singleton,List.getElem?_map] at found
    rw [List.getElem?_concat_length,List.getElem?_take_of_lt (Nat.lt_succ_self _)] at found
    cases lookup : state.written[earlier.length]? with
    | none => simp [lookup] at found
    | some item =>
      simp only [lookup,Option.map_some,Option.some.injEq] at found
      rw [some,found,readBound_append,tags _ item lookup]
      simp

theorem Lossless.producerStep (large : 2 ≤ size) (lossless : Lossless size position state)
    (room : keepsUp state .producer) : Lossless size position (producerStep state) := by
  have noDrop := lossless.noDrop
  have front := lossless.front
  have filled := lossless.filled
  obtain ⟨later,grown,one,kept⟩ := lossless.window.producerStep large (lossless.popsOne .producer)
  have equal := lossless.window.position_kept large kept grown one
  cases pc : state.producer with
  | reloadHead how item currentTail nextTail => simp [pc,pendingDrop] at noDrop
  | storeHead how item currentTail nextTail newHead => simp [pc,pendingDrop] at noDrop
  | loadHead how item currentTail nextTail =>
    have free : ¬ nextTail = state.queue.head :=
      fun full => room (by simp [takesFull,testedTail,pc,full])
    simp only [Interleaving.producerStep,pc,enqueueStep,free,if_false] at kept equal ⊢
    cases equal trivial
    exact { lossless with window := kept, noDrop := rfl }
  | write how item currentTail nextTail =>
    simp only [Interleaving.producerStep,pc,enqueueStep] at kept equal ⊢
    cases equal rfl
    exact { lossless with
      window := kept
      noDrop := rfl
      front := by rw [List.take_append_of_le_length lossless.read_le]; exact front }
  | storeTail left nextTail =>
    simp only [Interleaving.producerStep,pc,enqueueStep] at kept equal ⊢
    cases equal trivial
    exact { lossless with
      window := kept
      noDrop := rfl
      filled := fun passed => Nat.lt_succ_of_lt (filled passed) }
  | _ =>
    simp only [Interleaving.producerStep,pc,enqueueStep] at kept equal ⊢
    cases equal trivial
    exact { lossless with window := kept, noDrop := rfl }

theorem Lossless.consumerRead (large : 2 ≤ size) (lossless : Lossless size position state)
    {currentHead : Nat} (pc : state.consumer = .read currentHead) :
    Lossless size position (consumerStep state) := by
  have window := lossless.window
  have at_pc := window.consumerAt
  have returns := window.returns
  have current := lossless.current currentHead (by simp [pc,cachedHead])
  have filled := lossless.filled (by simp [pc,passedTest])
  simp only [pc,ConsumerAt,pendingRead,List.append_nil] at at_pc returns
  obtain ⟨seen,_,unread,old,_⟩ := at_pc
  obtain ⟨published,writtenLt⟩ := window.producerAt.written_bounds window.tailLt
  have length : state.read.length = position := by rw [returns,lossless.counted]
  obtain ⟨item,lookup⟩ : ∃ item, state.written[position]? = some item :=
    ⟨_,List.getElem?_eq_some_iff.mpr ⟨Nat.lt_of_lt_of_le filled published,rfl⟩⟩
  have found := window.stored position item lookup (by omega) (by omega)
  rw [← current] at found
  have kept := window.consumerRead large pc
  simp only [Interleaving.consumerStep,pc,dequeueStep,found] at kept ⊢
  exact {
    window := kept
    noDrop := lossless.noDrop
    counted := lossless.counted
    current := by
      intro held holds
      cases Option.some.inj holds
      exact current
    filled := fun _ => filled
    front := by
      simp only [List.length_append,List.length_singleton,length]
      rw [List.take_add_one,lookup,List.map_append,← length,← lossless.front]
      rfl }

theorem Lossless.consumerStep (large : 2 ≤ size) (lossless : Lossless size position state) :
    ∃ later, Lossless size later (consumerStep state) := by
  have window := lossless.window
  have current := lossless.current
  obtain ⟨later,grown,one,kept⟩ := window.consumerStep large (lossless.popsOne .consumer)
  cases pc : state.consumer with
  | read currentHead => exact ⟨position,lossless.consumerRead large pc⟩
  | idle =>
    have equal := window.position_kept large kept grown one
      (by simp [Interleaving.consumerStep,pc,dequeueStep])
    subst equal
    refine ⟨later,?_⟩
    simp only [Interleaving.consumerStep,pc,dequeueStep] at kept ⊢
    exact { lossless with
      window := kept
      current := by simp [cachedHead]
      filled := by simp [passedTest] }
  | loadHead =>
    have equal :=
      window.position_kept large kept grown one (by simp [Interleaving.consumerStep,pc,dequeueStep])
    subst equal
    refine ⟨later,?_⟩
    simp only [Interleaving.consumerStep,pc,dequeueStep] at kept ⊢
    exact { lossless with
      window := kept
      current := by
        intro held holds
        cases Option.some.inj holds
        exact window.headAt
      filled := by simp [passedTest] }
  | loadTail currentHead =>
    simp only [pc,cachedHead,Option.mem_def,Option.some.injEq] at current
    have same := current currentHead rfl
    by_cases empty : currentHead = state.queue.tail
    · have equal := window.position_kept large kept grown one
        (by simp [Interleaving.consumerStep,pc,dequeueStep,empty])
      subst equal
      refine ⟨later,?_⟩
      simp only [Interleaving.consumerStep,pc,dequeueStep,empty,if_true] at kept ⊢
      exact { lossless with
        window := kept
        current := by simp [cachedHead]
        filled := by simp [passedTest] }
    · have equal := window.position_kept large kept grown one
        (by simp [Interleaving.consumerStep,pc,dequeueStep,empty])
      subst equal
      refine ⟨later,?_⟩
      simp only [Interleaving.consumerStep,pc,dequeueStep,empty,if_false] at kept ⊢
      exact { lossless with
        window := kept
        current := by
          intro held holds
          cases Option.some.inj holds
          exact same
        filled := by
          intro _
          refine Nat.lt_of_le_of_ne window.headLe ?_
          intro drained
          exact empty (same.trans (by rw [window.tailAt,← drained])) }
  | storeHead currentHead item =>
    simp only [pc,cachedHead,Option.mem_def,Option.some.injEq] at current
    have same := current currentHead rfl
    have counted := lossless.counted
    simp only [Interleaving.consumerStep,pc,dequeueStep] at kept ⊢
    have moved := kept.headAt
    simp only [window.capacity,same,slot_succ] at moved
    have equal : later = position + 1 := by
      rcases Nat.lt_or_ge position later with more | less
      · omega
      · have same : later = position := by omega
        rw [same] at moved
        exact absurd moved (slot_succ_ne large position)
    subst equal
    exact ⟨position + 1,{ lossless with
      window := kept
      counted := by simp [counted]
      current := by simp [cachedHead]
      filled := by simp [passedTest] }⟩

theorem Lossless.step (large : 2 ≤ size) (lossless : Lossless size position state) {action : Action α}
    {after : State α} (room : keepsUp state action) (taken : next state action = some after) :
    ∃ later, Lossless size later after := by
  obtain ⟨later,grown,one,kept⟩ := lossless.window.step large (lossless.popsOne action) taken
  obtain ⟨how,value,rfl,idle,rfl⟩ | ⟨rfl,rfl⟩ | ⟨rfl,idle,rfl⟩ | ⟨rfl,rfl⟩ := next_cases taken
  · cases lossless.window.position_kept large kept grown one rfl
    exact ⟨position,{ lossless with window := kept, noDrop := rfl }⟩
  · exact ⟨position,lossless.producerStep large room⟩
  · cases lossless.window.position_kept large kept grown one rfl
    exact ⟨position,
      { lossless with window := kept, current := by simp [cachedHead], filled := by simp [passedTest] }⟩
  · exact lossless.consumerStep large

theorem Lossless.read_length (lossless : Lossless size position state) :
    state.read.length = position + (pendingRead state.consumer).length := by
  rw [lossless.window.returns,List.length_append,lossless.counted]

/-- The published items not yet read are the slots from `head` up to `tail`, but for the
one an unfinished dequeue has moved out. -/
theorem Lossless.contents_eq (positive : 0 < size) (lossless : Lossless size position state) :
    state.queue.contents.drop (pendingRead state.consumer).length =
      ((state.written.take state.enqueued).drop state.read.length).map .item := by
  have window := lossless.window
  have count := window.size_eq positive
  have length := lossless.read_length
  have bound := lossless.readBound_le
  obtain ⟨published,writtenLt⟩ := window.producerAt.written_bounds window.tailLt
  unfold contents
  rw [window.capacity,window.headAt,window_start]
  apply List.ext_getElem
  · simp only [List.length_drop,window_length,List.length_map,List.length_take]
    omega
  · intro i left right
    simp only [List.length_drop,window_length] at left
    have inside : state.read.length + i < state.written.length := by omega
    have found := window.stored (state.read.length + i) _ (List.getElem?_eq_getElem inside)
      (by omega) (by omega)
    simp only [List.getElem_drop,List.getElem_map,List.getElem_take,Ring.window,List.getElem_range]
    rw [← found,length,Nat.add_assoc]

end Steps

/-- The step between the two states ends a dequeue, and no item is returned. -/
def answersNullopt (before after : State α) : Prop :=
  after.consumer = .idle ∧ after.returned = before.returned

theorem nullopt_empty {state after : State α} (taken : next state .consumer = some after)
    (answer : answersNullopt state after) : state.consumer = .loadTail state.queue.tail := by
  obtain ⟨idle,same⟩ := answer
  cases pc : state.consumer with
  | idle => simp [next,pc] at taken
  | loadTail currentHead =>
    simp only [next,pc,Option.some.injEq] at taken
    rw [← taken] at idle
    by_cases empty : currentHead = state.queue.tail
    · rw [empty]
    · simp [consumerStep,pc,dequeueStep,empty] at idle
  | storeHead currentHead item =>
    simp only [next,pc,Option.some.injEq] at taken
    simp [← taken,consumerStep,pc] at same
  | _ =>
    simp only [next,pc,Option.some.injEq] at taken
    simp [← taken,consumerStep,pc,dequeueStep] at idle

structure Delivered (state : State α) : Prop where
  front : state.read = (state.written.take state.read.length).map .item
  waiting : state.queue.contents.drop (pendingRead state.consumer).length =
    ((state.written.take state.enqueued).drop state.read.length).map .item
  exclusive : ¬ Clash state
  nullopt : ∀ after, next state .consumer = some after → answersNullopt state after →
    (∃ currentHead, state.consumer = .loadTail currentHead) ∧
      state.returned = (state.written.take state.enqueued).map .item

/-- While no enqueue takes the full branch, dequeues read the front of what was written, in
order and without omission, the rest of what was published waits between the cursors, the
threads share no slot, and only a queue with nothing published left answers `nullopt`. -/
theorem delivered_exactly {size : Nat} (large : 2 ≤ size) {state : State α}
    (reachable : (spsc size).Reachable keepsUp state) : Delivered state := by
  have invariant : ∃ position, Lossless size position state := by
    apply reachable.invariant (fun state => ∃ position, Lossless size position state)
    · exact ⟨0,lossless_new size (by omega)⟩
    · intro before action after earlier room taken
      obtain ⟨position,lossless⟩ := earlier
      exact lossless.step large room taken
  obtain ⟨position,lossless⟩ := invariant
  have window := lossless.window
  have tailLt := window.tailLt
  refine ⟨lossless.front,lossless.contents_eq (by omega),?_,?_⟩
  · intro clash
    obtain ⟨how,item,currentTail,nextTail,currentHead,writing,reading,same⟩ := clash
    have at_producer := window.producerAt
    simp only [writing,ProducerAt] at at_producer
    obtain ⟨_,_,_,target,_,_⟩ := at_producer
    have current := lossless.current currentHead (by simp [reading,cachedHead])
    have filled := lossless.filled (by simp [reading,passedTest])
    exact slot_ne filled tailLt (by rw [← current,← target,same])
  · intro after taken answer
    have pc := nullopt_empty taken answer
    have current := lossless.current state.queue.tail (by simp [pc,cachedHead])
    have drained := slot_inj window.headLe tailLt (current.symm.trans window.tailAt)
    have returns := window.returns
    have length := lossless.read_length
    simp only [pc,pendingRead,List.append_nil,List.length_nil,Nat.add_zero] at returns length
    refine ⟨⟨state.queue.tail,pc⟩,?_⟩
    rw [← drained,← length,← returns]
    exact lossless.front

def consumerWaits : List (Action Unit) :=
  [.callEnqueue .copy (),.producer,.producer,.producer,.callDequeue,.consumer,.producer,.consumer,
    .consumer,.callEnqueue .move (),.producer,.consumer,.producer,.producer,.callDequeue,.consumer]

/-- One item has been returned, the next is written and not published, and the dequeue answers
`nullopt`. -/
theorem consumerWaits_delivered : ∃ state after : State Unit,
    (spsc 2).run keepsUp (.new 2) consumerWaits = some state ∧ Delivered state ∧
    next state .consumer = some after ∧ answersNullopt state after ∧
    state.written = [⟨0,()⟩,⟨1,()⟩] ∧ state.enqueued = 1 ∧ state.returned = [.item ⟨0,()⟩] := by
  obtain ⟨state,ran,after,taken,answer,written,enqueued⟩ :
      ∃ state, (spsc 2).run keepsUp (.new 2) consumerWaits = some state ∧
        ∃ after, next state .consumer = some after ∧ answersNullopt state after ∧
          state.written = [⟨0,()⟩,⟨1,()⟩] ∧ state.enqueued = 1 :=
    ⟨_,rfl,_,rfl,⟨rfl,rfl⟩,rfl,rfl⟩
  have delivered : Delivered state := delivered_exactly (by decide) (Machine.reachable_of_run .init ran)
  refine ⟨state,after,ran,delivered,taken,answer,written,enqueued,?_⟩
  rw [(delivered.nullopt after taken answer).right,written,enqueued]
  rfl

end YoloEngine.Interleaving
