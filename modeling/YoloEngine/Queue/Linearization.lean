import YoloEngine.Foundation.LossyFifo
import YoloEngine.Queue.History

/-! The queue between two threads as a list with atomic operations. As long as no thread stores
to `head` while the other stands between its own load of `head` and its store, an enqueue takes
effect at its store to `tail`, the loss of the oldest item at the producer's store to `head`, and
a dequeue at its store to `head`, or at the load of `tail` that finds nothing. -/
namespace YoloEngine.Interleaving
open Foundation Foundation.Ring LockFreeQueue
variable {α : Type}

/-- A thread does not store to `head` under a call of the other that has loaded it and may still
store to it. -/
def apart (state : State α) : Action α → Prop
  | .producer => (storedHead state .producer).isSome → cachedHead state.consumer = none
  | .consumer => (storedHead state .consumer).isSome → pendingDrop state.producer = 0
  | _ => True

instance (state : State α) (action : Action α) : Decidable (apart state action) := by
  cases action <;> unfold apart <;> infer_instance

/-- The operation on the list that a step completes, with the cell it finds in memory. -/
def emitted (state : State α) : Action α → List (LossyFifo.Event (Cell α))
  | .producer =>
    match state.producer with
    | .storeHead _ _ _ _ _ => [.drop (untagged (state.queue.slot state.queue.head))]
    | .storeTail _ _ => [.append (untagged (state.queue.slot state.queue.tail))]
    | _ => []
  | .consumer =>
    match state.consumer with
    | .loadTail currentHead => if currentHead = state.queue.tail then [.empty] else []
    | .storeHead _ cell => [.pop (untagged cell)]
    | _ => []
  | _ => []

/-- What lies between the cursors, with the item that a dequeue holds but has not taken off yet. -/
def present (state : State α) : List (Cell α) :=
  (pendingRead state.consumer ++ state.queue.contents.drop
    (pendingRead state.consumer).length).map untagged

def computedHead : EnqueuePc (Tagged α) → Option Nat
  | .storeHead _ _ _ _ newHead => some newHead
  | _ => none

structure Apart (size position : Nat) (state : State α) : Prop where
  window : Window size position state
  current : ∀ held ∈ cachedHead state.consumer, held = position % size
  filled : passedTest state.consumer → position < state.enqueued
  full : pendingDrop state.producer = 1 → state.enqueued + 1 = position + size
  target : ∀ newHead ∈ computedHead state.producer, newHead = (position + 1) % size
  holding : ∀ cell ∈ pendingRead state.consumer, ∃ item, state.written[position]? = some item ∧
    cell = .item item

theorem apart_new (size : Nat) (positive : 0 < size) : Apart size 0 (State.new size : State α) where
  window := window_new size positive
  current := nofun
  filled := nofun
  full := nofun
  target := nofun
  holding := nofun

section Steps
variable {size position : Nat} {state : State α}

theorem Apart.popsOne (separate : Apart size position state) {action : Action α}
    (allowed : apart state action) (large : 2 ≤ size) : popsOne state action := by
  have window := separate.window
  have tailLt := window.tailLt
  intro stored store
  cases action with
  | callEnqueue how value => cases store
  | callDequeue => cases store
  | producer =>
    cases pc : state.producer with
    | storeHead how item currentTail nextTail newHead =>
      have target := separate.target newHead (by simp [pc,computedHead])
      have full := separate.full (by simp [pc,pendingDrop])
      simp only [storedHead,pc] at store
      refine Or.inr ⟨?_,?_⟩
      · rw [window.headAt,window.tailAt]
        exact slot_ne (by omega) tailLt
      · rw [← Option.some.inj store,target,window.headAt,window.capacity,slot_succ]
    | _ => simp [storedHead,pc] at store
  | consumer =>
    cases pc : state.consumer with
    | storeHead currentHead item =>
      have current := separate.current currentHead (by simp [pc,cachedHead])
      have filled := separate.filled (by simp [pc,passedTest])
      simp only [storedHead,pc] at store
      refine Or.inr ⟨?_,?_⟩
      · rw [window.headAt,window.tailAt]
        exact slot_ne filled tailLt
      · rw [← Option.some.inj store,current,window.headAt]
    | _ => simp [storedHead,pc] at store

private theorem Window.position_moved (large : 2 ≤ size) {later : Nat} (kept : Window size later state)
    (grown : position ≤ later) (one : later ≤
      position + 1) (moved : state.queue.head = (position + 1) % size) :
    later = position + 1 := by
  rcases Nat.lt_or_ge position later with more | less
  · omega
  · rw [kept.headAt,show later = position by omega] at moved
    exact absurd moved.symm (slot_succ_ne large position)

theorem Apart.producerStep (large : 2 ≤ size) (separate : Apart size position state)
    (allowed : apart state .producer) :
    Apart size (position + (storedHead state .producer).isSome.toNat) (producerStep state) := by
  have full := separate.full
  have target := separate.target
  obtain ⟨later,grown,one,kept⟩ := separate.window.producerStep large (separate.popsOne allowed large)
  have equal := separate.window.position_kept large kept grown one
  cases pc : state.producer with
  | storeHead how item currentTail nextTail newHead =>
    have free := allowed (by simp [storedHead,pc])
    have idle : pendingRead state.consumer = [] ∧ ¬ passedTest state.consumer := by
      cases at_pc : state.consumer <;> simp [at_pc,cachedHead,pendingRead,passedTest] at free ⊢
    simp only [pc,computedHead,Option.mem_def,Option.some.injEq,forall_eq'] at target
    have moved := kept.position_moved large grown one
      (by simp [Interleaving.producerStep,pc,enqueueStep,target])
    simp only [Interleaving.producerStep,pc,enqueueStep,storedHead] at kept ⊢
    subst moved
    exact {
      window := kept
      current := by simp [free]
      filled := fun passed => absurd passed idle.right
      full := by simp [pendingDrop]
      target := by simp [computedHead]
      holding := by simp [idle.left] }
  | loadHead how item currentTail nextTail =>
    have window := separate.window
    have at_pc := window.producerAt
    simp only [pc,ProducerAt] at at_pc
    obtain ⟨_,_,_,_,next⟩ := at_pc
    by_cases taken : nextTail = state.queue.head
    · simp only [Interleaving.producerStep,pc,enqueueStep,taken,if_true,storedHead] at kept equal ⊢
      cases equal trivial
      have headLe := window.headLe
      have tailLt := window.tailLt
      have reached : state.enqueued + 1 = position + size := by
        rw [next,window.headAt] at taken
        rcases Nat.lt_or_ge (state.enqueued + 1) (position + size) with less | more
        · have same := slot_inj (by omega) less taken.symm
          omega
        · omega
      exact { separate with window := kept, full := fun _ => reached, target := by simp [computedHead] }
    · simp only [Interleaving.producerStep,pc,enqueueStep,taken,if_false,storedHead] at kept equal ⊢
      cases equal trivial
      exact { separate with window := kept, full := by simp [pendingDrop], target := by simp [computedHead] }
  | reloadHead how item currentTail nextTail =>
    have headAt := separate.window.headAt
    have capacity := separate.window.capacity
    simp only [pc,pendingDrop,forall_const] at full
    simp only [Interleaving.producerStep,pc,enqueueStep,storedHead] at kept equal ⊢
    cases equal trivial
    exact { separate with
      window := kept
      full := fun _ => full
      target := by simp [computedHead,headAt,capacity] }
  | write how item currentTail nextTail =>
    simp only [Interleaving.producerStep,pc,enqueueStep,storedHead] at kept equal ⊢
    cases equal rfl
    exact { separate with
      window := kept
      full := by simp [pendingDrop]
      target := by simp [computedHead]
      holding := by
        intro cell member
        obtain ⟨held,lookup,same⟩ := separate.holding cell member
        have inside := (List.getElem?_eq_some_iff.mp lookup).1
        exact ⟨held,(List.getElem?_append_left inside).trans lookup,same⟩ }
  | storeTail left nextTail =>
    simp only [Interleaving.producerStep,pc,enqueueStep,storedHead] at kept equal ⊢
    cases equal trivial
    exact { separate with
      window := kept
      filled := fun passed => Nat.lt_succ_of_lt (separate.filled passed)
      full := by simp [pendingDrop]
      target := by simp [computedHead] }
  | _ =>
    simp only [Interleaving.producerStep,pc,enqueueStep,storedHead] at kept equal ⊢
    cases equal trivial
    exact { separate with window := kept, full := by simp [pendingDrop], target := by simp [computedHead] }

theorem Apart.consumerRead (large : 2 ≤ size) (separate : Apart size position state) {currentHead : Nat}
    (pc : state.consumer = .read currentHead) : Apart size position (consumerStep state) := by
  have window := separate.window
  have at_pc := window.consumerAt
  have current := separate.current currentHead (by simp [pc,cachedHead])
  have filled := separate.filled (by simp [pc,passedTest])
  simp only [pc,ConsumerAt] at at_pc
  obtain ⟨seen,_,unread,old,_⟩ := at_pc
  obtain ⟨published,writtenLt⟩ := window.producerAt.written_bounds window.tailLt
  obtain ⟨item,lookup⟩ : ∃ item, state.written[position]? = some item :=
    ⟨_,List.getElem?_eq_some_iff.mpr ⟨Nat.lt_of_lt_of_le filled published,rfl⟩⟩
  have found := window.stored position item lookup (by omega) (by omega)
  rw [← current] at found
  have kept := window.consumerRead large pc
  simp only [Interleaving.consumerStep,pc,dequeueStep,found] at kept ⊢
  exact { separate with
    window := kept
    current := by simp [cachedHead,current]
    filled := fun _ => filled
    holding := by simp [pendingRead,lookup] }

theorem Apart.consumerStep (large : 2 ≤ size) (separate : Apart size position state)
    (allowed : apart state .consumer) :
    Apart size (position + (storedHead state .consumer).isSome.toNat) (consumerStep state) := by
  have window := separate.window
  have current := separate.current
  obtain ⟨later,grown,one,kept⟩ := window.consumerStep large (separate.popsOne allowed large)
  have equal := window.position_kept large kept grown one
  cases pc : state.consumer with
  | read currentHead =>
    simp only [storedHead,pc]
    exact separate.consumerRead large pc
  | idle =>
    simp only [Interleaving.consumerStep,pc,dequeueStep,storedHead] at kept equal ⊢
    cases equal trivial
    exact { separate with
      window := kept,
      current := by simp [cachedHead], filled := by simp [passedTest], holding := by simp [pendingRead] }
  | loadHead =>
    simp only [Interleaving.consumerStep,pc,dequeueStep,storedHead] at kept equal ⊢
    cases equal trivial
    exact { separate with
      window := kept
      current := by simp [cachedHead,window.headAt]
      filled := by simp [passedTest]
      holding := by simp [pendingRead] }
  | loadTail currentHead =>
    simp only [pc,cachedHead,Option.mem_def,Option.some.injEq,forall_eq'] at current
    by_cases empty : currentHead = state.queue.tail
    · simp only [Interleaving.consumerStep,pc,dequeueStep,storedHead,empty,if_true] at kept equal ⊢
      cases equal trivial
      exact { separate with
        window := kept,
        current := by simp [cachedHead], filled := by simp [passedTest], holding := by simp [pendingRead] }
    · simp only [Interleaving.consumerStep,pc,dequeueStep,storedHead,empty,if_false] at kept equal ⊢
      cases equal trivial
      exact { separate with
        window := kept
        current := by simp [cachedHead,current]
        filled := by
          intro _
          refine Nat.lt_of_le_of_ne window.headLe ?_
          intro drained
          exact empty (current.trans (by rw [window.tailAt,← drained]; rfl))
        holding := by simp [pendingRead] }
  | storeHead currentHead item =>
    simp only [pc,cachedHead,Option.mem_def,Option.some.injEq,forall_eq'] at current
    have free := allowed (by simp [storedHead,pc])
    have moved := kept.position_moved large grown one
      (by simp [Interleaving.consumerStep,pc,dequeueStep,current,window.capacity])
    have idle : computedHead state.producer = none := by
      cases at_pc : state.producer <;> simp [at_pc,pendingDrop,computedHead] at free ⊢
    simp only [Interleaving.consumerStep,pc,dequeueStep,storedHead] at kept ⊢
    subst moved
    exact {
      window := kept
      current := by simp [cachedHead]
      filled := by simp [passedTest]
      full := by simp [free]
      target := by simp [idle]
      holding := by simp [pendingRead] }

theorem Apart.step (large : 2 ≤ size) (separate : Apart size position state) {action : Action α}
    {after : State α} (allowed : apart state action) (taken : next state action = some after) :
    Apart size (position + (storedHead state action).isSome.toNat) after := by
  obtain ⟨later,grown,one,kept⟩ := separate.window.step large (separate.popsOne allowed large) taken
  obtain ⟨how,value,rfl,idle,rfl⟩ | ⟨rfl,rfl⟩ | ⟨rfl,idle,rfl⟩ | ⟨rfl,rfl⟩ := next_cases taken
  · cases separate.window.position_kept large kept grown one rfl
    exact { separate with window := kept, full := by simp [pendingDrop], target := by simp [computedHead] }
  · exact separate.producerStep large allowed
  · cases separate.window.position_kept large kept grown one rfl
    exact { separate with
      window := kept,
      current := by simp [cachedHead], filled := by simp [passedTest], holding := by simp [pendingRead] }
  · exact separate.consumerStep large allowed

end Steps
/-- The items enqueued so far, from a position on. -/
def published (written : List (Tagged α)) (position enqueued : Nat) : List (Cell α) :=
  ((written.take enqueued).drop position).map (fun item => .item item.value)

section Published
variable {written : List (Tagged α)} {position enqueued : Nat} {item : Tagged α}

private theorem published_first (lookup : written[position]? = some item)
    (filled : position < enqueued) :
    published written position enqueued =
      .item item.value :: published written (position + 1) enqueued := by
  obtain ⟨inside,same⟩ := List.getElem?_eq_some_iff.mp lookup
  have bound : position < (written.take enqueued).length := by
    rw [List.length_take]
    omega
  rw [published,List.drop_eq_getElem_cons bound,List.getElem_take,same]
  rfl

private theorem published_last (lookup : written[enqueued]? = some item)
    (ordered : position ≤ enqueued) :
    published written position (enqueued + 1) =
      published written position enqueued ++ [.item item.value] := by
  obtain ⟨inside,_⟩ := List.getElem?_eq_some_iff.mp lookup
  have bound : position ≤ (written.take enqueued).length := by
    rw [List.length_take]
    omega
  rw [published,List.take_add_one,lookup,List.drop_append_of_le_length bound,List.map_append]
  rfl

private theorem published_write (bound : enqueued ≤ written.length) :
    published (written ++ [item]) position enqueued = published written position enqueued := by
  rw [published,List.take_append_of_le_length bound,published]

theorem published_length (bound : enqueued ≤ written.length) :
    (published written position enqueued).length = enqueued - position := by
  rw [published,List.length_map,List.length_drop,List.length_take,Nat.min_eq_left bound]

end Published

section Emitted
variable {size position : Nat} {state : State α}

private theorem Apart.oldest (separate : Apart size position state) (filled : position < state.enqueued)
    (unread : readBound state.read ≤ position) :
    ∃ item, state.written[position]? = some item ∧ state.queue.slot state.queue.head = .item item := by
  have window := separate.window
  obtain ⟨published,writtenLt⟩ := window.producerAt.written_bounds window.tailLt
  obtain ⟨item,lookup⟩ : ∃ item, state.written[position]? = some item :=
    ⟨_,List.getElem?_eq_some_iff.mpr ⟨Nat.lt_of_lt_of_le filled published,rfl⟩⟩
  exact ⟨item,lookup,by rw [window.headAt]; exact window.stored position item lookup unread (by omega)⟩

theorem Apart.readBound_le (separate : Apart size position state) :
    readBound state.read ≤ position + (pendingRead state.consumer).length := by
  have at_pc := separate.window.consumerAt
  cases pc : state.consumer with
  | storeHead currentHead cell =>
    obtain ⟨item,lookup,rfl⟩ := separate.holding cell (by simp [pc,pendingRead])
    have returns := separate.window.returns
    rw [pc,pendingRead] at returns
    rw [returns,readBound_append,separate.window.tags position item lookup]
    exact Nat.le_refl _
  | loadTail currentHead =>
    simp only [pc,ConsumerAt] at at_pc
    obtain ⟨seen,_,unread,old⟩ := at_pc
    exact Nat.le_trans unread old
  | read currentHead =>
    simp only [pc,ConsumerAt] at at_pc
    obtain ⟨seen,_,unread,old,_⟩ := at_pc
    exact Nat.le_trans unread old
  | _ =>
    simp only [pc,ConsumerAt] at at_pc
    exact at_pc

private theorem Apart.readBound_enqueued (separate : Apart size position state) :
    readBound state.read ≤ state.enqueued := by
  have readLe := separate.readBound_le
  have headLe := separate.window.headLe
  have filled := separate.filled
  cases pc : state.consumer with
  | storeHead currentHead cell =>
    simp only [pc,pendingRead,passedTest,List.length_singleton,forall_const] at readLe filled
    omega
  | _ =>
    simp only [pc,pendingRead,List.length_nil] at readLe
    omega

theorem Apart.newest (separate : Apart size position state) {left : Cell (Tagged α)} {nextTail : Nat}
    (pc : state.producer = .storeTail left nextTail) :
    ∃ item, state.written[state.enqueued]? = some item ∧
      state.queue.slot state.queue.tail = .item item ∧ state.enqueued + 1 < position + size := by
  have window := separate.window
  have headLe := window.headLe
  have at_pc := window.producerAt
  simp only [pc,ProducerAt] at at_pc
  obtain ⟨written,_,_,room⟩ := at_pc
  obtain ⟨item,lookup⟩ : ∃ item, state.written[state.enqueued]? = some item :=
    ⟨_,List.getElem?_eq_some_iff.mpr ⟨by omega,rfl⟩⟩
  refine ⟨item,lookup,?_,room⟩
  rw [window.tailAt]
  exact window.stored state.enqueued item lookup separate.readBound_enqueued (by omega)

private theorem Apart.producerEmits (large : 2 ≤ size) (separate : Apart size position state)
    (allowed : apart state .producer) :
    LossyFifo.Steps (size - 1) (published state.written position state.enqueued)
      (emitted state .producer)
      (published (Interleaving.producerStep state).written
        (position + (storedHead state .producer).isSome.toNat)
        (Interleaving.producerStep state).enqueued) := by
  have tailLt := separate.window.tailLt
  obtain ⟨bound,_⟩ := separate.window.producerAt.written_bounds tailLt
  cases pc : state.producer with
  | storeHead how item currentTail nextTail newHead =>
    have full := separate.full (by simp [pc,pendingDrop])
    have free := allowed (by simp [storedHead,pc])
    have idle : pendingRead state.consumer = [] := by
      cases at_pc : state.consumer <;> simp [at_pc,cachedHead,pendingRead] at free ⊢
    have filled : position < state.enqueued := by omega
    obtain ⟨oldest,lookup,found⟩ := separate.oldest filled (by simpa [idle] using separate.readBound_le)
    have counted : (published state.written (position + 1) state.enqueued).length = _ :=
      published_length bound
    simp only [Interleaving.producerStep,pc,enqueueStep,emitted,storedHead,found,untagged]
    rw [published_first lookup filled]
    exact .one (.drop (by omega))
  | storeTail left nextTail =>
    obtain ⟨item,lookup,found,room⟩ := separate.newest pc
    have counted : (published state.written position state.enqueued).length = _ :=
      published_length bound
    simp only [Interleaving.producerStep,pc,enqueueStep,emitted,storedHead,found,untagged]
    have grown := published_last lookup separate.window.headLe
    simp only [Option.isSome_none,Bool.toNat_false,Nat.add_zero,grown]
    exact .one (.append _ (by omega))
  | write how item currentTail nextTail =>
    simp only [Interleaving.producerStep,pc,enqueueStep,storedHead,emitted,published_write bound]
    exact .silent
  | loadHead how item currentTail nextTail =>
    by_cases full : nextTail = state.queue.head
    · simp only [Interleaving.producerStep,pc,enqueueStep,full,if_true,storedHead,emitted]
      exact .silent
    · simp only [Interleaving.producerStep,pc,enqueueStep,full,if_false,storedHead,emitted]
      exact .silent
  | _ =>
    simp only [Interleaving.producerStep,pc,enqueueStep,storedHead,emitted]
    exact .silent

private theorem Apart.consumerEmits (separate : Apart size position state) :
    LossyFifo.Steps (size - 1) (published state.written position state.enqueued)
      (emitted state .consumer)
      (published (Interleaving.consumerStep state).written
        (position + (storedHead state .consumer).isSome.toNat)
        (Interleaving.consumerStep state).enqueued) := by
  have window := separate.window
  have current := separate.current
  cases pc : state.consumer with
  | loadTail currentHead =>
    simp only [pc,cachedHead,Option.mem_def,Option.some.injEq,forall_eq'] at current
    by_cases empty : currentHead = state.queue.tail
    · have drained := slot_inj window.headLe window.tailLt
        (current.symm.trans (empty.trans window.tailAt))
      obtain ⟨bound,_⟩ := window.producerAt.written_bounds window.tailLt
      have none : published state.written position state.enqueued = [] := by
        rw [List.eq_nil_iff_length_eq_zero,published_length bound]
        omega
      simp only [Interleaving.consumerStep,pc,dequeueStep,storedHead,emitted,empty,if_true,
        Option.isSome_none,Bool.toNat_false,Nat.add_zero,none]
      exact .one .empty
    · simp only [Interleaving.consumerStep,pc,dequeueStep,storedHead,emitted,empty,if_false]
      exact .silent
  | storeHead currentHead cell =>
    obtain ⟨item,lookup,rfl⟩ := separate.holding cell (by simp [pc,pendingRead])
    have filled := separate.filled (by simp [pc,passedTest])
    rw [published_first lookup filled]
    simp only [Interleaving.consumerStep,pc,dequeueStep,storedHead,emitted,untagged]
    exact .one .pop
  | _ =>
    simp only [Interleaving.consumerStep,pc,dequeueStep,storedHead,emitted]
    exact .silent

theorem Apart.emits (large : 2 ≤ size) (separate : Apart size position state) {action : Action α}
    {after : State α} (allowed : apart state action) (taken : next state action = some after) :
    LossyFifo.Steps (size - 1) (published state.written position state.enqueued) (emitted state action)
      (published after.written (position + (storedHead state action).isSome.toNat) after.enqueued) := by
  obtain ⟨how,value,rfl,idle,rfl⟩ | ⟨rfl,rfl⟩ | ⟨rfl,idle,rfl⟩ | ⟨rfl,rfl⟩ := next_cases taken
  · exact .silent
  · exact separate.producerEmits large allowed
  · exact .silent
  · exact separate.consumerEmits

/-- The slots between the cursors hold what the list holds. -/
theorem Apart.present_eq (separate : Apart size position state) (positive : 0 < size) :
    present state = published state.written position state.enqueued := by
  have window := separate.window
  have count := window.size_eq positive
  have unread := separate.readBound_le
  obtain ⟨bound,writtenLt⟩ := window.producerAt.written_bounds window.tailLt
  have rest : state.queue.contents.drop (pendingRead state.consumer).length =
      ((state.written.take state.enqueued).drop
        (position + (pendingRead state.consumer).length)).map .item := by
    unfold contents
    rw [window.capacity,window.headAt,window_start]
    apply List.ext_getElem
    · simp only [List.length_drop,window_length,List.length_map,List.length_take]
      omega
    · intro i left right
      simp only [List.length_drop,window_length] at left
      have inside : position + (pendingRead state.consumer).length + i < state.written.length := by
        omega
      have found := window.stored _ _ (List.getElem?_eq_getElem inside) (by omega) (by omega)
      simp only [List.getElem_drop,List.getElem_map,List.getElem_take,Ring.window,List.getElem_range]
      rw [← found,Nat.add_assoc]
  have items : (state.queue.contents.drop (pendingRead state.consumer).length).map untagged =
      published state.written (position + (pendingRead state.consumer).length) state.enqueued := by
    rw [rest,List.map_map]
    rfl
  rw [present,List.map_append,items]
  cases pc : state.consumer with
  | storeHead currentHead cell =>
    obtain ⟨item,lookup,rfl⟩ := separate.holding cell (by simp [pc,pendingRead])
    exact (published_first lookup (separate.filled (by simp [pc,passedTest]))).symm
  | _ => rfl

end Emitted

/-- What a history tells of the items that went in, came out and were lost. -/
structure Tallied (state : State α) (log : List (LossyFifo.Event (Cell α))) : Prop where
  appends : log.filterMap LossyFifo.appended = published state.written 0 state.enqueued
  pops : log.filterMap LossyFifo.popped = answers state
  drops : (log.filterMap LossyFifo.dropped).length + pendingDrop state.producer = state.fulls

section Logged
variable {size position : Nat} {state : State α} {log : List (LossyFifo.Event (Cell α))}

theorem Tallied.producerStep (separate : Apart size position state) (tallied : Tallied state log) :
    Tallied (producerStep state) (log ++ emitted state .producer) := by
  obtain ⟨appends,pops,drops⟩ := tallied
  have returned := producerStep_returned state
  obtain ⟨bound,_⟩ := separate.window.producerAt.written_bounds separate.window.tailLt
  refine ⟨?_,?_,?_⟩
  · cases pc : state.producer with
    | storeTail left nextTail =>
      obtain ⟨item,lookup,found,_⟩ := separate.newest pc
      simp [Interleaving.producerStep,pc,enqueueStep,emitted,found,untagged,List.filterMap_append,
        LossyFifo.appended,appends,published_last lookup (Nat.zero_le _)]
    | write how item currentTail nextTail =>
      simpa [Interleaving.producerStep,pc,enqueueStep,emitted,published_write bound] using appends
    | loadHead how item currentTail nextTail =>
      by_cases full : nextTail = state.queue.head <;>
        simpa [Interleaving.producerStep,pc,enqueueStep,emitted,full] using appends
    | _ =>
      simpa [Interleaving.producerStep,pc,enqueueStep,emitted,List.filterMap_append,List.filterMap_cons,
        LossyFifo.appended] using appends
  · rw [answers,returned]
    cases pc : state.producer <;>
      simpa [emitted,pc,List.filterMap_append,List.filterMap_cons,LossyFifo.popped,answers] using pops
  · cases pc : state.producer with
    | loadHead how item currentTail nextTail =>
      by_cases full : nextTail = state.queue.head <;>
        simpa [Interleaving.producerStep,pc,enqueueStep,emitted,full,pendingDrop] using drops
    | _ =>
      simpa [Interleaving.producerStep,pc,enqueueStep,emitted,List.filterMap_append,List.filterMap_cons,
        LossyFifo.dropped,pendingDrop] using drops

theorem Tallied.consumerStep (tallied : Tallied state log) :
    Tallied (consumerStep state) (log ++ emitted state .consumer) := by
  obtain ⟨appends,pops,drops⟩ := tallied
  cases pc : state.consumer with
  | loadTail currentHead =>
    by_cases empty : currentHead = state.queue.tail
    · simp only [Interleaving.consumerStep,pc,dequeueStep,emitted,empty,if_true]
      refine ⟨?_,?_,?_⟩
      · simpa [List.filterMap_append,List.filterMap_cons,LossyFifo.appended] using appends
      · simpa [List.filterMap_append,List.filterMap_cons,LossyFifo.popped,answers] using pops
      · simpa [List.filterMap_append,List.filterMap_cons,LossyFifo.dropped] using drops
    · simp only [Interleaving.consumerStep,pc,dequeueStep,emitted,empty,if_false,List.append_nil]
      exact ⟨appends,pops,drops⟩
  | storeHead currentHead cell =>
    simp only [Interleaving.consumerStep,pc,dequeueStep,emitted]
    refine ⟨?_,?_,?_⟩
    · simpa [List.filterMap_append,List.filterMap_cons,LossyFifo.appended] using appends
    · simp [List.filterMap_append,LossyFifo.popped,pops,answers]
    · simpa [List.filterMap_append,List.filterMap_cons,LossyFifo.dropped] using drops
  | _ =>
    simp only [Interleaving.consumerStep,pc,dequeueStep,emitted,List.append_nil]
    exact ⟨appends,pops,drops⟩

theorem Tallied.step (separate : Apart size position state) (tallied : Tallied state log)
    {action : Action α} {after : State α} (taken : next state action = some after) :
    Tallied after (log ++ emitted state action) := by
  obtain ⟨how,value,rfl,idle,rfl⟩ | ⟨rfl,rfl⟩ | ⟨rfl,idle,rfl⟩ | ⟨rfl,rfl⟩ := next_cases taken
  · have drops := tallied.drops
    rw [idle] at drops
    simp only [emitted,List.append_nil]
    exact { tallied with drops := drops }
  · exact tallied.producerStep separate
  · simp only [emitted,List.append_nil]
    exact { tallied with }
  · exact tallied.consumerStep

end Logged
theorem apart_reachable {size : Nat} (large : 2 ≤ size)
    {entry : State α × List (LossyFifo.Event (Cell α))}
    (reachable : ((spsc size).logged emitted).Reachable (fun entry => apart entry.1) entry) :
    ∃ position, Apart size position entry.1 ∧
      LossyFifo.Run (size - 1) entry.2 (published entry.1.written position entry.1.enqueued) ∧
      Tallied entry.1 entry.2 := by
  apply reachable.invariant (fun entry => ∃ position, Apart size position entry.1 ∧
    LossyFifo.Run (size - 1) entry.2 (published entry.1.written position entry.1.enqueued) ∧
    Tallied entry.1 entry.2)
  · exact ⟨0,apart_new size (by omega),.nil,rfl,rfl,rfl⟩
  · intro before action after earlier allowed taken
    obtain ⟨position,separate,run,tallied⟩ := earlier
    obtain ⟨stepped,log⟩ := Machine.logged_next taken
    rw [log]
    exact ⟨_,separate.step large allowed stepped,run.steps (separate.emits large allowed stepped),
      tallied.step separate stepped⟩

theorem Apart.conserved {size position : Nat} {state : State α} (separate : Apart size position state)
    {log : List (LossyFifo.Event (Cell α))}
    (run : LossyFifo.Run (size - 1) log (published state.written position state.enqueued))
    (tallied : Tallied state log) :
    state.enqueued + pendingDrop state.producer =
      (answers state).length + state.fulls + state.queue.size := by
  have headLe := separate.window.headLe
  have tailLt := separate.window.tailLt
  obtain ⟨bound,_⟩ := separate.window.producerAt.written_bounds tailLt
  have present := separate.window.size_eq (by omega)
  have counted := run.counted
  have drops := tallied.drops
  rw [tallied.pops,tallied.appends,published_length bound,published_length bound] at counted
  omega

theorem Tallied.appended {size position : Nat} {state : State α} {log : List (LossyFifo.Event (Cell α))}
    (tallied : Tallied state log) (window : Window size position state) :
    log.filterMap LossyFifo.appended = ((begun state).take state.enqueued).map .item := by
  obtain ⟨bound,_⟩ := window.producerAt.written_bounds window.tailLt
  rw [tallied.appends,begun,← List.map_take,List.take_append_of_le_length bound,List.map_map]
  rfl

theorem Apart.size_present {size position : Nat} {state : State α}
    (separate : Apart size position state) (positive : 0 < size) : state.queue.size =
    (present state).length := by
  obtain ⟨bound,_⟩ := separate.window.producerAt.written_bounds separate.window.tailLt
  have count := separate.window.size_eq positive
  rw [separate.present_eq positive,published_length bound]
  omega

/-- The step that records that the list is empty is the one that answers `nullopt`. -/
private theorem emitted_empty_iff {state after : State α} (taken : next state .consumer = some after) :
    emitted state .consumer = [.empty] ↔ answersNullopt state after := by
  constructor
  · intro recorded
    cases pc : state.consumer with
    | loadTail currentHead =>
      simp only [emitted,pc] at recorded
      split at recorded
      next empty =>
        simp only [next,pc,Option.some.injEq] at taken
        rw [← taken]
        simp [answersNullopt,consumerStep,pc,dequeueStep,empty]
      next => contradiction
    | _ => simp [emitted,pc] at recorded
  · intro answer
    simp [emitted,nullopt_empty taken answer]

/-- As long as the threads' stores to `head` keep `apart`, whatever else they do at once: what they
have completed is a history of the bounded list, which ends with what lies between the cursors. It
appends the values enqueued, in order, pops the answers of the dequeues, finds the list empty where
a dequeue answers `nullopt`, and drops one item for each enqueue that found the queue full; the
answers and the dropped items are the values enqueued up to those that are still there. -/
theorem queue_linearizable {size : Nat} (large : 2 ≤ size) {state : State α}
    {log : List (LossyFifo.Event (Cell α))}
    (reachable : ((spsc size).logged emitted).Reachable (fun entry => apart entry.1) (state,log)) :
    LossyFifo.Run (size - 1) log (present state) ∧
      log.filterMap LossyFifo.appended = ((begun state).take state.enqueued).map .item ∧
      log.filterMap LossyFifo.popped = answers state ∧
      (log.filterMap LossyFifo.dropped).length + pendingDrop state.producer = state.fulls ∧
      ((begun state).take state.enqueued).map .item = log.filterMap LossyFifo.removed ++ present state ∧
      state.queue.size = (present state).length ∧
      state.enqueued + pendingDrop state.producer = (answers state).length + state.fulls +
        state.queue.size ∧
      ∀ after, next state .consumer = some after →
        (emitted state .consumer = [.empty] ↔ answersNullopt state after) := by
  obtain ⟨position,separate,run,tallied⟩ : ∃ position, Apart size position state ∧
      LossyFifo.Run (size - 1) log (published state.written position state.enqueued) ∧
      Tallied state log :=
    apart_reachable large reachable
  have appends := tallied.appended separate.window
  have conserved := separate.conserved run tallied
  rw [← separate.present_eq (by omega)] at run
  exact ⟨run,appends,tallied.pops,tallied.drops,appends.symm.trans run.conserved,
    separate.size_present (by omega),conserved,fun after taken => emitted_empty_iff taken⟩

/-- The oldest item is dropped between the call of a dequeue and its load of `head`. -/
def meanwhile : List (Action Nat) :=
  [.callEnqueue .move 7,.producer,.producer,.producer,.producer,
    .callEnqueue .copy 8,.producer,.producer,.producer,.producer,
    .callEnqueue .move 9,.producer,.producer,.callDequeue,.producer,.producer,.consumer,.producer,
    .consumer,.consumer,.producer,.consumer]

theorem meanwhile_linear : ∃ state log, ((spsc 3).logged emitted).run (fun entry => apart entry.1)
    (.new 3,[]) meanwhile = some (state,log) ∧
    log = [.append (.item 7),.append (.item 8),.drop (.item 7),.append (.item 9),.pop (.item 8)] ∧
    LossyFifo.Run 2 log [.item 9] := by
  obtain ⟨state,log,ran,same,left⟩ : ∃ state log,
      ((spsc 3).logged emitted).run (fun entry => apart entry.1) (.new 3,[]) meanwhile =
        some (state,log) ∧
        log = [.append (.item 7),.append (.item 8),.drop (.item 7),.append (.item 9),.pop (.item 8)] ∧
        present state = [.item 9] := ⟨_,_,rfl,rfl,rfl⟩
  obtain ⟨run,_⟩ := queue_linearizable (by decide) (Machine.reachable_of_run .init ran)
  exact ⟨state,log,ran,same,left ▸ run⟩

end YoloEngine.Interleaving
