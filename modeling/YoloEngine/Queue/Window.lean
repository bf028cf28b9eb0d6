import YoloEngine.Queue.Interleaving

/-! The window invariant of the interleaved queue. Cursors are remainders of unbounded
positions: `enqueued` for `tail`, and for `head` a position that counts the items taken
off so far. It survives every step whose store to `head` takes at most one item off. -/
namespace YoloEngine.Interleaving
open Foundation Foundation.Ring LockFreeQueue
variable {α : Type}

/-- Only items, in the order of their enqueues, none twice. -/
def InOrder (cells : List (Cell (Tagged α))) : Prop :=
  ∃ items : List (Tagged α), cells = items.map .item ∧
  items.Pairwise (fun earlier later => earlier.tag < later.tag)

def readBound (read : List (Cell (Tagged α))) : Nat :=
  match read.getLast? with
  | some (.item item) => item.tag + 1
  | _ => 0

@[simp] theorem readBound_append (read : List (Cell (Tagged α))) (item : Tagged α) :
    readBound (read ++ [.item item]) = item.tag + 1 := by
  simp [readBound]

theorem snoc_lookup {β : Type} {front : List β} {last found : β} {index : Nat}
    (lookup : (front ++ [last])[index]? = some found) :
    front[index]? = some found ∨ index = front.length ∧ found = last := by
  obtain ⟨inside,same⟩ := List.getElem?_eq_some_iff.mp lookup
  rw [List.length_append,List.length_singleton] at inside
  by_cases earlier : index < front.length
  · rw [List.getElem_append_left earlier] at same
    exact Or.inl (List.getElem?_eq_some_iff.mpr ⟨earlier,same⟩)
  · have position : index = front.length := by omega
    subst position
    simp only [List.getElem_concat_length] at same
    exact Or.inr ⟨rfl,same.symm⟩

private theorem inOrder_nil : InOrder ([] : List (Cell (Tagged α))) := ⟨[],rfl,.nil⟩

theorem InOrder.left {first second : List (Cell (Tagged α))} (ordered : InOrder (first ++ second)) :
    InOrder first := by
  obtain ⟨items,same,increasing⟩ := ordered
  obtain ⟨left,right,rfl,rfl,_⟩ := List.map_eq_append_iff.mp same.symm
  exact ⟨left,rfl,(List.pairwise_append.mp increasing).1⟩

theorem InOrder.append {read : List (Cell (Tagged α))} (ordered : InOrder read) (item : Tagged α)
    (later : readBound read ≤ item.tag) : InOrder (read ++ [.item item]) := by
  obtain ⟨items,rfl,increasing⟩ := ordered
  refine ⟨items ++ [item],by simp,List.pairwise_append.mpr ⟨increasing,List.pairwise_singleton _ _,?_⟩⟩
  intro earlier member last added
  rw [List.mem_singleton.mp added]
  rcases List.eq_nil_or_concat items with rfl | ⟨front,final,rfl⟩
  · simp at member
  · rw [List.concat_eq_append,List.map_append,List.map_singleton,readBound_append] at later
    rw [List.concat_eq_append] at member increasing
    rcases List.mem_append.mp member with inside | inside
    · have less := (List.pairwise_append.mp increasing).2.2 earlier inside final (by simp)
      omega
    · cases List.mem_singleton.mp inside
      omega

def ProducerAt (size position enqueued written started : Nat) : EnqueuePc (Tagged α) → Prop
  | .idle => written = enqueued ∧ started = enqueued
  | .loadTail _ item => written = enqueued ∧ started = enqueued + 1 ∧ item.tag = enqueued
  | .loadHead _ item currentTail nextTail =>
    written = enqueued ∧ started = enqueued + 1 ∧ item.tag = enqueued ∧
      currentTail = enqueued % size ∧ nextTail = (enqueued + 1) % size
  | .reloadHead _ item currentTail nextTail =>
    written = enqueued ∧ started = enqueued + 1 ∧ item.tag = enqueued ∧
      currentTail = enqueued % size ∧ nextTail = (enqueued + 1) % size
  | .storeHead _ item currentTail nextTail newHead => written = enqueued ∧ started = enqueued + 1 ∧
      item.tag = enqueued ∧ currentTail = enqueued % size ∧ nextTail = (enqueued + 1) % size ∧
      ∃ seen, seen ≤ position ∧ newHead = (seen + 1) % size ∧ enqueued < seen + size
  | .write _ item currentTail nextTail =>
    written = enqueued ∧ started = enqueued + 1 ∧ item.tag = enqueued ∧
      currentTail = enqueued % size ∧ nextTail = (enqueued + 1) % size ∧ enqueued + 1 < position + size
  | .storeTail _ nextTail => written = enqueued + 1 ∧ started = enqueued + 1 ∧
      nextTail = (enqueued + 1) % size ∧ enqueued + 1 < position + size

def ConsumerAt (size position bound enqueued : Nat) : DequeuePc (Tagged α) → Prop
  | .idle => bound ≤ position
  | .loadHead => bound ≤ position
  | .loadTail currentHead => ∃ seen, currentHead = seen % size ∧ bound ≤ seen ∧ seen ≤ position
  | .read currentHead =>
    ∃ seen, currentHead = seen % size ∧ bound ≤ seen ∧ seen ≤ position ∧ seen < enqueued
  | .storeHead currentHead _ =>
    ∃ taken, currentHead = taken % size ∧ bound = taken + 1 ∧ taken + 1 < position + size

def pendingRead : DequeuePc (Tagged α) → List (Cell (Tagged α))
  | .storeHead _ item => [item]
  | _ => []

/-- The item an enqueue in its full branch has yet to drop. -/
def pendingDrop : EnqueuePc (Tagged α) → Nat
  | .reloadHead _ _ _ _ => 1
  | .storeHead _ _ _ _ _ => 1
  | _ => 0

structure Window (size position : Nat) (state : State α) : Prop where
  capacity : state.queue.bufferCapacity = size
  sized : state.queue.buffer.length = size
  headAt : state.queue.head = position % size
  tailAt : state.queue.tail = state.enqueued % size
  headLe : position ≤ state.enqueued
  tailLt : state.enqueued < position + size
  readLe : readBound state.read ≤ state.written.length
  tags : ∀ (index : Nat) (item : Tagged α), state.written[index]? = some item → item.tag = index
  stored : ∀ (index : Nat) (item : Tagged α), state.written[index]? = some item →
    readBound state.read ≤ index →
    state.written.length ≤ index + size → state.queue.slot (index % size) = .item item
  producerAt : ProducerAt size position state.enqueued state.written.length state.started state.producer
  consumerAt : ConsumerAt size position (readBound state.read) state.enqueued state.consumer
  reads : InOrder state.read
  returns : state.read = state.returned ++ pendingRead state.consumer
  dropped : position + pendingDrop state.producer ≤ state.returned.length + state.fulls

theorem ProducerAt.mono {size position later enqueued written started : Nat} {pc : EnqueuePc (Tagged α)}
    (at_pc : ProducerAt size position enqueued written started pc) (grown : position ≤ later) :
    ProducerAt size later enqueued written started pc := by
  cases pc with
  | idle | loadTail _ _ | loadHead _ _ _ _ | reloadHead _ _ _ _ => exact at_pc
  | storeHead how item currentTail nextTail newHead =>
    obtain ⟨same,begun,tag,current,target,seen,old,stored,room⟩ := at_pc
    exact ⟨same,begun,tag,current,target,seen,by omega,stored,room⟩
  | write how item currentTail nextTail =>
    obtain ⟨same,begun,tag,current,target,room⟩ := at_pc
    exact ⟨same,begun,tag,current,target,by omega⟩
  | storeTail left nextTail =>
    obtain ⟨same,begun,target,room⟩ := at_pc
    exact ⟨same,begun,target,by omega⟩

theorem ConsumerAt.mono {size position later bound enqueued more : Nat} {pc : DequeuePc (Tagged α)}
    (at_pc : ConsumerAt size position bound enqueued pc) (grown : position ≤ later)
    (published : enqueued ≤ more) :
    ConsumerAt size later bound more pc := by
  cases pc with
  | idle | loadHead => exact Nat.le_trans at_pc grown
  | loadTail currentHead =>
    obtain ⟨seen,held,unread,old⟩ := at_pc
    exact ⟨seen,held,unread,by omega⟩
  | read currentHead =>
    obtain ⟨seen,held,unread,old,filled⟩ := at_pc
    exact ⟨seen,held,unread,by omega,by omega⟩
  | storeHead currentHead item =>
    obtain ⟨taken,held,last,near⟩ := at_pc
    exact ⟨taken,held,last,by omega⟩

theorem ProducerAt.written_bounds {size position enqueued written started : Nat}
    {pc : EnqueuePc (Tagged α)} (at_pc : ProducerAt size position enqueued written started pc)
    (room : enqueued < position + size) :
    enqueued ≤ written ∧ written < position + size := by
  cases pc with
  | idle | loadTail _ _ | loadHead _ _ _ _ | reloadHead _ _ _ _ | storeHead _ _ _ _ _ | write _ _ _ _ =>
    obtain ⟨same,_⟩ := at_pc
    omega
  | storeTail left nextTail =>
    obtain ⟨same,_,_,near⟩ := at_pc
    omega

theorem window_new (size : Nat) (positive : 0 < size) : Window size 0 (State.new size : State α) where
  capacity := rfl
  sized := List.length_replicate
  headAt := (Nat.zero_mod size).symm
  tailAt := (Nat.zero_mod size).symm
  headLe := Nat.le_refl _
  tailLt := by simpa [State.new] using positive
  readLe := Nat.le_refl _
  tags := by simp [State.new]
  stored := by simp [State.new]
  producerAt := ⟨rfl,rfl⟩
  consumerAt := Nat.le_refl _
  reads := inOrder_nil
  returns := rfl
  dropped := Nat.le_refl _

section Steps
variable {size position : Nat} {state : State α}

private theorem Window.headStore (window : Window size position state) {stored : Nat}
    (popped : stored = state.queue.head ∨
      state.queue.head ≠ state.queue.tail ∧
      stored = (state.queue.head + 1) % state.queue.bufferCapacity) :
    stored = position % size ∨ position < state.enqueued ∧ stored = (position + 1) % size := by
  rcases popped with kept | ⟨filled,moved⟩
  · exact Or.inl (kept.trans window.headAt)
  · refine Or.inr ⟨Nat.lt_of_le_of_ne window.headLe ?_,?_⟩
    · intro same
      exact filled (by rw [window.headAt,window.tailAt,same])
    · rw [moved,window.capacity,window.headAt,slot_succ]

private theorem Window.producerStoreHead (large : 2 ≤ size) (window : Window size position state)
    {how : Overload} {item : Tagged α} {currentTail nextTail newHead : Nat}
    (pc : state.producer = .storeHead how item currentTail nextTail newHead)
    (popped : popsOne state .producer) :
    ∃ later, position ≤ later ∧ later ≤ position + 1 ∧ Window size later (producerStep state) := by
  have at_pc := window.producerAt
  have drops := window.dropped
  simp only [pc,ProducerAt,pendingDrop] at at_pc drops
  obtain ⟨same,begun,tag,current,target,seen,old,computed,room⟩ := at_pc
  have tailLt := window.tailLt
  have store := window.headStore (popped newHead (by simp [storedHead,pc]))
  simp only [producerStep,pc,enqueueStep]
  rcases store with kept | ⟨filled,moved⟩
  · -- a stale `new_head` that leaves `head` alone was computed before the last item was taken off
    have fresh : seen ≠ position := by
      intro equal
      rw [equal] at computed
      exact slot_succ_ne large position (computed.symm.trans kept)
    have near : state.enqueued + 1 < position + size := by omega
    exact ⟨position,Nat.le_refl _,Nat.le_succ _,{ window with
      headAt := kept
      producerAt := ⟨same,begun,tag,current,target,near⟩
      dropped := by simp only [pendingDrop]; omega }⟩
  · have near : state.enqueued + 1 < position + 1 + size := by omega
    exact ⟨position + 1,Nat.le_succ _,Nat.le_refl _,{ window with
      headAt := moved
      headLe := filled
      tailLt := by simp only; omega
      producerAt := ⟨same,begun,tag,current,target,near⟩
      consumerAt := window.consumerAt.mono (Nat.le_succ _) (Nat.le_refl _)
      dropped := by simp only [pendingDrop]; omega }⟩

theorem Window.producerWrite (large : 2 ≤ size) (window : Window size position state)
    {how : Overload} {item : Tagged α} {currentTail nextTail : Nat}
    (pc : state.producer = .write how item currentTail nextTail) :
    Window size position (producerStep state) := by
  have at_pc := window.producerAt
  have drops := window.dropped
  simp only [pc,ProducerAt,pendingDrop] at at_pc drops
  obtain ⟨same,begun,tag,rfl,target,room⟩ := at_pc
  have readLe := window.readLe
  simp only [producerStep,pc,enqueueStep]
  exact { window with
    sized := by simpa using window.sized
    readLe := by simp only [List.length_append,List.length_singleton]; omega
    tags := by
      intro index found lookup
      rcases snoc_lookup lookup with earlier | ⟨rfl,rfl⟩
      · exact window.tags index found earlier
      · exact tag.trans same.symm
    stored := by
      intro index found lookup unread recent
      simp only [List.length_append,List.length_singleton] at recent
      rcases snoc_lookup lookup with earlier | ⟨rfl,rfl⟩
      · have inside := (List.getElem?_eq_some_iff.mp earlier).1
        rw [assign_slot_other _ _ _ _ (by rw [← same]; exact slot_ne inside (by omega))]
        exact window.stored index found earlier unread (by omega)
      · rw [same,assign_slot_same]
        rw [window.sized]
        exact Nat.mod_lt _ (by omega)
    producerAt := by
      refine ⟨?_,begun,target,room⟩
      simp only [List.length_append,List.length_singleton,same]
    dropped := by simpa only [pendingDrop] using drops }

theorem Window.producerStep (large : 2 ≤ size) (window : Window size position state)
    (popped : popsOne state .producer) :
    ∃ later, position ≤ later ∧ later ≤ position + 1 ∧ Window size later (producerStep state) := by
  have at_pc := window.producerAt
  have drops := window.dropped
  have tailLt := window.tailLt
  have stays {after : State α} (kept : Window size position after) :
      ∃ later, position ≤ later ∧ later ≤ position + 1 ∧ Window size later after :=
    ⟨position,Nat.le_refl _,Nat.le_succ _,kept⟩
  cases pc : state.producer with
  | storeHead how item currentTail nextTail newHead => exact window.producerStoreHead large pc popped
  | write how item currentTail nextTail => exact stays (window.producerWrite large pc)
  | idle =>
    simp only [pc,ProducerAt,pendingDrop] at at_pc drops
    simp only [Interleaving.producerStep,pc,enqueueStep]
    exact stays { window with producerAt := at_pc, dropped := drops }
  | loadTail how item =>
    simp only [pc,ProducerAt,pendingDrop] at at_pc drops
    obtain ⟨same,begun,tag⟩ := at_pc
    simp only [Interleaving.producerStep,pc,enqueueStep]
    exact stays { window with
      producerAt := ⟨same,begun,tag,window.tailAt,by rw [window.tailAt,window.capacity,slot_succ]⟩
      dropped := drops }
  | loadHead how item currentTail nextTail =>
    simp only [pc,ProducerAt,pendingDrop] at at_pc drops
    obtain ⟨same,begun,tag,current,target⟩ := at_pc
    simp only [Interleaving.producerStep,pc,enqueueStep]
    by_cases full : nextTail = state.queue.head
    · simp only [full,if_true]
      exact stays { window with
        producerAt := ⟨same,begun,tag,current,full.symm.trans target⟩
        dropped := by simp only [pendingDrop]; omega }
    · simp only [full,if_false]
      have room : state.enqueued + 1 ≠ position + size := by
        intro filled
        exact full (by rw [target,filled,Nat.add_mod_right,window.headAt])
      have near : state.enqueued + 1 < position + size := by omega
      exact stays { window with
        producerAt := ⟨same,begun,tag,current,target,near⟩
        dropped := drops }
  | reloadHead how item currentTail nextTail =>
    simp only [pc,ProducerAt,pendingDrop] at at_pc drops
    obtain ⟨same,begun,tag,current,target⟩ := at_pc
    simp only [Interleaving.producerStep,pc,enqueueStep]
    exact stays { window with
      producerAt := ⟨same,begun,tag,current,target,position,Nat.le_refl _,
        by rw [window.headAt,window.capacity,slot_succ],tailLt⟩
      dropped := drops }
  | storeTail left nextTail =>
    simp only [pc,ProducerAt,pendingDrop] at at_pc drops
    obtain ⟨same,begun,target,near⟩ := at_pc
    have headLe := window.headLe
    simp only [Interleaving.producerStep,pc,enqueueStep]
    exact stays { window with
      tailAt := target
      headLe := Nat.le_succ_of_le headLe
      tailLt := near
      producerAt := ⟨same,begun⟩
      consumerAt := window.consumerAt.mono (Nat.le_refl _) (Nat.le_succ _)
      dropped := drops }

theorem Window.consumerRead (large : 2 ≤ size) (window : Window size position state) {currentHead : Nat}
    (pc : state.consumer = .read currentHead) : Window size position (consumerStep state) := by
  have at_pc := window.consumerAt
  have returns := window.returns
  simp only [pc,ConsumerAt,pendingRead,List.append_nil] at at_pc returns
  obtain ⟨seen,rfl,unread,old,filled⟩ := at_pc
  obtain ⟨published,writtenLt⟩ := window.producerAt.written_bounds window.tailLt
  -- the producer may have come round since the load of `head`: what is read is the slot's latest
  -- write
  obtain ⟨latest,after,inside,recent,slot⟩ :=
    exists_latest (show 0 < size by omega) (Nat.lt_of_lt_of_le filled published)
  obtain ⟨item,lookup⟩ : ∃ item, state.written[latest]? = some item :=
    ⟨_,List.getElem?_eq_some_iff.mpr ⟨inside,rfl⟩⟩
  have tag := window.tags latest item lookup
  have found := window.stored latest item lookup (by omega) recent
  rw [slot] at found
  simp only [consumerStep,pc,dequeueStep,found]
  exact { window with
    sized := by simpa using window.sized
    readLe := by simp only [readBound_append]; omega
    stored := by
      intro index other lookup unread newer
      simp only [readBound_append] at unread
      have bound : index < state.written.length := (List.getElem?_eq_some_iff.mp lookup).1
      rw [assign_slot_other _ _ _ _ (by rw [← slot]; exact (slot_ne (by omega) (by omega)).symm)]
      exact window.stored index other lookup (by omega) newer
    consumerAt := by
      simp only [readBound_append,tag]
      exact ⟨latest,slot.symm,rfl,by omega⟩
    reads := window.reads.append item (by omega)
    returns := by simp only [pendingRead,returns] }

private theorem Window.consumerStoreHead (window : Window size position state) {currentHead : Nat}
    {item : Cell (Tagged α)} (pc : state.consumer = .storeHead currentHead item)
    (popped : popsOne state .consumer) :
    ∃ later, position ≤ later ∧ later ≤ position + 1 ∧ Window size later (consumerStep state) := by
  have at_pc := window.consumerAt
  have returns := window.returns
  have dropped := window.dropped
  have tailLt := window.tailLt
  simp only [pc,ConsumerAt,pendingRead] at at_pc returns
  obtain ⟨taken,rfl,last,near⟩ := at_pc
  have store := window.headStore (popped ((taken % size + 1) % state.queue.bufferCapacity)
    (by simp [storedHead,pc]))
  simp only [window.capacity,slot_succ] at store
  simp only [consumerStep,pc,dequeueStep,window.capacity,slot_succ]
  rcases store with kept | ⟨filled,moved⟩
  · have behind : taken + 1 ≤ position := by
      by_contra ahead
      exact slot_ne (by omega) near kept.symm
    exact ⟨position,Nat.le_refl _,Nat.le_succ _,{ window with
      capacity := rfl
      headAt := kept
      consumerAt := by simp only [ConsumerAt,last]; exact behind
      returns := by simp only [pendingRead,List.append_nil,returns]
      dropped := by simp only [List.length_append,List.length_singleton]; omega }⟩
  · have behind : taken + 1 ≤ position + 1 := by
      by_contra ahead
      exact slot_ne (by omega) (by omega) moved.symm
    exact ⟨position + 1,Nat.le_succ _,Nat.le_refl _,{ window with
      capacity := rfl
      headAt := moved
      headLe := filled
      tailLt := by simp only; omega
      producerAt := window.producerAt.mono (Nat.le_succ _)
      consumerAt := by simp only [ConsumerAt,last]; exact behind
      returns := by simp only [pendingRead,List.append_nil,returns]
      dropped := by simp only [List.length_append,List.length_singleton]; omega }⟩

theorem Window.consumerStep (large : 2 ≤ size) (window : Window size position state)
    (popped : popsOne state .consumer) :
    ∃ later, position ≤ later ∧ later ≤ position + 1 ∧ Window size later (consumerStep state) := by
  have at_pc := window.consumerAt
  have returns := window.returns
  have stays {after : State α} (kept : Window size position after) :
      ∃ later, position ≤ later ∧ later ≤ position + 1 ∧ Window size later after :=
    ⟨position,Nat.le_refl _,Nat.le_succ _,kept⟩
  cases pc : state.consumer with
  | storeHead currentHead item => exact window.consumerStoreHead pc popped
  | read currentHead => exact stays (window.consumerRead large pc)
  | idle =>
    simp only [pc,ConsumerAt,pendingRead] at at_pc returns
    simp only [Interleaving.consumerStep,pc,dequeueStep]
    exact stays { window with consumerAt := at_pc, returns := returns }
  | loadHead =>
    simp only [pc,ConsumerAt,pendingRead] at at_pc returns
    simp only [Interleaving.consumerStep,pc,dequeueStep]
    exact stays { window with
      consumerAt := ⟨position,window.headAt,at_pc,Nat.le_refl _⟩
      returns := returns }
  | loadTail currentHead =>
    simp only [pc,ConsumerAt,pendingRead] at at_pc returns
    obtain ⟨seen,rfl,unread,old⟩ := at_pc
    simp only [Interleaving.consumerStep,pc,dequeueStep]
    by_cases empty : seen % size = state.queue.tail
    · simp only [empty,if_true]
      exact stays { window with consumerAt := Nat.le_trans unread old, returns := returns }
    · simp only [empty,if_false]
      have filled : seen < state.enqueued := by
        have headLe := window.headLe
        rcases Nat.lt_or_ge seen state.enqueued with less | more
        · exact less
        · exact absurd (by rw [window.tailAt,show seen = state.enqueued by omega]) empty
      exact stays { window with consumerAt := ⟨seen,rfl,unread,old,filled⟩, returns := returns }

/-- One step of either thread keeps the window and moves its start by at most one. -/
theorem Window.step (large : 2 ≤ size) (window : Window size position state) {action : Action α}
    {after : State α} (popped : popsOne state action) (taken : next state action = some after) :
    ∃ later, position ≤ later ∧ later ≤ position + 1 ∧ Window size later after := by
  obtain ⟨how,value,rfl,idle,rfl⟩ | ⟨rfl,rfl⟩ | ⟨rfl,idle,rfl⟩ | ⟨rfl,rfl⟩ := next_cases taken
  · have at_pc := window.producerAt
    have drops := window.dropped
    simp only [idle,ProducerAt,pendingDrop] at at_pc drops
    obtain ⟨same,begun⟩ := at_pc
    exact ⟨position,Nat.le_refl _,Nat.le_succ _,{ window with
      producerAt := ⟨same,by rw [begun],begun⟩
      dropped := drops }⟩
  · exact window.producerStep large popped
  · have at_pc := window.consumerAt
    have returns := window.returns
    simp only [idle,ConsumerAt,pendingRead] at at_pc returns
    exact ⟨position,Nat.le_refl _,Nat.le_succ _,{ window with
      consumerAt := at_pc
      returns := returns }⟩
  · exact window.consumerStep large popped

end Steps

theorem window_reachable {size : Nat} (large : 2 ≤ size) {state : State α}
    (reachable : (spsc size).Reachable popsOne state) : ∃ position, Window size position state := by
  apply reachable.invariant (fun state => ∃ position, Window size position state)
  · exact ⟨0,window_new size (by omega)⟩
  · intro before action after earlier popped taken
    obtain ⟨position,window⟩ := earlier
    obtain ⟨later,_,_,kept⟩ := window.step large popped taken
    exact ⟨later,kept⟩

end YoloEngine.Interleaving
