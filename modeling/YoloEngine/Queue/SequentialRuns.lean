import YoloEngine.Queue.MemoryOrders
import YoloEngine.Queue.Races
import YoloEngine.Queue.Sharing
import YoloEngine.Foundation.Composition

/-! The interleaving in which every access sees the newest store is one of those that the memory
orders allow: every load may read the newest store, and every store may go after all others. So a
run of the one is a run of the other, with the same threads, slots and answers, also where both
threads store to `head`. -/
namespace YoloEngine.MemoryOrders
open Foundation Foundation.ReleaseAcquire LockFreeQueue
variable {α : Type}

/-- Nobody knows of a store to the location that is later than this. -/
structure Behind (location : Place) (bound : Nat) (own other : View Place)
    (head tail : List (Message Place Nat)) :
    Prop where
  own : own location ≤ bound
  other : other location ≤ bound
  heads : ∀ message ∈ head, message.view location ≤ bound
  tails : ∀ message ∈ tail, message.view location ≤ bound

/-- The last of the stores to a cursor holds its value, and none is later. -/
def Newest (messages : List (Message Place Nat)) (value time : Nat) : Prop :=
  ∃ message, messages.getLast? = some message ∧ message.value = value ∧ message.time = time ∧
    ∀ other ∈ messages, other.time ≤ time

/-- The newest stores to the cursors, which nobody knows to be overwritten. -/
structure Current (headValue tailValue : Nat) (own other : View Place)
    (stored published : List (Message Place Nat)) :
    Prop where
  head : ∃ time, Newest stored headValue time ∧ Behind .head time own other stored published
  tail : ∃ time, Newest published tailValue time ∧ Behind .tail time own other stored published

section Memory
variable {head tail messages : List (Message Place Nat)} {headValue tailValue value time bound : Nat}
  {location place thread : Place} {own other view : View Place} {message : Message Place Nat}

theorem Newest.readable (newest : Newest messages value time) (behind : view location ≤ time) :
    ∃ choice message, readable messages location view choice = some message ∧ message ∈ messages ∧
      message.value = value ∧ message.time = time := by
  obtain ⟨message,last,same,rfl,_⟩ := newest
  rw [List.getLast?_eq_getElem?] at last
  exact ⟨_,message,readable_iff.mpr ⟨last,behind⟩,List.mem_of_getElem? last,same,rfl⟩

theorem Newest.storable (newest : Newest messages value time) (behind : view location ≤ time) :
    storable messages location view (time + 1) := by
  obtain ⟨_,_,_,_,latest⟩ := newest
  refine ⟨Nat.lt_succ_of_le behind,fun other member => ?_⟩
  have before := latest other member
  omega

theorem Newest.append (newest : Newest messages value time) (later : message.time = time + 1) :
    Newest (messages ++ [message]) message.value (time + 1) := by
  obtain ⟨_,_,_,_,latest⟩ := newest
  refine ⟨message,List.getLast?_concat,rfl,later,fun other member => ?_⟩
  obtain old | last := List.mem_append.mp member
  · exact Nat.le_succ_of_le (latest other old)
  · rw [List.mem_singleton.mp last,later]

theorem Behind.load (behind : Behind place bound own other head tail) (order : LoadOrder)
    (member : message ∈ head ∨ message ∈ tail) (newest : place = location → message.time ≤ bound) :
    Behind place bound (load order location message own) other head tail := by
  have carried := member.elim (behind.heads message) (behind.tails message)
  have known := behind.own
  refine { behind with own := ?_ }
  by_cases same : place = location
  · subst same
    cases order <;> simp [ReleaseAcquire.load,newest,carried]
  · cases order <;> simp [ReleaseAcquire.load,same,known,carried]

theorem Behind.grow (behind : Behind place bound own other head tail) {more : Nat}
    (later : bound ≤ more)
    (known : view place ≤ more) : Behind place more view other head tail where
  own := known
  other := behind.other.trans later
  heads := fun message member => (behind.heads message member).trans later
  tails := fun message member => (behind.tails message member).trans later

private theorem Behind.appendHead (behind : Behind place bound own other head tail)
    (carried : message.view place ≤ bound) :
    Behind place bound own other (head ++ [message]) tail :=
  { behind with
    heads := by
      intro other member
      obtain old | last := List.mem_append.mp member
      · exact behind.heads other old
      · rw [List.mem_singleton.mp last]
        exact carried }

private theorem Behind.appendTail (behind : Behind place bound own other head tail)
    (carried : message.view place ≤ bound) :
    Behind place bound own other head (tail ++ [message]) :=
  { behind with
    tails := by
      intro other member
      obtain old | last := List.mem_append.mp member
      · exact behind.tails other old
      · rw [List.mem_singleton.mp last]
        exact carried }

private theorem Behind.swap (behind : Behind place bound own other head tail) :
    Behind place bound other own head tail :=
  ⟨behind.other,behind.own,behind.heads,behind.tails⟩

private theorem Current.swap (current : Current headValue tailValue own other head tail) :
    Current headValue tailValue other own head tail where
  head := current.head.imp fun _ both => ⟨both.left,both.right.swap⟩
  tail := current.tail.imp fun _ both => ⟨both.left,both.right.swap⟩

/-- A load may read the newest store, and then nothing is overwritten for it. -/
theorem Current.loadHead (current : Current headValue tailValue own other head tail)
    (order : LoadOrder) :
    ∃ choice message, readable head .head own choice = some message ∧ message.value = headValue ∧
      Current headValue tailValue (load order .head message own) other head tail := by
  obtain ⟨time,newest,behind⟩ := current.head
  obtain ⟨tailTime,tailNewest,tailBehind⟩ := current.tail
  obtain ⟨choice,message,read,member,value,same⟩ := newest.readable behind.own
  exact ⟨choice,message,read,value,⟨time,newest,behind.load order (Or.inl member) fun _ => same.le⟩,
    tailTime,tailNewest,tailBehind.load order (Or.inl member) (by simp)⟩

theorem Current.loadTail (current : Current headValue tailValue own other head tail)
    (order : LoadOrder) :
    ∃ choice message, readable tail .tail own choice = some message ∧ message.value = tailValue ∧
      Current headValue tailValue (load order .tail message own) other head tail := by
  obtain ⟨time,newest,behind⟩ := current.tail
  obtain ⟨headTime,headNewest,headBehind⟩ := current.head
  obtain ⟨choice,message,read,member,value,same⟩ := newest.readable behind.own
  exact ⟨choice,message,read,value,
    ⟨headTime,headNewest,headBehind.load order (Or.inr member) (by simp)⟩,
    time,newest,behind.load order (Or.inr member) fun _ => same.le⟩

/-- A store may go after all others. -/
theorem Current.storeHead (current : Current headValue tailValue own other head tail) (value : Nat) :
    ∃ time, storable head .head own time ∧
      Current value tailValue (release .head time value own).view other
        (head ++ [release .head time value own]) tail := by
  obtain ⟨time,newest,behind⟩ := current.head
  obtain ⟨tailTime,tailNewest,tailBehind⟩ := current.tail
  refine ⟨time + 1,newest.storable behind.own,⟨time + 1,newest.append rfl,?_⟩,tailTime,tailNewest,?_⟩
  · exact (behind.grow (Nat.le_succ _) (by simp [release])).appendHead (by simp [release])
  · have known : (release .head (time + 1) value own).view .tail ≤ tailTime := by
      simpa [release] using tailBehind.own
    exact (tailBehind.grow (Nat.le_refl _) known).appendHead known

theorem Current.storeTail (current : Current headValue tailValue own other head tail) (value : Nat) :
    ∃ time, storable tail .tail own time ∧
      Current headValue value (release .tail time value own).view other head
        (tail ++ [release .tail time value own]) := by
  obtain ⟨time,newest,behind⟩ := current.tail
  obtain ⟨headTime,headNewest,headBehind⟩ := current.head
  refine ⟨time + 1,newest.storable behind.own,⟨headTime,headNewest,?_⟩,time + 1,newest.append rfl,?_⟩
  · have known : (release .tail (time + 1) value own).view .head ≤ headTime := by
      simpa [release] using headBehind.own
    exact (headBehind.grow (Nat.le_refl _) known).appendTail known
  · exact (behind.grow (Nat.le_succ _) (by simp [release])).appendTail (by simp [release])

theorem Current.access (current : Current headValue tailValue own other head tail)
    (notHead : thread ≠ .head) (notTail : thread ≠ .tail) (count : Nat) :
    Current headValue tailValue (Function.update own thread count) other head tail := by
  obtain ⟨headTime,headNewest,headBehind⟩ := current.head
  obtain ⟨tailTime,tailNewest,tailBehind⟩ := current.tail
  exact ⟨⟨headTime,headNewest,headBehind.grow (Nat.le_refl _)
    (by simpa [notHead.symm] using headBehind.own)⟩,
    tailTime,tailNewest,tailBehind.grow (Nat.le_refl _) (by simpa [notTail.symm] using tailBehind.own)⟩

end Memory

/-- The same threads, slots, cursors and answers, each load and store having seen the newest. -/
structure Mirrors (size : Nat) (state : Interleaving.State α)
    (ordered : State (Interleaving.Tagged α)) : Prop where
  cursors : Sharing.CursorsInside size state.queue
  enqueueInside : Sharing.EnqueueInside size state.producer
  dequeueInside : Sharing.DequeueInside size state.consumer
  capacity : ordered.bufferCapacity = size
  slots : ordered.slots.map Plain.content = state.queue.buffer
  producer : ordered.producer = state.producer
  consumer : ordered.consumer = state.consumer
  written : ordered.written = state.written
  returned : ordered.returned = state.returned
  current : Current state.queue.head state.queue.tail ordered.producerView ordered.consumerView
    ordered.head ordered.tail

section Steps
variable {size : Nat} {state : Interleaving.State α} {ordered : State (Interleaving.Tagged α)}

theorem Mirrors.slot (mirrors : Mirrors size state ordered) {index : Nat} (inside : index < size) :
    ∃ slot, ordered.slots[index]? = some slot ∧ slot.content = state.queue.slot index := by
  have sized : ordered.slots.length = size := by
    rw [← mirrors.cursors.sized,← mirrors.slots,List.length_map]
  refine ⟨_,List.getElem?_eq_getElem (sized.symm ▸ inside),?_⟩
  rw [LockFreeQueue.slot,← mirrors.slots,List.getD_eq_getElem?_getD,List.getElem?_map,
    List.getElem?_eq_getElem (sized.symm ▸ inside)]
  rfl

theorem Mirrors.producerStep (mirrors : Mirrors size state ordered) (inside : state.producer ≠ .idle) :
    ∃ choice after, next ordered (.producer choice) = some after ∧
      (¬ Interleaving.takesFull state .producer → findsRoom ordered (.producer choice)) ∧
      Mirrors size (Interleaving.producerStep state) after := by
  have standing := mirrors.producer
  have current := mirrors.current
  obtain ⟨cursorsAfter,insideAfter⟩ := Sharing.enqueueStep_inside mirrors.cursors mirrors.enqueueInside
  cases pc : state.producer with
  | idle => exact absurd pc inside
  | loadTail how item =>
    obtain ⟨choice,message,read,value,after⟩ := current.loadTail .relaxed
    refine ⟨choice,_,by rw [next,MemoryOrders.producerStep,standing,pc]; simp only [read]; rfl,
      fun _ => by simp [findsRoom,testedTail,standing,pc],?_⟩
    rw [pc] at insideAfter
    simp only [Interleaving.producerStep,pc,enqueueStep] at insideAfter ⊢
    exact { mirrors with
      enqueueInside := insideAfter
      producer := by simp only [value,mirrors.capacity,mirrors.cursors.capacity]
      current := after }
  | loadHead how item currentTail nextTail =>
    obtain ⟨choice,message,read,value,after⟩ := current.loadHead .acquire
    obtain ⟨lookup,_⟩ := readable_iff.mp read
    refine ⟨choice,_,by rw [next,MemoryOrders.producerStep,standing,pc]; simp only [read]; rfl,
      fun free => ?_,?_⟩
    · simpa [findsRoom,testedTail,standing,pc,lookup,value,Interleaving.takesFull,
        Interleaving.testedTail] using free
    · rw [pc] at insideAfter
      by_cases full : nextTail = state.queue.head
      · simp only [Interleaving.producerStep,pc,enqueueStep,if_pos full] at insideAfter ⊢
        exact { mirrors with
          enqueueInside := insideAfter, producer := if_pos (full.trans value.symm), current := after }
      · simp only [Interleaving.producerStep,pc,enqueueStep,if_neg full] at insideAfter ⊢
        exact { mirrors with
          enqueueInside := insideAfter, producer := if_neg (fun same => full (same.trans value)),
          current := after }
  | reloadHead how item currentTail nextTail =>
    obtain ⟨choice,message,read,value,after⟩ := current.loadHead .relaxed
    refine ⟨choice,_,by rw [next,MemoryOrders.producerStep,standing,pc]; simp only [read]; rfl,
      fun _ => by simp [findsRoom,testedTail,standing,pc],?_⟩
    rw [pc] at insideAfter
    simp only [Interleaving.producerStep,pc,enqueueStep] at insideAfter ⊢
    exact { mirrors with
      enqueueInside := insideAfter
      producer := by simp only [value,mirrors.capacity,mirrors.cursors.capacity]
      current := after }
  | storeHead how item currentTail nextTail newHead =>
    obtain ⟨time,fresh,after⟩ := current.storeHead newHead
    refine ⟨time,_,by rw [next,MemoryOrders.producerStep,standing,pc]; exact if_pos fresh,
      fun _ => by simp [findsRoom,testedTail,standing,pc],?_⟩
    rw [pc] at insideAfter cursorsAfter
    simp only [Interleaving.producerStep,pc,enqueueStep] at insideAfter cursorsAfter ⊢
    exact { mirrors with
      cursors := cursorsAfter, enqueueInside := insideAfter, producer := rfl, current := after }
  | write how item currentTail nextTail =>
    have at_pc := mirrors.enqueueInside
    rw [pc] at at_pc insideAfter cursorsAfter
    obtain ⟨slot,found,_⟩ := mirrors.slot at_pc.left
    refine ⟨0,_,by rw [next,MemoryOrders.producerStep,standing,pc]; simp only [found]; rfl,
      fun _ => by simp [findsRoom,testedTail,standing,pc],?_⟩
    simp only [Interleaving.producerStep,pc,enqueueStep] at insideAfter cursorsAfter ⊢
    exact { mirrors with
      cursors := cursorsAfter
      enqueueInside := insideAfter
      slots := by rw [List.map_set,mirrors.slots]; rfl
      producer := rfl
      written := by simp only [mirrors.written]
      current := current.access (by decide) (by decide) _ }
  | storeTail left nextTail =>
    obtain ⟨time,fresh,after⟩ := current.storeTail nextTail
    refine ⟨time,_,by rw [next,MemoryOrders.producerStep,standing,pc]; exact if_pos fresh,
      fun _ => by simp [findsRoom,testedTail,standing,pc],?_⟩
    rw [pc] at insideAfter cursorsAfter
    simp only [Interleaving.producerStep,pc,enqueueStep] at insideAfter cursorsAfter ⊢
    exact { mirrors with
      cursors := cursorsAfter, enqueueInside := insideAfter, producer := rfl, current := after }

theorem Mirrors.consumerStep (mirrors : Mirrors size state ordered) (inside : state.consumer ≠ .idle) :
    ∃ choice after, next ordered (.consumer choice) = some after ∧
      Mirrors size (Interleaving.consumerStep state) after := by
  have standing := mirrors.consumer
  have current := mirrors.current.swap
  obtain ⟨cursorsAfter,insideAfter⟩ := Sharing.dequeueStep_inside mirrors.cursors mirrors.dequeueInside
  cases pc : state.consumer with
  | idle => exact absurd pc inside
  | loadHead =>
    obtain ⟨choice,message,read,value,after⟩ := current.loadHead .relaxed
    refine ⟨choice,_,by rw [next,MemoryOrders.consumerStep,standing,pc]; simp only [read]; rfl,?_⟩
    rw [pc] at insideAfter
    simp only [Interleaving.consumerStep,pc,dequeueStep] at insideAfter ⊢
    exact { mirrors with
      dequeueInside := insideAfter, consumer := by simp only [value], current := after.swap }
  | loadTail currentHead =>
    obtain ⟨choice,message,read,value,after⟩ := current.loadTail .acquire
    refine ⟨choice,_,by rw [next,MemoryOrders.consumerStep,standing,pc]; simp only [read]; rfl,?_⟩
    rw [pc] at insideAfter
    by_cases empty : currentHead = state.queue.tail
    · simp only [Interleaving.consumerStep,pc,dequeueStep,if_pos empty] at insideAfter ⊢
      exact { mirrors with
        dequeueInside := insideAfter, consumer := if_pos (empty.trans value.symm),
        current := after.swap }
    · simp only [Interleaving.consumerStep,pc,dequeueStep,if_neg empty] at insideAfter ⊢
      exact { mirrors with
        dequeueInside := insideAfter, consumer := if_neg (fun same => empty (same.trans value)),
        current := after.swap }
  | read currentHead =>
    have at_pc := mirrors.dequeueInside
    rw [pc] at at_pc insideAfter cursorsAfter
    obtain ⟨slot,found,content⟩ := mirrors.slot at_pc
    refine ⟨0,_,by rw [next,MemoryOrders.consumerStep,standing,pc]; simp only [found]; rfl,?_⟩
    simp only [Interleaving.consumerStep,pc,dequeueStep] at insideAfter cursorsAfter ⊢
    exact { mirrors with
      cursors := cursorsAfter
      dequeueInside := insideAfter
      slots := by rw [List.map_set,mirrors.slots,content]; rfl
      consumer := by simp only [content]
      current := (current.access (by decide) (by decide) _).swap }
  | storeHead currentHead item =>
    obtain ⟨time,fresh,after⟩ := current.storeHead ((currentHead + 1) % ordered.bufferCapacity)
    refine ⟨time,_,by rw [next,MemoryOrders.consumerStep,standing,pc]; exact if_pos fresh,?_⟩
    rw [pc] at insideAfter cursorsAfter
    simp only [Interleaving.consumerStep,pc,dequeueStep] at insideAfter cursorsAfter ⊢
    exact { mirrors with
      cursors := cursorsAfter
      dequeueInside := insideAfter
      consumer := rfl
      returned := by simp only [mirrors.returned]
      current := by
        have moved := after.swap
        rw [mirrors.capacity,← mirrors.cursors.capacity] at moved
        simpa only [mirrors.capacity,mirrors.cursors.capacity] using moved }

private theorem mirrors_new (positive : 0 < size) :
    Mirrors size (Interleaving.State.new size : Interleaving.State α) (.new size) where
  cursors := ⟨rfl,List.length_replicate,positive,positive⟩
  enqueueInside := trivial
  dequeueInside := trivial
  capacity := rfl
  slots := List.map_replicate
  producer := rfl
  consumer := rfl
  written := rfl
  returned := rfl
  current := by
    have behind (location : Place) :
        Behind location 0 (fun _ => 0) (fun _ => 0) [⟨0,0,fun _ => 0⟩] [⟨0,0,fun _ => 0⟩] :=
      ⟨Nat.le_refl _,Nat.le_refl _,by simp,by simp⟩
    have newest : Newest [⟨0,0,fun _ => 0⟩] 0 0 := ⟨_,rfl,rfl,rfl,by simp⟩
    exact ⟨⟨0,newest,behind .head⟩,0,newest,behind .tail⟩

private theorem producerStep_fulls (none : (Interleaving.producerStep state).fulls = 0) :
    state.fulls = 0 ∧ ¬ Interleaving.takesFull state .producer := by
  cases pc : state.producer with
  | loadHead how item currentTail nextTail =>
    by_cases full : nextTail = state.queue.head <;>
      simp [Interleaving.producerStep,pc,enqueueStep,full,Interleaving.takesFull,
        Interleaving.testedTail] at none ⊢
    exact none
  | _ =>
    simp only [Interleaving.producerStep,pc,enqueueStep] at none
    exact ⟨none,by simp [Interleaving.takesFull,Interleaving.testedTail,pc]⟩

private theorem consumerStep_fulls (state : Interleaving.State α) :
    (Interleaving.consumerStep state).fulls = state.fulls := by
  cases pc : state.consumer <;> simp [Interleaving.consumerStep,pc]

end Steps

/-- A run in which every access sees the newest store is a run with the memory orders, with the same
threads, slots, cursors and answers, and if no `enqueue` has found the queue full in the one, none
has in the other. -/
theorem sequential_included {size : Nat} (positive : 0 < size) {state : Interleaving.State α}
    (reachable : (Interleaving.spsc size).Reachable Machine.always state) :
    ∃ last : State (Interleaving.Tagged α), (ordered size).Reachable Machine.always last ∧
      Mirrors size state last ∧
      (state.fulls = 0 → (ordered size).Reachable findsRoom last) := by
  refine reachable.simulated (fun state last => Mirrors size state last ∧
    (state.fulls = 0 → (ordered size).Reachable findsRoom last)) ⟨mirrors_new positive,fun _ =>
      .init⟩ ?_
  intro before action after last _ reached related _ taken
  obtain ⟨mirrors,roomy⟩ := related
  have busyProducer (act : action = .producer) : before.producer ≠ .idle := by
    subst act
    intro idle
    simp [Interleaving.spsc,Interleaving.next,idle] at taken
  have busyConsumer (act : action = .consumer) : before.consumer ≠ .idle := by
    subst act
    intro idle
    simp [Interleaving.spsc,Interleaving.next,idle] at taken
  obtain ⟨how,value,rfl,idle,rfl⟩ | ⟨rfl,rfl⟩ | ⟨rfl,idle,rfl⟩ | ⟨rfl,rfl⟩ :=
    Interleaving.next_cases taken
  · have called : (ordered size).next last (.callEnqueue how ⟨before.started,value⟩) = some { last with
        producer := .loadTail how ⟨before.started,value⟩
        begun := last.begun ++ [⟨before.started,value⟩] } := by
      simp only [ordered,next,mirrors.producer,idle]
    exact ⟨_,reached.step trivial called,{ mirrors with enqueueInside := trivial, producer := rfl },
      fun none => (roomy none).step (show findsRoom last (.callEnqueue how _) from trivial) called⟩
  · obtain ⟨choice,stepped,moved,allowed,kept⟩ := mirrors.producerStep (busyProducer rfl)
    have taken : (ordered size).next last (.producer choice) = some stepped := moved
    refine ⟨stepped,reached.step trivial taken,kept,fun none => ?_⟩
    obtain ⟨earlier,free⟩ := producerStep_fulls none
    exact (roomy earlier).step (allowed free) taken
  · have called : (ordered size).next last .callDequeue = some { last with consumer := .loadHead } := by
      simp only [ordered,next,mirrors.consumer,idle]
    exact ⟨_,reached.step trivial called,{ mirrors with dequeueInside := trivial, consumer := rfl },
      fun none => (roomy none).step (show findsRoom last .callDequeue from trivial) called⟩
  · obtain ⟨choice,stepped,moved,kept⟩ := mirrors.consumerStep (busyConsumer rfl)
    have taken : (ordered size).next last (.consumer choice) = some stepped := moved
    refine ⟨stepped,reached.step trivial taken,kept,fun none => ?_⟩
    rw [consumerStep_fulls] at none
    exact (roomy none).step (show findsRoom last (.consumer choice) from trivial) taken

/-- A stale store to `head` that hands out a moved-from item is one the memory orders allow. -/
theorem staleProducerStore_included : ∃ last : State (Interleaving.Tagged Unit),
    (ordered 3).Reachable Machine.always last ∧
    last.returned = [.item ⟨0,()⟩,.item ⟨1,()⟩,.movedFrom ⟨1,()⟩] := by
  obtain ⟨state,ran,returned⟩ : ∃ state,
      (Interleaving.spsc 3).run Machine.always (.new 3) Interleaving.staleProducerStore = some state ∧
      state.returned = [.item ⟨0,()⟩,.item ⟨1,()⟩,.movedFrom ⟨1,()⟩] := ⟨_,rfl,rfl⟩
  obtain ⟨last,reached,mirrors,_⟩ :=
    sequential_included (by decide) (Machine.reachable_of_run .init ran)
  exact ⟨last,reached,mirrors.returned.trans returned⟩

end YoloEngine.MemoryOrders
