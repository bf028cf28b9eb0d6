import YoloEngine.Queue.MemoryOrders

/-! What the two threads know of each other. Each cursor is stored by one thread, so that its
stores are numbered; the k-th of them comes after k accesses of that thread to slots. Knowing of a
store to the other's cursor therefore is knowing of that many accesses, and no thread knows more of
the other than the other itself. -/
namespace YoloEngine.MemoryOrders
open Foundation Foundation.Ring Foundation.ReleaseAcquire LockFreeQueue
variable {α : Type}

/-- The stores of one thread to a cursor: the k-th names the k-th slot and comes after k accesses of
the thread. -/
structure Numbered (size count : Nat) (location thread : Place)
    (messages : List (Message Place Nat)) : Prop where
  length : messages.length = count + 1
  chronicle : Chronicle messages
  values : ∀ (k : Nat) message, messages[k]? = some message → message.value = k % size
  counts : ∀ (k : Nat) message, messages[k]? = some message → k ≤ message.view thread
  own : ∀ message ∈ messages, message.view location ≤ message.time

section Cursors
variable {size count position newest : Nat} {location thread : Place}
  {messages : List (Message Place Nat)} {message : Message Place Nat}

private theorem numbered_new : Numbered size 0 location thread [⟨0,0,fun _ => 0⟩] :=
  ⟨rfl,List.pairwise_singleton _ _,by simp [List.getElem?_singleton],
    by simp [List.getElem?_singleton],by simp⟩

theorem Numbered.position_le (numbered : Numbered size count location thread messages)
    (knows : Knows messages position newest) : position ≤ count := by
  obtain ⟨message,lookup,_⟩ := knows
  obtain ⟨inside,_⟩ := List.getElem?_eq_some_iff.mp lookup
  have length := numbered.length
  omega

theorem Numbered.time_le (numbered : Numbered size count location thread messages)
    (knows : Knows messages count newest)
    (member : message ∈ messages) : message.time ≤ newest := by
  obtain ⟨last,lookup,rfl⟩ := knows
  obtain ⟨index,inside,rfl⟩ := List.getElem_of_mem member
  by_contra later
  have before := numbered.chronicle.index_le lookup (List.getElem?_eq_getElem inside) (by omega)
  have length := numbered.length
  obtain rfl : index = count := by omega
  simp only [List.getElem?_eq_getElem inside,Option.some.injEq] at lookup
  rw [lookup] at later
  omega

theorem Numbered.append (numbered : Numbered size count location thread messages)
    (knows : Knows messages count newest) (later : newest < message.time)
    (value : message.value = (count + 1) % size) (counted : count + 1 ≤ message.view thread)
    (own : message.view location ≤ message.time) :
    Numbered size (count + 1) location thread (messages ++ [message]) := by
  have length := numbered.length
  have lookup (k : Nat) (found : Message Place Nat) (at_k : (messages ++ [message])[k]? = some found) :
      messages[k]? = some found ∨ k = count + 1 ∧ found = message := by
    by_cases inside : k < messages.length
    · rw [List.getElem?_append_left inside] at at_k
      exact Or.inl at_k
    · rw [List.getElem?_append_right (by omega)] at at_k
      obtain ⟨zero,same⟩ := List.getElem?_eq_some_iff.mp at_k
      rw [List.length_singleton] at zero
      exact Or.inr ⟨by omega,by simpa using same.symm⟩
  refine ⟨by simp [length],numbered.chronicle.append length knows later,fun k found at_k =>
    ?_,fun k found at_k => ?_,fun found member => ?_⟩
  · obtain before | ⟨rfl,rfl⟩ := lookup k found at_k
    · exact numbered.values k found before
    · exact value
  · obtain before | ⟨rfl,rfl⟩ := lookup k found at_k
    · exact numbered.counts k found before
    · exact counted
  · obtain before | single := List.mem_append.mp member
    · exact numbered.own found before
    · rw [List.mem_singleton.mp single]
      exact own

theorem knows_append (knows : Knows messages position newest) :
    Knows (messages ++ [message]) position newest := by
  obtain ⟨known,lookup,same⟩ := knows
  exact ⟨known,(List.getElem?_append_left (List.getElem?_eq_some_iff.mp lookup).1).trans lookup,same⟩

theorem knows_last (length : messages.length = count) :
    Knows (messages ++ [message]) count message.time :=
  ⟨message,by rw [← length,List.getElem?_concat_length],rfl⟩

theorem load_known {view : View Place} (knows : Knows messages position (view location))
    (lookup : messages[position]? = some message) : load .relaxed location message view = view := by
  obtain ⟨known,found,time⟩ := knows
  rw [found] at lookup
  rw [load,← Option.some.inj lookup,time,Function.update_eq_self]

end Cursors

/-- What anyone can know at most: of a cursor and of a thread, what their own thread knows. -/
def frontier (producerView consumerView : View Place) : View Place
  | .head => consumerView .head
  | .tail => producerView .tail
  | .producer => producerView .producer
  | .consumer => consumerView .consumer

structure Bounded (producerView consumerView : View Place)
    (head tail : List (Message Place Nat)) : Prop where
  producer : producerView ≤ frontier producerView consumerView
  consumer : consumerView ≤ frontier producerView consumerView
  heads : ∀ message ∈ head, message.view ≤ frontier producerView consumerView
  tails : ∀ message ∈ tail, message.view ≤ frontier producerView consumerView

section Knowledge
variable {producerView consumerView : View Place} {head tail : List (Message Place Nat)}
  {message : Message Place Nat} {order : LoadOrder} {time : Nat}

private theorem frontier_mono {producerLater consumerLater : View Place}
    (producer : producerView ≤ producerLater) (consumer : consumerView ≤ consumerLater) :
    frontier producerView consumerView ≤ frontier producerLater consumerLater := by
  intro place
  cases place with
  | head => exact consumer .head
  | tail => exact producer .tail
  | producer => exact producer .producer
  | consumer => exact consumer .consumer

/-- A thread that grows in a place of its own knows no more of the other, and the others no more
than it. -/
theorem Bounded.producerGrows (bounded : Bounded producerView consumerView head tail) {place : Place}
    (own : place = .tail ∨ place = .producer) (later : producerView place ≤ time) :
    Bounded (Function.update producerView place time) consumerView head tail := by
  have grown : producerView ≤ Function.update producerView place time := le_update_self_iff.mpr later
  have higher := frontier_mono grown (le_refl consumerView)
  refine ⟨update_le_iff.mpr ⟨?_,fun other _ => (bounded.producer other).trans (higher other)⟩,
    bounded.consumer.trans higher,
    fun message member => (bounded.heads message member).trans higher,
    fun message member => (bounded.tails message member).trans higher⟩
  obtain rfl | rfl := own <;> simp [frontier]

theorem Bounded.consumerGrows (bounded : Bounded producerView consumerView head tail) {place : Place}
    (own : place = .head ∨ place = .consumer) (later : consumerView place ≤ time) :
    Bounded producerView (Function.update consumerView place time) head tail := by
  have grown : consumerView ≤ Function.update consumerView place time := le_update_self_iff.mpr later
  have higher := frontier_mono (le_refl producerView) grown
  refine ⟨bounded.producer.trans higher,
    update_le_iff.mpr ⟨?_,fun other _ => (bounded.consumer other).trans (higher other)⟩,
    fun message member => (bounded.heads message member).trans higher,
    fun message member => (bounded.tails message member).trans higher⟩
  obtain rfl | rfl := own <;> simp [frontier]

/-- A load tells a thread nothing new of its own places. -/
theorem Bounded.producerLoads (bounded : Bounded producerView consumerView head tail)
    (member : message ∈ head) (newest : message.time ≤ consumerView .head) :
    load order .head message producerView .tail = producerView .tail ∧
      load order .head message producerView .producer = producerView .producer ∧
      Bounded (load order .head message producerView) consumerView head tail := by
  have carried := bounded.heads message member
  have tailSame : load order .head message producerView .tail = producerView .tail :=
    load_other (by decide) (carried .tail)
  have producerSame : load order .head message producerView .producer = producerView .producer :=
    load_other (by decide) (carried .producer)
  have same : frontier (load order .head message producerView) consumerView =
    frontier producerView consumerView := by
    funext place
    cases place <;> simp [frontier,tailSame,producerSame]
  have stays : load order .head message producerView ≤ frontier producerView consumerView :=
    load_le bounded.producer carried newest
  exact ⟨tailSame,producerSame,same.symm ▸ stays,same.symm ▸ bounded.consumer,same.symm ▸ bounded.heads,
    same.symm ▸ bounded.tails⟩

theorem Bounded.consumerLoads (bounded : Bounded producerView consumerView head tail)
    (member : message ∈ tail) (newest : message.time ≤ producerView .tail) :
    load order .tail message consumerView .head = consumerView .head ∧
      load order .tail message consumerView .consumer = consumerView .consumer ∧
      Bounded producerView (load order .tail message consumerView) head tail := by
  have carried := bounded.tails message member
  have headSame : load order .tail message consumerView .head = consumerView .head :=
    load_other (by decide) (carried .head)
  have consumerSame : load order .tail message consumerView .consumer = consumerView .consumer :=
    load_other (by decide) (carried .consumer)
  have same : frontier producerView (load order .tail message consumerView) =
    frontier producerView consumerView := by
    funext place
    cases place <;> simp [frontier,headSame,consumerSame]
  have stays : load order .tail message consumerView ≤ frontier producerView consumerView :=
    load_le bounded.consumer carried newest
  exact ⟨headSame,consumerSame,same.symm ▸ bounded.producer,same.symm ▸ stays,same.symm ▸ bounded.heads,
    same.symm ▸ bounded.tails⟩

end Knowledge

/-- Items an `enqueue` is about to add to those published. -/
def filling : EnqueuePc α → Nat
  | .write _ _ _ _ => 1
  | .storeTail _ _ => 1
  | _ => 0

def unpublished : EnqueuePc α → Nat
  | .storeTail _ _ => 1
  | _ => 0

def unwritten : EnqueuePc α → List α
  | .idle => []
  | .loadTail _ item => [item]
  | .loadHead _ item _ _ => [item]
  | .reloadHead _ item _ _ => [item]
  | .storeHead _ item _ _ _ => [item]
  | .write _ item _ _ => [item]
  | .storeTail _ _ => []

/-- Items a `dequeue` is about to take off. -/
def taking : DequeuePc α → Nat
  | .read _ => 1
  | .storeHead _ _ => 1
  | _ => 0

def emptied : DequeuePc α → Nat
  | .storeHead _ _ => 1
  | _ => 0

def ProducerAt (size given : Nat) : EnqueuePc α → Prop
  | .idle => True
  | .loadTail _ _ => True
  | .loadHead _ _ currentTail nextTail => currentTail = given % size ∧ nextTail = (given + 1) % size
  | .reloadHead _ _ _ _ => False
  | .storeHead _ _ _ _ _ => False
  | .write _ _ currentTail nextTail => currentTail = given % size ∧ nextTail = (given + 1) % size
  | .storeTail _ nextTail => nextTail = (given + 1) % size

def ConsumerAt (size taken : Nat) (written : List α) : DequeuePc α → Prop
  | .idle => True
  | .loadHead => True
  | .loadTail currentHead => currentHead = taken % size
  | .read currentHead => currentHead = taken % size
  | .storeHead currentHead cell =>
    currentHead = taken % size ∧ ∃ item, written[taken]? = some item ∧ cell = .item item

/-- Who has accessed a slot last: the writes of the items that share it, and their reads. -/
structure Visited (size writes reads index : Nat) (accessed : View Place) : Prop where
  head : accessed .head = 0
  tail : accessed .tail = 0
  producer : accessed .producer = 0 ∨ ∃ j < writes, j % size = index ∧ accessed .producer = j + 1
  consumer : accessed .consumer = 0 ∨ ∃ j < reads, j % size = index ∧ accessed .consumer = j + 1

/-- `given` items are published and `taken` of them taken off. What the producer knows of `head`
leaves room for its next item, and what the consumer knows of `tail` is not behind what it has
taken. -/
structure Flow (size taken given : Nat) (state : State α) : Prop where
  capacity : state.bufferCapacity = size
  sized : state.slots.length = size
  heads : Numbered size taken .head .consumer state.head
  tails : Numbered size given .tail .producer state.tail
  producerLast : Knows state.tail given (state.producerView .tail)
  consumerLast : Knows state.head taken (state.consumerView .head)
  producerKnows : ∃ seen, Knows state.head seen (state.producerView .head) ∧
    seen ≤ state.producerView .consumer ∧
    given + filling state.producer < seen + size
  consumerKnows : ∃ seen, Knows state.tail seen (state.consumerView .tail) ∧
    seen ≤ state.consumerView .producer ∧
    taken + taking state.consumer ≤ seen
  writes : state.producerView .producer = state.written.length
  reads : state.consumerView .consumer = taken + emptied state.consumer
  published : state.written.length = given + unpublished state.producer
  bounded : Bounded state.producerView state.consumerView state.head state.tail
  producerAt : ProducerAt size given state.producer
  consumerAt : ConsumerAt size taken state.written state.consumer
  begun : state.begun = state.written ++ unwritten state.producer
  returned : state.returned = (state.written.take taken).map .item
  stored : ∀ (j : Nat) item, state.written[j]? = some item → state.consumerView .consumer ≤ j →
    ∃ slot, state.slots[j % size]? = some slot ∧ slot.content = .item item
  visited : ∀ (index : Nat) slot, state.slots[index]? = some slot →
    Visited size state.written.length (state.consumerView .consumer) index slot.accessed
  quiet : state.raced = false

theorem flow_new {size : Nat} (large : 2 ≤ size) : Flow size 0 0 (State.new size : State α) where
  capacity := rfl
  sized := List.length_replicate
  heads := numbered_new
  tails := numbered_new
  producerLast := ⟨_,rfl,rfl⟩
  consumerLast := ⟨_,rfl,rfl⟩
  producerKnows := ⟨0,⟨_,rfl,rfl⟩,Nat.le_refl _,by simp [State.new,filling]; omega⟩
  consumerKnows := ⟨0,⟨_,rfl,rfl⟩,Nat.le_refl _,by simp [State.new,taking]⟩
  writes := rfl
  reads := rfl
  published := rfl
  bounded := ⟨fun _ => Nat.zero_le _,fun _ => Nat.zero_le _,by simp [State.new,Pi.le_def],
    by simp [State.new,Pi.le_def]⟩
  producerAt := trivial
  consumerAt := trivial
  begun := rfl
  returned := rfl
  stored := by simp [State.new]
  visited := by
    intro index slot lookup
    obtain ⟨_,rfl⟩ := List.getElem?_eq_some_iff.mp lookup
    simp only [State.new,List.getElem_replicate]
    exact ⟨rfl,rfl,Or.inl rfl,Or.inl rfl⟩
  quiet := rfl

section Facts
variable {size taken given : Nat} {state : State α}

theorem Flow.taken_le (flow : Flow size taken given state) : taken + taking state.consumer ≤ given := by
  obtain ⟨seen,knows,_,near⟩ := flow.consumerKnows
  have within := flow.tails.position_le knows
  omega

theorem Flow.room (flow : Flow size taken given state) :
    given + filling state.producer < taken + size := by
  obtain ⟨seen,knows,_,near⟩ := flow.producerKnows
  have within := flow.heads.position_le knows
  omega

theorem unpublished_le (pc : EnqueuePc α) : unpublished pc ≤ filling pc := by
  cases pc <;> simp [unpublished,filling]

theorem emptied_le (pc : DequeuePc α) : emptied pc ≤ taking pc := by
  cases pc <;> simp [emptied,taking]

theorem Visited.mono {writes reads more later index : Nat} {accessed : View Place}
    (visited : Visited size writes reads index accessed) (grown : writes ≤ more)
    (further : reads ≤ later) :
    Visited size more later index accessed where
  head := visited.head
  tail := visited.tail
  producer := visited.producer.imp_right fun ⟨j,below,rest⟩ => ⟨j,Nat.lt_of_lt_of_le below grown,rest⟩
  consumer := visited.consumer.imp_right fun ⟨j,below,rest⟩ => ⟨j,Nat.lt_of_lt_of_le below further,rest⟩

theorem ConsumerAt.append {written : List α} {item : α} {pc : DequeuePc α}
    (at_pc : ConsumerAt size taken written pc) :
    ConsumerAt size taken (written ++ [item]) pc := by
  cases pc with
  | storeHead currentHead cell =>
    obtain ⟨same,held,lookup,rfl⟩ := at_pc
    exact ⟨same,held,(List.getElem?_append_left
      (List.getElem?_eq_some_iff.mp lookup).1).trans lookup,rfl⟩
  | _ => exact at_pc

end Facts

end YoloEngine.MemoryOrders
