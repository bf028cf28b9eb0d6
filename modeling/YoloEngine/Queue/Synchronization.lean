import YoloEngine.Queue.Knowledge

/-! The memory orders suffice. While no `enqueue` finds the queue full, what the producer acquires
with `head` tells it that the slot it is about to write has been emptied, and what the consumer
acquires with `tail` that the slot it is about to read has been written; so no accesses race and
what is returned is what was enqueued, however old the cursors are that the threads read. -/
namespace YoloEngine.MemoryOrders
open Foundation Foundation.Ring Foundation.ReleaseAcquire LockFreeQueue
variable {α : Type}

section Producer
variable {size taken given choice currentTail nextTail : Nat} {state : State α} {how : Overload}
  {item : α} {message : Message Place Nat}

theorem Flow.loadTail (flow : Flow size taken given state) (pc : state.producer = .loadTail how item)
    (read : readable state.tail .tail state.producerView choice = some message) :
    Flow size taken given { state with
      producerView := load .relaxed .tail message state.producerView
      producer := .loadHead how item message.value ((message.value + 1) % state.bufferCapacity) } := by
  obtain ⟨lookup,ready⟩ := readable_iff.mp read
  have last := flow.tails.chronicle.newest flow.tails.length flow.producerLast lookup ready
  subst last
  have value := flow.tails.values _ _ lookup
  have next : (message.value + 1) % state.bufferCapacity = (choice + 1) % size := by
    rw [value,flow.capacity,slot_succ]
  rw [load_known flow.producerLast lookup,next,value]
  have knows := flow.producerKnows
  have published := flow.published
  have begun := flow.begun
  rw [pc] at knows published begun
  exact { flow with producerKnows := knows, published := published, begun := begun, producerAt := ⟨rfl,rfl⟩ }

theorem Flow.loadHead (flow : Flow size taken given state)
    (pc : state.producer = .loadHead how item currentTail nextTail)
    (read : readable state.head .head state.producerView choice = some message)
    (room : nextTail ≠ message.value) :
    Flow size taken given { state with
      producerView := load .acquire .head message state.producerView
      producer := .write how item currentTail nextTail } := by
  obtain ⟨lookup,ready⟩ := readable_iff.mp read
  obtain ⟨seen,known,_,near⟩ := flow.producerKnows
  have at_pc := flow.producerAt
  have published := flow.published
  have begun := flow.begun
  rw [pc] at near at_pc published begun
  obtain ⟨current,next⟩ := at_pc
  have member := List.mem_of_getElem? lookup
  obtain ⟨tail,producer,bounded⟩ : _ ∧ _ ∧
    Bounded (load .acquire .head message state.producerView) _ _ _ :=
    flow.bounded.producerLoads member (flow.heads.time_le flow.consumerLast member)
  have head : load .acquire .head message state.producerView .head = message.time :=
    load_location (flow.heads.own message member)
  have later : seen ≤ choice := by
    obtain ⟨old,found,same⟩ := known
    exact flow.heads.chronicle.index_le found lookup (same ▸ ready)
  have space : given + 1 < choice + size := by
    have value := flow.heads.values _ _ lookup
    have behind := flow.heads.position_le ⟨message,lookup,rfl⟩
    have ahead : taken ≤ given := by
      obtain ⟨_,reach,_,taking⟩ := flow.consumerKnows
      have within := flow.tails.position_le reach
      omega
    have apart : given + 1 ≠ choice + size := by
      intro lap
      apply room
      rw [next,value,lap,Nat.add_mod_right]
    simp only [filling] at near
    omega
  exact { flow with
    producerLast := by simpa only [tail] using flow.producerLast
    producerKnows := ⟨choice,⟨message,lookup,head.symm⟩,
      (flow.heads.counts _ _ lookup).trans (acquired Place.consumer),space⟩
    writes := by simpa only [producer] using flow.writes
    published := published
    bounded := bounded
    producerAt := ⟨current,next⟩
    begun := begun }

/-- What the producer knows of `head` tells it that the slot it writes has been emptied. -/
private theorem Flow.write_inOrder (flow : Flow size taken given state)
    (pc : state.producer = .write how item currentTail nextTail) {slot : Plain Place (Cell α)}
    (found : state.slots[currentTail]? = some slot) :
    inOrder slot state.producerView = true := by
  have at_pc := flow.producerAt
  obtain ⟨seen,_,aware,near⟩ := flow.producerKnows
  have taking := flow.taken_le
  have emptied := emptied_le state.consumer
  have reads := flow.reads
  have writes := flow.writes
  rw [pc] at at_pc near
  simp only [filling] at near
  obtain ⟨rfl,_⟩ := at_pc
  have visited := flow.visited _ _ found
  refine decide_eq_true fun place => ?_
  cases place with
  | head => exact visited.head ▸ Nat.zero_le _
  | tail => exact visited.tail ▸ Nat.zero_le _
  | producer =>
    obtain zero | ⟨j,below,_,last⟩ := visited.producer <;> omega
  | consumer =>
    obtain zero | ⟨j,below,shared,last⟩ := visited.consumer
    · omega
    · have lap : j + size ≤ given := by
        by_contra close
        exact slot_ne (by omega) (by omega) shared
      omega

theorem Flow.write (flow : Flow size taken given state)
    (pc : state.producer = .write how item currentTail nextTail) {slot : Plain Place (Cell α)}
    (found : state.slots[currentTail]? = some slot) :
    Flow size taken given { state with
      slots := state.slots.set currentTail (access .producer (.item item) slot state.producerView).1
      producerView := (access .producer (.item item) slot state.producerView).2
      raced := state.raced || !inOrder slot state.producerView
      written := state.written ++ [item]
      producer := .storeTail (how.left item) nextTail } := by
  have ordered := flow.write_inOrder pc found
  have at_pc := flow.producerAt
  have published := flow.published
  have begun := flow.begun
  have knows := flow.producerKnows
  have room := flow.room
  have taking := flow.taken_le
  have emptied := emptied_le state.consumer
  have reads := flow.reads
  rw [pc] at at_pc published begun knows room
  simp only [filling,unpublished,unwritten,Nat.add_zero] at published begun knows room
  obtain ⟨rfl,next⟩ := at_pc
  obtain ⟨inside,_⟩ := List.getElem?_eq_some_iff.mp found
  exact { flow with
    sized := by simp [flow.sized]
    producerLast := by simpa [access] using flow.producerLast
    producerKnows := by simpa [access,filling] using knows
    writes := by simp [access,flow.writes]
    published := by simp [published,unpublished]
    bounded := flow.bounded.producerGrows (Or.inr rfl) (Nat.le_succ _)
    producerAt := next
    consumerAt := flow.consumerAt.append
    begun := by simpa [unwritten] using begun
    returned := by
      rw [List.take_append_of_le_length (by omega)]
      exact flow.returned
    stored := by
      intro j stored lookup unread
      dsimp only at unread
      by_cases old : j < state.written.length
      · rw [List.getElem?_append_left old] at lookup
        obtain ⟨kept,at_j,content⟩ := flow.stored j stored lookup unread
        have apart : given % size ≠ j % size := (slot_ne (by omega) (by omega)).symm
        exact ⟨kept,by rw [List.getElem?_set_ne apart]; exact at_j,content⟩
      · obtain ⟨within,_⟩ := List.getElem?_eq_some_iff.mp lookup
        rw [List.length_append,List.length_singleton] at within
        obtain rfl : j = given := by omega
        have same : stored = item := by
          rw [← published,List.getElem?_concat_length] at lookup
          exact (Option.some.inj lookup).symm
        exact ⟨_,List.getElem?_set_self inside,by rw [same]; rfl⟩
    visited := by
      intro index visitor lookup
      rw [List.length_append,List.length_singleton]
      by_cases same : given % size = index
      · subst same
        rw [List.getElem?_set_self inside] at lookup
        cases Option.some.inj lookup
        have before := (flow.visited _ _ found).mono (Nat.le_succ _) (Nat.le_refl _)
        exact {
          head := by simpa [access] using before.head
          tail := by simpa [access] using before.tail
          producer := Or.inr ⟨given,by omega,rfl,by simp [access,flow.writes,published]⟩
          consumer := by simpa [access] using before.consumer }
      · rw [List.getElem?_set_ne same] at lookup
        exact (flow.visited _ _ lookup).mono (Nat.le_succ _) (Nat.le_refl _)
    quiet := by simp [flow.quiet,ordered] }

theorem Flow.storeTail (flow : Flow size taken given state) {left : Cell α}
    (pc : state.producer = .storeTail left nextTail)
    (fresh : storable state.tail .tail state.producerView choice) :
    Flow size taken (given + 1) { state with
      tail := state.tail ++ [release .tail choice nextTail state.producerView]
      producerView := (release .tail choice nextTail state.producerView).view
      producer := .idle } := by
  have at_pc := flow.producerAt
  have published := flow.published
  have begun := flow.begun
  obtain ⟨seen,head,aware,near⟩ := flow.producerKnows
  obtain ⟨reached,tail,taught,ahead⟩ := flow.consumerKnows
  have writes := flow.writes
  rw [pc] at at_pc published begun near
  simp only [filling,unpublished,unwritten] at published begun near
  have later := fresh.left
  have bounded := flow.bounded.producerGrows (Or.inl rfl) (Nat.le_of_lt later)
  exact { flow with
    tails := flow.tails.append flow.producerLast later at_pc
      (by simp only [release,ne_eq,reduceCtorEq,not_false_eq_true,Function.update_of_ne]; omega)
        (by simp [release])
    producerLast := by simpa [release] using knows_last flow.tails.length
    producerKnows := ⟨seen,by simpa [release] using head,by simpa [release] using aware,
      by simp only [filling]; omega⟩
    consumerKnows := ⟨reached,knows_append tail,taught,ahead⟩
    writes := by simpa [release] using writes
    published := published
    bounded := { bounded with
      tails := by
        intro message member
        obtain old | last := List.mem_append.mp member
        · exact bounded.tails message old
        · rw [List.mem_singleton.mp last]
          exact bounded.producer }
    producerAt := trivial
    begun := begun }

end Producer

section Consumer
variable {size taken given choice currentHead : Nat} {state : State α} {message : Message Place Nat}

private theorem Flow.consumerLoadHead (flow : Flow size taken given state)
    (pc : state.consumer = .loadHead)
    (read : readable state.head .head state.consumerView choice = some message) :
    Flow size taken given { state with
      consumerView := load .relaxed .head message state.consumerView
      consumer := .loadTail message.value } := by
  obtain ⟨lookup,ready⟩ := readable_iff.mp read
  have last := flow.heads.chronicle.newest flow.heads.length flow.consumerLast lookup ready
  subst last
  rw [load_known flow.consumerLast lookup]
  have knows := flow.consumerKnows
  have reads := flow.reads
  rw [pc] at knows reads
  exact { flow with consumerKnows := knows, reads := reads, consumerAt := flow.heads.values _ _ lookup }

private theorem Flow.consumerLoadTail (flow : Flow size taken given state)
    (pc : state.consumer = .loadTail currentHead)
    (read : readable state.tail .tail state.consumerView choice = some message) :
    Flow size taken given { state with
      consumerView := load .acquire .tail message state.consumerView
      consumer := if currentHead = message.value then .idle else .read currentHead } := by
  obtain ⟨lookup,ready⟩ := readable_iff.mp read
  obtain ⟨seen,⟨old,found,same⟩,_,ahead⟩ := flow.consumerKnows
  have at_pc := flow.consumerAt
  have reads := flow.reads
  rw [pc] at at_pc ahead reads
  simp only [taking,emptied,Nat.add_zero] at ahead reads
  have member := List.mem_of_getElem? lookup
  obtain ⟨head,consumer,bounded⟩ : _ ∧ _ ∧
    Bounded _ (load .acquire .tail message state.consumerView) _ _ :=
    flow.bounded.consumerLoads member (flow.tails.time_le flow.producerLast member)
  have tail : load .acquire .tail message state.consumerView .tail = message.time :=
    load_location (flow.tails.own message member)
  have later : seen ≤ choice := flow.tails.chronicle.index_le found lookup (same ▸ ready)
  have value := flow.tails.values _ _ lookup
  exact { flow with
    consumerLast := by simpa only [head] using flow.consumerLast
    consumerKnows := by
      refine ⟨choice,⟨message,lookup,tail.symm⟩,
        (flow.tails.counts _ _ lookup).trans (acquired Place.producer),?_⟩
      by_cases empty : currentHead = message.value
      · simp only [empty,if_true,taking]
        omega
      · have apart : taken ≠ choice := by
          rintro rfl
          exact empty (at_pc.trans value.symm)
        simp only [empty,if_false,taking]
        omega
    reads := by
      by_cases empty : currentHead = message.value <;>
        simp only [empty,if_true,if_false,emptied,consumer,reads,Nat.add_zero]
    bounded := bounded
    consumerAt := by
      by_cases empty : currentHead = message.value
      · simp only [empty,if_true]
        trivial
      · simp only [empty,if_false]
        exact at_pc
    stored := by simpa only [consumer] using flow.stored
    visited := by simpa only [consumer] using flow.visited }

/-- What the consumer knows of `tail` tells it that the slot it reads has been written. -/
private theorem Flow.read_inOrder (flow : Flow size taken given state)
    (pc : state.consumer = .read currentHead) {slot : Plain Place (Cell α)}
    (found : state.slots[currentHead]? = some slot) :
    inOrder slot state.consumerView = true ∧
      ∃ item, state.written[taken]? = some item ∧ slot.content = .item item := by
  have at_pc := flow.consumerAt
  obtain ⟨seen,knows,aware,ahead⟩ := flow.consumerKnows
  have within := flow.tails.position_le knows
  have room := flow.room
  have published := flow.published
  have unpublished := unpublished_le state.producer
  have reads := flow.reads
  rw [pc] at at_pc ahead reads
  simp only [taking,emptied,Nat.add_zero] at ahead reads
  rw [ConsumerAt] at at_pc
  subst at_pc
  have visited := flow.visited _ _ found
  constructor
  · refine decide_eq_true fun place => ?_
    cases place with
    | head => exact visited.head ▸ Nat.zero_le _
    | tail => exact visited.tail ▸ Nat.zero_le _
    | producer =>
      obtain zero | ⟨j,below,shared,last⟩ := visited.producer
      · omega
      · have notLater : j ≤ taken := by
          by_contra after
          exact slot_ne (by omega) (by omega) shared.symm
        omega
    | consumer =>
      obtain zero | ⟨j,below,_,last⟩ := visited.consumer <;> omega
  · have item := List.getElem?_eq_getElem (show taken < state.written.length by omega)
    obtain ⟨same,at_taken,content⟩ := flow.stored taken _ item (by omega)
    rw [found] at at_taken
    exact ⟨_,item,Option.some.inj at_taken ▸ content⟩

theorem Flow.read (flow : Flow size taken given state) (pc : state.consumer = .read currentHead)
    {slot : Plain Place (Cell α)} (found : state.slots[currentHead]? = some slot) :
    Flow size taken given { state with
      slots := state.slots.set currentHead
        (access .consumer slot.content.moved slot state.consumerView).1
      consumerView := (access .consumer slot.content.moved slot state.consumerView).2
      raced := state.raced || !inOrder slot state.consumerView
      consumer := .storeHead currentHead slot.content } := by
  obtain ⟨ordered,held,item,content⟩ := flow.read_inOrder pc found
  have at_pc := flow.consumerAt
  obtain ⟨seen,knows,aware,ahead⟩ := flow.consumerKnows
  have room := flow.room
  have published := flow.published
  have unpublished := unpublished_le state.producer
  have reads := flow.reads
  rw [pc] at at_pc ahead reads
  simp only [taking,emptied,Nat.add_zero] at ahead reads
  rw [ConsumerAt] at at_pc
  subst at_pc
  obtain ⟨inside,_⟩ := List.getElem?_eq_some_iff.mp found
  exact { flow with
    sized := by simp [flow.sized]
    consumerLast := by simpa [access] using flow.consumerLast
    consumerKnows := ⟨seen,by simpa [access] using knows,by simpa [access] using aware,ahead⟩
    reads := by simp [access,reads,emptied]
    bounded := flow.bounded.consumerGrows (Or.inr rfl) (Nat.le_succ _)
    consumerAt := ⟨rfl,held,item,content⟩
    stored := by
      intro j stored lookup unread
      simp only [access,Function.update_self] at unread
      obtain ⟨kept,at_j,same⟩ := flow.stored j stored lookup (by omega)
      have within : j < state.written.length := (List.getElem?_eq_some_iff.mp lookup).1
      have apart : taken % size ≠ j % size := slot_ne (by omega) (by omega)
      exact ⟨kept,by rw [List.getElem?_set_ne apart]; exact at_j,same⟩
    visited := by
      intro index visitor lookup
      have grown : state.consumerView .consumer ≤
          (access .consumer slot.content.moved slot state.consumerView).2 .consumer := by
        simp [access]
      by_cases same : taken % size = index
      · subst same
        rw [List.getElem?_set_self inside] at lookup
        cases Option.some.inj lookup
        have before := (flow.visited _ _ found).mono (Nat.le_refl _) grown
        exact {
          head := by simpa [access] using before.head
          tail := by simpa [access] using before.tail
          producer := by simpa [access] using before.producer
          consumer := Or.inr ⟨taken,by simp only [access,Function.update_self]; omega,rfl,
            by simp [access,reads]⟩ }
      · rw [List.getElem?_set_ne same] at lookup
        exact (flow.visited _ _ lookup).mono (Nat.le_refl _) grown
    quiet := by simp [flow.quiet,ordered] }

theorem Flow.storeHead (flow : Flow size taken given state) {item : Cell α}
    (pc : state.consumer = .storeHead currentHead item)
    (fresh : storable state.head .head state.consumerView choice) :
    Flow size (taken + 1) given { state with
      head := state.head ++ [release .head choice
        ((currentHead + 1) % state.bufferCapacity) state.consumerView]
      consumerView := (release .head choice
        ((currentHead + 1) % state.bufferCapacity) state.consumerView).view
      returned := state.returned ++ [item]
      consumer := .idle } := by
  have at_pc := flow.consumerAt
  obtain ⟨seen,head,aware,near⟩ := flow.producerKnows
  obtain ⟨reached,tail,taught,ahead⟩ := flow.consumerKnows
  have reads := flow.reads
  rw [pc] at at_pc ahead reads
  simp only [taking,emptied] at ahead reads
  obtain ⟨rfl,held,lookup,rfl⟩ := at_pc
  have later := fresh.left
  have bounded := flow.bounded.consumerGrows (Or.inl rfl) (Nat.le_of_lt later)
  exact { flow with
    heads := flow.heads.append flow.consumerLast later (by rw [release,flow.capacity,slot_succ])
      (by simp only [release,ne_eq,reduceCtorEq,not_false_eq_true,Function.update_of_ne]; omega)
        (by simp [release])
    consumerLast := by simpa [release] using knows_last flow.heads.length
    producerKnows := ⟨seen,knows_append head,aware,near⟩
    consumerKnows := ⟨reached,by simpa [release] using tail,by simpa [release] using taught,ahead⟩
    reads := by simpa [release,emptied] using reads
    bounded := { bounded with
      heads := by
        intro message member
        obtain old | last := List.mem_append.mp member
        · exact bounded.heads message old
        · rw [List.mem_singleton.mp last]
          exact bounded.consumer }
    consumerAt := trivial
    returned := by rw [flow.returned,List.take_add_one,lookup,List.map_append]; rfl
    stored := by simpa [release] using flow.stored
    visited := by simpa [release] using flow.visited }

end Consumer

section Runs
variable {size taken given choice : Nat} {state after : State α}

theorem Flow.producerStep (flow : Flow size taken given state)
    (room : findsRoom state (.producer choice))
    (stepped : producerStep state choice = some after) : ∃ more, Flow size taken more after := by
  have at_pc := flow.producerAt
  unfold MemoryOrders.producerStep at stepped
  split at stepped
  next => contradiction
  next pc =>
    obtain ⟨message,read,rest⟩ := Option.bind_eq_some_iff.mp stepped
    cases Option.some.inj rest
    exact ⟨given,flow.loadTail pc read⟩
  next nextTail pc =>
    obtain ⟨message,read,rest⟩ := Option.bind_eq_some_iff.mp stepped
    have apart : nextTail ≠ message.value :=
      room nextTail (by simp [testedTail,pc]) message (readable_iff.mp read).left
    rw [if_neg apart] at rest
    cases Option.some.inj rest
    exact ⟨given,flow.loadHead pc read apart⟩
  next pc =>
    rw [pc] at at_pc
    exact at_pc.elim
  next pc =>
    rw [pc] at at_pc
    exact at_pc.elim
  next pc =>
    obtain ⟨slot,found,rest⟩ := Option.bind_eq_some_iff.mp stepped
    cases Option.some.inj rest
    exact ⟨given,flow.write pc found⟩
  next pc =>
    split at stepped
    next fresh =>
      cases Option.some.inj stepped
      exact ⟨given + 1,flow.storeTail pc fresh⟩
    next => contradiction

theorem Flow.consumerStep (flow : Flow size taken given state)
    (stepped : consumerStep state choice = some after) :
    ∃ more, Flow size more given after := by
  unfold MemoryOrders.consumerStep at stepped
  split at stepped
  next => contradiction
  next pc =>
    obtain ⟨message,read,rest⟩ := Option.bind_eq_some_iff.mp stepped
    cases Option.some.inj rest
    exact ⟨taken,flow.consumerLoadHead pc read⟩
  next pc =>
    obtain ⟨message,read,rest⟩ := Option.bind_eq_some_iff.mp stepped
    cases Option.some.inj rest
    exact ⟨taken,flow.consumerLoadTail pc read⟩
  next pc =>
    obtain ⟨slot,found,rest⟩ := Option.bind_eq_some_iff.mp stepped
    cases Option.some.inj rest
    exact ⟨taken,flow.read pc found⟩
  next pc =>
    split at stepped
    next fresh =>
      cases Option.some.inj stepped
      exact ⟨taken + 1,flow.storeHead pc fresh⟩
    next => contradiction

theorem flow_reachable (large : 2 ≤ size) (reachable : (ordered size).Reachable findsRoom state) :
    ∃ taken given, Flow size taken given state := by
  apply reachable.invariant (fun state => ∃ taken given, Flow size taken given state)
  · exact ⟨0,0,flow_new large⟩
  · intro before action after known allowed stepped
    obtain ⟨taken,given,flow⟩ := known
    cases action with
    | callEnqueue how value =>
      simp only [ordered,next] at stepped
      split at stepped
      next pc =>
        cases Option.some.inj stepped
        have knows := flow.producerKnows
        have published := flow.published
        have begun := flow.begun
        rw [pc] at knows published begun
        exact ⟨taken,given,{ flow with
          producerKnows := knows, published := published, producerAt := trivial,
          begun := by simp [begun,unwritten] }⟩
      next => contradiction
    | callDequeue =>
      simp only [ordered,next] at stepped
      split at stepped
      next pc =>
        cases Option.some.inj stepped
        have knows := flow.consumerKnows
        have reads := flow.reads
        rw [pc] at knows reads
        exact ⟨taken,given,{ flow with consumerKnows := knows, reads := reads, consumerAt := trivial }⟩
      next => contradiction
    | producer choice =>
      obtain ⟨more,later⟩ := flow.producerStep allowed stepped
      exact ⟨taken,more,later⟩
    | consumer choice =>
      obtain ⟨more,later⟩ := flow.consumerStep stepped
      exact ⟨more,given,later⟩

/-- A store that a thread knows of, or a newer one, can always be read. -/
private theorem knows_readable {position newest : Nat} {location : Place}
    {messages : List (Message Place Nat)} {view : View Place}
    (knows : Knows messages position newest) (behind : view location ≤ newest) :
    ∃ message, readable messages location view position = some message := by
  obtain ⟨message,lookup,rfl⟩ := knows
  exact ⟨message,readable_iff.mpr ⟨lookup,behind⟩⟩

theorem Numbered.storable {count : Nat} {location thread : Place}
    {messages : List (Message Place Nat)} {view : View Place}
    (numbered : Numbered size count location thread messages)
    (knows : Knows messages count (view location)) :
    storable messages location view (view location + 1) := by
  refine ⟨Nat.lt_succ_self _,fun message member => ?_⟩
  have before := numbered.time_le knows member
  omega

theorem Flow.producer_ready (flow : Flow size taken given state) (positive : 0 < size)
    (inside : state.producer ≠ .idle) :
    ∃ choice after, next state (.producer choice) = some after := by
  have at_pc := flow.producerAt
  cases pc : state.producer with
  | idle => exact absurd pc inside
  | loadTail how item =>
    obtain ⟨message,read⟩ := knows_readable flow.producerLast (Nat.le_refl _)
    exact ⟨given,_,by rw [next,MemoryOrders.producerStep,pc]; simp only [read]; rfl⟩
  | loadHead how item currentTail nextTail =>
    obtain ⟨message,read⟩ := knows_readable flow.consumerLast (flow.bounded.producer .head)
    exact ⟨taken,_,by rw [next,MemoryOrders.producerStep,pc]; simp only [read]; rfl⟩
  | reloadHead how item currentTail nextTail =>
    rw [pc] at at_pc
    exact at_pc.elim
  | storeHead how item currentTail nextTail newHead =>
    rw [pc] at at_pc
    exact at_pc.elim
  | write how item currentTail nextTail =>
    rw [pc] at at_pc
    have inside : currentTail < state.slots.length := by
      rw [at_pc.left,flow.sized]
      exact Nat.mod_lt _ positive
    exact ⟨0,_,by rw [next,MemoryOrders.producerStep,pc]; simp only [List.getElem?_eq_getElem inside]; rfl⟩
  | storeTail left nextTail =>
    exact ⟨_,_,by
      rw [next,MemoryOrders.producerStep,pc]
      exact if_pos (flow.tails.storable flow.producerLast)⟩

theorem Flow.consumer_ready (flow : Flow size taken given state) (positive : 0 < size)
    (inside : state.consumer ≠ .idle) :
    ∃ choice after, next state (.consumer choice) = some after := by
  have at_pc := flow.consumerAt
  cases pc : state.consumer with
  | idle => exact absurd pc inside
  | loadHead =>
    obtain ⟨message,read⟩ := knows_readable flow.consumerLast (Nat.le_refl _)
    exact ⟨taken,_,by rw [next,MemoryOrders.consumerStep,pc]; simp only [read]; rfl⟩
  | loadTail currentHead =>
    obtain ⟨message,read⟩ := knows_readable flow.producerLast (flow.bounded.consumer .tail)
    exact ⟨given,_,by rw [next,MemoryOrders.consumerStep,pc]; simp only [read]; rfl⟩
  | read currentHead =>
    rw [pc,ConsumerAt] at at_pc
    have inside : currentHead < state.slots.length := by
      rw [at_pc,flow.sized]
      exact Nat.mod_lt _ positive
    exact ⟨0,_,by rw [next,MemoryOrders.consumerStep,pc]; simp only [List.getElem?_eq_getElem inside]; rfl⟩
  | storeHead currentHead item =>
    exact ⟨_,_,by
      rw [next,MemoryOrders.consumerStep,pc]
      exact if_pos (flow.heads.storable flow.consumerLast)⟩

/-- The memory orders suffice. As long as no `enqueue` finds the queue full by the `head` it loads,
whatever stores the loads read and however the threads are scheduled, no two accesses to a slot
race, the dequeues return the first values enqueued, in order, each once and never a moved-from one,
at most `size - 1` items lie in the queue, and a thread inside a call can always go on. -/
theorem orders_suffice (large : 2 ≤ size) (reachable : (ordered size).Reachable findsRoom state) :
    state.raced = false ∧
      state.returned = (state.begun.take state.returned.length).map .item ∧
      state.head.length = state.returned.length + 1 ∧ state.tail.length < state.head.length + size ∧
      (state.producer ≠ .idle → ∃ choice after, next state (.producer choice) = some after) ∧
      (state.consumer ≠ .idle → ∃ choice after, next state (.consumer choice) = some after) := by
  obtain ⟨taken,given,flow⟩ := flow_reachable large reachable
  have few := flow.taken_le
  have published := flow.published
  have heads := flow.heads.length
  have tails := flow.tails.length
  have room := flow.room
  have count : state.returned.length = taken := by
    rw [flow.returned,List.length_map,List.length_take]
    omega
  refine ⟨flow.quiet,?_,by omega,by omega,flow.producer_ready (by omega),flow.consumer_ready (by omega)⟩
  rw [count,flow.begun,List.take_append_of_le_length (by omega)]
  exact flow.returned

/-- The first dequeue reads a `tail` that has been overwritten and finds nothing; the next one reads
a `tail` that is not the newest either and finds the first item, and the producer learns of its slot
before it comes round to it. -/
def staleLoads : List (Action Nat) :=
  [.callEnqueue .move 7,.producer 0,.producer 0,.producer 0,.producer 5,.callDequeue,.consumer 0,
    .consumer 0,.callEnqueue .copy 8,.producer 1,.producer 0,.producer 0,.producer 9,
    .callDequeue,.consumer 0,.consumer 1,.consumer 0,.consumer 4,
    .callEnqueue .move 9,.producer 2,.producer 1,.producer 0,.producer 10,.callEnqueue .move 10,
    .callDequeue,.consumer 1,.consumer 2,.consumer 0,.consumer 6,.producer 3,.producer 2,.producer 0]

theorem staleLoads_suffice : ∃ state :
    State Nat, (ordered 3).run findsRoom (.new 3) staleLoads = some state ∧
    state.written = [7,8,9,10] ∧ state.raced = false ∧ state.returned = [.item 7,.item 8] := by
  have shown : ((ordered 3).run findsRoom (.new 3) staleLoads).map
      (fun state => (state.written,state.begun,state.returned.length)) =
        some ([7,8,9,10],[7,8,9,10],2) := by
    decide +kernel
  obtain ⟨state,ran,same⟩ := Option.map_eq_some_iff.mp shown
  simp only [Prod.mk.injEq] at same
  obtain ⟨written,begun,count⟩ := same
  obtain ⟨quiet,returned,_⟩ := orders_suffice (by decide) (Machine.reachable_of_run .init ran)
  rw [begun,count] at returned
  exact ⟨state,ran,written,quiet,returned⟩

/-- An `enqueue` that finds the queue full comes round to a slot that a dequeue is about to read,
and the two race. -/
def lapped : List (Action Nat) :=
  [.callEnqueue .move 7,.producer 0,.producer 0,.producer 0,.producer 1,.callDequeue,.consumer 0,
    .consumer 1,
    .callEnqueue .move 8,.producer 1,.producer 0,.producer 0,.producer 1,.producer 0,.producer 2,
    .callEnqueue .move 9,.producer 2,.producer 1,.producer 1,.producer 2,.producer 0,.consumer 0]

example : ((ordered 2).run Machine.always (.new 2) lapped).map State.raced = some true := by
  decide +kernel

end Runs

end YoloEngine.MemoryOrders
