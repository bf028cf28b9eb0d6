import YoloEngine.Queue.Delivery
import YoloEngine.Queue.Staleness

/-! What dequeues answer in terms of the values that were passed to `enqueue`. In any run an
answer is one of them or what is left of it; where stores to `head` take off one item at most
the answers are some of them in order; where no enqueue finds the queue full, the first of them. -/
namespace YoloEngine.Interleaving
open Foundation LockFreeQueue
variable {α : Type}

/-- The item of an enqueue that has yet to write it. -/
def unwritten : EnqueuePc (Tagged α) → List (Tagged α)
  | .idle => []
  | .loadTail _ item => [item]
  | .loadHead _ item _ _ => [item]
  | .reloadHead _ item _ _ => [item]
  | .storeHead _ item _ _ _ => [item]
  | .write _ item _ _ => [item]
  | .storeTail _ _ => []

/-- The values of all enqueues begun so far. -/
def begun (state : State α) : List α := (state.written ++ unwritten state.producer).map Tagged.value

def untagged : Cell (Tagged α) → Cell α
  | .unwritten => .unwritten
  | .item item => .item item.value
  | .movedFrom item => .movedFrom item.value

def answers (state : State α) : List (Cell α) := state.returned.map untagged

def passedOn : Action α → List α
  | .callEnqueue _ value => [value]
  | _ => []

/-- The cell that a step hands to the caller of `dequeue`. -/
def handedOut (state : State α) : Action α → List (Cell (Tagged α))
  | .consumer => pendingRead state.consumer
  | _ => []

section Steps
variable {state after : State α} {action : Action α}

theorem producerStep_returned (state : State α) : (producerStep state).returned = state.returned := by
  cases pc : state.producer with
  | loadHead how item currentTail nextTail =>
    by_cases full : nextTail = state.queue.head <;> simp [producerStep,pc,enqueueStep,full]
  | _ => simp [producerStep,pc,enqueueStep]

private theorem producerStep_begun (state : State α) : begun (producerStep state) = begun state := by
  cases pc : state.producer with
  | loadHead how item currentTail nextTail =>
    by_cases full : nextTail = state.queue.head <;>
      simp [begun,producerStep,pc,enqueueStep,full,unwritten]
  | _ => simp [begun,producerStep,pc,enqueueStep,unwritten]

theorem consumerStep_kept (state : State α) : (consumerStep state).producer = state.producer ∧
    (consumerStep state).written = state.written ∧ (consumerStep state).enqueued = state.enqueued := by
  cases pc : state.consumer <;> simp [consumerStep,pc]

private theorem consumerStep_returned (state : State α) :
    (consumerStep state).returned = state.returned ++ pendingRead state.consumer := by
  cases pc : state.consumer <;> simp [consumerStep,pc,pendingRead]

theorem next_begun (taken : next state action = some after) :
    begun after = begun state ++ passedOn action := by
  obtain ⟨how,value,rfl,idle,rfl⟩ | ⟨rfl,rfl⟩ | ⟨rfl,idle,rfl⟩ | ⟨rfl,rfl⟩ := next_cases taken
  · simp [begun,idle,unwritten,passedOn]
  · rw [producerStep_begun]
    simp [passedOn]
  · simp [begun,passedOn]
  · obtain ⟨producer,written,_⟩ := consumerStep_kept state
    simp [begun,producer,written,passedOn]

theorem next_answers (taken : next state action = some after) :
    answers after = answers state ++ (handedOut state action).map untagged := by
  obtain ⟨how,value,rfl,idle,rfl⟩ | ⟨rfl,rfl⟩ | ⟨rfl,idle,rfl⟩ | ⟨rfl,rfl⟩ := next_cases taken
  · simp [answers,handedOut]
  · simp [answers,handedOut,producerStep_returned]
  · simp [answers,handedOut]
  · simp [answers,handedOut,consumerStep_returned]

end Steps

/-- Every cell that was read holds what is left of an item that was written. -/
structure Sourced (size : Nat) (state : State α) : Prop where
  lap : Lap size state
  sources : ∀ cell ∈ state.read, ∃ item ∈ state.written, Remains item cell

section Sources
variable {size : Nat} {state after : State α} {action : Action α}

private theorem producerStep_read (state : State α) :
    (producerStep state).read = state.read ∧ ∀ item ∈ state.written,
    item ∈ (producerStep state).written := by
  cases pc : state.producer with
  | loadHead how item currentTail nextTail =>
    by_cases full : nextTail = state.queue.head <;> simp [producerStep,pc,enqueueStep,full]
  | write how item currentTail nextTail =>
    simp only [producerStep,pc,enqueueStep,List.mem_append]
    exact ⟨trivial,fun other member => Or.inl member⟩
  | _ => simp [producerStep,pc,enqueueStep]

theorem Sourced.step (sourced : Sourced size state) (taken : next state action = some after) :
    Sourced size after := by
  refine ⟨sourced.lap.step taken,?_⟩
  obtain ⟨how,value,rfl,idle,rfl⟩ | ⟨rfl,rfl⟩ | ⟨rfl,idle,rfl⟩ | ⟨rfl,rfl⟩ := next_cases taken
  · exact sourced.sources
  · obtain ⟨read,written⟩ := producerStep_read state
    rw [read]
    intro cell member
    obtain ⟨item,found,remains⟩ := sourced.sources cell member
    exact ⟨item,written item found,remains⟩
  · exact sourced.sources
  · rw [(consumerStep_kept state).right.left]
    cases pc : state.consumer with
    | read currentHead =>
      obtain ⟨index,item,lookup,_,_,remains⟩ := sourced.lap.reading pc
      simp only [consumerStep,pc,dequeueStep,List.mem_append,List.mem_singleton]
      intro cell member
      obtain earlier | rfl := member
      · exact sourced.sources cell earlier
      · exact ⟨item,List.mem_of_getElem? lookup,remains⟩
    | _ =>
      simp only [consumerStep,pc,dequeueStep]
      exact sourced.sources

private theorem sourced_reachable {guard : State α → Action α → Prop} (positive : 0 < size)
    (reachable : (spsc size).Reachable guard state) : Sourced size state :=
  reachable.invariant (Sourced size) ⟨lap_new size positive,by simp [spsc,State.new]⟩
    (fun _ _ _ earlier _ taken => earlier.step taken)

end Sources

/-- In any run, whatever the threads do to `head`. -/
theorem answers_sourced {size : Nat} {guard : State α → Action α → Prop} (positive : 0 < size)
    {state : State α} (reachable : (spsc size).Reachable guard state) :
    ∀ cell ∈ answers state, ∃ value ∈ begun state, cell = .item value ∨ cell = .movedFrom value := by
  have sourced := sourced_reachable positive reachable
  intro cell member
  obtain ⟨tagged,returned,rfl⟩ := List.mem_map.mp member
  have read : tagged ∈ state.read := by
    rw [sourced.lap.returns]
    exact List.mem_append_left _ returned
  obtain ⟨item,written,remains⟩ := sourced.sources tagged read
  refine ⟨item.value,List.mem_map_of_mem (List.mem_append_left _ written),?_⟩
  obtain rfl | rfl := remains
  · exact Or.inl rfl
  · exact Or.inr rfl

/-- Items that stand in a list at increasing places are a sublist of it. -/
private theorem sublist_of_tags {written items : List (Tagged α)}
    (placed : ∀ item ∈ items, written[item.tag]? = some item)
    (increasing : items.Pairwise (fun earlier later => earlier.tag < later.tag)) {bound : Nat}
    (below : ∀ item ∈ items, item.tag < bound) : items.Sublist (written.take bound) := by
  induction items using List.reverseRecOn generalizing bound with
  | nil => exact List.nil_sublist _
  | append_singleton front last ih =>
    obtain ⟨earlier,_,before⟩ := List.pairwise_append.mp increasing
    have first := ih (fun item member => placed item (List.mem_append_left _ member)) earlier
      (fun item member => before item member last (List.mem_singleton_self _))
    have place := placed last (by simp)
    have grown : written.take (last.tag + 1) = written.take last.tag ++ [last] := by
      rw [List.take_add_one,place]
      rfl
    have whole : (front ++ [last]).Sublist (written.take (last.tag + 1)) :=
      grown ▸ first.append (List.Sublist.refl [last])
    exact whole.trans (List.take_sublist_take_left (below last (by simp)))

private theorem begun_written (state : State α) :
    (state.written.map Tagged.value).Sublist (begun state) :=
  (List.sublist_append_left _ _).map _

/-- Where no store to `head` takes more than one item off. -/
theorem answers_ordered {size : Nat} (large : 2 ≤ size) {state : State α}
    (reachable : (spsc size).Reachable popsOne state) :
    ∃ values : List α, answers state = values.map .item ∧ values.Sublist (begun state) := by
  obtain ⟨position,window⟩ := window_reachable large reachable
  have sourced := sourced_reachable (by omega) reachable
  have reads := window.reads
  rw [window.returns] at reads
  obtain ⟨items,same,increasing⟩ := reads.left
  have placed : ∀ item ∈ items, state.written[item.tag]? = some item := by
    intro item member
    have read : Cell.item item ∈ state.read := by
      rw [window.returns,same]
      exact List.mem_append_left _ (List.mem_map_of_mem member)
    obtain ⟨written,found,remains⟩ := sourced.sources _ read
    obtain equal | equal := remains
    · cases equal
      obtain ⟨index,lookup⟩ := List.mem_iff_getElem?.mp found
      rw [window.tags index item lookup]
      exact lookup
    · cases equal
  have below : ∀ item ∈ items, item.tag < state.written.length := fun item member =>
    (List.getElem?_eq_some_iff.mp (placed item member)).1
  refine ⟨items.map Tagged.value,?_,?_⟩
  · rw [answers,same,List.map_map,List.map_map]
    rfl
  · have inside := sublist_of_tags placed increasing below
    rw [List.take_length] at inside
    exact (inside.map _).trans (begun_written state)

private theorem lossless_reachable {size : Nat} (large : 2 ≤ size) {state : State α}
    (reachable : (spsc size).Reachable keepsUp state) : ∃ position, Lossless size position state := by
  apply reachable.invariant (fun state => ∃ position, Lossless size position state)
  · exact ⟨0,lossless_new size (by omega)⟩
  · intro before action after earlier room taken
    obtain ⟨position,lossless⟩ := earlier
    exact lossless.step large room taken

private theorem Lossless.returned_eq {size position : Nat} {state : State α}
    (lossless : Lossless size position state) :
    state.returned = (state.written.take position).map .item := by
  have front := lossless.front
  have whole := congrArg (List.take position) (lossless.window.returns.symm.trans front)
  have counted := lossless.counted
  have length := lossless.read_length
  rw [counted,List.take_left,← List.map_take,List.take_take,← counted,length,
    Nat.min_eq_left (by omega)] at whole
  exact whole

/-- Where no enqueue finds the queue full. -/
theorem answers_complete {size : Nat} (large : 2 ≤ size) {state : State α}
    (reachable : (spsc size).Reachable keepsUp state) :
    ∃ count, answers state = ((begun state).take count).map .item := by
  obtain ⟨position,lossless⟩ := lossless_reachable large reachable
  obtain ⟨published,_⟩ := lossless.window.producerAt.written_bounds lossless.window.tailLt
  have headLe := lossless.window.headLe
  refine ⟨position,?_⟩
  rw [answers,begun,lossless.returned_eq,← List.map_take,List.take_append_of_le_length (by omega),
    List.map_map,List.map_map]
  rfl

end YoloEngine.Interleaving
