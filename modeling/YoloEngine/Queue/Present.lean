import YoloEngine.Queue.Synchronization

/-! What lies in the queue under the memory orders. A store to `tail` puts the last value at the
end and a store to `head` takes off the first; no other access changes it. A dequeue that has not
got beyond its load of `tail` may still find nothing, however much is there. -/
namespace YoloEngine.MemoryOrders
open Foundation Foundation.ReleaseAcquire LockFreeQueue
variable {α : Type}

/-- The items that are published and not taken off, by the newest stores to the cursors. -/
def present (state : State α) : List α :=
  (state.written.take (state.tail.length - 1)).drop (state.head.length - 1)

/-- The value of an `enqueue` that has not been published yet. -/
def underway (state : State α) : List α := state.begun.drop (state.tail.length - 1)

/-- Inside a `dequeue` that has found no item yet. -/
def seeking (state : State α) : Bool :=
  match state.consumer with
  | .loadHead => true
  | .loadTail _ => true
  | _ => false

section Flows
variable {size taken given choice : Nat} {state after : State α}

theorem Flow.present_eq (flow : Flow size taken given state) :
    present state = (state.written.take given).drop taken := by
  rw [present,flow.tails.length,flow.heads.length,Nat.add_sub_cancel,Nat.add_sub_cancel]

theorem Flow.begun_eq (flow : Flow size taken given state) :
    state.begun = state.written.take taken ++ present state ++ underway state := by
  have few := flow.taken_le
  have published := flow.published
  have split : state.written.take taken ++ (state.written.take given).drop taken =
    state.written.take given := by
    conv_rhs => rw [← List.take_append_drop taken (state.written.take given),List.take_take,
      Nat.min_eq_left (by omega)]
  rw [underway,flow.tails.length,Nat.add_sub_cancel,flow.present_eq,split,flow.begun,
    List.drop_append_of_le_length (by omega),← List.append_assoc,List.take_append_drop]

theorem Flow.underway_le (flow : Flow size taken given state) : (underway state).length ≤ 1 := by
  have published := flow.published
  have begun := congrArg List.length flow.begun
  rw [underway,flow.tails.length,List.length_drop,Nat.add_sub_cancel]
  rw [List.length_append] at begun
  cases pc : state.producer <;> simp [pc,unwritten,unpublished] at begun published <;> omega

/-- Until its last access an enqueue leaves the items alone, and with it the value goes to the end. -/
theorem Flow.enqueues (flow : Flow size taken given state) (room : findsRoom state (.producer choice))
    (stepped : next state (.producer choice) = some after) :
    after.consumer = state.consumer ∧
      (after.producer ≠ .idle ∧ present after = present state ∨
        after.producer = .idle ∧ (present state).length + 1 < size ∧
          ∃ value, state.begun.getLast? = some value ∧ present after = present state ++ [value]) := by
  have at_pc := flow.producerAt
  have published := flow.published
  have begun := flow.begun
  have space := flow.room
  have few := flow.taken_le
  have same := flow.present_eq
  simp only [next] at stepped
  unfold MemoryOrders.producerStep at stepped
  split at stepped
  next => contradiction
  next pc =>
    obtain ⟨message,read,rest⟩ := Option.bind_eq_some_iff.mp stepped
    cases Option.some.inj rest
    exact ⟨rfl,Or.inl ⟨by simp,rfl⟩⟩
  next nextTail pc =>
    obtain ⟨message,read,rest⟩ := Option.bind_eq_some_iff.mp stepped
    have apart : nextTail ≠ message.value :=
      room nextTail (by simp [testedTail,pc]) message (readable_iff.mp read).left
    rw [if_neg apart] at rest
    cases Option.some.inj rest
    exact ⟨rfl,Or.inl ⟨by simp,rfl⟩⟩
  next pc =>
    rw [pc] at at_pc
    exact at_pc.elim
  next pc =>
    rw [pc] at at_pc
    exact at_pc.elim
  next pc =>
    obtain ⟨slot,found,rest⟩ := Option.bind_eq_some_iff.mp stepped
    cases Option.some.inj rest
    rw [pc] at published
    simp only [unpublished,Nat.add_zero] at published
    refine ⟨rfl,Or.inl ⟨by simp,?_⟩⟩
    rw [same,present]
    simp only [flow.tails.length,flow.heads.length,Nat.add_sub_cancel]
    rw [List.take_append_of_le_length (by omega)]
  next pc =>
    split at stepped
    next fresh =>
      cases Option.some.inj stepped
      rw [pc] at published begun space
      simp only [unpublished,unwritten,filling,List.append_nil] at published begun space
      obtain ⟨value,last⟩ : ∃ value, state.written[given]? = some value :=
        ⟨_,List.getElem?_eq_getElem (by omega)⟩
      refine ⟨rfl,Or.inr ⟨rfl,?_,value,?_,?_⟩⟩
      · rw [same,List.length_drop,List.length_take]
        omega
      · rw [begun,List.getLast?_eq_getElem?,published]
        exact last
      · rw [same,present]
        simp only [List.length_append,flow.tails.length,flow.heads.length,List.length_singleton,
          Nat.add_sub_cancel]
        rw [List.take_add_one,last,List.drop_append_of_le_length]
        · rfl
        · rw [List.length_take]
          omega
    next => contradiction

/-- A dequeue finds nothing while it seeks, or it takes off the first item with its last access. -/
theorem Flow.dequeues (flow : Flow size taken given state)
    (stepped : next state (.consumer choice) = some after) :
    (after.consumer ≠ .idle ∧ (seeking after = true → seeking state = true) ∧
        (∀ head cell, state.consumer ≠ .storeHead head cell) ∧ present after = present state) ∨
      (after.consumer = .idle ∧ seeking state = true ∧ present after = present state) ∨
      ∃ head item, state.consumer = .storeHead head (.item item) ∧
      present state = item :: present after := by
  have at_pc := flow.consumerAt
  have published := flow.published
  have few := flow.taken_le
  have same := flow.present_eq
  simp only [next] at stepped
  unfold MemoryOrders.consumerStep at stepped
  split at stepped
  next => contradiction
  next pc =>
    obtain ⟨message,read,rest⟩ := Option.bind_eq_some_iff.mp stepped
    cases Option.some.inj rest
    exact Or.inl ⟨by simp,by simp [seeking,pc],by simp [pc],rfl⟩
  next currentHead pc =>
    obtain ⟨message,read,rest⟩ := Option.bind_eq_some_iff.mp stepped
    cases Option.some.inj rest
    by_cases empty : currentHead = message.value
    · exact Or.inr (Or.inl ⟨by simp [empty],by simp [seeking,pc],rfl⟩)
    · exact Or.inl ⟨by simp [empty],by simp [seeking,pc],by simp [pc],rfl⟩
  next pc =>
    obtain ⟨slot,found,rest⟩ := Option.bind_eq_some_iff.mp stepped
    cases Option.some.inj rest
    exact Or.inl ⟨by simp,by simp [seeking],by simp [pc],rfl⟩
  next currentHead cell pc =>
    split at stepped
    next fresh =>
      cases Option.some.inj stepped
      rw [pc] at at_pc few
      obtain ⟨rfl,item,lookup,rfl⟩ := at_pc
      simp only [taking] at few
      refine Or.inr (Or.inr ⟨_,item,pc,?_⟩)
      have first : (state.written.take given)[taken]? = some item := by
        rw [List.getElem?_take_of_lt (by omega)]
        exact lookup
      obtain ⟨inside,value⟩ := List.getElem?_eq_some_iff.mp first
      rw [same,present]
      simp only [List.length_append,flow.tails.length,flow.heads.length,List.length_singleton,
        Nat.add_sub_cancel]
      rw [List.drop_eq_getElem_cons inside,value]
    next => contradiction

end Flows
end YoloEngine.MemoryOrders
