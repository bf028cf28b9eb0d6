import Mathlib.Data.List.Basic

/-! A first-in first-out list of at most `bound` items whose atomic operations are four: append
where there is room, drop the oldest where there is none, pop the oldest, and find nothing. What
has gone in is what was taken off, in order, followed by what is still there. -/
namespace YoloEngine.Foundation.LossyFifo
variable {α : Type} {bound : Nat}

inductive Event (α : Type) where
  | append (item : α)
  | drop (item : α)
  | pop (item : α)
  | empty

inductive Step (bound : Nat) : List α → Event α → List α → Prop
  | append {items : List α} (item : α) (room : items.length < bound) :
      Step bound items (.append item) (items ++ [item])
  | drop {item : α} {rest : List α} (full : rest.length + 1 = bound) :
      Step bound (item :: rest) (.drop item) rest
  | pop {item : α} {rest : List α} : Step bound (item :: rest) (.pop item) rest
  | empty : Step bound [] .empty []

/-- The histories that lead from the empty list to `items`. -/
inductive Run (bound : Nat) : List (Event α) → List α → Prop
  | nil : Run bound [] []
  | snoc {log : List (Event α)} {before after : List α} {event : Event α}
      (earlier : Run bound log before)
      (step : Step bound before event after) : Run bound (log ++ [event]) after

def appended : Event α → Option α
  | .append item => some item
  | _ => none

def popped : Event α → Option α
  | .pop item => some item
  | _ => none

def dropped : Event α → Option α
  | .drop item => some item
  | _ => none

def removed : Event α → Option α
  | .drop item => some item
  | .pop item => some item
  | _ => none

/-- What a step of an implementation completes: nothing, or one operation. -/
inductive Steps (bound : Nat) : List α → List (Event α) → List α → Prop
  | silent {items : List α} : Steps bound items [] items
  | one {before after : List α} {event : Event α} (step : Step bound before event after) :
      Steps bound before [event] after

theorem Run.steps {log events : List (Event α)} {before after : List α} (run : Run bound log before)
    (steps : Steps bound before events after) : Run bound (log ++ events) after := by
  cases steps with
  | silent =>
    rw [List.append_nil]
    exact run
  | one step => exact run.snoc step

section Inversion
variable {before after : List α} {item : α}

theorem Steps.silent_inv (steps : Steps bound before [] after) : after = before := by
  cases steps with
  | silent => rfl

theorem Steps.append_inv (steps : Steps bound before [.append item] after) :
    before.length < bound ∧ after = before ++ [item] := by
  cases steps with
  | one step =>
    cases step with
    | append _ room => exact ⟨room,rfl⟩

theorem Steps.pop_inv (steps : Steps bound before [.pop item] after) : before = item :: after := by
  cases steps with
  | one step =>
    cases step with
    | pop => rfl

theorem Steps.empty_inv (steps : Steps bound before [.empty] after) : before = [] ∧ after = [] := by
  cases steps with
  | one step =>
    cases step with
    | empty => exact ⟨rfl,rfl⟩

end Inversion

theorem Run.conserved {log : List (Event α)} {items : List α} (run : Run bound log items) :
    log.filterMap appended = log.filterMap removed ++ items := by
  induction run with
  | nil => rfl
  | snoc _ step ih =>
    rw [List.filterMap_append,List.filterMap_append,ih]
    cases step with
    | append item room => simp [appended,removed]
    | drop full => simp [appended,removed]
    | pop => simp [appended,removed]
    | empty => simp [List.filterMap_cons,appended,removed]

theorem popped_removed (log : List (Event α)) :
    (log.filterMap popped).Sublist (log.filterMap removed) := by
  induction log with
  | nil => exact .slnil
  | cons event rest ih =>
    cases event with
    | append item => exact ih
    | drop item => exact ih.cons item
    | pop item => exact ih.cons_cons item
    | empty => exact ih

theorem removed_length (log : List (Event α)) :
    (log.filterMap removed).length =
      (log.filterMap popped).length + (log.filterMap dropped).length := by
  induction log with
  | nil => rfl
  | cons event rest ih =>
    cases event with
    | append item => exact ih
    | drop item =>
      simp only [List.filterMap_cons,removed,popped,dropped,List.length_cons,ih]
      omega
    | pop item =>
      simp only [List.filterMap_cons,removed,popped,dropped,List.length_cons,ih]
      omega
    | empty => exact ih

theorem Run.counted {log : List (Event α)} {items : List α} (run : Run bound log items) :
    (log.filterMap appended).length =
      (log.filterMap popped).length + (log.filterMap dropped).length + items.length := by
  rw [run.conserved,List.length_append,removed_length]

end YoloEngine.Foundation.LossyFifo
