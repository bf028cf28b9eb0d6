import Mathlib.Data.List.DropRight

/-! A first-in first-out list of at most `bound` items whose push never refuses:
it keeps the last `bound` items, so only the oldest can be lost. -/
namespace YoloEngine.Foundation

structure BoundedFifo (α : Type) (bound : Nat) where
  items : List α
  bounded : items.length ≤ bound

namespace BoundedFifo
variable {α : Type} {bound : Nat}

theorem rtake_length_le (n : Nat) (xs : List α) : (xs.rtake n).length ≤ n := by
  simp [List.rtake]
  omega

def empty : BoundedFifo α bound := ⟨[],Nat.zero_le _⟩

def push (fifo : BoundedFifo α bound) (item : α) : BoundedFifo α bound :=
  ⟨(fifo.items ++ [item]).rtake bound,rtake_length_le _ _⟩

def pop (fifo : BoundedFifo α bound) : BoundedFifo α bound × Option α :=
  (⟨fifo.items.tail,by have := fifo.bounded; simp; omega⟩,fifo.items.head?)

theorem push_room (fifo : BoundedFifo α bound) (item : α) (room : fifo.items.length < bound) :
    (fifo.push item).items = fifo.items ++ [item] := by
  have kept : fifo.items.length + 1 - bound = 0 := by omega
  simp [push,List.rtake,kept]

theorem push_full (fifo : BoundedFifo α bound) (item : α) (full : fifo.items.length = bound) :
    (fifo.push item).items = (fifo.items ++ [item]).tail := by
  have dropped : fifo.items.length + 1 - bound = 1 := by omega
  simp [push,List.rtake,dropped]

/-- A push loses at most the oldest item and adds the new one at the end. -/
theorem push_sublist (fifo : BoundedFifo α bound) (item : α) :
    (fifo.push item).items.Sublist (fifo.items ++ [item]) := List.drop_sublist _ _

theorem pop_append (fifo : BoundedFifo α bound) :
    fifo.pop.2.toList ++ fifo.pop.1.items = fifo.items := by
  cases fifo with
  | mk items bounded => cases items <;> rfl

end BoundedFifo
end YoloEngine.Foundation
