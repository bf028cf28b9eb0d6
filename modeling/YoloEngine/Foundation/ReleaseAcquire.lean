import Mathlib.Order.Lattice
import Mathlib.Data.List.Basic
import Mathlib.Data.Fintype.Defs
import Mathlib.Logic.Function.Basic

/-! Atomic locations with release stores, acquire loads and relaxed loads, by views. A location
keeps every store with its time in modification order, and a load may read any of them that is not
older than one its thread knows of. A release store takes along what its thread knows, and an
acquire load learns it. A plain location keeps its last accesses, so that one that does not come
after those of the other threads is a race. -/
namespace YoloEngine.Foundation.ReleaseAcquire
variable {ι ν γ : Type}

/-- What a thread knows: of a location the newest store, of a thread how many plain accesses of it
come before. -/
abbrev View (ι : Type) := ι → Nat

structure Message (ι ν : Type) where
  time : Nat
  value : ν
  view : View ι

structure Plain (ι γ : Type) where
  content : γ
  accessed : View ι

inductive LoadOrder where
  | relaxed
  | acquire
  deriving Repr, DecidableEq

section Operations

def readable (messages : List (Message ι ν)) (location : ι) (view : View ι) (choice : Nat) :
    Option (Message ι ν) :=
  messages[choice]?.filter (fun message => view location ≤ message.time)

def storable (messages : List (Message ι ν)) (location : ι) (view : View ι) (time : Nat) : Prop :=
  view location < time ∧ ∀ message ∈ messages, message.time ≠ time

instance (messages : List (Message ι ν)) (location : ι) (view : View ι) (time : Nat) :
    Decidable (storable messages location view time) := inferInstanceAs (Decidable (_ ∧ _))

variable [DecidableEq ι]

def load (order : LoadOrder) (location : ι) (message : Message ι ν) (view : View ι) : View ι :=
  match order with
  | .relaxed => Function.update view location message.time
  | .acquire => Function.update view location message.time ⊔ message.view

def release (location : ι) (time : Nat) (value : ν) (view : View ι) : Message ι ν :=
  ⟨time,value,Function.update view location time⟩

def access (thread : ι) (content : γ) (plain : Plain ι γ) (view : View ι) : Plain ι γ × View ι :=
  (⟨content,Function.update plain.accessed thread (view thread + 1)⟩,
    Function.update view thread (view thread + 1))

/-- Every earlier access to the location comes before what a thread with this view does next. -/
def inOrder [Fintype ι] (plain : Plain ι γ) (view : View ι) : Bool :=
  decide (∀ place, plain.accessed place ≤ view place)

end Operations

section Loads
variable {order : LoadOrder} {location place : ι} {message : Message ι ν} {view bound : View ι}

theorem readable_iff {messages : List (Message ι ν)} {choice : Nat} :
    readable messages location view choice = some message ↔
      messages[choice]? = some message ∧ view location ≤ message.time := by
  simp [readable,Option.filter_eq_some_iff]

variable [DecidableEq ι]

theorem load_location (own : message.view location ≤ message.time) :
    load order location message view location = message.time := by
  cases order <;> simp [load,own]

theorem load_other (different : place ≠ location) (known : message.view place ≤ view place) :
    load order location message view place = view place := by
  cases order <;> simp [load,different,known]

theorem load_le (known : view ≤ bound) (carried : message.view ≤ bound)
    (newest : message.time ≤ bound location) :
    load order location message view ≤ bound := by
  have read : Function.update view location message.time ≤ bound :=
    update_le_iff.mpr ⟨newest,fun place _ => known place⟩
  cases order with
  | relaxed => exact read
  | acquire => exact sup_le read carried

theorem acquired : message.view ≤ load .acquire location message view := le_sup_right

end Loads

/-- The stores of one thread to a location of its own: their times grow. -/
def Chronicle (messages : List (Message ι ν)) : Prop :=
    messages.Pairwise (fun earlier later => earlier.time < later.time)

/-- The newest store a thread knows of is the one at this position. -/
def Knows (messages : List (Message ι ν)) (position time : Nat) : Prop :=
  ∃ message, messages[position]? = some message ∧ message.time = time

section Chronicles
variable {messages : List (Message ι ν)} {first second : Nat} {earlier later message : Message ι ν}

theorem Chronicle.index_le (chronicle : Chronicle messages) (left : messages[first]? = some earlier)
    (right : messages[second]? = some later) (ordered : earlier.time ≤ later.time) :
    first ≤ second := by
  by_contra after
  obtain ⟨insideFirst,rfl⟩ := List.getElem?_eq_some_iff.mp left
  obtain ⟨insideSecond,rfl⟩ := List.getElem?_eq_some_iff.mp right
  have strict := List.pairwise_iff_getElem.mp chronicle second first insideSecond insideFirst (by omega)
  omega

/-- A thread that is the only one to store to a location reads its own last store. -/
theorem Chronicle.newest (chronicle : Chronicle messages) {count time : Nat}
    (length : messages.length = count + 1) (knows : Knows messages count time)
    (read : messages[first]? = some message) (readable : time ≤ message.time) :
    first = count := by
  obtain ⟨last,lookup,rfl⟩ := knows
  have atLeast := chronicle.index_le lookup read readable
  obtain ⟨inside,_⟩ := List.getElem?_eq_some_iff.mp read
  omega

theorem Chronicle.append (chronicle : Chronicle messages) {count newest : Nat}
    (length : messages.length = count + 1) (knows : Knows messages count newest)
    (later : newest < message.time) :
    Chronicle (messages ++ [message]) := by
  obtain ⟨last,lookup,rfl⟩ := knows
  refine List.pairwise_append.mpr ⟨chronicle,List.pairwise_singleton _ _,
    fun one member other single => ?_⟩
  obtain ⟨index,inside,rfl⟩ := List.getElem_of_mem member
  rw [List.mem_singleton.mp single]
  refine Nat.lt_of_le_of_lt ?_ later
  by_contra after
  have before := chronicle.index_le lookup (List.getElem?_eq_getElem inside) (by omega)
  obtain rfl : index = count := by omega
  simp only [List.getElem?_eq_getElem inside,Option.some.injEq] at lookup
  rw [lookup] at after
  omega

end Chronicles
end YoloEngine.Foundation.ReleaseAcquire
