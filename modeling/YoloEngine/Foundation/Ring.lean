import Mathlib.Data.List.Basic
import Mathlib.Data.Nat.ModEq

/-! Positions on a ring of `size` slots. A position is an unbounded number, its
slot is the remainder; two positions less than one lap apart share no slot. -/
namespace YoloEngine.Foundation.Ring

theorem slot_succ (position size : Nat) : (position % size + 1) % size = (position + 1) % size := by
  exact Nat.mod_add_mod position size 1

theorem slot_inj {size first second : Nat} (ordered : first ≤ second) (close : second < first + size)
    (same : first % size = second % size) : first = second := by
  have multiple : size ∣ second - first := (Nat.modEq_iff_dvd' ordered).mp same
  have zero : second - first = 0 := Nat.eq_zero_of_dvd_of_lt multiple (by omega)
  omega

theorem slot_ne {size first second : Nat} (ordered : first < second) (close : second < first + size) :
    first % size ≠ second % size := by
  intro same
  have equal := slot_inj (Nat.le_of_lt ordered) close same
  omega

theorem slot_succ_ne {size : Nat} (large : 2 ≤ size) (position : Nat) :
    (position + 1) % size ≠ position % size := (slot_ne (by omega) (by omega)).symm

/-- Among the positions below `bound` that share a slot with `first`, one is the latest. -/
theorem exists_latest {size first bound : Nat} (positive : 0 < size) (below : first < bound) :
    ∃ latest, first ≤ latest ∧ latest < bound ∧ bound ≤ latest + size ∧
    latest % size = first % size := by
  have split := Nat.div_add_mod (bound - 1 - first) size
  have small := Nat.mod_lt (bound - 1 - first) positive
  refine ⟨first + size * ((bound - 1 - first) / size),by omega,by omega,by omega,?_⟩
  exact Nat.add_mul_mod_self_left _ _ _

variable {γ : Type}

def window (slot : Nat → γ) (size start count : Nat) : List γ :=
  (List.range count).map (fun i => slot ((start + i) % size))

@[simp] theorem window_length (slot : Nat → γ) (size start count : Nat) :
    (window slot size start count).length = count := by
  simp [window]

theorem window_first (slot : Nat → γ) (size start count : Nat) :
    window slot size start (count + 1) = slot (start % size) :: window slot size (start + 1) count := by
  simp only [window,List.range_succ_eq_map,List.map_cons,List.map_map,Nat.add_zero]
  congr 1
  apply List.map_congr_left
  intro i _
  simp only [Function.comp,Nat.succ_eq_add_one]
  rw [Nat.add_assoc,Nat.add_comm 1 i]

theorem window_last (slot : Nat → γ) (size start count : Nat) :
    window slot size start (count + 1) =
      window slot size start count ++ [slot ((start + count) % size)] := by
  simp [window,List.range_succ]

theorem window_start (slot : Nat → γ) (size start count : Nat) :
    window slot size (start % size) count = window slot size start count := by
  simp [window]

theorem window_congr (old new : Nat → γ) (size start count : Nat)
    (same : ∀ i, i < count → old ((start + i) % size) = new ((start + i) % size)) :
    window old size start count = window new size start count := by
  apply List.map_congr_left
  intro i member
  exact same i (List.mem_range.mp member)

theorem window_update (old new : Nat → γ) (size start count target : Nat)
    (elsewhere : ∀ i, i ≠ target → new i = old i)
    (outside : ∀ i, i < count → (start + i) % size ≠ target) :
    window new size start count = window old size start count :=
  window_congr _ _ _ _ _ (fun i bound => elsewhere _ (outside i bound))

end YoloEngine.Foundation.Ring
