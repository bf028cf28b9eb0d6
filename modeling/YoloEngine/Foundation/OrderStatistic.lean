import Mathlib.Algebra.Order.Floor.Semiring
import Mathlib.Data.List.Sort
import Mathlib.Data.Rat.Floor
import Mathlib.Tactic.Linarith

/-! The element of a sorted list at a fraction of its length, found by rounding down and
clamping to the last place. What lies below it and what lies at most at it are counted. -/
namespace YoloEngine.Foundation
variable {α : Type} [LinearOrder α] {sorted : List α} {place : ℕ} {value : α}

theorem le_of_places (ordered : sorted.Pairwise (· ≤ ·)) {first second : ℕ} {low high : α}
    (before : first ≤ second) (atFirst : sorted[first]? = some low)
    (atSecond : sorted[second]? = some high) : low ≤ high := by
  obtain ⟨firstInside,rfl⟩ := List.getElem?_eq_some_iff.mp atFirst
  obtain ⟨secondInside,rfl⟩ := List.getElem?_eq_some_iff.mp atSecond
  rcases Nat.lt_or_eq_of_le before with earlier | rfl
  · exact List.pairwise_iff_getElem.mp ordered _ _ firstInside secondInside earlier
  · exact le_rfl

theorem countP_below_le (ordered : sorted.Pairwise (· ≤ ·)) (found : sorted[place]? = some value) :
    sorted.countP (· < value) ≤ place := by
  have rest : (sorted.drop place).countP (· < value) = 0 := by
    rw [List.countP_eq_zero]
    intro other member
    obtain ⟨i,lookup⟩ := List.mem_iff_getElem?.mp member
    rw [List.getElem?_drop] at lookup
    simpa using le_of_places ordered (Nat.le_add_right _ _) found lookup
  calc
    sorted.countP (· < value) = (sorted.take place).countP (· < value) + (sorted.drop place).countP
      (· < value) := by
      rw [← List.countP_append,List.take_append_drop]
    _ ≤ (sorted.take place).length := by
      rw [rest,Nat.add_zero]
      exact List.countP_le_length
    _ ≤ place := List.length_take_le _ _

theorem lt_countP_upTo (ordered : sorted.Pairwise (· ≤ ·)) (found : sorted[place]? = some value) :
    place < sorted.countP (· ≤ value) := by
  obtain ⟨inside,_⟩ := List.getElem?_eq_some_iff.mp found
  have first : (sorted.take (place + 1)).countP (· ≤ value) = (sorted.take (place + 1)).length := by
    rw [List.countP_eq_length]
    intro other member
    obtain ⟨i,lookup⟩ := List.mem_iff_getElem?.mp member
    obtain ⟨early,_⟩ := List.getElem?_eq_some_iff.mp lookup
    rw [List.length_take] at early
    rw [List.getElem?_take_of_lt (by omega)] at lookup
    simpa using le_of_places ordered (by omega) lookup found
  have length : (sorted.take (place + 1)).length = place + 1 := by
    rw [List.length_take]
    omega
  have fewer := (List.take_sublist (place + 1) sorted).countP_le (p := (· ≤ value))
  rw [first,length] at fewer
  exact fewer

def rank (count : ℕ) (fraction : ℚ) : ℕ := min ⌊(count : ℚ) * fraction⌋₊ (count - 1)

variable {count : ℕ} {fraction : ℚ}

theorem rank_lt (positive : 0 < count) (fraction : ℚ) : rank count fraction < count :=
  (Nat.min_le_right _ _).trans_lt (Nat.sub_lt positive Nat.one_pos)

theorem rank_le (nonneg : 0 ≤ fraction) : (rank count fraction : ℚ) ≤ count * fraction := by
  calc
    (rank count fraction : ℚ) ≤ ⌊(count : ℚ) * fraction⌋₊ := by exact_mod_cast Nat.min_le_left _ _
    _ ≤ count * fraction := Nat.floor_le (mul_nonneg (Nat.cast_nonneg _) nonneg)

theorem le_rank_succ (positive : 0 < count) (whole : fraction ≤ 1) :
    (count : ℚ) * fraction ≤ rank count fraction + 1 := by
  rcases le_total ⌊(count : ℚ) * fraction⌋₊ (count - 1) with kept | clamped
  · rw [rank,Nat.min_eq_left kept]
    exact (Nat.lt_floor_add_one _).le
  · rw [rank,Nat.min_eq_right clamped]
    have last : ((count - 1 : ℕ) : ℚ) + 1 = count := by exact_mod_cast Nat.sub_add_cancel positive
    rw [last]
    exact mul_le_of_le_one_right (Nat.cast_nonneg _) whole

theorem rank_mono {larger : ℚ} (ordered : fraction ≤ larger) :
    rank count fraction ≤ rank count larger :=
  min_le_min_right _ (Nat.floor_le_floor (mul_le_mul_of_nonneg_left ordered (Nat.cast_nonneg _)))

end YoloEngine.Foundation
