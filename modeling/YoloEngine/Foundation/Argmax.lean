import Mathlib.Data.List.Basic
import Mathlib.Data.List.Induction
import Mathlib.Order.Lattice

/-! A scan that keeps the largest value seen above a floor and where it was seen. It ends
with the maximum and the first index that attains it. -/
namespace YoloEngine.Foundation
variable {α : Type} [LinearOrder α]

def peak (floor : α) (values : List α) : α := values.foldl max floor

def scanStep (best : α × ℤ) (entry : α × ℕ) : α × ℤ :=
  if entry.1 > best.1 then (entry.1,(entry.2 : ℤ)) else best

def scan (floor : α) (values : List α) : α × ℤ := values.zipIdx.foldl scanStep (floor,-1)

theorem peak_append (floor : α) (values : List α) (value : α) :
    peak floor (values ++ [value]) = max (peak floor values) value := by
  simp [peak]

theorem scan_append (floor : α) (values : List α) (value : α) :
    scan floor (values ++ [value]) = scanStep (scan floor values) (value,values.length) := by
  simp [scan,List.zipIdx_append]

theorem floor_le_peak (floor : α) (values : List α) : floor ≤ peak floor values := by
  induction values using List.reverseRecOn with
  | nil => exact le_rfl
  | append_singleton values value ih =>
    rw [peak_append]
    exact ih.trans (le_max_left _ _)

theorem le_peak {floor value : α} {values : List α} (member : value ∈ values) :
    value ≤ peak floor values := by
  induction values using List.reverseRecOn with
  | nil => exact absurd member List.not_mem_nil
  | append_singleton values last ih =>
    rw [peak_append]
    rcases List.mem_append.mp member with earlier | added
    · exact (ih earlier).trans (le_max_left _ _)
    · rw [List.mem_singleton.mp added]
      exact le_max_right _ _

theorem peak_mem {floor : α} {values : List α} (above : floor < peak floor values) :
    peak floor values ∈ values := by
  induction values using List.reverseRecOn with
  | nil => exact absurd above (lt_irrefl floor)
  | append_singleton values last ih =>
    rw [peak_append] at above ⊢
    rcases le_or_gt last (peak floor values) with kept | raised
    · rw [max_eq_left kept] at above ⊢
      exact List.mem_append_left _ (ih above)
    · rw [max_eq_right raised.le]
      simp

theorem scan_eq (floor : α) (values : List α) :
    scan floor values =
      (peak floor values,if floor < peak floor values then (values.idxOf (peak floor values) : ℤ)
        else -1) := by
  induction values using List.reverseRecOn with
  | nil => simp [scan,peak]
  | append_singleton values last ih =>
    rw [scan_append,ih,peak_append]
    rcases le_or_gt last (peak floor values) with kept | raised
    · -- a tie does not move the index
      rw [scanStep,if_neg (not_lt.mpr kept),max_eq_left kept]
      split
      next above => rw [List.idxOf_append_of_mem (peak_mem above)]
      next => rfl
    · have fresh : last ∉ values := fun member => absurd (le_peak member) (not_le.mpr raised)
      have above : floor < last := (floor_le_peak floor values).trans_lt raised
      rw [scanStep,if_pos raised,max_eq_right raised.le,if_pos above,List.idxOf_append_of_notMem fresh]
      simp

theorem scan_range (floor : α) (value : ℕ → α) (count : ℕ) :
    (List.range count).foldl (fun best index => scanStep best (value index,index)) (floor,-1) =
      scan floor ((List.range count).map value) := by
  induction count with
  | zero => rfl
  | succ count ih =>
    rw [List.range_succ,List.foldl_append,ih,List.map_append,List.map_singleton,scan_append]
    simp

end YoloEngine.Foundation
