import Mathlib.Data.List.Nodup
import Mathlib.Data.List.Range

/-! Numbering the places of a table row by row. Place `(i,j)` of a table with `columns` columns
has number `i * columns + j`; walking the table column by column meets every number once. -/
namespace YoloEngine.Foundation.RowMajor
variable {α : Type}

theorem quotient_remainder {columns j : ℕ} (inside : j < columns) (i : ℕ) :
    (i * columns + j) / columns = i ∧ (i * columns + j) % columns = j := by
  rw [Nat.mul_comm,Nat.mul_add_div (by omega),Nat.mul_add_mod,Nat.div_eq_of_lt inside,
    Nat.mod_eq_of_lt inside]
  exact ⟨rfl,rfl⟩

theorem place_lt {rows columns i j : ℕ} (row : i < rows) (column : j < columns) :
    i * columns + j < rows * columns :=
  calc
    i * columns + j < i * columns + columns := Nat.add_lt_add_left column _
    _ = (i + 1) * columns := (Nat.succ_mul i columns).symm
    _ ≤ rows * columns := Nat.mul_le_mul_right columns row

/-- A table listed row by row is listed by the numbers of its places. -/
theorem flatMap_range (value : ℕ → ℕ → α) (rows columns : ℕ) :
    (List.range rows).flatMap (fun i => (List.range columns).map (value i)) =
      (List.range (rows * columns)).map (fun place => value (place / columns) (place % columns)) := by
  induction rows with
  | zero => simp
  | succ rows ih =>
    have last : (List.range columns).map (value rows) =
        (List.range columns).map (fun j =>
          value ((rows * columns + j) / columns) ((rows * columns + j) % columns)) := by
      apply List.map_congr_left
      intro j member
      obtain ⟨quotient,remainder⟩ := quotient_remainder (List.mem_range.mp member) rows
      rw [quotient,remainder]
    rw [List.range_succ,List.flatMap_append,ih,List.flatMap_singleton,Nat.succ_mul,List.range_add,
      List.map_append,List.map_map,last]
    rfl

theorem columnMajor_perm (rows columns : ℕ) :
    ((List.range columns).flatMap (fun j => (List.range rows).map (fun i => i * columns + j))).Perm
      (List.range (rows * columns)) := by
  have distinct :
      ((List.range columns).flatMap (fun j =>
        (List.range rows).map (fun i => i * columns + j))).Nodup := by
    rw [List.nodup_flatMap]
    constructor
    · intro j member
      have positive : 0 < columns := Nat.zero_lt_of_lt (List.mem_range.mp member)
      refine List.nodup_range.map fun first second same => ?_
      exact Nat.eq_of_mul_eq_mul_right positive (Nat.add_right_cancel same)
    · refine List.nodup_range.pairwise_of_forall_ne
        fun first firstMember second secondMember different place => ?_
      intro inFirst inSecond
      obtain ⟨i,_,rfl⟩ := List.mem_map.mp inFirst
      obtain ⟨k,_,same⟩ := List.mem_map.mp inSecond
      have firstRemainder := (quotient_remainder (List.mem_range.mp firstMember) i).right
      have secondRemainder := (quotient_remainder (List.mem_range.mp secondMember) k).right
      rw [same] at secondRemainder
      exact different (firstRemainder.symm.trans secondRemainder)
  rw [List.perm_ext_iff_of_nodup distinct List.nodup_range]
  intro place
  simp only [List.mem_flatMap,List.mem_map,List.mem_range]
  constructor
  · intro listed
    obtain ⟨j,column,i,row,rfl⟩ := listed
    exact place_lt row column
  · intro inside
    have positive : 0 < columns := Nat.pos_of_ne_zero fun zero => by simp [zero] at inside
    refine ⟨place % columns,Nat.mod_lt _ positive,place / columns,?_,?_⟩
    · exact Nat.div_lt_of_lt_mul (by rwa [Nat.mul_comm])
    · rw [Nat.mul_comm]
      exact Nat.div_add_mod place columns

theorem set_map_range (value : ℕ → α) (count place : ℕ) (replaced : α) :
    ((List.range count).map value).set place replaced =
      (List.range count).map (fun i => if i = place then replaced else value i) := by
  apply List.ext_getElem
  · simp
  · intro i left right
    rw [List.getElem_set]
    simp only [List.getElem_map,List.getElem_range,eq_comm]

end YoloEngine.Foundation.RowMajor
