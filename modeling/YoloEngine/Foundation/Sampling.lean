import Mathlib.Data.List.Basic
import Mathlib.Data.List.Induction

/-! Every `period`-th item of a list, numbered from one. The numbers increase, the items keep
their order, and item `k` is the one at place `period * k`, counted from one. -/
namespace YoloEngine.Foundation
variable {α : Type} {period : ℕ}

def sample (period : ℕ) (items : List α) : List (ℕ × α) :=
  ((items.zipIdx 1).filter (fun entry => entry.2 % period = 0)).map (fun entry =>
    (entry.2 / period,entry.1))

theorem sample_append (items : List α) (item : α) :
    sample period (items ++ [item]) =
      sample period items ++ if (items.length + 1) % period =
        0 then [((items.length + 1) / period,item)] else [] := by
  rw [sample,List.zipIdx_append,List.filter_append,List.map_append,Nat.add_comm 1]
  congr 1
  by_cases chosen : (items.length + 1) % period = 0 <;> simp [chosen]

theorem sample_length (items : List α) : (sample period items).length = items.length / period := by
  induction items using List.reverseRecOn with
  | nil => exact (Nat.zero_div period).symm
  | append_singleton items item ih =>
    rw [sample_append,List.length_append,ih,List.length_append,List.length_singleton,Nat.succ_div]
    simp only [Nat.dvd_iff_mod_eq_zero]
    split <;> rfl

theorem sample_values (items : List α) : ((sample period items).map Prod.snd).Sublist items := by
  have values : (sample period items).map Prod.snd =
      ((items.zipIdx 1).filter (fun entry => entry.2 % period = 0)).map Prod.fst := by
    rw [sample,List.map_map]
    rfl
  rw [values]
  simpa using (List.filter_sublist (l := items.zipIdx 1)).map Prod.fst

theorem mem_sample (positive : 0 < period) {items : List α} {k : ℕ} {item : α} :
    (k,item) ∈ sample period items ↔ 1 ≤ k ∧ items[period * k - 1]? = some item := by
  simp only [sample,List.mem_map,List.mem_filter,List.mk_mem_zipIdx_iff_le_and_getElem?_sub,
    Prod.exists,Prod.mk.injEq,decide_eq_true_eq]
  constructor
  · intro found
    obtain ⟨value,place,⟨⟨first,present⟩,multiple⟩,quotient,rfl⟩ := found
    have whole : period * k = place := by
      rw [← quotient]
      exact Nat.mul_div_cancel' (Nat.dvd_of_mod_eq_zero multiple)
    refine ⟨?_,by rwa [whole]⟩
    apply Nat.pos_of_ne_zero
    intro zero
    rw [zero,Nat.mul_zero] at whole
    omega
  · intro found
    obtain ⟨first,present⟩ := found
    have atLeast : 1 ≤ period * k := Nat.mul_pos positive first
    exact ⟨item,period * k,⟨⟨atLeast,present⟩,Nat.mul_mod_right period k⟩,
      Nat.mul_div_cancel_left k positive,rfl⟩

theorem sample_increasing (positive : 0 < period) (items : List α) :
    ((sample period items).map Prod.fst).Pairwise (· < ·) := by
  induction items using List.reverseRecOn with
  | nil => exact List.Pairwise.nil
  | append_singleton items item ih =>
    rw [sample_append]
    split
    next chosen =>
      rw [List.map_append,List.pairwise_append]
      refine ⟨ih,List.pairwise_singleton _ _,?_⟩
      intro k member last added
      obtain ⟨entry,found,rfl⟩ := List.mem_map.mp member
      rw [List.map_singleton,List.mem_singleton] at added
      obtain ⟨_,present⟩ := (mem_sample positive).mp found
      obtain ⟨inside,_⟩ := List.getElem?_eq_some_iff.mp present
      rw [added]
      apply Nat.lt_of_mul_lt_mul_left (a := period)
      rw [Nat.mul_div_cancel' (Nat.dvd_of_mod_eq_zero chosen)]
      omega
    next => simpa using ih

end YoloEngine.Foundation
