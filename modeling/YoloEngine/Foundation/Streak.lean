import Mathlib.Data.Nat.Basic

/-! How many places in a row have a property, counted back from a place. A counter that is
raised on every such place and reset on every other one holds this number. -/
namespace YoloEngine.Foundation
variable {marked : ℕ → Bool}

def streak (marked : ℕ → Bool) : ℕ → ℕ
  | 0 => 0
  | place + 1 => if marked place then streak marked place + 1 else 0

theorem streak_marked {place : ℕ} (marks : marked place = true) :
    streak marked (place + 1) = streak marked place + 1 := if_pos marks

theorem streak_unmarked {place : ℕ} (clears : marked place = false) :
    streak marked (place + 1) = 0 := by
  simp [streak,clears]

theorem le_streak_iff {count place : ℕ} :
    count ≤ streak marked place ↔ count ≤ place ∧ ∀ i, place ≤ i + count → i < place →
    marked i = true := by
  induction place generalizing count with
  | zero =>
    exact ⟨fun none => ⟨none,fun _ _ inside => absurd inside (Nat.not_lt_zero _)⟩,fun window =>
      window.left⟩
  | succ place ih =>
    cases marks : marked place with
    | false =>
      rw [streak_unmarked marks]
      constructor
      · intro none
        exact ⟨by omega,fun i late inside => by omega⟩
      · intro window
        obtain ⟨_,window⟩ := window
        by_contra some
        have last := window place (by omega) (by omega)
        rw [marks] at last
        contradiction
    | true =>
      rw [streak_marked marks]
      cases count with
      | zero => exact ⟨fun _ => ⟨by omega,fun i late inside => by omega⟩,fun _ => Nat.zero_le _⟩
      | succ count =>
        rw [Nat.succ_le_succ_iff,ih,Nat.succ_le_succ_iff]
        constructor
        · intro window
          obtain ⟨room,window⟩ := window
          refine ⟨room,fun i late inside => ?_⟩
          rcases Nat.lt_succ_iff_lt_or_eq.mp inside with earlier | rfl
          · exact window i (by omega) earlier
          · exact marks
        · intro window
          obtain ⟨room,window⟩ := window
          exact ⟨room,fun i late inside => window i (by omega) (by omega)⟩

end YoloEngine.Foundation
