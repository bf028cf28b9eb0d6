import Mathlib.Data.Rat.Floor

/-! Rounding a rational number toward zero: the floor of what is not negative and the
ceiling of what is not positive. -/
namespace YoloEngine.Foundation

def truncate (q : ℚ) : ℤ := q.num.tdiv q.den

theorem truncate_of_nonneg {q : ℚ} (nonneg : 0 ≤ q) : truncate q = ⌊q⌋ := by
  rw [truncate,Int.tdiv_eq_ediv_of_nonneg (Rat.num_nonneg.mpr nonneg),Rat.floor_def']

theorem truncate_intCast {n : ℤ} (nonneg : 0 ≤ n) : truncate n = n := by
  rw [truncate_of_nonneg (by exact_mod_cast nonneg),Int.floor_intCast]

theorem truncate_neg (q : ℚ) : truncate (-q) = -truncate q := by
  rw [truncate,truncate,Rat.num_neg_eq_neg_num,Rat.den_neg_eq_den,Int.neg_tdiv]

theorem truncate_of_nonpos {q : ℚ} (nonpos : q ≤ 0) : truncate q = ⌈q⌉ := by
  have flipped := truncate_neg (-q)
  rw [neg_neg] at flipped
  rw [flipped,truncate_of_nonneg (neg_nonneg.mpr nonpos),Int.floor_neg,neg_neg]

theorem truncate_nonneg {q : ℚ} (nonneg : 0 ≤ q) : 0 ≤ truncate q := by
  rw [truncate_of_nonneg nonneg]
  exact Int.floor_nonneg.mpr nonneg

theorem truncate_le {q : ℚ} (nonneg : 0 ≤ q) : (truncate q : ℚ) ≤ q := by
  rw [truncate_of_nonneg nonneg]
  exact Int.floor_le q

theorem truncate_nonneg_iff {q : ℚ} : 0 ≤ truncate q ↔ -1 < q := by
  rcases le_or_gt 0 q with nonneg | negative
  · exact ⟨fun _ => by linarith,fun _ => truncate_nonneg nonneg⟩
  · rw [truncate_of_nonpos negative.le]
    constructor
    · intro above
      have unit : (-1 : ℤ) < ⌈q⌉ := by omega
      simpa using Int.lt_ceil.mp unit
    · intro above
      have unit : (-1 : ℤ) < ⌈q⌉ := Int.lt_ceil.mpr (by simpa using above)
      omega

theorem truncate_eq_iff {low high : ℚ} (nonneg : 0 ≤ low) (ordered : low ≤ high) :
    truncate high = truncate low ↔ ∀ n : ℤ, (n : ℚ) ≤ high → (n : ℚ) ≤ low := by
  rw [truncate_of_nonneg nonneg,truncate_of_nonneg (nonneg.trans ordered)]
  constructor
  · intro same n below
    rw [← Int.le_floor,← same]
    exact Int.le_floor.mpr below
  · intro unseparated
    apply le_antisymm
    · exact Int.le_floor.mpr (unseparated _ (Int.floor_le high))
    · exact Int.floor_le_floor ordered

/-- Truncating two parts separately never lets their sum pass an integer the parts stay below. -/
theorem truncate_add_le {start extent : ℚ} {limit : ℤ} (nonneg : 0 ≤ start)
    (inside : extent ≤ limit - start) :
    truncate start + truncate extent ≤ limit := by
  rcases le_or_gt 0 extent with positive | negative
  · have first := truncate_le nonneg
    have second := truncate_le positive
    have total : ((truncate start + truncate extent : ℤ) : ℚ) ≤ limit := by
      push_cast
      linarith
    exact_mod_cast total
  · rw [truncate_of_nonneg nonneg,truncate_of_nonpos negative.le]
    have ceiling : ⌈extent⌉ ≤ limit - ⌊start⌋ := by
      calc
        ⌈extent⌉ ≤ ⌈(limit : ℚ) - start⌉ := Int.ceil_le_ceil inside
        _ = limit - ⌊start⌋ := by rw [sub_eq_add_neg,Int.ceil_intCast_add,Int.ceil_neg,← sub_eq_add_neg]
    omega

end YoloEngine.Foundation
