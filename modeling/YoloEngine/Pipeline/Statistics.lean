import YoloEngine.Foundation.OrderStatistic
import YoloEngine.Foundation.Truncate
import YoloEngine.Pipeline.Consumer
import Mathlib.Algebra.Order.BigOperators.Group.List

/-! What `LatencyTracker` prints. The latencies are sorted first, so nothing printed depends on
the order in which they were recorded; a percentile is the element at a fraction of the length. -/
namespace YoloEngine.LatencyTracker
open Foundation Foundation.Aborting

/-- The printed numbers; dividing by an average of zero prints an infinite rate. -/
structure Stats where
  framesProcessed : Nat
  fps : Option ℚ
  avg : ℚ
  minLatency : Int
  maxLatency : Int
  p50 : Int
  p99 : Int
  p999 : Int
  deriving DecidableEq

inductive Printed where
  | noDataRecorded (name : String)
  | stats (name : String) (stats : Stats)
  deriving DecidableEq

def int64 (value : Int) : Except Abort Int :=
  if -2^63 ≤ value ∧ value < 2^63 then .ok value else .error .undefined

def accumulate (values : List Int) : Except Abort Int :=
  values.foldlM (fun total value => int64 (total + value)) 0

def getPercentile (sortedLat : List Int) (p : ℚ) : Except Abort Int :=
  let n := sortedLat.length
  let idx := truncate (n * p)
  let idx := if idx ≥ n then (n : Int) - 1 else idx
  elementAt sortedLat idx

def printStats (latenciesUs : List Int) (name : String) : Except Abort Printed := do
  if latenciesUs.isEmpty then return .noDataRecorded name
  else
    let sortedLat := latenciesUs.insertionSort (· ≤ ·)
    let n := sortedLat.length
    let totalTime ← accumulate sortedLat
    let avg : ℚ := totalTime / n
    let fps := if avg = 0 then none else some (1000000 / avg)
    let front ← elementAt sortedLat 0
    let back ← elementAt sortedLat ((n : Int) - 1)
    let p50 ← getPercentile sortedLat (1 / 2)
    let p99 ← getPercentile sortedLat (99 / 100)
    let p999 ← getPercentile sortedLat (999 / 1000)
    return .stats name ⟨n,fps,avg,front,back,p50,p99,p999⟩

def PartialSumsFit (values : List Int) : Prop :=
  ∀ k ≤ values.length, -2^63 ≤ (values.take k).sum ∧ (values.take k).sum < 2^63

theorem accumulate_ok {values : List Int} (fits : PartialSumsFit values) :
    accumulate values = .ok values.sum := by
  have steps : ∀ k ≤ values.length, accumulate (values.take k) = .ok (values.take k).sum := by
    intro k
    induction k with
    | zero => exact fun _ => rfl
    | succ k ih =>
      intro inside
      have next := List.take_concat_get' values k (by omega)
      have before := ih (by omega)
      have room := fits (k + 1) inside
      rw [← next,List.sum_append,List.sum_singleton] at room ⊢
      rw [accumulate,List.foldlM_append]
      rw [accumulate] at before
      rw [except_bind_ok before,List.foldlM_cons,int64,if_pos room]
      rfl
  have whole := steps values.length (Nat.le_refl _)
  rwa [List.take_length] at whole

section Sorted
variable {sortedLat : List Int}

theorem getPercentile_rank (recorded : sortedLat ≠ []) {p : ℚ} (nonneg : 0 ≤ p) :
    ∃ value, sortedLat[rank sortedLat.length p]? = some value ∧
    getPercentile sortedLat p = .ok value := by
  have positive : 0 < sortedLat.length := List.length_pos_iff.mpr recorded
  have product : (0 : ℚ) ≤ sortedLat.length * p := mul_nonneg (Nat.cast_nonneg _) nonneg
  have found := List.getElem?_eq_getElem (rank_lt positive p)
  refine ⟨_,found,?_⟩
  have floor : truncate (sortedLat.length * p) = (⌊(sortedLat.length : ℚ) * p⌋₊ : Int) := by
    rw [truncate_of_nonneg product,Int.natCast_floor_eq_floor product]
  have place : (if truncate (sortedLat.length * p) ≥ sortedLat.length then (sortedLat.length : Int) - 1
      else truncate (sortedLat.length * p)) = (rank sortedLat.length p : Int) := by
    rw [floor,rank]
    split <;> omega
  simp only [getPercentile,place]
  exact elementAt_ok found

theorem getPercentile_counts (ordered : sortedLat.Pairwise (· ≤ ·)) (recorded : sortedLat ≠ [])
    {p : ℚ} (nonneg : 0 ≤ p)
    (whole : p ≤ 1) : ∃ value, getPercentile sortedLat p = .ok value ∧ value ∈ sortedLat ∧
      (sortedLat.countP (· < value) : ℚ) ≤ sortedLat.length * p ∧
      sortedLat.length * p ≤ sortedLat.countP (· ≤ value) := by
  have positive : 0 < sortedLat.length := List.length_pos_iff.mpr recorded
  obtain ⟨value,found,percentile⟩ := getPercentile_rank recorded nonneg
  have below : (sortedLat.countP (· < value) : ℚ) ≤ rank sortedLat.length p := by
    exact_mod_cast countP_below_le ordered found
  have upTo : (rank sortedLat.length p : ℚ) + 1 ≤ sortedLat.countP (· ≤ value) := by
    exact_mod_cast lt_countP_upTo ordered found
  exact ⟨value,percentile,List.mem_of_getElem? found,below.trans (rank_le nonneg),
    (le_rank_succ positive whole).trans upTo⟩

theorem getPercentile_mono (ordered : sortedLat.Pairwise (· ≤ ·)) (recorded : sortedLat ≠ [])
    {p q : ℚ} (nonneg : 0 ≤ p) (larger : p ≤ q) {low high : Int}
    (atLow : getPercentile sortedLat p = .ok low)
    (atHigh : getPercentile sortedLat q = .ok high) : low ≤ high := by
  obtain ⟨_,foundLow,percentile⟩ := getPercentile_rank recorded nonneg
  cases Except.ok.inj (percentile.symm.trans atLow)
  obtain ⟨_,foundHigh,percentile⟩ := getPercentile_rank recorded (nonneg.trans larger)
  cases Except.ok.inj (percentile.symm.trans atHigh)
  exact le_of_places ordered (rank_mono larger) foundLow foundHigh

theorem extremes_ok (ordered : sortedLat.Pairwise (· ≤ ·)) (recorded : sortedLat ≠ []) :
    ∃ front back, elementAt sortedLat 0 = .ok front ∧
    elementAt sortedLat ((sortedLat.length : Int) - 1) = .ok back ∧
      front ∈ sortedLat ∧ back ∈ sortedLat ∧ ∀ value ∈ sortedLat, front ≤ value ∧ value ≤ back := by
  have positive : 0 < sortedLat.length := List.length_pos_iff.mpr recorded
  have first := List.getElem?_eq_getElem positive
  have last := List.getElem?_eq_getElem (Nat.sub_lt positive Nat.one_pos)
  have place : ((sortedLat.length - 1 : ℕ) : Int) = (sortedLat.length : Int) - 1 := by omega
  refine ⟨_,_,elementAt_ok first,place ▸ elementAt_ok last,List.mem_of_getElem? first,
    List.mem_of_getElem? last,?_⟩
  intro value member
  obtain ⟨i,found⟩ := List.mem_iff_getElem?.mp member
  obtain ⟨inside,_⟩ := List.getElem?_eq_some_iff.mp found
  exact ⟨le_of_places ordered (Nat.zero_le _) first found,le_of_places ordered (by omega) found last⟩

theorem average_bounds (recorded : sortedLat ≠ []) {low high : Int}
    (below : ∀ value ∈ sortedLat, low ≤ value) (above : ∀ value ∈ sortedLat, value ≤ high) :
    (low : ℚ) ≤ sortedLat.sum / sortedLat.length ∧ (sortedLat.sum : ℚ) / sortedLat.length ≤ high := by
  have positive : (0 : ℚ) < sortedLat.length := by exact_mod_cast List.length_pos_iff.mpr recorded
  have least := List.card_nsmul_le_sum sortedLat low below
  have most := List.sum_le_card_nsmul sortedLat high above
  rw [nsmul_eq_mul] at least most
  constructor
  · rw [le_div_iff₀ positive,mul_comm]
    exact_mod_cast least
  · rw [div_le_iff₀ positive,mul_comm]
    exact_mod_cast most

end Sorted

theorem printStats_perm {first second : List Int} (reordered : first.Perm second) (name : String) :
    printStats first name = printStats second name := by
  have sorted : first.insertionSort (· ≤ ·) = second.insertionSort (· ≤ ·) := by
    apply List.Perm.eq_of_sortedLE List.sortedLE_insertionSort List.sortedLE_insertionSort
    exact (List.perm_insertionSort _ first).trans
      (reordered.trans (List.perm_insertionSort _ second).symm)
  rw [printStats,printStats,sorted,reordered.isEmpty_eq]

/-- Percentiles are recorded values with the right share on either side, they and the average lie in
order between the extremes, and nothing depends on the order of recording. -/
theorem printStats_sound (latenciesUs : List Int) (recorded : latenciesUs ≠ [])
    (fits : PartialSumsFit (latenciesUs.insertionSort (· ≤ ·))) (name : String) :
    let sortedLat := latenciesUs.insertionSort (· ≤ ·)
    (∀ p, 0 ≤ p → p ≤ 1 → ∃ value, getPercentile sortedLat p = .ok value ∧ value ∈ latenciesUs ∧
      (latenciesUs.countP (· < value) : ℚ) ≤ latenciesUs.length * p ∧
      latenciesUs.length * p ≤ latenciesUs.countP (· ≤ value)) ∧
    (∀ p q low high, 0 ≤ p → p ≤ q → getPercentile sortedLat p = .ok low →
      getPercentile sortedLat q = .ok high →
      low ≤ high) ∧
    ∃ stats, (∀ other, other.Perm latenciesUs → printStats other name = .ok (.stats name stats)) ∧
      stats.framesProcessed = latenciesUs.length ∧
      getPercentile sortedLat (1 / 2) = .ok stats.p50 ∧
      getPercentile sortedLat (99 / 100) = .ok stats.p99 ∧
      getPercentile sortedLat (999 / 1000) = .ok stats.p999 ∧
      stats.minLatency ∈ latenciesUs ∧ stats.maxLatency ∈ latenciesUs ∧
      (∀ value ∈ latenciesUs, stats.minLatency ≤ value ∧ value ≤ stats.maxLatency) ∧
      stats.minLatency ≤ stats.p50 ∧ stats.p50 ≤ stats.p99 ∧ stats.p99 ≤ stats.p999 ∧
      stats.p999 ≤ stats.maxLatency ∧
      stats.avg = latenciesUs.sum / latenciesUs.length ∧
      stats.minLatency ≤ stats.avg ∧ stats.avg ≤ stats.maxLatency := by
  intro sortedLat
  have same : sortedLat.Perm latenciesUs := List.perm_insertionSort _ _
  have ordered : sortedLat.Pairwise (· ≤ ·) := List.pairwise_insertionSort _ _
  have filled : sortedLat ≠ [] := fun none => recorded (List.perm_nil.mp (none ▸ same.symm))
  have length := same.length_eq
  have percentile (p : ℚ) (nonneg : 0 ≤ p) (whole : p ≤ 1) :=
    getPercentile_counts ordered filled nonneg whole
  have mono {p q : ℚ} {low high : Int} (nonneg : 0 ≤ p) (larger : p ≤ q)
    (atLow : getPercentile sortedLat p = .ok low)
      (atHigh : getPercentile sortedLat q = .ok high) : low ≤ high :=
    getPercentile_mono ordered filled nonneg larger atLow atHigh
  refine ⟨?_,fun p q low high nonneg larger => mono nonneg larger,?_⟩
  · intro p nonneg whole
    obtain ⟨value,found,member,below,upTo⟩ := percentile p nonneg whole
    rw [same.countP_eq,length] at below upTo
    exact ⟨value,found,same.mem_iff.mp member,below,upTo⟩
  · obtain ⟨front,back,first,last,frontMember,backMember,bounds⟩ := extremes_ok ordered filled
    obtain ⟨p50,half,halfMember,_⟩ := percentile (1 / 2) (by norm_num) (by norm_num)
    obtain ⟨p99,high,_⟩ := percentile (99 / 100) (by norm_num) (by norm_num)
    obtain ⟨p999,highest,highestMember,_⟩ := percentile (999 / 1000) (by norm_num) (by norm_num)
    have total := accumulate_ok fits
    have average := average_bounds filled (fun value member => (bounds value member).left)
      (fun value member => (bounds value member).right)
    let avg : ℚ := sortedLat.sum / sortedLat.length
    have printed : printStats latenciesUs name = .ok (.stats name ⟨sortedLat.length,
        if avg = 0 then none else some (1000000 / avg),avg,front,back,p50,p99,p999⟩) := by
      rw [printStats,if_neg (by simpa using recorded),except_bind_ok total,except_bind_ok first,
        except_bind_ok last,except_bind_ok half,except_bind_ok high,except_bind_ok highest]
      rfl
    refine ⟨_,fun other reordered => (printStats_perm reordered name).trans printed,length,half,
      high,highest,same.mem_iff.mp frontMember,same.mem_iff.mp backMember,fun value member =>
        bounds value (same.mem_iff.mpr member),
      (bounds p50 halfMember).left,mono (by norm_num) (by norm_num) half high,
      mono (by norm_num) (by norm_num) high highest,(bounds p999 highestMember).right,?_,average⟩
    rw [← same.sum_eq,← length]

theorem threeLatencies_sound : ∃ stats, printStats [7,9,5] "e2e" = .ok (.stats "e2e" stats) ∧
    stats = ⟨3,some (1000000 / 7),7,5,9,7,9,9⟩ ∧ stats.minLatency ≤ stats.avg := by
  have fits : PartialSumsFit ([9,5,7].insertionSort (· ≤ ·)) := by
    unfold PartialSumsFit
    decide
  obtain ⟨_,_,stats,printed,_,_,_,_,_,_,_,_,_,_,_,_,least,_⟩ :=
    printStats_sound [9,5,7] (by decide) fits "e2e"
  have reordered := printed [7,9,5] (by decide)
  have computed : printStats [7,9,5] "e2e" =
    .ok (.stats "e2e" ⟨3,some (1000000 / 7),7,5,9,7,9,9⟩) := by decide +kernel
  have same := Except.ok.inj (reordered.symm.trans computed)
  exact ⟨stats,reordered,(Printed.stats.inj same).right,least⟩

end YoloEngine.LatencyTracker
