import YoloEngine.Vision.ImageProcessor
import Mathlib.Algebra.BigOperators.Group.List.Basic
import Mathlib.Tactic.Ring

/-! Whether a `TensorBuffer` holds as many elements as its shape says. The count is a product
of `int`s and the shape is reported in 64 bits, so the two agree as long as the product does
not leave the range of `int`; no later use of the buffer changes either. -/
namespace YoloEngine.TensorBuffer
open Foundation.Aborting

/-- What may be done to a buffer after its construction. -/
inductive Use where
  | reset
  | copyFrom (source : List ℚ) (count : Nat)
  | preprocessImage (frame : Mat) (frameId : Nat) (now : Int)

def Use.apply (lib : External) (buffer : TensorBuffer) : Use → Except Abort TensorBuffer
  | .reset => .ok buffer.reset
  | .copyFrom source count => buffer.copyFrom source count
  | .preprocessImage frame frameId now => do
    let (_,buffer) ← ImageProcessor.preprocessImage lib frame frameId buffer now
    return buffer

def applyAll (lib : External) (buffer : TensorBuffer) (uses : List Use) : Except Abort TensorBuffer :=
  uses.foldlM (Use.apply lib) buffer

private theorem apply_layout {lib : External} {buffer after : TensorBuffer} {use : Use}
    (done : Use.apply lib buffer use = .ok after) : after.SameLayout buffer := by
  cases use with
  | reset =>
    cases Except.ok.inj done
    exact ⟨rfl,rfl,rfl⟩
  | copyFrom source count => exact fill_layout done
  | preprocessImage frame frameId now =>
    obtain ⟨⟨processed,filled⟩,prepared,rest⟩ := except_bind_inv done
    cases Except.ok.inj rest
    exact ImageProcessor.preprocessImage_layout prepared

private theorem applyAll_layout {lib : External} {buffer after : TensorBuffer} {uses : List Use}
    (done : applyAll lib buffer uses = .ok after) : after.SameLayout buffer := by
  induction uses generalizing buffer with
  | nil =>
    cases Except.ok.inj done
    exact ⟨rfl,rfl,rfl⟩
  | cons use rest ih =>
    rw [applyAll,List.foldlM_cons] at done
    obtain ⟨next,applied,remaining⟩ := except_bind_inv done
    exact (ih remaining).trans (apply_layout applied)

private theorem copyFrom_elements {buffer replaced : TensorBuffer} {source : List ℚ} {count : Nat}
    (copied : buffer.copyFrom source count = .ok replaced) (i : Nat) :
    replaced.data[i]? = if i < min count buffer.size then source[i]? else buffer.data[i]? := by
  simp only [copyFrom,fill] at copied
  split at copied
  next inside =>
    cases Except.ok.inj copied
    obtain ⟨_,available⟩ := inside
    rw [size]
    have taken : (source.take (min count buffer.totalElements)).length =
      min count buffer.totalElements := by
      rw [List.length_take]
      omega
    by_cases early : i < min count buffer.totalElements
    · rw [if_pos early,List.getElem?_append_left (by rw [taken]; exact early),
        List.getElem?_take_of_lt early]
    · have late : min count buffer.totalElements ≤ i := not_lt.mp early
      rw [if_neg early,List.getElem?_append_right (by rw [taken]; exact late),taken,List.getElem?_drop,
        Nat.add_sub_cancel' late]
  next => contradiction

private theorem narrow32_product (inputSize : Int) :
    narrow32 (narrow32 (1 * 3 * inputSize) * inputSize) = (3 * inputSize * inputSize).bmod (2^32) := by
  rw [narrow32,narrow32,Int.bmod_mul_bmod,one_mul]

/-- A product that wraps to a negative number asks for more than a vector can hold. -/
private theorem elementCount_eq {inputSize : Int} (completed : elementCount inputSize ≤ vectorMaxSize) :
    (elementCount inputSize : Int) = (3 * inputSize * inputSize).bmod (2^32) := by
  have low := Int.le_bmod (x := 3 * inputSize * inputSize) (m := 2^32) (by decide)
  have high := Int.bmod_lt (x := 3 * inputSize * inputSize) (m := 2^32) (by decide)
  unfold elementCount at completed ⊢
  rw [narrow32_product] at completed ⊢
  unfold vectorMaxSize at completed
  omega

private theorem bmod_eq_self_iff {product : Int} (positive : 0 ≤ product) :
    product.bmod (2^32) = product ↔ product < 2^31 := by
  constructor
  · intro same
    have high := Int.bmod_lt (x := product) (m := 2^32) (by decide)
    omega
  · intro small
    exact Int.bmod_eq_of_le (by omega) (by omega)

theorem new_layout {config : ModelConfig} {buffer : TensorBuffer} (created : new config = .ok buffer) :
    buffer.totalElements = elementCount config.inputSize ∧
    elementCount config.inputSize ≤ vectorMaxSize ∧
      buffer.shape = [1,3,config.inputSize,config.inputSize] := by
  simp only [new] at created
  split at created
  next completed =>
    cases Except.ok.inj created
    exact ⟨rfl,completed,rfl⟩
  next => contradiction

/-- The construction completes when the product fits an `int`. -/
theorem new_ok {config : ModelConfig} (positive : 0 < config.inputSize)
    (fits : 3 * config.inputSize * config.inputSize < 2^31) : ∃ buffer, new config = .ok buffer ∧
      (buffer.size : Int) = 3 * config.inputSize * config.inputSize ∧
      buffer.getInputSize = config.inputSize := by
  have nonneg : 0 ≤ 3 * config.inputSize * config.inputSize := by positivity
  have count : (elementCount config.inputSize : Int) = 3 * config.inputSize * config.inputSize := by
    rw [elementCount,narrow32_product,(bmod_eq_self_iff nonneg).mpr fits]
    omega
  have completed : elementCount config.inputSize ≤ vectorMaxSize := by
    rw [vectorMaxSize]
    omega
  exact ⟨_,if_pos completed,count,rfl⟩

/-- The buffer agrees with its shape, after any sequence of uses, exactly when the product fits an
`int`. Its length and what `copyFrom` replaces are right in any case. -/
theorem shape_product_iff (lib : External) {config : ModelConfig} {buffer : TensorBuffer}
    (positive : 0 < config.inputSize) (created : new config = .ok buffer) :
    (∀ uses after, applyAll lib buffer uses = .ok after →
      after.size = after.data.length ∧ (after.size : Int) = after.shape.prod ∧
      ∀ source count replaced, after.copyFrom source count = .ok replaced → ∀ i : Nat,
        replaced.data[i]? = if i < min count after.size then source[i]? else after.data[i]?) ↔
    3 * config.inputSize * config.inputSize < 2^31 := by
  obtain ⟨total,completed,shape⟩ := new_layout created
  have product : buffer.shape.prod = 3 * config.inputSize * config.inputSize := by
    rw [shape]
    simp only [List.prod_cons,List.prod_nil]
    ring
  have nonneg : 0 ≤ 3 * config.inputSize * config.inputSize := by positivity
  have agrees : (buffer.size : Int) = buffer.shape.prod ↔
    3 * config.inputSize * config.inputSize < 2^31 := by
    rw [size,total,product,elementCount_eq completed]
    exact bmod_eq_self_iff nonneg
  constructor
  · intro uses
    exact agrees.mp (uses [] buffer rfl).right.left
  · intro small uses after done
    obtain ⟨same,elements,_⟩ := applyAll_layout done
    refine ⟨after.sized.symm,?_,fun source count replaced copied i => copyFrom_elements copied i⟩
    rw [size,same,elements]
    exact agrees.mpr small

/-- An input of 65536 by 65536 pixels: the product of three times 2^32 wraps to zero. -/
theorem wrappedProduct_disagrees : ∃ config : ModelConfig, ∃ buffer, config.inputSize = 65536 ∧
    new config = .ok buffer ∧ buffer.size = 0 ∧ buffer.shape.prod = 12884901888 ∧
    ¬ (buffer.size : Int) = buffer.shape.prod := by
  refine ⟨⟨65536,80,8400,1 / 4,9 / 20⟩,⟨[],[1,3,65536,65536],0,65536,rfl⟩,rfl,?_,rfl,by decide,
    by decide⟩
  decide +kernel

theorem smallInput_agrees :
    let lib : External := ⟨fun _ _ _ _ _ _ => List.replicate 12 1,fun _ _ => [],fun _ _ _ _ => some []⟩
    ∃ buffer after, new ⟨2,80,8400,1 / 4,9 / 20⟩ = .ok buffer ∧
      applyAll lib buffer [.preprocessImage .released 1 0,.copyFrom [5,6,7] 2,.reset,
        .copyFrom [5,6,7] 3] = .ok after ∧
      (after.size : Int) = after.shape.prod := by
  intro lib
  have created : new ⟨2,80,8400,1 / 4,9 / 20⟩ = .ok ⟨List.replicate 12 0,[1,3,2,2],12,2,rfl⟩ := by
    decide +kernel
  obtain ⟨after,done⟩ : ∃ after, applyAll lib ⟨List.replicate 12 0,[1,3,2,2],12,2,rfl⟩
      [.preprocessImage .released 1 0,.copyFrom [5,6,7] 2,.reset,.copyFrom [5,6,7] 3] =
        .ok after := ⟨_,rfl⟩
  exact ⟨_,after,created,done,((shape_product_iff lib (by decide) created).mpr
    (by decide) _ _ done).right.left⟩

end YoloEngine.TensorBuffer
