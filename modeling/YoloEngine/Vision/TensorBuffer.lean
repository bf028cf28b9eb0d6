import YoloEngine.Vision.Types

/-! The input tensor that is allocated once and overwritten for every frame. -/
namespace YoloEngine

structure TensorBuffer where
  data : List ℚ
  shape : List Int
  totalElements : Nat
  inputSize : Int
  sized : data.length = totalElements
  deriving DecidableEq

namespace TensorBuffer

def vectorMaxSize : Nat := 2^61 - 1

/-- `1 * 3 * input_size * input_size` in `int`, then converted to `size_t`. -/
def elementCount (inputSize : Int) : Nat :=
  (narrow32 (narrow32 (1 * 3 * inputSize) * inputSize) % 2^64).toNat

def new (config : ModelConfig) : Except Abort TensorBuffer :=
  let totalElements := elementCount config.inputSize
  if totalElements ≤ vectorMaxSize then
    .ok ⟨List.replicate totalElements 0,[1,3,config.inputSize,config.inputSize],totalElements,
      config.inputSize,List.length_replicate⟩
  else .error .exception

def size (buffer : TensorBuffer) : Nat := buffer.totalElements

def getInputSize (buffer : TensorBuffer) : Int := buffer.inputSize

def reset (buffer : TensorBuffer) : TensorBuffer :=
  { buffer with data := buffer.data.map (fun _ => 0), sized := by rw [List.length_map,buffer.sized] }

/-- `memcpy` of `count` floats into the tensor, defined within both blocks. -/
def fill (buffer : TensorBuffer) (source : List ℚ) (count : Nat) : Except Abort TensorBuffer :=
  if inside : count ≤ buffer.data.length ∧ count ≤ source.length then
    .ok { buffer with
      data := source.take count ++ buffer.data.drop count
      sized := by
        rw [← buffer.sized]
        simp
        omega }
  else .error .undefined

def copyFrom (buffer : TensorBuffer) (source : List ℚ) (count : Nat) : Except Abort TensorBuffer :=
  let copySize := min count buffer.totalElements
  buffer.fill source copySize

def SameLayout (first second : TensorBuffer) : Prop :=
  first.shape = second.shape ∧ first.totalElements = second.totalElements ∧
  first.inputSize = second.inputSize

theorem SameLayout.trans {first second third : TensorBuffer} (start : first.SameLayout second)
    (rest : second.SameLayout third) : first.SameLayout third :=
  ⟨start.left.trans rest.left,start.right.left.trans rest.right.left,
    start.right.right.trans rest.right.right⟩

/-- Filling the whole tensor leaves nothing of what it held. -/
theorem fill_size {first second : TensorBuffer} (same : first.SameLayout second) (source : List ℚ) :
    first.fill source first.size = second.fill source second.size := by
  obtain ⟨firstData,shape,total,input,firstSized⟩ := first
  obtain ⟨secondData,_,_,_,secondSized⟩ := second
  obtain ⟨rfl,rfl,rfl⟩ := same
  have firstGone : firstData.drop total = [] := List.drop_eq_nil_of_le (Nat.le_of_eq firstSized)
  have secondGone : secondData.drop total = [] := List.drop_eq_nil_of_le (Nat.le_of_eq secondSized)
  simp only [fill,size,firstSized,secondSized,firstGone,secondGone]

theorem fill_ok {buffer : TensorBuffer} {source : List ℚ} (exact : source.length = buffer.size) :
    ∃ filled, buffer.fill source buffer.size = .ok filled ∧ filled.data = source := by
  have inside : buffer.size ≤ buffer.data.length ∧ buffer.size ≤ source.length :=
    ⟨buffer.sized.ge,exact.ge⟩
  refine ⟨_,dif_pos inside,?_⟩
  have gone : buffer.data.drop buffer.size = [] := List.drop_eq_nil_of_le (Nat.le_of_eq buffer.sized)
  have whole : source.take buffer.size = source := List.take_of_length_le exact.le
  simp only [gone,whole,List.append_nil]

theorem fill_layout {buffer filled : TensorBuffer} {source : List ℚ} {count : Nat}
    (copied : buffer.fill source count = .ok filled) : filled.SameLayout buffer := by
  unfold fill at copied
  split at copied
  next inside =>
    cases Except.ok.inj copied
    exact ⟨rfl,rfl,rfl⟩
  next => contradiction

end TensorBuffer
end YoloEngine
