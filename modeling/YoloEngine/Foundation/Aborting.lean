import Mathlib.Data.List.Basic

/-! Stateful computations that may abort, and then leave the state as far as it had got.
`Keeps` is an invariant that holds however the computation ends; `Interrupts` says that a
computation does what another one does unless it is cut short. -/
namespace YoloEngine.Foundation.Aborting
variable {ε σ α β : Type}

def final : EStateM.Result ε σ α → σ
  | .ok _ state => state
  | .error _ state => state

theorem except_bind_ok {x : Except ε α} {value : α} (ran : x = .ok value) (f : α → Except ε β) :
    (x >>= f) = f value := by
  rw [ran]
  rfl

theorem except_bind_error {x : Except ε α} {abort : ε} (ran : x = .error abort) (f : α → Except ε β) :
    (x >>= f) = .error abort := by
  rw [ran]
  rfl

theorem except_bind_inv {x : Except ε α} {f : α → Except ε β} {result : β}
    (ran : (x >>= f) = .ok result) :
    ∃ value, x = .ok value ∧ f value = .ok result := by
  cases x with
  | error abort => contradiction
  | ok value => exact ⟨value,rfl,ran⟩

theorem foldlM_except_ok {step : β → α → Except ε β} {next : β → α → β} (items : List α)
    (each : ∀ item ∈ items, ∀ value, step value item = .ok (next value item)) (value : β) :
    items.foldlM step value = .ok (items.foldl next value) := by
  induction items generalizing value with
  | nil => rfl
  | cons item rest ih =>
    rw [List.foldlM_cons,except_bind_ok (each item (by simp) value),List.foldl_cons]
    exact ih (fun other member => each other (by simp [member])) _

/-- Every round of a fold that ended has ended. -/
theorem foldlM_each {step : β → α → Except ε β} {items : List α} {value result : β}
    (ran : items.foldlM step value = .ok result) : ∀ item ∈ items, ∃ before after,
    step before item = .ok after := by
  induction items generalizing value with
  | nil => exact nofun
  | cons item rest ih =>
    rw [List.foldlM_cons] at ran
    obtain ⟨middle,first,remaining⟩ := except_bind_inv ran
    intro other member
    rcases List.mem_cons.mp member with rfl | later
    · exact ⟨value,middle,first⟩
    · exact ih remaining other later

/-- A counted loop whose rounds take it through the given values. -/
theorem foldlM_rounds {step : β → ℕ → Except ε β} (value : ℕ → β) {count : ℕ}
    (round : ∀ k < count, step (value k) k = .ok (value (k + 1))) :
    (List.range count).foldlM step (value 0) = .ok (value count) := by
  induction count with
  | zero => rfl
  | succ count ih =>
    have earlier := ih fun k before => round k (Nat.lt_succ_of_lt before)
    rw [List.range_succ,List.foldlM_append,except_bind_ok earlier,List.foldlM_cons,
      except_bind_ok (round count (Nat.lt_succ_self count))]
    rfl

theorem bind_ok {x : EStateM ε σ α} {state after : σ} {value : α} (ran : x state = .ok value after)
    (f : α → EStateM ε σ β) : (x >>= f) state = f value after := by
  simp [bind,EStateM.bind,ran]

theorem bind_error {x : EStateM ε σ α} {state after : σ} {abort : ε}
    (ran : x state = .error abort after) (f : α → EStateM ε σ β) :
    (x >>= f) state = .error abort after := by
  simp [bind,EStateM.bind,ran]

theorem bind_inv {x : EStateM ε σ α} {f : α → EStateM ε σ β} {state last : σ} {result : β}
    (ran : (x >>= f) state = .ok result last) :
    ∃ value after, x state = .ok value after ∧ f value after = .ok result last := by
  cases first : x state with
  | ok value after => exact ⟨value,after,rfl,(bind_ok first f).symm.trans ran⟩
  | error abort after =>
    rw [bind_error first] at ran
    contradiction

def Keeps (Inv : σ → Prop) (x : EStateM ε σ α) : Prop := ∀ state, Inv state → Inv (final (x state))

theorem keeps_pure (Inv : σ → Prop) (value : α) : Keeps Inv (pure value : EStateM ε σ α) :=
  fun _ holds => holds

theorem keeps_get (Inv : σ → Prop) : Keeps Inv (get : EStateM ε σ σ) := fun _ holds => holds

theorem keeps_throw (Inv : σ → Prop) (abort : ε) : Keeps Inv (throw abort : EStateM ε σ α) :=
  fun _ holds => holds

theorem keeps_liftExcept (Inv : σ → Prop) (result : Except ε α) :
    Keeps Inv (liftExcept result : EStateM ε σ α) := by
  intro state holds
  cases result <;> exact holds

theorem final_bind {Inv : σ → Prop} {x : EStateM ε σ α} {f : α → EStateM ε σ β} {state : σ}
    (first : Inv (final (x state))) (rest : ∀ value, Keeps Inv (f value)) :
    Inv (final ((x >>= f) state)) := by
  cases ran : x state with
  | ok value after =>
    rw [ran] at first
    rw [bind_ok ran]
    exact rest value after first
  | error abort after =>
    rw [ran] at first
    rw [bind_error ran]
    exact first

theorem Keeps.bind {Inv : σ → Prop} {x : EStateM ε σ α} {f : α → EStateM ε σ β} (first : Keeps Inv x)
    (rest : ∀ value, Keeps Inv (f value)) : Keeps Inv (x >>= f) :=
  fun state holds => final_bind (first state holds) rest

theorem keeps_forM {Inv : σ → Prop} {f : α → EStateM ε σ PUnit} (each : ∀ item, Keeps Inv (f item))
    (items : List α) : Keeps Inv (forM items f) := by
  induction items with
  | nil => exact keeps_pure Inv _
  | cons item rest ih =>
    rw [List.forM_cons]
    exact (each item).bind (fun _ => ih)

theorem keeps_foldlM {Inv : σ → Prop} {f : β → α → EStateM ε σ β}
    (each : ∀ value item, Keeps Inv (f value item)) (items : List α) (value : β) :
    Keeps Inv (items.foldlM f value) := by
  induction items generalizing value with
  | nil => exact keeps_pure Inv value
  | cons item rest ih =>
    rw [List.foldlM_cons]
    exact (each value item).bind ih

def Interrupts (abort : ε) (x y : EStateM ε σ α) : Prop :=
  ∀ state, x state = y state ∨ ∃ reached, x state = .error abort reached

theorem interrupts_refl (abort : ε) (x : EStateM ε σ α) : Interrupts abort x x := fun _ => Or.inl rfl

theorem Interrupts.bind {abort : ε} {x y : EStateM ε σ α} {f g : α → EStateM ε σ β}
    (first : Interrupts abort x y) (rest : ∀ value, Interrupts abort (f value) (g value)) :
    Interrupts abort (x >>= f) (y >>= g) := by
  intro state
  rcases first state with same | ⟨reached,cut⟩
  · cases ran : y state with
    | ok value after =>
      rw [bind_ok (same.trans ran),bind_ok ran]
      exact rest value after
    | error other after =>
      rw [bind_error (same.trans ran),bind_error ran]
      exact Or.inl rfl
  · exact Or.inr ⟨reached,bind_error cut _⟩

theorem interrupts_forM {abort : ε} {f g : α → EStateM ε σ PUnit}
    (each : ∀ item, Interrupts abort (f item) (g item)) (items : List α) :
    Interrupts abort (forM items f) (forM items g) := by
  induction items with
  | nil => exact interrupts_refl abort _
  | cons item rest ih =>
    rw [List.forM_cons,List.forM_cons]
    exact (each item).bind (fun _ => ih)

theorem interrupts_foldlM {abort : ε} {f g : β → α → EStateM ε σ β}
    (each : ∀ value item, Interrupts abort (f value item) (g value item)) (items : List α)
    (value : β) :
    Interrupts abort (items.foldlM f value) (items.foldlM g value) := by
  induction items generalizing value with
  | nil => exact interrupts_refl abort _
  | cons item rest ih =>
    rw [List.foldlM_cons,List.foldlM_cons]
    exact (each value item).bind ih

theorem forM_ok {f : α → EStateM ε σ PUnit} {next : σ → α → σ} (items : List α)
    (each : ∀ item ∈ items, ∀ state, f item state = .ok ⟨⟩ (next state item)) (state : σ) :
    forM items f state = .ok ⟨⟩ (items.foldl next state) := by
  induction items generalizing state with
  | nil => rfl
  | cons item rest ih =>
    rw [List.forM_cons,bind_ok (each item (by simp) state),List.foldl_cons]
    exact ih (fun other member => each other (by simp [member])) _

theorem forM_inv {f : α → EStateM ε σ PUnit} {next : σ → α → σ} {items : List α}
    (each : ∀ item ∈ items, ∀ state after, f item state = .ok ⟨⟩ after → after = next state item)
    {state after : σ}
    (ran : forM items f state = .ok ⟨⟩ after) : after = items.foldl next state := by
  induction items generalizing state with
  | nil =>
    cases ran
    rfl
  | cons item rest ih =>
    rw [List.forM_cons] at ran
    obtain ⟨_,middle,first,remaining⟩ := bind_inv ran
    rw [List.foldl_cons,← each item (by simp) state middle first]
    exact ih (fun other member => each other (by simp [member])) remaining

/-- Every round of a loop that ended has ended. -/
theorem forM_each {f : α → EStateM ε σ PUnit} {items : List α} {state after : σ}
    (ran : forM items f state = .ok ⟨⟩ after) : ∀ item ∈ items, ∃ before next, f item before =
      .ok ⟨⟩ next := by
  induction items generalizing state with
  | nil => exact nofun
  | cons item rest ih =>
    rw [List.forM_cons] at ran
    obtain ⟨_,middle,first,remaining⟩ := bind_inv ran
    intro other member
    rcases List.mem_cons.mp member with rfl | later
    · exact ⟨state,middle,first⟩
    · exact ih remaining other later

theorem liftExcept_inv {result : Except ε α} {state after : σ} {value : α}
    (ran : (liftExcept result : EStateM ε σ α) state = .ok value after) :
    result = .ok value ∧ after = state := by
  cases result with
  | error abort => contradiction
  | ok returned =>
    cases ran
    exact ⟨rfl,rfl⟩

end YoloEngine.Foundation.Aborting
