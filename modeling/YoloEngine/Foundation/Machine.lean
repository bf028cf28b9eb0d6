import Mathlib.Data.List.Basic

/-! Guarded runs of deterministic machines and lockstep simulation of transducers.
A guard restricts which steps a run may take, so one notion of reachability
serves unrestricted runs and runs whose every step meets a condition. -/
namespace YoloEngine.Foundation

/-- `next` is undefined where an action is not enabled. -/
structure Machine (σ ι : Type) where
  init : σ
  next : σ → ι → Option σ

namespace Machine
variable {σ ι : Type} (machine : Machine σ ι)

inductive Reachable (guard : σ → ι → Prop) : σ → Prop
  | init : Reachable guard machine.init
  | step {before after : σ} {action : ι} (earlier : Reachable guard before)
      (allowed : guard before action) (taken : machine.next before action = some after) :
      Reachable guard after

def always : σ → ι → Prop := fun _ _ => True

instance (state : σ) (action : ι) : Decidable (always state action) := .isTrue trivial

variable {machine} {guard : σ → ι → Prop}

theorem Reachable.invariant (Inv : σ → Prop) (initial : Inv machine.init)
    (preserved : ∀ before action after, Inv before → guard before action →
      machine.next before action = some after → Inv after)
    {state : σ} (reachable : machine.Reachable guard state) : Inv state := by
  induction reachable with
  | init => exact initial
  | step _ allowed taken ih => exact preserved _ _ _ ih allowed taken

variable (machine) in
def run (guard : σ → ι → Prop) [∀ state action, Decidable (guard state action)] :
    σ → List ι → Option σ
  | state, [] => some state
  | state, action :: rest =>
    if guard state action then
      match machine.next state action with
      | some after => run guard after rest
      | none => none
    else none

section Runs
variable [∀ state action, Decidable (guard state action)] {first middle last : σ}

theorem run_taken {action : ι} (allowed : guard first action)
    (taken : machine.next first action = some middle) (rest : List ι) : machine.run guard first
    (action :: rest) = machine.run guard middle rest := by
  rw [run,if_pos allowed,taken]

theorem run_cons {action : ι} {rest : List ι}
    (ran : machine.run guard first (action :: rest) = some last) :
    ∃ after, guard first action ∧ machine.next first action = some after ∧
      machine.run guard after rest = some last := by
  simp only [run] at ran
  split at ran
  next allowed =>
    split at ran
    next after taken => exact ⟨after,allowed,taken,ran⟩
    next => contradiction
  next => contradiction

theorem run_append {actions : List ι} (ran : machine.run guard first actions = some middle)
    (rest : List ι) :
    machine.run guard first (actions ++ rest) = machine.run guard middle rest := by
  induction actions generalizing first with
  | nil =>
    cases Option.some.inj ran
    rfl
  | cons action others ih =>
    obtain ⟨after,allowed,taken,remaining⟩ := run_cons ran
    rw [List.cons_append,run_taken allowed taken,ih remaining]

theorem reachable_of_run {actions : List ι} (reachable : machine.Reachable guard first)
    (ran : machine.run guard first actions = some last) : machine.Reachable guard last := by
  induction actions generalizing first with
  | nil =>
    cases Option.some.inj ran
    exact reachable
  | cons action rest ih =>
    obtain ⟨after,allowed,taken,remaining⟩ := run_cons ran
    exact ih (.step reachable allowed taken) remaining

end Runs

/-- The machine that also keeps what its steps emit, in order. -/
def logged {ω : Type} (machine : Machine σ ι) (emit : σ → ι → List ω) : Machine (σ × List ω) ι where
  init := (machine.init,[])
  next entry action := (machine.next entry.1 action).map (fun after =>
      (after,entry.2 ++ emit entry.1 action))

theorem logged_next {ω : Type} {emit : σ → ι → List ω} {entry after : σ × List ω} {action : ι}
    (taken : (machine.logged emit).next entry action = some after) :
    machine.next entry.1 action = some after.1 ∧ after.2 = entry.2 ++ emit entry.1 action := by
  obtain ⟨state,stepped,rfl⟩ := Option.map_eq_some_iff.mp taken
  exact ⟨stepped,rfl⟩

end Machine

structure Transducer (σ ι ο : Type) where
  step : σ → ι → σ × ο

namespace Transducer
variable {σ τ ι ο : Type}

def run (machine : Transducer σ ι ο) : σ → List ι → σ × List ο
  | state, [] => (state,[])
  | state, input :: rest =>
    let (after,output) := machine.step state input
    let (last,outputs) := machine.run after rest
    (last,output :: outputs)

/-- A relation kept by every step under which the outputs agree makes whole runs agree. -/
theorem run_simulates (concrete : Transducer σ ι ο) (abstract : Transducer τ ι ο) (R : σ → τ → Prop)
    (step : ∀ state spec input, R state spec →
      R (concrete.step state input).1 (abstract.step spec input).1 ∧
        (concrete.step state input).2 = (abstract.step spec input).2)
    (inputs : List ι) (state : σ) (spec : τ) (related : R state spec) :
    R (concrete.run state inputs).1 (abstract.run spec inputs).1 ∧
      (concrete.run state inputs).2 = (abstract.run spec inputs).2 := by
  induction inputs generalizing state spec with
  | nil => exact ⟨related,rfl⟩
  | cons input rest ih =>
    obtain ⟨kept,answered⟩ := step state spec input related
    obtain ⟨final,outputs⟩ := ih _ _ kept
    refine ⟨final,?_⟩
    simp only [run,answered,outputs]

end Transducer
end YoloEngine.Foundation
