import YoloEngine.Foundation.Machine

/-! Machines built of machines. A component of a larger machine reaches only what it reaches
alone; a relation to another machine that every step keeps carries over to whole runs; and a
number that each step of one party lowers, and no other step raises, bounds that party's steps,
or its steps before a goal. -/
namespace YoloEngine.Foundation.Machine
variable {σ τ ι κ : Type} {machine : Machine σ ι} {guard : σ → ι → Prop}

/-- The invariant rule for steps that also start in a reachable state. -/
theorem Reachable.invariant_of (Inv : σ → Prop) (initial : Inv machine.init)
    (preserved : ∀ before action after, machine.Reachable guard before → Inv before →
      guard before action →
      machine.next before action = some after → Inv after)
    {state : σ} (reachable : machine.Reachable guard state) : Inv state := by
  induction reachable with
  | init => exact initial
  | step earlier allowed taken ih => exact preserved _ _ _ earlier ih allowed taken

theorem Reachable.weaken {weaker : σ → ι → Prop}
    (implied : ∀ state action, guard state action → weaker state action) {state : σ}
    (reachable : machine.Reachable guard state) : machine.Reachable weaker state := by
  induction reachable with
  | init => exact .init
  | step _ allowed taken ih => exact ih.step (implied _ _ allowed) taken

theorem Reachable.logged {ω : Type} (emit : σ → ι → List ω) {state : σ}
    (reachable : machine.Reachable guard state) :
    ∃ log, (machine.logged emit).Reachable (fun entry => guard entry.1) (state,log) := by
  induction reachable with
  | init => exact ⟨[],.init⟩
  | @step before after action _ allowed taken ih =>
    obtain ⟨log,earlier⟩ := ih
    exact ⟨log ++ emit before action,earlier.step allowed (congrArg (Option.map _) taken)⟩

/-- A step of the whole leaves the part alone or is one step of it. -/
def Moves (part : Machine τ κ) (before after : τ) (act : Option κ) : Prop :=
  match act with
  | none => after = before
  | some action => part.next before action = some after

theorem Reachable.component {part : Machine τ κ} {allowed : τ → κ → Prop} (project : σ → τ)
    (acts : σ → ι → Option κ) (initial : project machine.init = part.init)
    (moves : ∀ before action after, machine.next before action = some after →
      part.Moves (project before) (project after) (acts before action))
    (guarded : ∀ before action, guard before action → ∀ act ∈ acts before action,
      allowed (project before) act)
    {state : σ} (reachable : machine.Reachable guard state) :
    part.Reachable allowed (project state) := by
  induction reachable with
  | init => exact initial ▸ .init
  | @step before after action _ permitted taken ih =>
    have moved := moves before action after taken
    cases act : acts before action with
    | none =>
      rw [act] at moved
      rw [show project after = project before from moved]
      exact ih
    | some inner =>
      rw [act] at moved
      exact ih.step (guarded before action permitted inner act) moved

/-- Forward simulation: each step is matched by steps of the other machine, possibly none. -/
theorem Reachable.simulated {other : Machine τ κ} {allowed : τ → κ → Prop} (R : σ → τ → Prop)
    (initial : R machine.init other.init)
    (matched : ∀ before action after spec, machine.Reachable guard before →
      other.Reachable allowed spec →
      R before spec → guard before action → machine.next before action = some after →
      ∃ last, other.Reachable allowed last ∧ R after last)
    {state : σ} (reachable : machine.Reachable guard state) :
    ∃ spec, other.Reachable allowed spec ∧ R state spec := by
  apply reachable.invariant_of (fun state => ∃ spec, other.Reachable allowed spec ∧ R state spec)
  · exact ⟨other.init,.init,initial⟩
  · intro before action after earlier known permitted taken
    obtain ⟨spec,reached,related⟩ := known
    exact matched before action after spec earlier reached related permitted taken

/-- Simulation where a state stands for one state of the other machine for each way to resolve what
is still open. A step says from which resolution of the state before it each resolution of the state
after it comes. -/
theorem Reachable.resolved {ρ : Type} {other : Machine τ κ} {allowed : τ → κ → Prop}
    (R : ρ → σ → τ → Prop) (initial : ∀ resolution, R resolution machine.init other.init)
    (matched : ∀ before action after, machine.Reachable guard before → guard before action →
      machine.next before action = some after → ∀ resolution, ∃ earlier, ∀ spec, R earlier before spec →
        other.Reachable allowed spec → ∃ last, other.Reachable allowed last ∧ R resolution after last)
    {state : σ} (reachable : machine.Reachable guard state) (resolution : ρ) :
    ∃ spec, other.Reachable allowed spec ∧ R resolution state spec := by
  revert resolution
  apply reachable.invariant_of (fun state => ∀ resolution, ∃ spec, other.Reachable allowed spec ∧
    R resolution state spec)
  · exact fun resolution => ⟨other.init,.init,initial resolution⟩
  · intro before action after earlier known permitted taken resolution
    obtain ⟨source,comes⟩ := matched before action after earlier permitted taken resolution
    obtain ⟨spec,reached,related⟩ := known source
    exact comes spec related reached

section Runs
variable [∀ state action, Decidable (guard state action)] {actions : List ι} {first last : σ}

theorem run_invariant (Inv : σ → Prop)
    (preserved : ∀ before action after, Inv before → guard before action →
      machine.next before action = some after →
      Inv after)
    (initial : Inv first) (ran : machine.run guard first actions = some last) : Inv last := by
  induction actions generalizing first with
  | nil => exact Option.some.inj ran ▸ initial
  | cons action rest ih =>
    obtain ⟨after,allowed,taken,ran⟩ := run_cons ran
    exact ih (preserved _ _ _ initial allowed taken) ran

/-- Until the goal is reached, every step of a party lowers its rank and no step raises it: then the
rank bounds the steps of the party before the goal. -/
theorem run_until (Inv goal : σ → Prop) (rank : σ → Nat) (own : ι → Bool)
    (preserved : ∀ before action after, Inv before → guard before action →
      machine.next before action = some after →
      Inv after)
    (remains : ∀ before action after, Inv before → guard before action →
      machine.next before action = some after →
      goal before → goal after)
    (falls : ∀ before action after, Inv before → guard before action →
      machine.next before action = some after →
      goal after ∨ rank after + (if own action then 1 else 0) ≤ rank before)
    (initial : Inv first) (ran : machine.run guard first actions = some last) :
    goal last ∨ actions.countP own + rank last ≤ rank first := by
  induction actions generalizing first with
  | nil =>
    cases Option.some.inj ran
    exact Or.inr (by simp)
  | cons action rest ih =>
    obtain ⟨after,allowed,taken,ran⟩ := run_cons ran
    have kept := preserved _ _ _ initial allowed taken
    rcases falls _ _ _ initial allowed taken with reached | lower
    · have both := run_invariant (fun state => Inv state ∧ goal state)
        (fun before action after known allowed taken => ⟨preserved _ _ _ known.left allowed taken,
          remains _ _ _ known.left allowed taken known.right⟩) ⟨kept,reached⟩ ran
      exact Or.inl both.right
    · refine (ih kept ran).imp_right fun later => ?_
      rw [List.countP_cons]
      omega

/-- Where every step of a party lowers its rank and no step raises it, the rank bounds the party's
steps. -/
theorem run_rank (Inv : σ → Prop) (rank : σ → Nat) (own : ι → Bool)
    (preserved : ∀ before action after, Inv before → guard before action →
      machine.next before action = some after →
      Inv after)
    (falls : ∀ before action after, Inv before → guard before action →
      machine.next before action = some after →
      rank after + (if own action then 1 else 0) ≤ rank before)
    (initial : Inv first) (ran : machine.run guard first actions = some last) :
    actions.countP own + rank last ≤ rank first :=
  (run_until Inv (fun _ => False) rank own preserved (fun _ _ _ _ _ _ never => never)
    (fun _ _ _ known allowed taken =>
      Or.inr (falls _ _ _ known allowed taken)) initial ran).resolve_left id

end Runs
end YoloEngine.Foundation.Machine
