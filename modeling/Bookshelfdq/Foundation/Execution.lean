import Mathlib.Data.List.Basic

/-! # Runs of a deterministic machine

A machine is a total step function. `Always` speaks about the states a run
reaches and `Along` about the inputs it is fed, each judged in the state that
receives it. The rules below turn a fact about one step into a fact about every
run. -/

namespace Bookshelfdq.Execution

variable {State : Type u} {Input : Type v}

/-- The state reached by feeding `inputs` to the machine, first input first. -/
def run (step : State → Input → State) : State → List Input → State
  | state, [] => state
  | state, input :: inputs => run step (step state input) inputs

/-- `good` holds in every state of the run, the first and the last included. -/
def Always (step : State → Input → State) (good : State → Prop) :
    State → List Input → Prop
  | state, [] => good state
  | state, input :: inputs =>
      good state ∧ Always step good (step state input) inputs

/-- Every input of the run is acceptable to the state that receives it. -/
def Along (step : State → Input → State) (accepts : State → Input → Prop) :
    State → List Input → Prop
  | _, [] => True
  | state, input :: inputs =>
      accepts state input ∧ Along step accepts (step state input) inputs

variable {step : State → Input → State} {good : State → Prop}
  {accepts meets : State → Input → Prop}

/-- The invariant rule over whole runs. -/
theorem run_invariant (preserved : ∀ state input, good state → good (step state input))
    {state : State} (initial : good state) (inputs : List Input) :
    good (run step state inputs) := by
  induction inputs generalizing state with
  | nil => exact initial
  | cons input inputs induction => exact induction (preserved state input initial)

/-- An invariant that every acceptable input keeps holds after acceptable inputs. -/
theorem run_of_along {inv : State → Prop}
    (preserved : ∀ state input, inv state → accepts state input → inv (step state input))
    {state : State} (initial : inv state) {inputs : List Input}
    (along : Along step accepts state inputs) : inv (run step state inputs) := by
  induction inputs generalizing state with
  | nil => exact initial
  | cons input inputs induction =>
      exact induction (preserved state input initial along.1) along.2

theorem run_append (state : State) (first second : List Input) :
    run step state (first ++ second) = run step (run step state first) second := by
  induction first generalizing state with
  | nil => rfl
  | cons input first induction => exact induction (step state input)

theorem along_append {state : State} {first second : List Input} :
    Along step accepts state (first ++ second) ↔
      Along step accepts state first ∧ Along step accepts (run step state first) second := by
  induction first generalizing state with
  | nil => exact ⟨fun along => ⟨trivial, along⟩, fun both => both.2⟩
  | cons input first induction =>
      rw [List.cons_append, Along, Along, induction, run, and_assoc]

theorem Always.first {state : State} {inputs : List Input}
    (always : Always step good state inputs) : good state := by
  cases inputs with
  | nil => exact always
  | cons input inputs => exact always.1

theorem along_of_forall {acceptable : Input → Prop} {inputs : List Input}
    (each : ∀ input ∈ inputs, acceptable input) {state : State} :
    Along step (fun _ input => acceptable input) state inputs := by
  induction inputs generalizing state with
  | nil => trivial
  | cons input inputs induction =>
      refine ⟨each input List.mem_cons_self, induction ?_⟩
      intro later member
      exact each later (List.mem_cons_of_mem _ member)

/-- An invariant kept by every acceptable input carries what it says of states and of
steps through a run of acceptable inputs. -/
theorem always_and_along_of_along {inv : State → Prop}
    (preserved : ∀ state input, inv state → accepts state input → inv (step state input))
    (sound : ∀ state, inv state → good state)
    (law : ∀ state input, inv state → accepts state input → meets state input)
    {state : State} (initial : inv state) {inputs : List Input}
    (along : Along step accepts state inputs) :
    Always step good state inputs ∧ Along step meets state inputs := by
  induction inputs generalizing state with
  | nil => exact ⟨sound state initial, trivial⟩
  | cons input inputs induction =>
      have rest := induction (preserved state input initial along.1) along.2
      exact ⟨⟨sound state initial, rest.1⟩, ⟨law state input initial along.1, rest.2⟩⟩

theorem always_of_invariant
    (preserved : ∀ state input, good state → good (step state input))
    {state : State} (initial : good state) (inputs : List Input) :
    Always step good state inputs := by
  induction inputs generalizing state with
  | nil => exact initial
  | cons input inputs induction =>
      exact ⟨initial, induction (preserved state input initial)⟩

/-- Under an invariant that every input keeps: when `accepts` says exactly which inputs lead to a
good state, all states of a run are good exactly when all its inputs are acceptable. -/
theorem always_iff_along_of_invariant {inv : State → Prop}
    (preserved : ∀ state input, inv state → inv (step state input))
    (exact_step : ∀ state input, inv state → good state →
      (good (step state input) ↔ accepts state input))
    {state : State} (invariant : inv state) (initial : good state) (inputs : List Input) :
    Always step good state inputs ↔ Along step accepts state inputs := by
  induction inputs generalizing state with
  | nil => exact ⟨fun _ => trivial, fun _ => initial⟩
  | cons input inputs induction =>
      have single := exact_step state input invariant initial
      have later := fun kept => induction (preserved state input invariant) kept
      constructor
      · intro always
        have kept := always.2.first
        exact ⟨single.mp kept, (later kept).mp always.2⟩
      · intro along
        have kept := single.mpr along.1
        exact ⟨initial, (later kept).mpr along.2⟩

/-- When `accepts` says exactly which inputs keep the invariant, a run keeps it
exactly when all its inputs are acceptable. -/
theorem always_iff_along
    (exact_step : ∀ state input, good state → (good (step state input) ↔ accepts state input))
    {state : State} (initial : good state) (inputs : List Input) :
    Always step good state inputs ↔ Along step accepts state inputs :=
  @always_iff_along_of_invariant _ _ step good accepts (fun _ => True) (fun _ _ _ => trivial)
    (fun state input _ => exact_step state input) state trivial initial inputs

/-- A step law that follows from an invariant holds at every step of a run. -/
theorem along_of_invariant
    (preserved : ∀ state input, good state → good (step state input))
    (law : ∀ state input, good state → accepts state input)
    {state : State} (initial : good state) (inputs : List Input) :
    Along step accepts state inputs := by
  induction inputs generalizing state with
  | nil => trivial
  | cons input inputs induction =>
      exact ⟨law state input initial, induction (preserved state input initial)⟩

/-- Two step laws that agree wherever an invariant and a premise hold agree on
whole runs that meet the premise. -/
theorem along_congr_of_along {premise : State → Input → Prop}
    (preserved : ∀ state input, good state → good (step state input))
    (agree : ∀ state input, good state → premise state input →
      (accepts state input ↔ meets state input))
    {state : State} (initial : good state) {inputs : List Input}
    (premises : Along step premise state inputs) :
    Along step accepts state inputs ↔ Along step meets state inputs := by
  induction inputs generalizing state with
  | nil => exact Iff.rfl
  | cons input inputs induction =>
      exact and_congr (agree state input initial premises.1)
        (induction (preserved state input initial) premises.2)

/-- Two step laws that agree wherever an invariant holds agree on whole runs. -/
theorem along_congr (preserved : ∀ state input, good state → good (step state input))
    (agree : ∀ state input, good state → (accepts state input ↔ meets state input))
    {state : State} (initial : good state) (inputs : List Input) :
    Along step accepts state inputs ↔ Along step meets state inputs := by
  have premises : Along step (fun _ _ => True) state inputs :=
    along_of_invariant preserved (fun _ _ _ => trivial) initial inputs
  apply along_congr_of_along preserved _ initial premises
  intro state input holds _
  exact agree state input holds

/-- Over runs whose inputs meet a premise, an invariant and a step law hold
together exactly when a condition holds of every input, provided each single step
is so characterised. -/
theorem always_and_along_iff {inv : State → Prop} {premise law : State → Input → Prop}
    (preserved : ∀ state input, inv state → inv (step state input))
    (exact_step : ∀ state input, inv state → good state → premise state input →
      (good (step state input) ∧ law state input ↔ accepts state input))
    {state : State} (invariant : inv state) (initial : good state) {inputs : List Input}
    (premises : Along step premise state inputs) :
    Always step good state inputs ∧ Along step law state inputs ↔
      Along step accepts state inputs := by
  induction inputs generalizing state with
  | nil => exact ⟨fun _ => trivial, fun _ => ⟨initial, trivial⟩⟩
  | cons input inputs induction =>
      have single := exact_step state input invariant initial premises.1
      have later := fun kept => induction (preserved state input invariant) kept premises.2
      constructor
      · intro both
        rcases both with ⟨always, along⟩
        have kept := always.2.first
        exact ⟨single.mp ⟨kept, along.1⟩, (later kept).mp ⟨always.2, along.2⟩⟩
      · intro along
        have kept := single.mpr along.1
        have rest := (later kept.1).mpr along.2
        exact ⟨⟨initial, rest.1⟩, ⟨kept.2, rest.2⟩⟩

instance Always.decidable [DecidablePred good] (state : State) (inputs : List Input) :
    Decidable (Always step good state inputs) :=
  match inputs with
  | [] => inferInstanceAs (Decidable (good state))
  | input :: inputs =>
      have := Always.decidable (step state input) inputs
      inferInstanceAs (Decidable (_ ∧ _))

instance Along.decidable [∀ state input, Decidable (accepts state input)] (state : State)
    (inputs : List Input) : Decidable (Along step accepts state inputs) :=
  match inputs with
  | [] => inferInstanceAs (Decidable True)
  | input :: inputs =>
      have := Along.decidable (step state input) inputs
      inferInstanceAs (Decidable (_ ∧ _))

end Bookshelfdq.Execution
