import Bookshelfdq.Foundation.Execution
import Mathlib.Data.List.Infix
import Mathlib.Tactic.ByContra

/-! # Since when a property holds

A property that a run ends with, and did not begin with, came about with one of its inputs and has
held since. -/

namespace Bookshelfdq.Execution

variable {State : Type u} {Input : Type v} {step : State → Input → State}

/-- The input that brought the property about for the last time. -/
theorem exists_since (holds : State → Prop) {state : State} (absent : ¬ holds state) {inputs : List Input}
    (present : holds (run step state inputs)) :
    ∃ earlier input later, inputs = earlier ++ input :: later ∧
      ¬ holds (run step state earlier) ∧
      ∀ middle, middle <+: later → holds (run step state (earlier ++ input :: middle)) := by
  induction inputs using List.reverseRecOn with
  | nil => exact absurd present absent
  | append_singleton inputs last induction =>
      by_cases before : holds (run step state inputs)
      · rcases induction before with ⟨earlier, input, later, rfl, came, since⟩
        refine ⟨earlier, input, later ++ [last], by simp, came, ?_⟩
        intro middle begins
        rcases List.prefix_concat_iff.mp begins with rfl | begins
        · simpa using present
        · exact since middle begins
      · refine ⟨inputs, last, [], rfl, before, ?_⟩
        intro middle begins
        rw [List.prefix_nil.mp begins]
        exact present

end Bookshelfdq.Execution
