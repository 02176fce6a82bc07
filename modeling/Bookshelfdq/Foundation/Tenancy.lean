import Mathlib.Data.List.Basic
import Mathlib.Logic.Function.Basic

/-! # Tenants of one machine

Each event belongs to the part under one key, and what it answers and changes is that part and a
state that all parts share. An event that leaves the shared state alone cannot be noticed by the
other tenants; one that may change it, but answers from the shared state only, is the same event
whatever its own part holds. -/

namespace Bookshelfdq

structure Tenancy (Key Shared Part Event Output : Type*) where
  owner : Event → Key
  serve : Event → Shared → Part → Output × Shared × Part

namespace Tenancy

variable {Key Shared Part Event Output : Type*}

structure State (Key Shared Part : Type*) where
  shared : Shared
  part : Key → Part

/-- What one tenant can observe of the state. -/
def State.Looks (key : Key) (left right : State Key Shared Part) : Prop :=
  left.shared = right.shared ∧ left.part key = right.part key

/-- The event leaves the shared state alone. -/
def Private (tenancy : Tenancy Key Shared Part Event Output) (event : Event) : Prop :=
  ∀ shared part, (tenancy.serve event shared part).2.1 = shared

/-- What the event answers and makes of the shared state does not depend on its part. -/
def Public (tenancy : Tenancy Key Shared Part Event Output) (event : Event) : Prop :=
  ∀ shared left right, (tenancy.serve event shared left).1 = (tenancy.serve event shared right).1 ∧
    (tenancy.serve event shared left).2.1 = (tenancy.serve event shared right).2.1

section Run

variable [DecidableEq Key] (tenancy : Tenancy Key Shared Part Event Output)

def step (state : State Key Shared Part) (event : Event) : Output × State Key Shared Part :=
  let result := tenancy.serve event state.shared (state.part (tenancy.owner event))
  (result.1, ⟨result.2.1, Function.update state.part (tenancy.owner event) result.2.2⟩)

/-- The events with their outputs, and the state after them. -/
def run : State Key Shared Part → List Event → List (Event × Output) × State Key Shared Part
  | state, [] => ([], state)
  | state, event :: events =>
      let first := tenancy.step state event
      let rest := run first.2 events
      ((event, first.1) :: rest.1, rest.2)

variable {tenancy} {key : Key} {left right : State Key Shared Part} {event : Event}

theorem step_part_of_ne (state : State Key Shared Part) (other : tenancy.owner event ≠ key) :
    (tenancy.step state event).2.part key = state.part key :=
  Function.update_of_ne other.symm _ _

theorem looks_step_of_private (looks : left.Looks key right) (silent : tenancy.Private event)
    (other : tenancy.owner event ≠ key) : (tenancy.step left event).2.Looks key right := by
  constructor
  · exact (silent _ _).trans looks.1
  · rw [step_part_of_ne left other]
    exact looks.2

theorem looks_step_of_own (looks : left.Looks key right) (own : tenancy.owner event = key) :
    (tenancy.step left event).1 = (tenancy.step right event).1 ∧
      (tenancy.step left event).2.Looks key (tenancy.step right event).2 := by
  subst own
  simp [step, State.Looks, looks.1, looks.2]

theorem looks_step_of_public (looks : left.Looks key right) (common : tenancy.Public event)
    (other : tenancy.owner event ≠ key) :
    (tenancy.step left event).1 = (tenancy.step right event).1 ∧
      (tenancy.step left event).2.Looks key (tenancy.step right event).2 := by
  have same := common right.shared (left.part (tenancy.owner event))
    (right.part (tenancy.owner event))
  refine ⟨?_, ?_, ?_⟩
  · rw [step, step, looks.1]
    exact same.1
  · rw [step, step, looks.1]
    exact same.2
  · rw [step_part_of_ne left other, step_part_of_ne right other]
    exact looks.2

/-- Whatever private events of other tenants are left out of a run, the tenant under `key` sees
the same state at its end, and every event that stays has the same output. -/
theorem run_filter (keep : Event → Bool) (events : List Event)
    (kept : ∀ event ∈ events, tenancy.owner event = key → keep event = true)
    (common : ∀ event ∈ events, keep event = true → tenancy.owner event ≠ key →
      tenancy.Public event)
    (dropped : ∀ event ∈ events, keep event = false → tenancy.Private event)
    (looks : left.Looks key right) :
    (tenancy.run left events).1.filter (fun item => keep item.1) =
        (tenancy.run right (events.filter keep)).1 ∧
      (tenancy.run left events).2.Looks key (tenancy.run right (events.filter keep)).2 := by
  induction events generalizing left right with
  | nil => exact ⟨rfl, looks⟩
  | cons event events induction =>
      have rest : ∀ {left right : State Key Shared Part}, left.Looks key right → _ :=
        fun looks => induction (fun later member => kept later (List.mem_cons_of_mem _ member))
          (fun later member => common later (List.mem_cons_of_mem _ member))
          (fun later member => dropped later (List.mem_cons_of_mem _ member)) looks
      cases stays : keep event with
      | false =>
          have other : tenancy.owner event ≠ key := by
            intro own
            rw [kept event List.mem_cons_self own] at stays
            exact Bool.noConfusion stays
          have later := rest (looks_step_of_private looks
            (dropped event List.mem_cons_self stays) other)
          simpa [run, stays] using later
      | true =>
          have first : (tenancy.step left event).1 = (tenancy.step right event).1 ∧
              (tenancy.step left event).2.Looks key (tenancy.step right event).2 := by
            by_cases own : tenancy.owner event = key
            · exact looks_step_of_own looks own
            · exact looks_step_of_public looks (common event List.mem_cons_self stays own) own
          have later := rest first.2
          simp only [run, List.filter_cons, stays, if_true]
          exact ⟨by rw [first.1, later.1], later.2⟩

end Run

end Tenancy

end Bookshelfdq
