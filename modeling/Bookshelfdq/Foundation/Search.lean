import Mathlib.Data.List.Basic

/-! # Searching upward

A loop that counts up until a test holds has no bound of its own. It ends if and only if the test
holds of enough numbers. -/

namespace Bookshelfdq.Search

variable (holds : Int → Bool)

/-- The next number that passes, within `fuel` rounds. -/
def next : Nat → Int → Option Int
  | 0, _ => none
  | fuel + 1, number =>
      if holds (number + 1) then some (number + 1) else next fuel (number + 1)

/-- `count` searches, each from where the one before has ended. -/
def advance (bound : Nat) : Nat → Int → Int → Option Int
  | 0, _, _ => none
  | fuel + 1, count, number =>
      if count = 0 then some number
      else match next holds bound number with
        | none => none
        | some found => advance bound fuel (count - 1) found

/-- The numbers that pass, of the `span` numbers behind a number. -/
def passing : Nat → Int → List Int
  | 0, _ => []
  | span + 1, number =>
      if holds (number + 1) then (number + 1) :: passing span (number + 1)
      else passing span (number + 1)

theorem passing_eq_filter (span : Nat) (number : Int) :
    passing holds span number =
      ((List.range span).map fun index : Nat => number + 1 + index).filter holds := by
  induction span generalizing number with
  | zero => rfl
  | succ span induction =>
      have shifted : (List.range span).map (fun index : Nat => number + 1 + ((index + 1 : Nat) : Int)) =
          (List.range span).map fun index : Nat => number + 1 + 1 + (index : Int) := by
        apply List.map_congr_left
        intro index _
        push_cast
        omega
      have first : number + 1 + ((0 : Nat) : Int) = number + 1 := Int.add_zero _
      rw [passing, induction, List.range_succ_eq_map, List.map_cons, List.map_map,
        List.filter_cons, first]
      simp only [Function.comp_def, Nat.succ_eq_add_one, shifted]

variable {holds} {limit : Int} (bounded : ∀ number, limit < number → holds number = false)

include bounded

theorem next_of_ge {number : Int} (above : limit ≤ number) (fuel : Nat) :
    next holds fuel number = none := by
  induction fuel generalizing number with
  | zero => rfl
  | succ fuel induction =>
      rw [next, bounded (number + 1) (by omega)]
      exact induction (by omega)

/-- A search finds the first of the numbers that pass, or does not end. -/
theorem next_cases {span bound : Nat} (enough : span ≤ bound) {number : Int}
    (reaches : number + span = limit) :
    (passing holds span number = [] ∧ next holds bound number = none) ∨
      ∃ found rest, found + (rest : Nat) = limit ∧ rest < span ∧
        passing holds span number = found :: passing holds rest found ∧
        next holds bound number = some found := by
  induction span generalizing bound number with
  | zero => exact .inl ⟨rfl, next_of_ge bounded (by omega) bound⟩
  | succ span induction =>
      cases bound with
      | zero => omega
      | succ bound =>
          rw [passing, next]
          split
          · exact .inr ⟨number + 1, span, by omega, by omega, rfl, rfl⟩
          · rcases @induction bound (by omega) (number + 1) (by omega) with
              none | ⟨found, rest, ends, fewer, passes, finds⟩
            · exact .inl none
            · exact .inr ⟨found, rest, ends, by omega, passes, finds⟩

/-- Searches in a row come to the numbers that pass, one after the other. -/
theorem advance_eq_getElem? {span bound : Nat} (wide : span ≤ bound) {number : Int}
    (reaches : number + span = limit) (count fuel : Nat) (enough : span < fuel) :
    advance holds bound fuel (count + 1) number = (passing holds span number)[count]? := by
  induction count generalizing span fuel number with
  | zero =>
      cases fuel with
      | zero => omega
      | succ fuel =>
          rw [advance, if_neg (by omega)]
          rcases next_cases bounded wide reaches with
            ⟨passes, finds⟩ | ⟨found, rest, ends, fewer, passes, finds⟩
          · rw [passes, finds]
            rfl
          · cases fuel with
            | zero => omega
            | succ fuel =>
                rw [passes, finds]
                dsimp only
                rw [advance, if_pos (by omega)]
                rfl
  | succ count induction =>
      cases fuel with
      | zero => omega
      | succ fuel =>
          rw [advance, if_neg (by omega)]
          rcases next_cases bounded wide reaches with
            ⟨passes, finds⟩ | ⟨found, rest, ends, fewer, passes, finds⟩
          · rw [passes, finds]
            rfl
          · have later := induction (show rest ≤ bound by omega) ends fuel (by omega)
            have counted : ((count + 1 : Nat) : Int) + 1 - 1 = (count : Int) + 1 := by
              push_cast
              omega
            rw [passes, finds]
            dsimp only
            rw [counted, later, List.getElem?_cons_succ]

end Bookshelfdq.Search
