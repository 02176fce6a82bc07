import Mathlib.Data.List.DropRight
import Mathlib.Data.List.TakeWhile

/-! # Lists without the elements that pass a test at either end -/

namespace Bookshelfdq

variable {Item : Type u} {test : Item → Bool}

theorem rdropWhile_append_cons {middle : Item} (kept : test middle = false)
    (left right : List Item) :
    (left ++ middle :: right).rdropWhile test = left ++ middle :: right.rdropWhile test := by
  induction right using List.reverseRecOn with
  | nil =>
      rw [List.rdropWhile_concat, if_neg (by simp [kept]), List.rdropWhile_nil]
  | append_singleton right last induction =>
      rw [← List.cons_append, ← List.append_assoc, List.rdropWhile_concat, List.rdropWhile_concat]
      split
      · exact induction
      · rw [List.append_assoc, List.cons_append]

theorem rdropWhile_cons_of_pos {first : Item} (dropped : test first = true) (items : List Item) :
    (first :: items).rdropWhile test =
      if items.rdropWhile test = [] then [] else first :: items.rdropWhile test := by
  rw [List.rdropWhile, List.reverse_cons, List.dropWhile_append, List.rdropWhile]
  cases left : items.reverse.dropWhile test with
  | nil => simp [dropped]
  | cons last others => simp

/-- The list between its first and its last element that does not pass. -/
def trimmed (test : Item → Bool) (items : List Item) : List Item :=
  (items.dropWhile test).rdropWhile test

theorem trimmed_of_dropWhile {items later : List Item} {first : Item}
    (rest : items.dropWhile test = first :: later) :
    test first = false ∧ trimmed test items = first :: later.rdropWhile test := by
  have kept : test first = false := by
    have head := List.head?_dropWhile_not test items
    rw [rest] at head
    simpa using head
  refine ⟨kept, ?_⟩
  rw [trimmed, rest]
  exact rdropWhile_append_cons kept [] later

/-- What a list is: nothing but elements that pass, or these around a trimmed list. -/
theorem trimmed_cases (test : Item → Bool) (items : List Item) :
    ((∀ item ∈ items, test item = true) ∧ trimmed test items = [] ∧
        items.rdropWhile test = []) ∨
      ((∃ item ∈ items, test item = false) ∧ trimmed test items ≠ [] ∧
        items.rdropWhile test = items.takeWhile test ++ trimmed test items) := by
  cases rest : items.dropWhile test with
  | nil =>
      have all := List.dropWhile_eq_nil_iff.mp rest
      refine .inl ⟨all, ?_, List.rdropWhile_eq_nil_iff.mpr all⟩
      rw [trimmed, rest, List.rdropWhile_nil]
  | cons first later =>
      rcases trimmed_of_dropWhile rest with ⟨kept, cut⟩
      have split : items = items.takeWhile test ++ first :: later := by
        rw [← rest, List.takeWhile_append_dropWhile]
      refine .inr ⟨⟨first, ?_, kept⟩, ?_, ?_⟩
      · rw [split]
        exact List.mem_append_right _ List.mem_cons_self
      · rw [cut]
        exact List.cons_ne_nil _ _
      · conv_lhs => rw [split]
        rw [rdropWhile_append_cons kept, cut]

theorem trimmed_subset {items : List Item} : trimmed test items ⊆ items :=
  List.Subset.trans (List.rdropWhile_prefix test _).subset (List.dropWhile_subset _)

theorem length_trimmed_le (test : Item → Bool) (items : List Item) :
    (trimmed test items).length ≤ items.length :=
  (List.rdropWhile_prefix test _).length_le.trans (List.dropWhile_suffix test).length_le

/-- A trimmed list begins and ends with elements that do not pass. -/
theorem trimmed_ends {items : List Item} (some : trimmed test items ≠ []) :
    (∃ first later, trimmed test items = first :: later ∧ test first = false) ∧
      ∃ earlier last, trimmed test items = earlier ++ [last] ∧ test last = false := by
  constructor
  · cases rest : items.dropWhile test with
    | nil =>
        rw [trimmed, rest, List.rdropWhile_nil] at some
        exact absurd rfl some
    | cons first later =>
        rcases trimmed_of_dropWhile rest with ⟨kept, cut⟩
        exact ⟨first, _, cut, kept⟩
  · refine ⟨_, _, (List.dropLast_concat_getLast some).symm, ?_⟩
    exact Bool.eq_false_iff.mpr (List.rdropWhile_last_not test _ some)

end Bookshelfdq
