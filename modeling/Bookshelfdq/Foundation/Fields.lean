import Mathlib.Data.List.TakeWhile

/-! # Lists split at a separator

The fields of a list, by what lies before and behind its first separator, and loops that ask for one
field after the other. -/

namespace Bookshelfdq

section Fields

variable {Item : Type u} [DecidableEq Item]

theorem splitOn_eq_takeWhile (separator : Item) (text : List Item) :
    text.splitOn separator = text.takeWhile (· != separator) ::
      match text.dropWhile (· != separator) with
      | [] => []
      | _ :: rest => rest.splitOn separator := by
  induction text with
  | nil => rfl
  | cons character text induction =>
      rw [List.splitOn_cons_eq_if_modifyHead]
      by_cases same : character = separator
      · simp [same]
      · have different : (character == separator) = false := beq_eq_false_iff_ne.mpr same
        have other : (character != separator) = true := bne_iff_ne.mpr same
        rw [if_neg (by simp [different]), induction, List.modifyHead_cons, List.takeWhile_cons,
          List.dropWhile_cons, if_pos other, if_pos other]

/-- A list without the separator is read to its end. -/
theorem takeWhile_bne_of_not_mem {separator : Item} {text : List Item} (free : separator ∉ text) :
    text.takeWhile (· != separator) = text :=
  List.takeWhile_eq_self_iff.mpr fun _ member => bne_iff_ne.mpr fun same => free (same ▸ member)

/-- A list is read up to the first separator. -/
theorem takeWhile_bne_append {separator : Item} {front : List Item} (free : separator ∉ front)
    (behind : List Item) : (front ++ separator :: behind).takeWhile (· != separator) = front := by
  have passed : ∀ item ∈ front, (item != separator) = true :=
    fun _ member => bne_iff_ne.mpr fun same => free (same ▸ member)
  rw [List.takeWhile_append_of_pos passed, List.takeWhile_cons_of_neg (by simp), List.append_nil]

/-- There is one field more than there are separators. -/
theorem length_splitOn (separator : Item) (text : List Item) :
    (text.splitOn separator).length = text.count separator + 1 := by
  induction text with
  | nil => rfl
  | cons item text induction =>
      rw [List.splitOn_cons_eq_if_modifyHead, List.count_cons]
      split
      · rw [List.length_cons, induction]
      · rw [List.length_modifyHead, induction]

theorem length_splitOn_le (separator : Item) (text : List Item) :
    (text.splitOn separator).length ≤ text.length + 1 := by
  rw [length_splitOn]
  exact Nat.succ_le_succ List.count_le_length

/-- A field has no separator, and nothing that the text does not have. -/
theorem splitOn_each (separator : Item) (text : List Item) :
    ∀ part ∈ text.splitOn separator, separator ∉ part ∧ (∀ item ∈ part, item ∈ text) ∧
      part.length ≤ text.length := by
  induction text with
  | nil =>
      intro part member
      rw [List.mem_singleton.mp member]
      exact ⟨List.not_mem_nil, fun item none => absurd none List.not_mem_nil, Nat.le_refl 0⟩
  | cons first text induction =>
      have later : ∀ part ∈ text.splitOn separator, separator ∉ part ∧
          (∀ item ∈ part, item ∈ first :: text) ∧ part.length ≤ (first :: text).length := by
        intro part member
        rcases induction part member with ⟨plain, within, short⟩
        exact ⟨plain, fun item inPart => List.mem_cons_of_mem _ (within item inPart),
          Nat.le_succ_of_le short⟩
      rw [List.splitOn_cons_eq_if_modifyHead]
      by_cases same : first = separator
      · rw [if_pos (beq_iff_eq.mpr same)]
        intro part member
        rcases List.mem_cons.mp member with rfl | behind
        · exact ⟨List.not_mem_nil, fun item none => absurd none List.not_mem_nil, Nat.zero_le _⟩
        · exact later part behind
      · rw [if_neg (fun equal => same (beq_iff_eq.mp equal))]
        cases parts : text.splitOn separator with
        | nil => exact fun part member => absurd member List.not_mem_nil
        | cons begun others =>
            rw [parts] at induction later
            rw [List.modifyHead_cons]
            intro part member
            rcases List.mem_cons.mp member with rfl | behind
            · rcases induction begun List.mem_cons_self with ⟨plain, within, short⟩
              refine ⟨?_, ?_, Nat.succ_le_succ short⟩
              · intro inPart
                rcases List.mem_cons.mp inPart with equal | inBegun
                · exact same equal.symm
                · exact plain inBegun
              · intro item inPart
                rcases List.mem_cons.mp inPart with rfl | inBegun
                · exact List.mem_cons_self
                · exact List.mem_cons_of_mem _ (within item inBegun)
            · exact later part (List.mem_cons_of_mem _ behind)

theorem length_le_of_mem_splitOn {separator : Item} {text part : List Item}
    (member : part ∈ text.splitOn separator) : part.length ≤ text.length :=
  (splitOn_each separator text part member).2.2

theorem mem_of_mem_splitOn {separator item : Item} {text part : List Item}
    (member : part ∈ text.splitOn separator) (inside : item ∈ part) : item ∈ text :=
  (splitOn_each separator text part member).2.1 item inside

end Fields

/-- A loop that reads the items by their index, from `i` on, until there is none. -/
theorem loop_eq_foldl {State : Type u} {Item : Type v} {items : List Item}
    {body : State → Item → State} (loop : Nat → Nat → State → State)
    (stop : ∀ i state, loop 0 i state = state)
    (turn : ∀ fuel i state, loop (fuel + 1) i state =
      match items[i]? with
      | none => state
      | some item => loop fuel (i + 1) (body state item))
    (fuel i : Nat) (state : State) (enough : items.length < i + fuel) :
    loop fuel i state = (items.drop i).foldl body state := by
  induction fuel generalizing i state with
  | zero =>
      rw [List.drop_of_length_le (by omega), stop]
      rfl
  | succ fuel induction =>
      rw [turn]
      cases read : items[i]? with
      | none =>
          rw [List.drop_of_length_le (List.getElem?_eq_none_iff.mp read)]
          rfl
      | some item =>
          rcases List.getElem?_eq_some_iff.mp read with ⟨inside, value⟩
          rw [List.drop_eq_getElem_cons inside, value]
          exact induction (i + 1) _ (by omega)

end Bookshelfdq
