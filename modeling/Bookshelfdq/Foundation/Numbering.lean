import Bookshelfdq.Foundation.Table

/-! # Numbers that are used again

A table whose keys are `1, …, count`. A row that is marked as deleted gives its key to a new one,
and otherwise the key behind the largest is taken. -/

namespace Bookshelfdq.Table

variable {Row : Type u} {key : Row → Int} {deleted available : Row → Bool} {capacity : Nat}

/-- The keys are numbers in sequence, and no more than there is room for. -/
def Within (key : Row → Int) (capacity : Nat) (rows : List Row) : Prop :=
  ∃ count ≤ capacity, Numbered key count rows

/-- A number that was free belongs to an available row, and the other rows have stayed. -/
structure Taken (key : Row → Int) (deleted available : Row → Bool) (number : Int)
    (before after : List Row) : Prop where
  free : ∀ row ∈ before, key row = number → deleted row = true
  taken : ∃ row ∈ after, key row = number ∧ available row = true
  others : after.filter (fun row => key row != number) =
    before.filter (fun row => key row != number)

/-- Every number belongs to a row that is not deleted. -/
def Full (key : Row → Int) (deleted : Row → Bool) (capacity : Nat) (rows : List Row) : Prop :=
  ∀ number : Int, 1 ≤ number → number ≤ capacity →
    ∃ row ∈ rows, key row = number ∧ deleted row = false

def smallest (key : Row → Int) (deleted : Row → Bool) (rows : List Row) : Option Int :=
  ((rows.filter deleted).map key).min?

def largest (key : Row → Int) (rows : List Row) : Option Int := (rows.map key).max?

variable {rows after : List Row}

theorem smallest_eq_some {number : Int} (least : smallest key deleted rows = some number) :
    ∃ row ∈ rows, deleted row = true ∧ key row = number := by
  have member := (List.min?_eq_some_iff.mp least).1
  rcases List.mem_map.mp member with ⟨row, rowMem, equal⟩
  rcases List.mem_filter.mp rowMem with ⟨rowMem, marked⟩
  exact ⟨row, rowMem, marked, equal⟩

theorem smallest_eq_none :
    smallest key deleted rows = none ↔ ∀ row ∈ rows, deleted row = false := by
  simp [smallest, List.min?_eq_none_iff]

theorem Within.nodup (within : Within key capacity rows) : (rows.map key).Nodup := by
  rcases within with ⟨count, _, numbered⟩
  rw [(numbered : _ = numbers count)]
  exact numbers_nodup count

theorem Within.largest_eq (within : Within key capacity rows) :
    ∃ count ≤ capacity, rows.map key = numbers count ∧
      largest key rows = if count = 0 then none else some (count : Int) := by
  rcases within with ⟨count, bound, numbered⟩
  have keys : rows.map key = numbers count := numbered
  exact ⟨count, bound, keys, by rw [largest, keys, numbers_max?]⟩

/-! ## A number is used again -/

section Update

variable {change : Row → Option Row} {number : Int}
  (keeps : ∀ row changed, change row = some changed → key changed = key row)
include keeps

theorem Within.update {selected : Row → Bool} (within : Within key capacity rows)
    (updated : Table.update selected change rows = some after) : Within key capacity after := by
  rcases within with ⟨count, bound, numbered⟩
  exact ⟨count, bound, numbered.update keeps updated⟩

theorem taken_of_update (within : Within key capacity rows)
    (fresh : ∀ row changed, change row = some changed → available changed = true)
    (least : smallest key deleted rows = some number)
    (updated : Table.update (fun row => key row == number) change rows = some after) :
    Taken key deleted available number rows after := by
  rcases within with ⟨count, _, numbered⟩
  rcases smallest_eq_some least with ⟨reused, reusedMem, marked, rfl⟩
  refine ⟨?_, ?_, ?_⟩
  · intro row rowMem equal
    rw [numbered.key_injective rowMem reusedMem equal]
    exact marked
  · rcases exists_becomes_of_mem updated reusedMem with ⟨changed, changedMem, becomes⟩
    rw [Becomes, if_pos (by simp)] at becomes
    exact ⟨changed, changedMem, keeps _ _ becomes, fresh _ _ becomes⟩
  · apply filter_update _ _ updated
    · intro row chosen
      simpa using chosen
    · intro row changed chosen becomes
      rw [keeps row changed becomes]
      simpa using chosen

omit keeps in
/-- The row that is used again changes, since it was deleted and no longer is. -/
theorem affected_smallest_eq_one [DecidableEq Row] (nodup : (rows.map key).Nodup)
    (fresh : ∀ row changed, change row = some changed → deleted changed = false)
    (least : smallest key deleted rows = some number) :
    affected (fun row => key row == number) change rows = 1 := by
  rcases smallest_eq_some least with ⟨row, rowMem, marked, rfl⟩
  apply affected_key_eq_one nodup rowMem
  intro unchanged
  rw [fresh row row unchanged] at marked
  cases marked

end Update

/-! ## A new number -/

section Append

variable {row : Row}

theorem taken_of_append (absent : key row ∉ rows.map key) (live : available row = true) :
    Taken key deleted available (key row) rows (rows ++ [row]) := by
  refine ⟨?_, ?_, ?_⟩
  · intro other otherMem equal
    exact absurd (List.mem_map.mpr ⟨other, otherMem, equal⟩) absent
  · exact ⟨row, by simp, rfl, live⟩
  · rw [List.filter_append]
    simp

/-- The number is the first one, or behind the largest one with room for it. -/
theorem Within.append (within : Within key capacity rows) (positive : 1 ≤ capacity)
    (absent : key row ∉ rows.map key)
    (next : key row = 1 ∨ ∃ last, largest key rows = some last ∧ last < capacity ∧
      key row = last + 1) : Within key capacity (rows ++ [row]) := by
  rcases within.largest_eq with ⟨count, bound, keys, biggest⟩
  rw [keys, mem_numbers] at absent
  have following : key row = (count : Int) + 1 ∧ count < capacity := by
    rcases next with first | ⟨last, largest, room, behind⟩
    · omega
    · rw [biggest] at largest
      split at largest
      · cases largest
      · obtain rfl := Option.some.inj largest
        omega
  have numbered : Numbered key count rows := keys
  exact ⟨count + 1, following.2, numbered.append following.1⟩

end Append

/-! ## No number is left -/

theorem full_iff (within : Within key capacity rows) (positive : 1 ≤ capacity) :
    Full key deleted capacity rows ↔ smallest key deleted rows = none ∧
      ∃ last, largest key rows = some last ∧ (capacity : Int) ≤ last := by
  rcases within.largest_eq with ⟨count, bound, keys, biggest⟩
  have numbered : Numbered key count rows := keys
  rw [smallest_eq_none, biggest]
  constructor
  · intro full
    rcases full capacity (by omega) (by omega) with ⟨top, topMem, topNumber, _⟩
    have topBound := (numbered.mem_iff capacity).mp ⟨top, topMem, topNumber⟩
    have reached : count = capacity := by omega
    constructor
    · intro row rowMem
      have rowBound := (numbered.mem_iff (key row)).mp ⟨row, rowMem, rfl⟩
      rcases full (key row) rowBound.1 (by omega) with ⟨live, liveMem, equal, alive⟩
      rw [numbered.key_injective rowMem liveMem equal.symm]
      exact alive
    · exact ⟨count, by rw [if_neg (by omega)], by omega⟩
  · intro parts number low high
    rcases parts with ⟨alive, last, most, reached⟩
    split at most
    · cases most
    · obtain rfl := Option.some.inj most
      rcases (numbered.mem_iff number).mpr ⟨low, by omega⟩ with ⟨row, rowMem, equal⟩
      exact ⟨row, rowMem, equal, alive row rowMem⟩

/-! ## Rows of another type

The same operations on the images of the rows. -/

section Images

variable {Image : Type v} {code : Row → Image} {keyOf : Image → Int}

section Change

variable {selected : Row → Bool} {change : Row → Option Row} {chosen : Image → Bool}
  {changed : Image → Option Image} (selects : ∀ row, chosen (code row) = selected row)
  (changes : ∀ row, selected row = true → changed (code row) = (change row).map code)
include selects changes

theorem update_map (rows : List Row) :
    update chosen changed (rows.map code) = (update selected change rows).map (List.map code) := by
  induction rows with
  | nil => rfl
  | cons row rows induction =>
      rw [List.map_cons, update, update, selects row, induction]
      by_cases isChosen : selected row = true
      · rw [if_pos isChosen, if_pos isChosen, changes row isChosen]
        cases change row with
        | none => rfl
        | some after => cases update selected change rows <;> rfl
      · rw [if_neg isChosen, if_neg isChosen]
        cases update selected change rows <;> rfl

theorem affected_map [DecidableEq Row] [DecidableEq Image] (injective : Function.Injective code)
    (rows : List Row) :
    affected chosen changed (rows.map code) = affected selected change rows := by
  rw [affected, affected, List.countP_map]
  apply List.countP_congr
  intro row _
  rw [Function.comp_apply, selects row]
  by_cases isChosen : selected row = true
  · have same : changed (code row) = some (code row) ↔ change row = some row := by
      rw [changes row isChosen, ← Option.map_some]
      exact (Option.map_injective injective).eq_iff
    rw [isChosen, Bool.true_and, Bool.true_and, decide_eq_true_iff, decide_eq_true_iff]
    exact not_congr same
  · rw [Bool.eq_false_iff.mpr isChosen, Bool.false_and, Bool.false_and]

end Change

variable (keys : ∀ row, keyOf (code row) = key row)
include keys

theorem insert_map (row : Row) (rows : List Row) :
    insert keyOf (code row) (rows.map code) = (insert key row rows).map (List.map code) := by
  have same : (rows.map code).map keyOf = rows.map key := by
    rw [List.map_map]
    exact List.map_congr_left fun row _ => keys row
  rw [insert, insert, same, keys row]
  split
  · rfl
  · rw [Option.map_some, List.map_append, List.map_singleton]

theorem largest_map (rows : List Row) : largest keyOf (rows.map code) = largest key rows := by
  rw [largest, largest, List.map_map]
  exact congrArg List.max? (List.map_congr_left fun row _ => keys row)

theorem smallest_map {erased : Image → Bool} (marks : ∀ row, erased (code row) = deleted row)
    (rows : List Row) :
    smallest keyOf erased (rows.map code) = smallest key deleted rows := by
  have same : erased ∘ code = deleted := funext marks
  rw [smallest, smallest, List.filter_map, same, List.map_map]
  exact congrArg List.min? (List.map_congr_left fun row _ => keys row)

end Images

end Bookshelfdq.Table
