import Bookshelfdq.Foundation.SqlStatement
import Mathlib.Data.Fintype.Defs
import Mathlib.Logic.Function.Basic

/-! # Carrying out a statement

A table with an integer key and columns of one type. What a column makes of a value is up to the
server, which may refuse it. Columns that a condition compares with a number hold numbers. -/

namespace Bookshelfdq.Sql

structure Row (Column : Type) where
  number : Int
  cells : Column → Value

theorem Row.eq_iff {Column : Type} {left right : Row Column} :
    left.number = right.number ∧ (∀ column, left.cells column = right.cells column) ↔
      left = right := by
  constructor
  · intro same
    rcases left with ⟨number, cells⟩
    rcases right with ⟨other, others⟩
    rcases same with ⟨number, cells⟩
    exact congr (congrArg Row.mk number) (funext cells)
  · rintro rfl
    exact ⟨rfl, fun _ => rfl⟩

instance {Column : Type} [Fintype Column] : DecidableEq (Row Column) :=
  fun _ _ => decidable_of_iff _ Row.eq_iff

/-- How one table is described to the server: its name, its key, and the other columns in the order
in which they are listed. -/
structure Schema (Column : Type) where
  table : Name
  key : Name
  columns : List Column
  nameOf : Column → Name
  store : Column → Value → Option Value

/-- What a statement leaves behind: the rows, how many of them changed, and what was selected. -/
structure Answer (Column : Type) where
  rows : List (Row Column)
  affected : Nat
  selected : Option Int

namespace Schema

variable {Column : Type} [DecidableEq Column] (schema : Schema Column)

/-! ## Assignments -/

/-- One column after another takes its value. -/
def assign : List (Column × Value) → Row Column → Option (Row Column)
  | [], row => some row
  | (column, value) :: rest, row =>
      (schema.store column value).bind fun stored =>
        assign rest { row with cells := Function.update row.cells column stored }

variable {schema}

theorem assign_number {pairs : List (Column × Value)} {row changed : Row Column}
    (assigned : schema.assign pairs row = some changed) : changed.number = row.number := by
  induction pairs generalizing row with
  | nil =>
      obtain rfl := Option.some.inj assigned
      rfl
  | cons pair rest induction =>
      rcases Option.bind_eq_some_iff.mp assigned with ⟨stored, _, later⟩
      have same := induction later
      exact same

/-- A column that is not assigned keeps its value. -/
theorem assign_other {pairs : List (Column × Value)} {row changed : Row Column} {column : Column}
    (other : column ∉ pairs.map Prod.fst) (assigned : schema.assign pairs row = some changed) :
    changed.cells column = row.cells column := by
  induction pairs generalizing row with
  | nil =>
      obtain rfl := Option.some.inj assigned
      rfl
  | cons pair rest induction =>
      rw [List.map_cons, List.mem_cons, not_or] at other
      rcases Option.bind_eq_some_iff.mp assigned with ⟨stored, _, later⟩
      rw [induction other.2 later]
      exact Function.update_of_ne other.1 _ _

/-- A column that is assigned once holds what it makes of the value. -/
theorem assign_cell {pairs : List (Column × Value)} {row changed : Row Column} {column : Column}
    {value : Value} (once : (pairs.map Prod.fst).Nodup) (member : (column, value) ∈ pairs)
    (assigned : schema.assign pairs row = some changed) :
    schema.store column value = some (changed.cells column) := by
  induction pairs generalizing row with
  | nil => cases member
  | cons pair rest induction =>
      rw [List.map_cons, List.nodup_cons] at once
      rcases Option.bind_eq_some_iff.mp assigned with ⟨stored, stores, later⟩
      rcases List.mem_cons.mp member with rfl | behind
      · rw [assign_other once.1 later, stores]
        show some stored = some (Function.update row.cells column stored column)
        rw [Function.update_self]
      · exact induction once.2 behind later

/-! Values for columns, in whatever order they come. -/

section Values

variable {columns : List Column} {values stored : Column → Value}

theorem assign_values_other (row : Row Column)
    (fits : ∀ column ∈ columns, schema.store column (values column) = some (stored column)) :
    schema.assign (columns.map fun column => (column, values column)) row =
      some ⟨row.number, fun column =>
        if column ∈ columns then stored column else row.cells column⟩ := by
  induction columns generalizing row with
  | nil => rfl
  | cons first rest induction =>
      rw [List.map_cons, assign, fits first List.mem_cons_self, Option.bind_some,
        induction _ fun column member => fits column (List.mem_cons_of_mem _ member)]
      congr 2
      funext column
      dsimp only
      rw [Function.update_apply]
      by_cases later : column ∈ rest
      · rw [if_pos later, if_pos (List.mem_cons_of_mem _ later)]
      · rw [if_neg later]
        by_cases same : column = first
        · rw [if_pos same, if_pos (same ▸ List.mem_cons_self), same]
        · rw [if_neg same, if_neg fun member => (List.mem_cons.mp member).elim same later]

theorem assign_values (all : ∀ column, column ∈ columns) (row : Row Column)
    (fits : ∀ column, schema.store column (values column) = some (stored column)) :
    schema.assign (columns.map fun column => (column, values column)) row =
      some ⟨row.number, stored⟩ := by
  rw [assign_values_other row fun column _ => fits column]
  congr 2
  funext column
  exact if_pos (all column)

/-- One value that is refused refuses the row. -/
theorem assign_values_refused {column : Column} (member : column ∈ columns)
    (refused : schema.store column (values column) = none) (row : Row Column) :
    schema.assign (columns.map fun column => (column, values column)) row = none := by
  induction columns generalizing row with
  | nil => cases member
  | cons first rest induction =>
      rw [List.map_cons, assign]
      rcases List.mem_cons.mp member with rfl | later
      · rw [refused]
        rfl
      · cases schema.store first (values first) with
        | none => rfl
        | some value => exact induction later _

end Values

/-! ## Statements -/

variable (schema)

def columnNamed (name : Name) : Option Column :=
  schema.columns.find? fun column => schema.nameOf column == name

def resolve : Pairs → Meaning (List (Column × Value))
  | [] => .means []
  | (name, value) :: rest =>
      (Meaning.ofOption (schema.columnNamed name)).bind fun column =>
        (resolve rest).bind fun pairs => .means ((column, value) :: pairs)

/-- The rows that a condition selects. -/
def selects : Name × Value → Meaning (Row Column → Bool)
  | (name, .number number) =>
      if name = schema.key then .means fun row => row.number == number
      else
        (Meaning.ofOption (schema.columnNamed name)).bind fun column =>
          .means fun row => row.cells column == .number number
  | (_, .text _) => .unknown

def selectsAll : Option (Name × Value) → Meaning (Row Column → Bool)
  | none => .means fun _ => true
  | some condition => schema.selects condition

section Tables

variable [Fintype Column]

def update (pairs : List (Column × Value)) (selected : Row Column → Bool)
    (rows : List (Row Column)) : Meaning (Answer Column) :=
  match Table.update selected (schema.assign pairs) rows with
  | none => .refused
  | some updated => .means ⟨updated, Table.affected selected (schema.assign pairs) rows, none⟩

/-- A row under the key, where it is none that the server would choose itself. -/
def insert (number : Int) (pairs : List (Column × Value)) (rows : List (Row Column)) :
    Meaning (Answer Column) :=
  if number ≤ 0 then .unknown
  else
    match schema.assign pairs ⟨number, fun _ => .number 0⟩ with
    | none => .refused
    | some row =>
        match Table.insert Row.number row rows with
        | none => .refused
        | some inserted => .means ⟨inserted, 1, none⟩

/-- The key and the value of every column in order, or as many values as there are not. -/
def entry (columns : List Name) (values : List Value) :
    Meaning (Int × List (Column × Value)) :=
  if columns.length ≠ values.length then .refused
  else
    match (columns.zip values).lookup schema.key with
    | some (.number number) =>
        (schema.resolve ((columns.zip values).filter fun pair => pair.1 != schema.key)).bind
          fun pairs =>
            if pairs.map Prod.fst = schema.columns then .means (number, pairs) else .unknown
    | _ => .unknown

def carryOut (statement : Statement) (rows : List (Row Column)) : Meaning (Answer Column) :=
  match statement with
  | .update _ assigned condition =>
      (schema.resolve assigned).bind fun pairs =>
        (schema.selectsAll condition).bind fun selected => schema.update pairs selected rows
  | .insert _ columns values =>
      (schema.entry columns values).bind fun entry => schema.insert entry.1 entry.2 rows
  | .smallest _ column condition =>
      if column = schema.key then
        (schema.selects condition).bind fun selected =>
          .means ⟨rows, 0, ((rows.filter selected).map Row.number).min?⟩
      else .unknown
  | .largest _ column =>
      if column = schema.key then .means ⟨rows, 0, (rows.map Row.number).max?⟩ else .unknown

end Tables

end Schema

end Bookshelfdq.Sql
