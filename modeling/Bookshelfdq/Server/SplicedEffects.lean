import Bookshelfdq.Server.SplicedMeaning

/-! # What the statements do to the tables

Each text, as a function on the rows of its table. -/

namespace Bookshelfdq.Spliced

open Sql

/-! ## One of the two tables -/

structure Part (Column : Type) where
  rows : Tables → List (Row Column)
  replace : List (Row Column) → Tables → Tables
  cleaned : Column
  rows_replace : ∀ new tables, rows (replace new tables) = new
  replace_rows : ∀ tables, replace (rows tables) tables = tables

def bookPart : Part BookColumn where
  rows := Tables.books
  replace new tables := { tables with books := new }
  cleaned := .cleaned
  rows_replace _ _ := rfl
  replace_rows _ := rfl

def shelfPart : Part ShelfColumn where
  rows := Tables.shelves
  replace new tables := { tables with shelves := new }
  cleaned := .cleaned
  rows_replace _ _ := rfl
  replace_rows _ := rfl

/-- A text that the server does not take. -/
def Refused (server : Server) (chunks : Chunks) : Prop :=
  ∀ tables, server.execute chunks.text tables = none

namespace Part

variable {Column : Type} (part : Part Column)

def available (row : Row Column) : Bool := row.cells part.cleaned == .number avl

def deleted (row : Row Column) : Bool := row.cells part.cleaned == .number del

theorem deleted_of_available {row : Row Column} (live : part.available row = true) :
    part.deleted row = false := by
  rw [deleted, beq_iff_eq.mp live]
  rfl

variable (server : Server) (chunks : Chunks)

def Selects (value : List (Row Column) → Option Int) : Prop :=
  ∀ tables, server.execute chunks.text tables = some ⟨tables, 0, value (part.rows tables)⟩

def Updates [Fintype Column] [DecidableEq Column] (selected : Row Column → Bool)
    (change : Row Column → Option (Row Column)) : Prop :=
  ∀ tables, server.execute chunks.text tables =
    (Table.update selected change (part.rows tables)).map fun rows =>
      ⟨part.replace rows tables, Table.affected selected change (part.rows tables), none⟩

def Inserts (made : Option (Row Column)) : Prop :=
  ∀ tables, server.execute chunks.text tables = made.bind fun row =>
    (Table.insert Row.number row (part.rows tables)).map fun rows =>
      ⟨part.replace rows tables, 1, none⟩

end Part

/-! ## Carrying out -/

theorem execute_refused {server : Server} {chunks : Chunks} (refused : meaning chunks = .refused) :
    Refused server chunks := by
  intro tables
  change server.perform chunks.text tables (meaning chunks) = none
  rw [refused]
  rfl

/-- The statements on a table are carried out on its rows. -/
def Part.Holds {Column : Type} [Fintype Column] [DecidableEq Column] (part : Part Column)
    (server : Server) (schema : Schema Column) : Prop :=
  ∀ statement text tables, statement.table = schema.table →
    server.perform text tables (.means statement) =
      Server.outcome (server.other text tables) (fun rows => part.replace rows tables)
        (schema.carryOut statement (part.rows tables))

theorem books_hold (server : Server) : bookPart.Holds server server.books :=
  fun _ _ _ table => if_pos table

theorem shelves_hold (server : Server) : shelfPart.Holds server server.shelves := by
  intro statement text tables table
  have other : statement.table ≠ server.books.table := by
    rw [table]
    exact fun same => absurd (List.append_cancel_left same) (by decide)
  rw [Server.perform, if_neg other, if_pos table]
  rfl

section Holds

variable {Column : Type} [Fintype Column] [DecidableEq Column] {part : Part Column}
  {server : Server} {schema : Schema Column} (holds : part.Holds server schema) {chunks : Chunks}
include holds

theorem Part.Holds.execute {statement : Statement} (means : meaning chunks = .means statement)
    (table : statement.table = schema.table) (tables : Tables) :
    server.execute chunks.text tables =
      Server.outcome (server.other chunks.text tables) (fun rows => part.replace rows tables)
        (schema.carryOut statement (part.rows tables)) := by
  change server.perform chunks.text tables (meaning chunks) = _
  rw [means]
  exact holds statement chunks.text tables table

theorem Part.Holds.smallest {condition : Name × Value} {selected : Row Column → Bool}
    (means : meaning chunks = .means (.smallest schema.table schema.key condition))
    (selects : schema.selects condition = .means selected) :
    part.Selects server chunks fun rows => ((rows.filter selected).map Row.number).min? := by
  intro tables
  rw [holds.execute means rfl tables, Schema.carryOut, if_pos rfl, selects, Meaning.bind_means,
    Server.outcome, part.replace_rows]

theorem Part.Holds.largest
    (means : meaning chunks = .means (.largest schema.table schema.key)) :
    part.Selects server chunks fun rows => (rows.map Row.number).max? := by
  intro tables
  rw [holds.execute means rfl tables, Schema.carryOut, if_pos rfl, Server.outcome,
    part.replace_rows]

theorem Part.Holds.updates {assigned : Pairs} {condition : Option (Name × Value)}
    {pairs : List (Column × Value)} {selected : Row Column → Bool}
    (means : meaning chunks = .means (.update schema.table assigned condition))
    (resolves : schema.resolve assigned = .means pairs)
    (selects : schema.selectsAll condition = .means selected) :
    part.Updates server chunks selected (schema.assign pairs) := by
  intro tables
  rw [holds.execute means rfl tables, Schema.carryOut, resolves, Meaning.bind_means, selects,
    Meaning.bind_means, Schema.update]
  cases Table.update selected (schema.assign pairs) (part.rows tables) <;> rfl

theorem Part.Holds.inserts {names : List Name} {values : List Value} {number : Int}
    {pairs : List (Column × Value)} (positive : 0 < number)
    (means : meaning chunks = .means (.insert schema.table names values))
    (entry : schema.entry names values = .means (number, pairs)) :
    part.Inserts server chunks (schema.assign pairs ⟨number, fun _ => .number 0⟩) := by
  intro tables
  rw [holds.execute means rfl tables, Schema.carryOut, entry, Meaning.bind_means, Schema.insert,
    if_neg (Int.not_le.mpr positive)]
  cases schema.assign pairs ⟨number, fun _ => .number 0⟩ with
  | none => rfl
  | some row =>
      rw [Option.bind_some]
      dsimp only
      cases Table.insert Row.number row (part.rows tables) <;> rfl

end Holds

/-! ## The texts of the functions -/

/-- An available row is stored as one. -/
structure Server.KeepsAvailable (server : Server) : Prop where
  book : server.bookStore .cleaned (.number avl) = some (.number avl)
  shelf : server.shelfStore .cleaned (.number avl) = some (.number avl)

theorem Part.available_assign {Column : Type} [DecidableEq Column] {part : Part Column}
    {schema : Schema Column}
    (keeps : schema.store part.cleaned (.number avl) = some (.number avl))
    {pairs : List (Column × Value)} (once : (pairs.map Prod.fst).Nodup)
    (marks : (part.cleaned, .number avl) ∈ pairs) {row changed : Row Column}
    (assigned : schema.assign pairs row = some changed) :
    changed.number = row.number ∧ part.available changed = true := by
  have stored := Schema.assign_cell once marks assigned
  rw [keeps] at stored
  refine ⟨Schema.assign_number assigned, ?_⟩
  rw [Part.available, beq_iff_eq]
  exact (Option.some.inj stored).symm

/-- Of two single bytes each is a value, or the text is refused. -/
theorem flags_cases {chunks : Chunks} {borrowed onReading : UInt8}
    {statement : Value → Value → Statement}
    (text : meaning chunks = (byteValue borrowed).bind fun borrowed =>
      (byteValue onReading).bind fun onReading => .means (statement borrowed onReading)) :
    meaning chunks = .refused ∨ ∃ borrowed onReading,
      meaning chunks = .means (statement borrowed onReading) := by
  rw [byteValue, byteValue] at text
  by_cases first : isDigit borrowed = true
  · rw [if_pos first, Meaning.bind_means] at text
    by_cases second : isDigit onReading = true
    · rw [if_pos second, Meaning.bind_means] at text
      exact .inr ⟨_, _, text⟩
    · rw [if_neg second] at text
      exact .inl text
  · rw [if_neg first] at text
    exact .inl text

theorem lexes_shelfno : Lexes (ascii "shelfno") [.word (ascii "shelfno")] :=
  lexes_column (by decide) (by decide) (by decide)

theorem lexes_bookno : Lexes (ascii "bookno") [.word (ascii "bookno")] :=
  lexes_column (by decide) (by decide) (by decide)

/-- A text that changes rows and not their numbers, or is refused. -/
def Part.Rewrites {Column : Type} [Fintype Column] [DecidableEq Column] (part : Part Column)
    (server : Server) (chunks : Chunks) : Prop :=
  Refused server chunks ∨ ∃ selected change,
    (∀ row changed, change row = some changed → changed.number = row.number) ∧
    part.Updates server chunks selected change

theorem Part.Updates.rewrites {Column : Type} [Fintype Column] [DecidableEq Column]
    {part : Part Column} {server : Server} {chunks : Chunks} {selected : Row Column → Bool}
    {schema : Schema Column} {pairs : List (Column × Value)}
    (updates : part.Updates server chunks selected (schema.assign pairs)) :
    part.Rewrites server chunks :=
  .inr ⟨selected, schema.assign pairs, fun _ _ => Schema.assign_number, updates⟩

section Functions

variable {server : Server} (named : IsName server.owner)
include named

theorem bookDeleteText_rewrites (book : BookFields) :
    bookPart.Rewrites server (bookDeleteText server.owner book) := by
  have hold := books_hold server
  rw [bookDeleteText]
  split
  · exact (hold.updates (markText_meaning named.lexes_books lexes_shelfno _ _) rfl rfl).rewrites
  · exact (hold.updates (markText_meaning named.lexes_books lexes_bookno _ _) rfl rfl).rewrites

theorem bookUpdateText_rewrites {book : BookFields} (plain : book.namesShelf = false → book.Plain) :
    bookPart.Rewrites server (bookUpdateText server.owner book) := by
  have hold := books_hold server
  cases whole : book.namesShelf with
  | true =>
      rw [bookUpdateText, whole, if_pos rfl]
      exact (hold.updates (markText_meaning named.lexes_books lexes_shelfno _ _) rfl rfl).rewrites
  | false =>
      rcases flags_cases (bookUpdateText_meaning named (plain whole) whole) with
        refused | ⟨borrowed, onReading, means⟩
      · exact .inl (execute_refused refused)
      · exact (hold.updates means rfl rfl).rewrites

theorem shelfRemoveText_rewrites (shelf : ShelfFields) :
    shelfPart.Rewrites server (shelfRemoveText server.owner shelf) :=
  ((shelves_hold server).updates (markText_meaning named.lexes_shelves lexes_shelfno _ _) rfl
    rfl).rewrites

end Functions

end Bookshelfdq.Spliced
