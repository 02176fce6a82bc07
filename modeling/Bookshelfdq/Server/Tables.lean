import Bookshelfdq.Server.Scratch

/-! # One database for all accounts

Every statement names its table by `sprintf`: `<user>_shelves`, `<user>_books` or `bsdq_accounts`.
The tables of all accounts stand side by side in one database. -/

namespace Bookshelfdq

/-! ## Names -/

inductive TableKind
  | shelves
  | books
deriving DecidableEq

def TableKind.suffix : TableKind → String
  | shelves => "_shelves"
  | books => "_books"

/-- The name that `"%s_shelves"` or `"%s_books"` gives. -/
def tableName (kind : TableKind) (user : String) : String := user ++ kind.suffix

def myBsdqAccounts : String := "bsdq_accounts"

theorem reverse_tableName (kind : TableKind) (user : String) :
    (tableName kind user).toList.reverse =
      kind.suffix.toList.reverse ++ user.toList.reverse := by
  rw [tableName, String.toList_append, List.reverse_append]

/-- The second letter from the end tells the tables apart. -/
theorem kind_eq_of_tableName {leftKind rightKind : TableKind} {left right : String}
    (same : tableName leftKind left = tableName rightKind right) : leftKind = rightKind := by
  have reversed := congrArg (fun name => name.toList.reverse[1]?) same
  simp only [reverse_tableName] at reversed
  cases leftKind <;> cases rightKind <;> simp [TableKind.suffix] at reversed ⊢

theorem tableName_inj {leftKind rightKind : TableKind} {left right : String} :
    tableName leftKind left = tableName rightKind right ↔ leftKind = rightKind ∧ left = right := by
  constructor
  · intro same
    have kinds := kind_eq_of_tableName same
    subst kinds
    have chars := congrArg String.toList same
    simp only [tableName, String.toList_append, List.append_cancel_right_eq] at chars
    exact ⟨rfl, String.toList_injective chars⟩
  · rintro ⟨rfl, rfl⟩
    rfl

theorem tableName_ne_accounts (kind : TableKind) (user : String) :
    tableName kind user ≠ myBsdqAccounts := by
  intro same
  have reversed := congrArg (fun name => name.toList.reverse[1]?) same
  simp only [reverse_tableName] at reversed
  cases kind <;> simp [TableKind.suffix, myBsdqAccounts] at reversed

/-! ## Tables -/

inductive TableRows
  | shelves (rows : List ShelfRow)
  | books (rows : List BookRow)
deriving DecidableEq

def TableRows.kind : TableRows → TableKind
  | shelves _ => .shelves
  | books _ => .books

def TableKind.empty : TableKind → TableRows
  | shelves => .shelves []
  | books => .books []

def Archive.tableRows (archive : Archive) : TableKind → TableRows
  | .shelves => .shelves archive.shelves
  | .books => .books archive.books

@[simp] theorem TableKind.empty_kind (kind : TableKind) : kind.empty.kind = kind := by
  cases kind <;> rfl

@[simp] theorem Archive.tableRows_kind (archive : Archive) (kind : TableKind) :
    (archive.tableRows kind).kind = kind := by
  cases kind <;> rfl

/-- The tables of the database but for the accounts, by name. A table has the columns that its
name promises. -/
structure Tables where
  named : String → Option TableRows
  typed : ∀ kind user rows, named (tableName kind user) = some rows → rows.kind = kind
  reserved : named myBsdqAccounts = none

/-- The two tables of one account, either of which may not exist yet. -/
structure UserTables where
  shelves : Option (List ShelfRow)
  books : Option (List BookRow)
deriving DecidableEq

namespace UserTables

def has (part : UserTables) : TableKind → Bool
  | .shelves => part.shelves.isSome
  | .books => part.books.isSome

def put (rows : TableRows) (part : UserTables) : UserTables :=
  match rows with
  | .shelves rows => { part with shelves := some rows }
  | .books rows => { part with books := some rows }

def archive (part : UserTables) : Archive := ⟨part.shelves.getD [], part.books.getD []⟩

end UserTables

namespace Tables

/-- A database that no account has tables in. -/
def fresh : Tables where
  named _ := none
  typed _ _ _ found := by cases found
  reserved := rfl

def put (rows : TableRows) (user : String) (tables : Tables) : Tables where
  named name := if name = tableName rows.kind user then some rows else tables.named name
  typed kind other found same := by
    split at same
    · rename_i equal
      rw [← Option.some.inj same]
      exact (tableName_inj.mp equal).1.symm
    · exact tables.typed kind other found same
  reserved := by
    rw [if_neg (tableName_ne_accounts _ _).symm]
    exact tables.reserved

/-- The tables of one account. -/
def ofUser (tables : Tables) (user : String) : UserTables where
  shelves := match tables.named (tableName .shelves user) with
    | some (.shelves rows) => some rows
    | _ => none
  books := match tables.named (tableName .books user) with
    | some (.books rows) => some rows
    | _ => none

def has (tables : Tables) (kind : TableKind) (user : String) : Bool :=
  (tables.named (tableName kind user)).isSome

theorem ofUser_has (tables : Tables) (kind : TableKind) (user : String) :
    (tables.ofUser user).has kind = tables.has kind user := by
  cases found : tables.named (tableName kind user) with
  | none => cases kind <;> simp [UserTables.has, ofUser, has, found]
  | some rows =>
      have typed := tables.typed kind user rows found
      cases kind <;> cases rows <;> simp [TableRows.kind] at typed <;>
        simp [UserTables.has, ofUser, has, found]

/-- Writing a table changes what its own account has and nothing else. -/
theorem ofUser_put (rows : TableRows) (user : String) (tables : Tables) :
    (tables.put rows user).ofUser =
      Function.update tables.ofUser user ((tables.ofUser user).put rows) := by
  funext other
  by_cases same : other = user
  · subst same
    rw [Function.update_self]
    cases rows <;>
      simp [ofUser, put, UserTables.put, TableRows.kind, tableName_inj]
  · rw [Function.update_of_ne same]
    simp [ofUser, put, tableName_inj, same]

end Tables

end Bookshelfdq
