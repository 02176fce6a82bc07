import Bookshelfdq.Clisrv
import Bookshelfdq.Foundation.Table

/-! # The database connection

One account's two tables, the accounts table and the state of `my_connection`.
An SQL statement is the function it computes on the tables; `none` stands for a
statement MySQL rejects. Besides, any call into the client library may fail
without effect: `faults` lists the outcomes of the calls to come, and an
exhausted list means that nothing fails any more. -/

namespace Bookshelfdq

/-! ## Rows

The tables `<user>_books`, `<user>_shelves` and `bsdq_accounts`, an account's
two tables together, and the rows of a stored result set with the columns its
query asked for. The column `nfloors` is a `CHAR` that holds the decimal text of
the number. -/

inductive BookCleaned
  | avl
  | del
  | unsorted
deriving DecidableEq

inductive ShelfCleaned
  | avl
  | del
deriving DecidableEq

structure BookRow where
  shelfno : Int
  floorno : Int
  bookno : Int
  name : String
  author : String
  label : String
  borrowed : Char
  onReading : Char
  cleaned : BookCleaned
  encodingTime : PlainText
deriving DecidableEq

structure ShelfRow where
  shelfno : Int
  name : String
  nfloors : String
  floorDepth : String
  cleaned : ShelfCleaned
  buildingTime : PlainText
deriving DecidableEq

structure AccountRow where
  userno : Int
  name : String
  password : String
  type : AccountType
deriving DecidableEq

structure Archive where
  shelves : List ShelfRow
  books : List BookRow
deriving DecidableEq

inductive ResultRow
  | book (row : BookRow)
  | bookno (number : Int)
  | shelf (row : ShelfRow)
  | shelfno (number : Int)
deriving DecidableEq

/-- How MySQL treats a value too long for its column: an error under a strict
`sql_mode`, a truncation otherwise. -/
inductive SqlMode
  | strict
  | lenient
deriving DecidableEq

/-- The connection: `collation` is equality of characters in text columns,
`failed` tells whether a query or fetch of the current request has failed, and
`resPtr` holds the rows of the stored result set not fetched yet. -/
structure Mysql where
  mode : SqlMode
  collation : Char → Char → Bool
  archive : Archive
  accounts : List AccountRow
  faults : List Bool
  failed : Bool
  affectedRows : Nat
  resPtr : Option (List ResultRow)
  resRows : Nat
  resFields : Nat

def Mysql.fresh (mode : SqlMode) (collation : Char → Char → Bool)
    (accounts : List AccountRow) (faults : List Bool) : Mysql where
  mode := mode
  collation := collation
  archive := ⟨[], []⟩
  accounts := accounts
  faults := faults
  failed := false
  affectedRows := 0
  resPtr := none
  resRows := 0
  resFields := 0

/-! ## Library calls -/

namespace Mysql

def nextFault (db : Mysql) : Bool := db.faults.headD false

def advance (db : Mysql) : Mysql := { db with faults := db.faults.tail }

def fail (db : Mysql) : Mysql := { db.advance with failed := true }

@[simp] theorem advance_archive (db : Mysql) : db.advance.archive = db.archive := rfl

@[simp] theorem advance_accounts (db : Mysql) : db.advance.accounts = db.accounts := rfl

@[simp] theorem advance_mode (db : Mysql) : db.advance.mode = db.mode := rfl

@[simp] theorem advance_failed (db : Mysql) : db.advance.failed = db.failed := rfl

@[simp] theorem fail_archive (db : Mysql) : db.fail.archive = db.archive := rfl

@[simp] theorem fail_accounts (db : Mysql) : db.fail.accounts = db.accounts := rfl

@[simp] theorem fail_mode (db : Mysql) : db.fail.mode = db.mode := rfl

@[simp] theorem fail_failed (db : Mysql) : db.fail.failed = true := rfl

end Mysql

/-- `mysql_query`, answering whether it returned zero. -/
def mysqlQuery (statement : Mysql → Option Mysql) (db : Mysql) : Bool × Mysql :=
  if db.nextFault then (false, db.fail)
  else match statement db.advance with
    | some after => (true, after)
    | none => (false, db.fail)

/-- What one query can do: fail and leave the tables alone, or succeed with the
statement's effect. -/
theorem mysqlQuery_cases (statement : Mysql → Option Mysql) (db : Mysql) :
    mysqlQuery statement db = (false, db.fail) ∨
      ∃ after, statement db.advance = some after ∧
        mysqlQuery statement db = (true, after) := by
  unfold mysqlQuery
  split
  · exact .inl rfl
  · cases accepted : statement db.advance with
    | none => exact .inl rfl
    | some after => exact .inr ⟨after, rfl, rfl⟩

def mysqlSelect (db : Mysql) : Bool × Mysql := mysqlQuery some db

theorem mysqlSelect_cases (db : Mysql) :
    mysqlSelect db = (false, db.fail) ∨ mysqlSelect db = (true, db.advance) := by
  rcases mysqlQuery_cases some db with failed | ⟨after, accepted, result⟩
  · exact .inl failed
  · obtain rfl := Option.some.inj accepted
    exact .inr result

/-- `get_simple_result`: the only column of the only row, unless the fetch fails
or the column is `NULL`. -/
def getSimpleResult (value : Option α) (db : Mysql) : Option α × Mysql :=
  if db.nextFault then (none, db.fail) else (value, db.advance)

theorem getSimpleResult_cases (value : Option α) (db : Mysql) :
    getSimpleResult value db = (none, db.fail) ∨
      getSimpleResult value db = (value, db.advance) := by
  unfold getSimpleResult
  split
  · exact .inl rfl
  · exact .inr rfl

/-! Without failures to come the calls leave the connection as it is. -/

section Faultless

variable {db : Mysql} (faultless : db.faults = [])
include faultless

theorem Mysql.advance_of_faultless : db.advance = db := by
  rcases db with ⟨mode, collation, archive, accounts, faults, failed, affectedRows, resPtr,
    resRows, resFields⟩
  subst faultless
  rfl

theorem Mysql.nextFault_of_faultless : db.nextFault = false := by
  rw [nextFault, faultless]
  rfl

theorem mysqlQuery_of_faultless {statement : Mysql → Option Mysql} {after : Mysql}
    (accepted : statement db = some after) : mysqlQuery statement db = (true, after) := by
  rw [mysqlQuery, Mysql.nextFault_of_faultless faultless, Mysql.advance_of_faultless faultless, accepted]
  rfl

theorem mysqlSelect_of_faultless : mysqlSelect db = (true, db) :=
  mysqlQuery_of_faultless faultless rfl

theorem getSimpleResult_of_faultless (value : Option α) :
    getSimpleResult value db = (value, db) := by
  rw [getSimpleResult, Mysql.nextFault_of_faultless faultless, Mysql.advance_of_faultless faultless]
  rfl

end Faultless

/-! ## Values

Comparison of `VARCHAR` values ignores trailing blanks. -/

def SqlMode.store (mode : SqlMode) (width : Nat) (text : String) : Option String :=
  if text.length ≤ width then some text
  else match mode with
    | .strict => none
    | .lenient => some (String.ofList (text.toList.take width))

theorem SqlMode.store_of_fits {mode : SqlMode} {width : Nat} {text : String}
    (fits : text.length ≤ width) : mode.store width text = some text :=
  if_pos fits

theorem SqlMode.strict_store {width : Nat} {text : String} (wide : ¬ text.length ≤ width) :
    strict.store width text = none :=
  if_neg wide

theorem SqlMode.lenient_store {width : Nat} {text : String} (wide : ¬ text.length ≤ width) :
    lenient.store width text = some (String.ofList (text.toList.take width)) :=
  if_neg wide

/-- A column gives back what was written exactly when it is wide enough. -/
theorem SqlMode.store_eq_iff {mode : SqlMode} {width : Nat} {text stored : String}
    (accepted : mode.store width text = some stored) : stored = text ↔ text.length ≤ width := by
  by_cases fits : text.length ≤ width
  · rw [store_of_fits fits] at accepted
    exact ⟨fun _ => fits, fun _ => (Option.some.inj accepted).symm⟩
  · cases mode with
    | strict =>
        rw [strict_store fits] at accepted
        cases accepted
    | lenient =>
        rw [lenient_store fits] at accepted
        have shorter := congrArg String.length (Option.some.inj accepted)
        simp only [String.length_ofList, List.length_take, String.length_toList] at shorter
        constructor
        · intro equal
          rw [equal] at shorter
          omega
        · intro wide
          exact absurd wide fits

/-- `%c` leaves one character in the statement without quotes: only a digit is
a value there, anything else is a syntax error or an unknown column. -/
def unquoted (character : Char) : Bool := character.isDigit

def paddedChars (text : String) : List Char :=
  (text.toList.reverse.dropWhile (· == ' ')).reverse

def sameChars (collation : Char → Char → Bool) : List Char → List Char → Bool
  | [], [] => true
  | left :: lefts, right :: rights =>
      collation left right && sameChars collation lefts rights
  | _, _ => false

def sqlEqual (collation : Char → Char → Bool) (column text : String) : Bool :=
  sameChars collation (paddedChars column) (paddedChars text)

/-- The pattern matcher of `LIKE`: `%` stands for any text, `_` for any one
character, and a backslash takes the character after it literally. -/
def likeChars (collation : Char → Char → Bool) : List Char → List Char → Bool
  | [], text => text.isEmpty
  | [symbol], text =>
      if symbol = '%' then true
      else match text with
        | [character] => symbol = '_' || collation character symbol
        | _ => false
  | symbol :: next :: pattern, text =>
      if symbol = '%' then
        text.tails.any (likeChars collation (next :: pattern))
      else if symbol = Char.ofNat 92 then
        match text with
        | character :: text =>
            collation character next && likeChars collation pattern text
        | [] => false
      else
        match text with
        | character :: text =>
            (symbol = '_' || collation character symbol) &&
              likeChars collation (next :: pattern) text
        | [] => false

/-- `column LIKE '%text%'`. Escaping the text for the literal is undone by the
SQL parser, so that its own wildcards and backslashes are live in the pattern. -/
def sqlContains (collation : Char → Char → Bool) (column text : String) : Bool :=
  likeChars collation ('%' :: text.toList ++ ['%']) column.toList

example : sqlContains (· == ·) "bookshelf" "sh_l" = true := by decide

/-! ## Statements on the archive -/

def updateBooks (selected : BookRow → Bool) (change : BookRow → Option BookRow)
    (db : Mysql) : Option Mysql :=
  (Table.update selected change db.archive.books).map fun books =>
    { db with
      archive := { db.archive with books := books }
      affectedRows := Table.affected selected change db.archive.books }

def updateShelves (selected : ShelfRow → Bool) (change : ShelfRow → Option ShelfRow)
    (db : Mysql) : Option Mysql :=
  (Table.update selected change db.archive.shelves).map fun shelves =>
    { db with
      archive := { db.archive with shelves := shelves }
      affectedRows := Table.affected selected change db.archive.shelves }

def Mysql.storeResult (rows : List ResultRow) (fields : Nat) (db : Mysql) : Mysql :=
  { db.advance with resPtr := some rows, resRows := rows.length, resFields := fields }

def srvdbFreeResult (db : Mysql) : Mysql :=
  { db with resPtr := none, resRows := 0, resFields := 0 }

end Bookshelfdq
