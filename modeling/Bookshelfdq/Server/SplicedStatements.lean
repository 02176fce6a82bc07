import Bookshelfdq.Clisrv
import Bookshelfdq.Foundation.SqlTable
import Bookshelfdq.Foundation.Terminated

/-! # Spliced statements

What the writing functions of `srvdb.c` send for the bytes of a message. Names, authors and labels
are escaped; the user, the flags, the depths and the time stamps are spliced in as they are. -/

namespace Bookshelfdq.Spliced

open Sql

/-! ## Messages in memory -/

/-- What a character array holds up to its terminator. -/
def cString (array : List UInt8) : List UInt8 := Terminated.text 0 array

/-- `book_entry_t`. -/
structure BookFields where
  shelfno : Int
  floorno : Int
  bookno : Int
  name : List UInt8
  author : List UInt8
  label : List UInt8
  borrowed : UInt8
  onReading : UInt8
  encodingTime : List UInt8
deriving DecidableEq

/-- `shelf_entry_t`. -/
structure ShelfFields where
  code : Int
  name : List UInt8
  nfloors : UInt8
  ndepth : List UInt8
  buildingTime : List UInt8
deriving DecidableEq

/-- `message_cs_t`, with the part of the union that belongs to the request. -/
structure Message (Fields : Type) where
  user : List UInt8
  fields : Fields
  errorText : String
deriving DecidableEq

def Message.setBookno (number : Int) (msg : Message BookFields) : Message BookFields :=
  { msg with fields := { msg.fields with bookno := number } }

def Message.setShelfno (number : Int) (msg : Message ShelfFields) : Message ShelfFields :=
  { msg with fields := { msg.fields with code := number } }

/-! ## Texts

`sprintf` writes a flag that is zero as well, and `mysql_query` gets what is in front of it. -/

/-- The blanks with which a continued line of a literal begins. -/
def blanks (count : Nat) : List UInt8 := List.replicate count 32

def booksName (user : List UInt8) : Name := user ++ ascii "_books"

def shelvesName (user : List UInt8) : Name := user ++ ascii "_shelves"

/-- An escaped text in quotes. -/
def escaped (array : List UInt8) : List UInt8 := quoted (mysqlEscapeString (cString array))

def spliced (array : List UInt8) : List UInt8 := quoted (cString array)

abbrev Chunks := List (List UInt8)

/-- The statement that is sent. -/
def Chunks.text (chunks : Chunks) : List UInt8 := cString chunks.flatten

/-! `BOOK_AVL` and `SHELF_AVL`, `BOOK_DEL` and `SHELF_DEL`, and `BOOK_UNSORTED`. -/

def avl : Int := 0

def del : Int := 1

def unsorted : Int := 2

/-- The `UPDATE` that marks rows. -/
def markText (table : Name) (cleaned : Int) (column : Name) (number : Int) : Chunks :=
  [ascii "UPDATE ", table, ascii " SET cleaned=", formatInt cleaned, ascii " WHERE ", column,
    ascii "=", formatInt number]

/-- The smallest number that is marked as deleted. -/
def minText (table key : Name) : Chunks :=
  [ascii "SELECT MIN(", key, ascii ") FROM ", table, ascii " WHERE cleaned=", formatInt del]

def maxText (table key : Name) : Chunks := [ascii "SELECT MAX(", key, ascii ") FROM ", table]

section Books

variable (user : List UInt8) (book : BookFields) (number : Int)

/-- The `UPDATE` of `srvdb_book_insert`. -/
def bookRenewText : Chunks :=
  [ascii "UPDATE ", booksName user, ascii " SET cleaned=", formatInt avl, ascii ",shelfno=",
    formatInt book.shelfno, ascii ",floorno=", formatInt book.floorno, ascii ",name=",
    escaped book.name, ascii ",author=", escaped book.author,
    ascii "," ++ blanks 24 ++ ascii "label=", escaped book.label, ascii ",borrowed=",
    [book.borrowed], ascii ",on_reading=", [book.onReading], ascii ",encoding_time=",
    spliced book.encodingTime, ascii " WHERE bookno=", formatInt number]

/-- The `INSERT` of `srvdb_book_insert`. -/
def bookCreateText : Chunks :=
  [ascii "INSERT INTO ", booksName user, ascii "(shelfno, floorno, bookno, name, author,",
    ascii " label, borrowed, on_reading, cleaned,", ascii " encoding_time)" ++ blanks 12,
    ascii "VALUES(", formatInt book.shelfno, ascii ", ", formatInt book.floorno, ascii ", ",
    formatInt number, ascii ", ", escaped book.name, ascii ", ", escaped book.author,
    ascii ", ", escaped book.label, ascii ", ", [book.borrowed], ascii ", ", [book.onReading],
    ascii ", ", formatInt avl, ascii ", ", spliced book.encodingTime, ascii ")"]

/-- A shelf is given, and no book. -/
def BookFields.namesShelf : Bool := book.bookno == nonSenseInt && book.shelfno != nonSenseInt

/-- The statement of `srvdb_book_delete`. -/
def bookDeleteText : Chunks :=
  if book.namesShelf then markText (booksName user) del (ascii "shelfno") book.shelfno
  else markText (booksName user) del (ascii "bookno") book.bookno

/-- The statement of `srvdb_book_update`. -/
def bookUpdateText : Chunks :=
  if book.namesShelf then markText (booksName user) unsorted (ascii "shelfno") book.shelfno
  else
    [ascii "UPDATE ", booksName user, ascii " SET shelfno=", formatInt book.shelfno,
      ascii ", floorno=", formatInt book.floorno, ascii ", name=", escaped book.name,
      ascii ", author=", escaped book.author, ascii "," ++ blanks 16 ++ ascii "label=",
      escaped book.label, ascii ", borrowed=", [book.borrowed], ascii ", on_reading=",
      [book.onReading], ascii ", cleaned=", formatInt avl, ascii ", encoding_time=",
      spliced book.encodingTime, ascii " WHERE bookno=", formatInt book.bookno]

end Books

section Shelves

variable (user : List UInt8) (stack : List UInt8) (shelf : ShelfFields) (number : Int)

/-- `floor_depth_str`. For no floor, and for more floors than the array of depths has, it is what
the stack holds. -/
def floorDepthStr : List UInt8 :=
  if shelf.nfloors = 0 ∨ 15 < shelf.nfloors then stack
  else ((shelf.ndepth.take shelf.nfloors.toNat).map (· + 48)).intersperse 44

/-- The `UPDATE` of `srvdb_shelf_build`. -/
def shelfRenewText : Chunks :=
  [ascii "UPDATE ", shelvesName user, ascii " SET cleaned=", formatInt avl, ascii ", name=",
    escaped shelf.name, ascii ", nfloors=", formatInt shelf.nfloors.toNat,
    ascii "," ++ blanks 24 ++ ascii "floor_depth=", spliced (floorDepthStr stack shelf),
    ascii ", building_time=", spliced shelf.buildingTime, ascii " WHERE shelfno=",
    formatInt number]

/-- The `INSERT` of `srvdb_shelf_build`. -/
def shelfCreateText : Chunks :=
  [ascii "INSERT INTO ", shelvesName user, ascii "(shelfno, name, nfloors, floor_depth,",
    ascii " cleaned, building_time)" ++ blanks 12, ascii "VALUES(", formatInt number,
    ascii ", ", escaped shelf.name, ascii ", ", formatInt shelf.nfloors.toNat, ascii ", ",
    spliced (floorDepthStr stack shelf), ascii ", ", formatInt avl, ascii ", ",
    spliced shelf.buildingTime, ascii ")"]

/-- The statement of `srvdb_shelf_remove` that is sent. -/
def shelfRemoveText : Chunks := markText (shelvesName user) del (ascii "shelfno") shelf.code

end Shelves

/-! ## The server

A text that is not read, or names another table, may do anything. -/

inductive BookColumn
  | shelfno
  | floorno
  | name
  | author
  | label
  | borrowed
  | onReading
  | cleaned
  | encodingTime
deriving DecidableEq

inductive ShelfColumn
  | name
  | nfloors
  | floorDepth
  | cleaned
  | buildingTime
deriving DecidableEq

instance : Fintype BookColumn where
  elems := {.shelfno, .floorno, .name, .author, .label, .borrowed, .onReading, .cleaned,
    .encodingTime}
  complete column := by cases column <;> decide

instance : Fintype ShelfColumn where
  elems := {.name, .nfloors, .floorDepth, .cleaned, .buildingTime}
  complete column := by cases column <;> decide

def BookColumn.sqlName : BookColumn → Name
  | shelfno => ascii "shelfno"
  | floorno => ascii "floorno"
  | name => ascii "name"
  | author => ascii "author"
  | label => ascii "label"
  | borrowed => ascii "borrowed"
  | onReading => ascii "on_reading"
  | cleaned => ascii "cleaned"
  | encodingTime => ascii "encoding_time"

def ShelfColumn.sqlName : ShelfColumn → Name
  | name => ascii "name"
  | nfloors => ascii "nfloors"
  | floorDepth => ascii "floor_depth"
  | cleaned => ascii "cleaned"
  | buildingTime => ascii "building_time"

structure Tables where
  shelves : List (Row ShelfColumn)
  books : List (Row BookColumn)
deriving DecidableEq

/-- What a query leaves behind, its number of affected rows, and the only column of its only row. -/
structure Outcome where
  tables : Tables
  affected : Nat
  selected : Option Int

/-- The user whose tables are meant, what their columns make of values, and what a text does that is
not read. -/
structure Server where
  owner : List UInt8
  bookStore : BookColumn → Value → Option Value
  shelfStore : ShelfColumn → Value → Option Value
  other : List UInt8 → Tables → Option Outcome

namespace Server

variable (server : Server)

def books : Schema BookColumn where
  table := booksName server.owner
  key := ascii "bookno"
  columns := [.shelfno, .floorno, .name, .author, .label, .borrowed, .onReading, .cleaned,
    .encodingTime]
  nameOf := BookColumn.sqlName
  store := server.bookStore

def shelves : Schema ShelfColumn where
  table := shelvesName server.owner
  key := ascii "shelfno"
  columns := [.name, .nfloors, .floorDepth, .cleaned, .buildingTime]
  nameOf := ShelfColumn.sqlName
  store := server.shelfStore

/-- A statement that is refused leaves nothing behind. -/
def outcome {Column : Type} (other : Option Outcome) (replace : List (Row Column) → Tables) :
    Meaning (Answer Column) → Option Outcome
  | .refused => none
  | .unknown => other
  | .means answer => some ⟨replace answer.rows, answer.affected, answer.selected⟩

def perform (text : List UInt8) (tables : Tables) : Meaning Statement → Option Outcome
  | .refused => none
  | .unknown => server.other text tables
  | .means statement =>
      if statement.table = server.books.table then
        outcome (server.other text tables) (fun rows => { tables with books := rows })
          (server.books.carryOut statement tables.books)
      else if statement.table = server.shelves.table then
        outcome (server.other text tables) (fun rows => { tables with shelves := rows })
          (server.shelves.carryOut statement tables.shelves)
      else server.other text tables

def execute (text : List UInt8) (tables : Tables) : Option Outcome :=
  server.perform text tables ((tokens text).elim .unknown readStatement)

end Server

/-! ## The connection

Any query and any fetch may fail without effect. -/

structure Connection where
  tables : Tables
  faults : List Bool
  failed : Bool

namespace Connection

def fresh (faults : List Bool) : Connection := ⟨⟨[], []⟩, faults, false⟩

def nextFault (connection : Connection) : Bool := connection.faults.headD false

def advance (connection : Connection) : Connection :=
  { connection with faults := connection.faults.tail }

def fail (connection : Connection) : Connection := { connection.advance with failed := true }

@[simp] theorem advance_tables (connection : Connection) :
    connection.advance.tables = connection.tables := rfl

end Connection

section Functions

variable (server : Server)

/-- `mysql_query`; there is no outcome where it does not return zero. -/
def mysqlQuery (chunks : Chunks) (connection : Connection) : Option Outcome × Connection :=
  if connection.nextFault then (none, connection.fail)
  else
    match server.execute chunks.text connection.tables with
    | none => (none, connection.fail)
    | some outcome => (some outcome, { connection.advance with tables := outcome.tables })

def getSimpleResult (selected : Option Int) (connection : Connection) : Option Int × Connection :=
  if connection.nextFault then (none, connection.fail) else (selected, connection.advance)

/-- What differs between `srvdb_book_insert` and `srvdb_shelf_build`. -/
structure Allocating (Fields : Type) where
  minText : Chunks
  renewText : Int → Chunks
  maxText : Chunks
  createText : Int → Chunks
  capacity : Nat
  record : Int → Message Fields → Message Fields
  fullText : String
  failText : String

namespace Allocating

variable {Fields : Type} (alloc : Allocating Fields)

/-- The first path, up to its `return(1)`. -/
def reuse (msg : Message Fields) (connection : Connection) :
    Option (Message Fields) × Connection :=
  match mysqlQuery server alloc.minText connection with
  | (none, connection) => (none, connection)
  | (some outcome, connection) =>
      match getSimpleResult outcome.selected connection with
      | (none, connection) => (none, connection)
      | (some number, connection) =>
          match mysqlQuery server (alloc.renewText number) connection with
          | (none, connection) => (none, connection)
          | (some outcome, connection) =>
              if outcome.affected = 1 then (some (alloc.record number msg), connection)
              else (none, connection)

def insertAt (number : Int) (msg : Message Fields) (connection : Connection) :
    Bool × Message Fields × Connection :=
  match mysqlQuery server (alloc.createText number) connection with
  | (some _, connection) => (true, alloc.record number msg, connection)
  | (none, connection) =>
      (false, { alloc.record number msg with errorText := alloc.failText }, connection)

/-- The second path. -/
def extend (msg : Message Fields) (connection : Connection) :
    Bool × Message Fields × Connection :=
  match mysqlQuery server alloc.maxText connection with
  | (none, connection) => (false, msg, connection)
  | (some outcome, connection) =>
      match getSimpleResult outcome.selected connection with
      | (some number, connection) =>
          if (alloc.capacity : Int) ≤ number then
            (false, { msg with errorText := alloc.fullText }, connection)
          else alloc.insertAt server (number + 1) msg connection
      | (none, connection) => alloc.insertAt server 1 msg connection

def allocate (msg : Message Fields) (connection : Connection) :
    Bool × Message Fields × Connection :=
  if cString msg.user = [] then (false, msg, connection)
  else
    match alloc.reuse server msg connection with
    | (some msg, connection) => (true, msg, connection)
    | (none, connection) => alloc.extend server msg connection

end Allocating

def bookAllocating (user : List UInt8) (book : BookFields) : Allocating BookFields where
  minText := minText (booksName user) (ascii "bookno")
  renewText := bookRenewText user book
  maxText := maxText (booksName user) (ascii "bookno")
  createText := bookCreateText user book
  capacity := maxBookNum
  record := Message.setBookno
  fullText := "上架失败:图书数量达到上限"
  failText := "上架图书失败..."

def shelfAllocating (user stack : List UInt8) (shelf : ShelfFields) : Allocating ShelfFields where
  minText := minText (shelvesName user) (ascii "shelfno")
  renewText := shelfRenewText user stack shelf
  maxText := maxText (shelvesName user) (ascii "shelfno")
  createText := shelfCreateText user stack shelf
  capacity := maxShelfNum
  record := Message.setShelfno
  fullText := "打造失败:书架达到上限"
  failText := "打造书架失败"

def srvdbBookInsert (msg : Message BookFields) (connection : Connection) :
    Bool × Message BookFields × Connection :=
  (bookAllocating (cString msg.user) msg.fields).allocate server msg connection

def srvdbShelfBuild (stack : List UInt8) (msg : Message ShelfFields) (connection : Connection) :
    Bool × Message ShelfFields × Connection :=
  (shelfAllocating (cString msg.user) stack msg.fields).allocate server msg connection

/-- A function that sends one statement. -/
def send (user : List UInt8) (chunks : Chunks) (connection : Connection) : Bool × Connection :=
  if user = [] then (false, connection)
  else
    let sent := mysqlQuery server chunks connection
    (sent.1.isSome, sent.2)

def srvdbBookDelete (msg : Message BookFields) : Connection → Bool × Connection :=
  send server (cString msg.user) (bookDeleteText (cString msg.user) msg.fields)

def srvdbBookUpdate (msg : Message BookFields) : Connection → Bool × Connection :=
  send server (cString msg.user) (bookUpdateText (cString msg.user) msg.fields)

/-- The second statement is formatted and never sent. -/
def srvdbShelfRemove (msg : Message ShelfFields) : Connection → Bool × Connection :=
  send server (cString msg.user) (shelfRemoveText (cString msg.user) msg.fields)

end Functions

end Bookshelfdq.Spliced
