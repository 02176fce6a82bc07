import Bookshelfdq.Server.Service
import Bookshelfdq.Server.SplicedImages
import Bookshelfdq.Server.SplicedNumbering

/-! # The typed functions and the spliced statements

On messages of plain texts the five writing functions of `Srvdb` do to the rows what the statements
of `srvdb.c` do to the bytes in them, query by query and failure by failure. -/

namespace Bookshelfdq.Spliced

open Sql

def connection (db : Mysql) : Connection where
  tables := archiveTables db.archive
  faults := db.faults
  failed := db.failed

/-! ## Queries -/

/-- A text does to the bytes what a statement does to the rows. -/
structure Runs (server : Server) (chunks : Chunks) (statement : Mysql → Option Mysql) : Prop where
  execute : ∀ db, server.execute chunks.text (archiveTables db.archive) =
    (statement db).map fun after => ⟨archiveTables after.archive, after.affectedRows, none⟩
  frame : ∀ db after, statement db = some after →
    after.faults = db.faults ∧ after.failed = db.failed

section Queries

variable {server : Server} {chunks : Chunks}

theorem Runs.query {statement : Mysql → Option Mysql} (runs : Runs server chunks statement)
    (db : Mysql) :
    (Bookshelfdq.mysqlQuery statement db = (false, db.fail) ∧
      mysqlQuery server chunks (connection db) = (none, connection db.fail)) ∨
    ∃ after, Bookshelfdq.mysqlQuery statement db = (true, after) ∧
      mysqlQuery server chunks (connection db) =
        (some ⟨archiveTables after.archive, after.affectedRows, none⟩, connection after) := by
  have executed : server.execute chunks.text (connection db).tables = _ := runs.execute db.advance
  have fault : (connection db).nextFault = db.nextFault := rfl
  rw [Bookshelfdq.mysqlQuery, mysqlQuery, fault, executed]
  split
  · exact .inl ⟨rfl, rfl⟩
  · cases accepted : statement db.advance with
    | none => exact .inl ⟨rfl, rfl⟩
    | some after =>
        rcases runs.frame db.advance after accepted with ⟨faults, failed⟩
        have same : connection after =
            { (connection db).advance with tables := archiveTables after.archive } := by
          rw [connection, faults, failed]
          rfl
        exact .inr ⟨after, rfl, by rw [same]; rfl⟩

theorem selects_query {Column : Type} {part : Part Column}
    {value : List (Row Column) → Option Int} (selects : part.Selects server chunks value)
    (db : Mysql) :
    (mysqlSelect db = (false, db.fail) ∧
      mysqlQuery server chunks (connection db) = (none, connection db.fail)) ∨
    (mysqlSelect db = (true, db.advance) ∧
      mysqlQuery server chunks (connection db) =
        (some ⟨archiveTables db.archive, 0, value (part.rows (archiveTables db.archive))⟩,
          connection db.advance)) := by
  have executed : server.execute chunks.text (connection db).tables = _ :=
    selects (archiveTables db.archive)
  have fault : (connection db).nextFault = db.nextFault := rfl
  rw [mysqlSelect, Bookshelfdq.mysqlQuery, mysqlQuery, fault, executed]
  split
  · exact .inl ⟨rfl, rfl⟩
  · exact .inr ⟨rfl, rfl⟩

theorem getSimpleResult_connection (value : Option Int) (db : Mysql) :
    getSimpleResult value (connection db) =
      ((Bookshelfdq.getSimpleResult value db).1,
        connection (Bookshelfdq.getSimpleResult value db).2) := by
  have fault : (connection db).nextFault = db.nextFault := rfl
  rw [getSimpleResult, Bookshelfdq.getSimpleResult, fault]
  split <;> rfl

end Queries

/-! ## One table -/

/-- How the rows of one table lie in the tables of bytes. -/
structure Encodes {TypedRow Column : Type} (rows : Archive → List TypedRow)
    (replace : List TypedRow → Archive → Archive) (part : Part Column)
    (code : TypedRow → Row Column) : Prop where
  rows_eq : ∀ archive, part.rows (archiveTables archive) = (rows archive).map code
  replace_eq : ∀ new archive,
    archiveTables (replace new archive) = part.replace (new.map code) (archiveTables archive)
  injective : Function.Injective code

theorem books_encode : Encodes Archive.books (fun new archive => { archive with books := new })
    bookPart bookRow :=
  ⟨fun _ => rfl, fun _ _ => rfl, bookRow_injective⟩

theorem shelves_encode : Encodes Archive.shelves
    (fun new archive => { archive with shelves := new }) shelfPart shelfRow :=
  ⟨fun _ => rfl, fun _ _ => rfl, shelfRow_injective⟩

section Tables

variable {TypedRow Column : Type} {rows : Archive → List TypedRow}
  {replace : List TypedRow → Archive → Archive} {part : Part Column} {code : TypedRow → Row Column}
  {server : Server} {chunks : Chunks} (encodes : Encodes rows replace part code)
include encodes

theorem Encodes.update [DecidableEq TypedRow] [Fintype Column] [DecidableEq Column]
    {selected : TypedRow → Bool} {change : TypedRow → Option TypedRow}
    {chosen : Row Column → Bool} {changed : Row Column → Option (Row Column)}
    (updates : part.Updates server chunks chosen changed)
    (selects : ∀ row, chosen (code row) = selected row)
    (changes : ∀ row, selected row = true → changed (code row) = (change row).map code) :
    Runs server chunks fun db =>
      (Table.update selected change (rows db.archive)).map fun new =>
        { db with
          archive := replace new db.archive
          affectedRows := Table.affected selected change (rows db.archive) } := by
  constructor
  · intro db
    rw [updates, encodes.rows_eq, Table.update_map selects changes,
      Table.affected_map selects changes encodes.injective, Option.map_map, Option.map_map]
    congr 1
    funext new
    exact congrArg (fun tables => Outcome.mk tables _ none)
      (encodes.replace_eq new db.archive).symm
  · intro db after accepted
    rcases Option.map_eq_some_iff.mp accepted with ⟨new, _, rfl⟩
    exact ⟨rfl, rfl⟩

theorem Encodes.insert {key : TypedRow → Int} {made : Option (Row Column)}
    {create : Option TypedRow} (inserts : part.Inserts server chunks made)
    (same : made = create.map code) (keys : ∀ row, (code row).number = key row) :
    Runs server chunks fun db =>
      create.bind fun row =>
        (Table.insert key row (rows db.archive)).map fun new =>
          { db with archive := replace new db.archive, affectedRows := 1 } := by
  constructor
  · intro db
    rw [inserts, same]
    cases create with
    | none => rfl
    | some row =>
        rw [Option.map_some, Option.bind_some, Option.bind_some, encodes.rows_eq,
          Table.insert_map keys, Option.map_map, Option.map_map]
        congr 1
        funext new
        exact congrArg (fun tables => Outcome.mk tables 1 none)
          (encodes.replace_eq new db.archive).symm
  · intro db after accepted
    rcases Option.bind_eq_some_iff.mp accepted with ⟨row, _, accepted⟩
    rcases Option.map_eq_some_iff.mp accepted with ⟨new, _, rfl⟩
    exact ⟨rfl, rfl⟩

end Tables

theorem runs_refused {server : Server} {chunks : Chunks} (refused : Refused server chunks) :
    Runs server chunks fun _ => none :=
  ⟨fun _ => refused _, fun _ _ accepted => by cases accepted⟩

/-! ## Allocations -/

/-- An allocation of bytes that goes with one of rows. -/
structure Mirrors {TypedRow Fields Column : Type} [DecidableEq TypedRow] (server : Server)
    (typed : Allocation TypedRow) (alloc : Allocating Fields) (part : Part Column)
    (code : TypedRow → Row Column) (message : MessageCs → Message Fields) : Prop where
  encodes : Encodes typed.rows typed.replace part code
  number : ∀ row, (code row).number = typed.number row
  deleted : ∀ row, part.deleted (code row) = typed.deleted row
  smallest : part.Selects server alloc.minText (Table.smallest Row.number part.deleted)
  largest : part.Selects server alloc.maxText (Table.largest Row.number)
  renews : ∀ number, Runs server (alloc.renewText number) (typed.updateStatement number)
  creates : ∀ number, 0 < number →
    Runs server (alloc.createText number) (typed.insertStatement number)
  record : ∀ number msg, message (typed.record number msg) = alloc.record number (message msg)
  error : ∀ text msg,
    message { msg with errorText := text } = { message msg with errorText := text }
  capacity : alloc.capacity = typed.capacity
  fullText : alloc.fullText = typed.fullText
  failText : alloc.failText = typed.failText

namespace Mirrors

variable {TypedRow Fields Column : Type} [DecidableEq TypedRow] {server : Server}
  {typed : Allocation TypedRow} {alloc : Allocating Fields} {part : Part Column}
  {code : TypedRow → Row Column} {message : MessageCs → Message Fields}
  (mirrors : Mirrors server typed alloc part code message) (msg : MessageCs) (db : Mysql)
include mirrors

theorem smallest_eq (archive : Archive) :
    Table.smallest Row.number part.deleted (part.rows (archiveTables archive)) =
      typed.smallestDeleted archive := by
  rw [mirrors.encodes.rows_eq, Table.smallest_map mirrors.number mirrors.deleted]
  rfl

theorem largest_eq (archive : Archive) :
    Table.largest Row.number (part.rows (archiveTables archive)) = typed.largest archive := by
  rw [mirrors.encodes.rows_eq, Table.largest_map mirrors.number]
  rfl

theorem reuse :
    alloc.reuse server (message msg) (connection db) =
      ((typed.reuse msg db).1.map message, connection (typed.reuse msg db).2) := by
  rw [Allocating.reuse, Allocation.reuse]
  rcases selects_query mirrors.smallest db with ⟨first, second⟩ | ⟨first, second⟩
  · rw [first, second]
    rfl
  · rw [first, second]
    dsimp only
    rw [mirrors.smallest_eq, getSimpleResult_connection, Mysql.advance_archive]
    rcases Bookshelfdq.getSimpleResult (typed.smallestDeleted db.archive) db.advance with
      ⟨none | number, fetched⟩
    · rfl
    · dsimp only
      rcases (mirrors.renews number).query fetched with ⟨first, second⟩ | ⟨after, first, second⟩
      · rw [first, second]
        rfl
      · rw [first, second]
        dsimp only
        by_cases one : after.affectedRows = 1
        · rw [if_pos one, if_pos one, Option.map_some, mirrors.record]
        · rw [if_neg one, if_neg one]
          rfl

theorem insertAt {number : Int} (positive : 0 < number) :
    alloc.insertAt server number (message msg) (connection db) =
      ((typed.insertAt number msg db).1, message (typed.insertAt number msg db).2.1,
        connection (typed.insertAt number msg db).2.2) := by
  rw [Allocating.insertAt, Allocation.insertAt]
  rcases (mirrors.creates number positive).query db with ⟨first, second⟩ | ⟨after, first, second⟩
  · rw [first, second]
    have answer := mirrors.error typed.failText (typed.record number msg)
    rw [mirrors.record] at answer
    rw [mirrors.failText]
    exact congrArg (fun answer => (false, answer, connection db.fail)) answer.symm
  · rw [first, second]
    dsimp only
    rw [mirrors.record]

theorem extend (numbered : typed.WellNumbered db.archive) :
    alloc.extend server (message msg) (connection db) =
      ((typed.extend msg db).1, message (typed.extend msg db).2.1,
        connection (typed.extend msg db).2.2) := by
  rw [Allocating.extend, Allocation.extend]
  rcases selects_query mirrors.largest db with ⟨first, second⟩ | ⟨first, second⟩
  · rw [first, second]
  · rw [first, second]
    dsimp only
    rw [mirrors.largest_eq, getSimpleResult_connection, Mysql.advance_archive]
    rcases Bookshelfdq.getSimpleResult_cases (typed.largest db.archive) db.advance with
      fetched | fetched
    · rw [fetched]
      exact mirrors.insertAt msg db.advance.fail (by decide)
    · rw [fetched]
      cases biggest : typed.largest db.archive with
      | none => exact mirrors.insertAt msg db.advance.advance (by decide)
      | some last =>
          dsimp only
          rw [mirrors.capacity]
          split
          · have answer := mirrors.error typed.fullText msg
            rw [mirrors.fullText]
            exact congrArg (fun answer => (false, answer, connection db.advance.advance))
              answer.symm
          · refine mirrors.insertAt msg db.advance.advance ?_
            rcases numbered with ⟨count, _, keys⟩
            rw [Allocation.largest, (keys : _ = Table.numbers count), Table.numbers_max?] at biggest
            split at biggest
            · cases biggest
            · obtain rfl := Option.some.inj biggest
              omega

omit mirrors in
theorem allocate (named : cString (message msg).user = [] ↔ msg.user = "")
    (mirrors : cString (message msg).user ≠ [] →
      Mirrors server typed alloc part code message)
    (numbered : typed.WellNumbered db.archive) :
    alloc.allocate server (message msg) (connection db) =
      ((typed.allocate msg db).1, message (typed.allocate msg db).2.1,
        connection (typed.allocate msg db).2.2) := by
  rw [Allocating.allocate, Allocation.allocate]
  by_cases anonymous : msg.user = ""
  · rw [if_pos anonymous, if_pos (named.mpr anonymous)]
  · have some : cString (message msg).user ≠ [] := fun none => anonymous (named.mp none)
    have mirrors := mirrors some
    rw [if_neg anonymous, if_neg some, mirrors.reuse]
    rcases typed.reuse_cases msg db numbered.nodup with ⟨number, after, reused, _⟩ |
      ⟨after, reused, same, _⟩
    · rw [reused]
      rfl
    · rw [reused]
      exact mirrors.extend msg after (same ▸ numbered)

end Mirrors

/-! ## Messages -/

def bookMessage (msg : MessageCs) : Message BookFields where
  user := bytes msg.user
  fields := bookFields msg.stuff.book
  errorText := msg.errorText

def shelfMessage (msg : MessageCs) : Message ShelfFields where
  user := bytes msg.user
  fields := shelfFields msg.stuff.shelf
  errorText := msg.errorText

/-- The two flags are digits, or the text is refused. -/
theorem meaning_of_flags {chunks : Chunks} {book : BookEntry} (written : WrittenBook book)
    {statement : Value → Value → Statement}
    (text : meaning chunks = (byteValue (bookFields book).borrowed).bind fun borrowed =>
      (byteValue (bookFields book).onReading).bind fun onReading =>
        .means (statement borrowed onReading)) :
    (book.wellFormed = false ∧ meaning chunks = .refused) ∨
    (book.wellFormed = true ∧ meaning chunks =
      .means (statement (bookValues book .borrowed) (bookValues book .onReading))) := by
  have borrowed := byteValue_flagByte written.borrowed.1
  have onReading := byteValue_flagByte written.onReading.1
  rw [bookFields] at text
  dsimp only at text
  rw [borrowed, onReading] at text
  rw [BookEntry.wellFormed]
  cases first : unquoted book.borrowed with
  | false =>
      rw [first, if_neg Bool.false_ne_true] at text
      exact .inl ⟨rfl, text⟩
  | true =>
      rw [first, if_pos rfl, Meaning.bind_means] at text
      cases second : unquoted book.onReading with
      | false =>
          rw [second, if_neg Bool.false_ne_true] at text
          exact .inl ⟨rfl, text⟩
      | true =>
          rw [second, if_pos rfl] at text
          exact .inr ⟨rfl, text⟩

section Books

variable {server : Server} {mode : SqlMode} (named : IsName server.owner)
  (columns : server.Columns mode) {book : BookEntry} (written : WrittenBook book)
include named columns written

omit named columns in
theorem bookTexts :
    cString (bookFields book).name = bytes book.name ∧
      cString (bookFields book).author = bytes book.author ∧
      cString (bookFields book).label = bytes book.label ∧
      cString (bookFields book).encodingTime = bytes book.encodingTime.text :=
  ⟨cString_bytes written.name, cString_bytes written.author, cString_bytes written.label,
    cString_bytes written.encodingTime.1⟩

/-- The `UPDATE` of an insertion. -/
theorem bookRenewText_runs (number : Int) :
    Runs server (bookRenewText server.owner (bookFields book) number)
      ((bookAllocation mode book).updateStatement number) := by
  rcases bookTexts written with ⟨name, author, label, time⟩
  have text := bookRenewText_meaning named written.plain number
  rw [name, author, label, time] at text
  rcases meaning_of_flags written text with ⟨broken, refused⟩ | ⟨formed, means⟩
  · have same : (bookAllocation mode book).updateStatement number = fun _ => none :=
      funext fun _ => if_neg (ne_true_of_eq_false broken)
    rw [same]
    exact runs_refused (execute_refused refused)
  · have same : (bookAllocation mode book).updateStatement number = _ :=
      funext fun _ => if_pos formed
    rw [same]
    refine books_encode.update ((books_hold server).updates means rfl rfl) (fun _ => rfl) ?_
    intro row _
    exact @assign_book server mode columns book written formed
      [.cleaned, .shelfno, .floorno, .name, .author, .label, .borrowed, .onReading, .encodingTime]
      (fun column => by cases column <;> decide) (bookRow row)

/-- The `INSERT`. -/
theorem bookCreateText_runs {number : Int} (positive : 0 < number) :
    Runs server (bookCreateText server.owner (bookFields book) number)
      ((bookAllocation mode book).insertStatement number) := by
  rcases bookTexts written with ⟨name, author, label, time⟩
  have text := bookCreateText_meaning named written.plain number
  rw [name, author, label, time] at text
  rcases meaning_of_flags written text with ⟨broken, refused⟩ | ⟨formed, means⟩
  · have same : (bookAllocation mode book).insertStatement number = fun _ => none :=
      funext fun _ => if_neg (ne_true_of_eq_false broken)
    rw [same]
    exact runs_refused (execute_refused refused)
  · have same : (bookAllocation mode book).insertStatement number = _ :=
      funext fun _ => if_pos formed
    rw [same]
    refine books_encode.insert ((books_hold server).inserts positive means rfl) ?_ fun _ => rfl
    exact @assign_book server mode columns book written formed
      [.shelfno, .floorno, .name, .author, .label, .borrowed, .onReading, .cleaned, .encodingTime]
      (fun column => by cases column <;> decide) ⟨number, _⟩

theorem book_mirrors :
    Mirrors server (bookAllocation mode book) (bookAllocating server.owner (bookFields book))
      bookPart bookRow bookMessage where
  encodes := books_encode
  number _ := rfl
  deleted row := by
    change (Value.number (BookCleaned.number row.cleaned) == .number del) = (row.cleaned == .del)
    cases row.cleaned <;> decide
  smallest := (bookAllocating_meant named columns.keeps written.plain).smallest
  largest := (bookAllocating_meant named columns.keeps written.plain).largest
  renews := bookRenewText_runs named columns written
  creates _ := bookCreateText_runs named columns written
  record _ _ := rfl
  error _ _ := rfl
  capacity := rfl
  fullText := rfl
  failText := rfl

end Books

section Shelves

variable {server : Server} {mode : SqlMode} (named : IsName server.owner)
  (columns : server.Columns mode) {shelf : ShelfEntry} (written : WrittenShelf shelf)
include written

theorem shelfTexts :
    cString (shelfFields shelf).name = bytes shelf.name ∧
      ((shelfFields shelf).nfloors.toNat : Int) = shelf.nfloors ∧
      cString (floorDepthStr [] (shelfFields shelf)) =
        bytes (floorDepthText (shelf.ndepth.take shelf.nfloors)) ∧
      cString (shelfFields shelf).buildingTime = bytes shelf.buildingTime.text := by
  refine ⟨cString_bytes written.name, by rw [written.nfloors_toNat], ?_,
    cString_bytes written.buildingTime.1⟩
  rw [written.floorDepthStr, cString_bytes written.floorDepthText_terminable]

include named columns

/-- The `UPDATE` of a build. -/
theorem shelfRenewText_runs (stack : List UInt8) (number : Int) :
    Runs server (shelfRenewText server.owner stack (shelfFields shelf) number)
      ((shelfAllocation mode shelf).updateStatement number) := by
  rcases shelfTexts written with ⟨name, nfloors, depth, time⟩
  have means := @shelfRenewText_meaning _ named stack _ written.plain number
  rw [name, nfloors, depth, time] at means
  have same : (shelfAllocation mode shelf).updateStatement number = _ :=
    funext fun _ => if_pos written.wellFormed
  rw [same]
  refine shelves_encode.update ((shelves_hold server).updates means rfl rfl) (fun _ => rfl) ?_
  intro row _
  exact @assign_shelf server mode columns shelf written
    [.cleaned, .name, .nfloors, .floorDepth, .buildingTime]
    (fun column => by cases column <;> decide) (shelfRow row)

/-- The `INSERT`. -/
theorem shelfCreateText_runs (stack : List UInt8) {number : Int} (positive : 0 < number) :
    Runs server (shelfCreateText server.owner stack (shelfFields shelf) number)
      ((shelfAllocation mode shelf).insertStatement number) := by
  rcases shelfTexts written with ⟨name, nfloors, depth, time⟩
  have means := @shelfCreateText_meaning _ named stack _ written.plain number
  rw [name, nfloors, depth, time] at means
  have same : (shelfAllocation mode shelf).insertStatement number = _ :=
    funext fun _ => if_pos written.wellFormed
  rw [same]
  refine shelves_encode.insert ((shelves_hold server).inserts positive means rfl) ?_ fun _ => rfl
  exact @assign_shelf server mode columns shelf written
    [.name, .nfloors, .floorDepth, .cleaned, .buildingTime]
    (fun column => by cases column <;> decide) ⟨number, _⟩

theorem shelf_mirrors (stack : List UInt8) :
    Mirrors server (shelfAllocation mode shelf)
      (shelfAllocating server.owner stack (shelfFields shelf)) shelfPart shelfRow shelfMessage where
  encodes := shelves_encode
  number _ := rfl
  deleted row := by
    change (Value.number (ShelfCleaned.number row.cleaned) == .number del) = (row.cleaned == .del)
    cases row.cleaned <;> decide
  smallest := (shelfAllocating_meant named columns.keeps written.plain).smallest
  largest := (shelfAllocating_meant named columns.keeps written.plain).largest
  renews := shelfRenewText_runs named columns written stack
  creates _ := shelfCreateText_runs named columns written stack
  record _ _ := rfl
  error _ _ := rfl
  capacity := rfl
  fullText := rfl
  failText := rfl

end Shelves

/-! ## Single statements -/

section Marks

variable {server : Server} {mode : SqlMode} (named : IsName server.owner)
  (columns : server.Columns mode)

theorem number_beq (left right : Int) : (Value.number left == .number right) = (left == right) := by
  rw [Bool.eq_iff_iff, beq_iff_eq, beq_iff_eq, Value.number.injEq]

include columns

theorem assign_clean_book (cleaned : BookCleaned) (row : BookRow) :
    server.books.assign [(.cleaned, .number (BookCleaned.number cleaned))] (bookRow row) =
      (some (row.clean cleaned)).map bookRow := by
  have stored : server.books.store .cleaned (.number (BookCleaned.number cleaned)) =
      some (.number (BookCleaned.number cleaned)) := by
    refine columns.bookDigit .cleaned (.inr (.inr rfl)) _ ?_ ?_ <;> cases cleaned <;> decide
  rw [Schema.assign, stored, Option.bind_some, Schema.assign, Option.map_some]
  refine congrArg some (Row.eq_iff.mp ⟨rfl, fun column => ?_⟩)
  cases column <;> rfl

theorem assign_clean_shelf (row : ShelfRow) :
    server.shelves.assign [(.cleaned, .number del)] (shelfRow row) =
      (some (row.clean .del)).map shelfRow := by
  have stored : server.shelves.store .cleaned (.number del) = some (.number del) :=
    columns.shelfCleaned del (by decide) (by decide)
  rw [Schema.assign, stored, Option.bind_some, Schema.assign, Option.map_some]
  refine congrArg some (Row.eq_iff.mp ⟨rfl, fun column => ?_⟩)
  cases column <;> rfl

include named

/-- The `UPDATE` that marks the books of a shelf. -/
theorem markShelf_runs (cleaned : BookCleaned) (shelfno : Int) :
    Runs server
      (markText (booksName server.owner) (BookCleaned.number cleaned) (ascii "shelfno") shelfno)
      (updateBooks (fun row => row.shelfno == shelfno) fun row => some (row.clean cleaned)) := by
  have means := markText_meaning named.lexes_books lexes_shelfno (BookCleaned.number cleaned)
    shelfno
  refine books_encode.update ((books_hold server).updates means rfl rfl) (fun _ => ?_) ?_
  · exact number_beq _ _
  · exact fun row _ => assign_clean_book columns cleaned row

/-- The one that marks a single book. -/
theorem markBook_runs (cleaned : BookCleaned) (bookno : Int) :
    Runs server
      (markText (booksName server.owner) (BookCleaned.number cleaned) (ascii "bookno") bookno)
      (updateBooks (fun row => row.bookno == bookno) fun row => some (row.clean cleaned)) := by
  have means := markText_meaning named.lexes_books lexes_bookno (BookCleaned.number cleaned) bookno
  refine books_encode.update ((books_hold server).updates means rfl rfl) (fun _ => rfl) ?_
  exact fun row _ => assign_clean_book columns cleaned row

theorem bookDeleteText_runs (book : BookEntry) :
    Runs server (bookDeleteText server.owner (bookFields book))
      (updateBooks
        (fun row => if book.namesShelf then row.shelfno == book.shelfno
          else row.bookno == book.bookno)
        fun row => some (row.clean .del)) := by
  have same : (bookFields book).namesShelf = book.namesShelf := rfl
  rw [bookDeleteText, same]
  cases book.namesShelf with
  | true => exact markShelf_runs named columns .del book.shelfno
  | false => exact markBook_runs named columns .del book.bookno

theorem shelfRemoveText_runs (shelf : ShelfEntry) :
    Runs server (shelfRemoveText server.owner (shelfFields shelf))
      (updateShelves (fun row => row.shelfno == shelf.code) fun row => some (row.clean .del)) := by
  have means := markText_meaning named.lexes_shelves lexes_shelfno del shelf.code
  refine shelves_encode.update ((shelves_hold server).updates means rfl rfl) (fun _ => rfl) ?_
  exact fun row _ => assign_clean_shelf columns row

/-- The `UPDATE` of a single book. -/
theorem bookUpdateText_runs {book : BookEntry} (written : WrittenBook book)
    (single : book.namesShelf = false) :
    Runs server (bookUpdateText server.owner (bookFields book)) fun db =>
      if book.wellFormed then
        updateBooks (fun row => row.bookno == book.bookno) (fun row => book.row mode row.bookno) db
      else none := by
  rcases bookTexts written with ⟨name, author, label, time⟩
  have text := bookUpdateText_meaning named written.plain single
  rw [name, author, label, time] at text
  rcases meaning_of_flags written text with ⟨broken, refused⟩ | ⟨formed, means⟩
  · rw [broken]
    exact runs_refused (execute_refused refused)
  · rw [formed]
    refine books_encode.update ((books_hold server).updates means rfl rfl) (fun _ => rfl) ?_
    intro row _
    exact @assign_book server mode columns book written formed
      [.shelfno, .floorno, .name, .author, .label, .borrowed, .onReading, .cleaned, .encodingTime]
      (fun column => by cases column <;> decide) (bookRow row)

end Marks

theorem Runs.send {server : Server} {chunks : Chunks} {statement : Mysql → Option Mysql}
    {user : List UInt8} {msg : MessageCs} (named : user = [] ↔ msg.user = "")
    (runs : user ≠ [] → Runs server chunks statement) (db : Mysql) :
    send server user chunks (connection db) =
      ((Bookshelfdq.execute msg statement db).1,
        connection (Bookshelfdq.execute msg statement db).2) := by
  rw [Spliced.send, Bookshelfdq.execute]
  by_cases anonymous : msg.user = ""
  · rw [if_pos anonymous, if_pos (named.mpr anonymous)]
  · have some : user ≠ [] := fun none => anonymous (named.mp none)
    rw [if_neg anonymous, if_neg some]
    rcases (runs some).query db with ⟨first, second⟩ | ⟨after, first, second⟩ <;>
      rw [first, second] <;> rfl

/-! ## The five functions -/

/-- No user is set, or the owner of the tables. -/
def Sender (server : Server) (msg : MessageCs) : Prop :=
  msg.user = "" ∨ bytes msg.user = server.owner ∧ IsName server.owner

theorem IsName.solid {user : List UInt8} (named : IsName user) : cString user = user := by
  rw [cString, Terminated.text, List.takeWhile_eq_self_iff]
  intro byte member
  apply decide_eq_true
  rintro rfl
  exact absurd (List.all_eq_true.mp named.letters 0 member) (by decide)

section Senders

variable {server : Server} {msg : MessageCs} (sender : Sender server msg)
include sender

theorem Sender.cString_eq : cString (bytes msg.user) = bytes msg.user := by
  rcases sender with anonymous | ⟨owner, named⟩
  · rw [anonymous]
    rfl
  · rw [owner]
    exact named.solid

theorem Sender.anonymous : cString (bytes msg.user) = [] ↔ msg.user = "" := by
  rw [sender.cString_eq]
  exact bytes_injective.eq_iff (b := "")

theorem Sender.owner (some : cString (bytes msg.user) ≠ []) :
    cString (bytes msg.user) = server.owner ∧ IsName server.owner := by
  rw [sender.cString_eq] at some ⊢
  rcases sender with anonymous | owner
  · rw [anonymous] at some
    exact absurd rfl some
  · exact owner

end Senders

section Functions

variable {server : Server} {db : Mysql} (columns : server.Columns db.mode) {msg : MessageCs}
  (sender : Sender server msg)
include columns sender

theorem srvdbBookInsert_connection (written : WrittenBook msg.stuff.book)
    (numbered : db.archive.BooksNumbered) :
    srvdbBookInsert server (bookMessage msg) (connection db) =
      ((Bookshelfdq.srvdbBookInsert msg db).1,
        bookMessage (Bookshelfdq.srvdbBookInsert msg db).2.1,
        connection (Bookshelfdq.srvdbBookInsert msg db).2.2) := by
  have mirrors (some : cString (bytes msg.user) ≠ []) :
      Mirrors server (bookAllocation db.mode msg.stuff.book)
        (bookAllocating (cString (bytes msg.user)) (bookFields msg.stuff.book)) bookPart bookRow
        bookMessage := by
    rcases sender.owner some with ⟨owner, named⟩
    rw [owner]
    exact book_mirrors named columns written
  exact Mirrors.allocate msg db sender.anonymous mirrors numbered

theorem srvdbShelfBuild_connection (written : WrittenShelf msg.stuff.shelf)
    (numbered : db.archive.ShelvesNumbered) (stack : List UInt8) :
    srvdbShelfBuild server stack (shelfMessage msg) (connection db) =
      ((Bookshelfdq.srvdbShelfBuild msg db).1,
        shelfMessage (Bookshelfdq.srvdbShelfBuild msg db).2.1,
        connection (Bookshelfdq.srvdbShelfBuild msg db).2.2) := by
  have mirrors (some : cString (bytes msg.user) ≠ []) :
      Mirrors server (shelfAllocation db.mode msg.stuff.shelf)
        (shelfAllocating (cString (bytes msg.user)) stack (shelfFields msg.stuff.shelf)) shelfPart
        shelfRow shelfMessage := by
    rcases sender.owner some with ⟨owner, named⟩
    rw [owner]
    exact shelf_mirrors named columns written stack
  exact Mirrors.allocate msg db sender.anonymous mirrors numbered

theorem srvdbBookDelete_connection :
    srvdbBookDelete server (bookMessage msg) (connection db) =
      ((Bookshelfdq.srvdbBookDelete msg db).1,
        connection (Bookshelfdq.srvdbBookDelete msg db).2) := by
  refine Runs.send sender.anonymous (fun some => ?_) db
  rcases sender.owner some with ⟨owner, named⟩
  change Runs server (bookDeleteText (cString (bytes msg.user)) (bookFields msg.stuff.book)) _
  rw [owner]
  exact bookDeleteText_runs named columns msg.stuff.book

theorem srvdbShelfRemove_connection :
    srvdbShelfRemove server (shelfMessage msg) (connection db) =
      ((Bookshelfdq.srvdbShelfRemove msg db).1,
        connection (Bookshelfdq.srvdbShelfRemove msg db).2) := by
  refine Runs.send sender.anonymous (fun some => ?_) db
  rcases sender.owner some with ⟨owner, named⟩
  change Runs server (shelfRemoveText (cString (bytes msg.user)) (shelfFields msg.stuff.shelf)) _
  rw [owner]
  exact shelfRemoveText_runs named columns msg.stuff.shelf

theorem srvdbBookUpdate_connection
    (written : msg.stuff.book.namesShelf = false → WrittenBook msg.stuff.book) :
    srvdbBookUpdate server (bookMessage msg) (connection db) =
      ((Bookshelfdq.srvdbBookUpdate msg db).1,
        connection (Bookshelfdq.srvdbBookUpdate msg db).2) := by
  rw [Bookshelfdq.srvdbBookUpdate]
  cases whole : msg.stuff.book.namesShelf with
  | true =>
      rw [if_pos rfl]
      refine Runs.send sender.anonymous (fun some => ?_) db
      rcases sender.owner some with ⟨owner, named⟩
      change Runs server (bookUpdateText (cString (bytes msg.user)) (bookFields msg.stuff.book)) _
      have same : (bookFields msg.stuff.book).namesShelf = true := whole
      rw [owner, bookUpdateText, same, if_pos rfl]
      exact markShelf_runs named columns .unsorted msg.stuff.book.shelfno
  | false =>
      rw [if_neg Bool.false_ne_true]
      have runs (some : cString (bytes msg.user) ≠ []) :
          Runs server (bookUpdateText (cString (bytes msg.user)) (bookFields msg.stuff.book))
            fun queried =>
              if msg.stuff.book.wellFormed then
                updateBooks (fun row => row.bookno == msg.stuff.book.bookno)
                  (fun row => msg.stuff.book.row db.mode row.bookno) queried
              else none := by
        rcases sender.owner some with ⟨owner, named⟩
        rw [owner]
        exact bookUpdateText_runs named columns (written whole) whole
      exact Runs.send sender.anonymous runs db

end Functions

/-! ## Runs of requests -/

/-- The message of the request in bytes. What the stack holds is not looked at. -/
def splicedRequest (stack : List UInt8) : ArchiveRequest → Request
  | .bookInsert msg => .bookInsert (bookMessage msg)
  | .bookDelete msg => .bookDelete (bookMessage msg)
  | .bookUpdate msg => .bookUpdate (bookMessage msg)
  | .shelfBuild msg => .shelfBuild stack (shelfMessage msg)
  | .shelfRemove msg => .shelfRemove (shelfMessage msg)

def WrittenRequest (server : Server) : ArchiveRequest → Prop
  | .bookInsert msg => Sender server msg ∧ WrittenBook msg.stuff.book
  | .bookDelete msg => Sender server msg
  | .bookUpdate msg =>
      Sender server msg ∧ (msg.stuff.book.namesShelf = false → WrittenBook msg.stuff.book)
  | .shelfBuild msg => Sender server msg ∧ WrittenShelf msg.stuff.shelf
  | .shelfRemove msg => Sender server msg

theorem step_connection {server : Server} {db : Mysql} (columns : server.Columns db.mode)
    (numbered : db.archive.WellNumbered) {request : ArchiveRequest}
    (written : WrittenRequest server request) (stack : List UInt8) :
    (splicedRequest stack request).step server (connection db) =
      connection (ArchiveRequest.step db request) := by
  let cleared : Mysql := { db with failed := false }
  have columns : server.Columns cleared.mode := columns
  change (splicedRequest stack request).perform server (connection cleared) =
    connection (request.perform cleared).2.2
  cases request with
  | bookInsert msg =>
      have same := srvdbBookInsert_connection columns written.1 written.2 numbered.1
      exact congrArg (fun result => result.2.2) same
  | bookDelete msg =>
      exact congrArg Prod.snd (srvdbBookDelete_connection columns written)
  | bookUpdate msg =>
      exact congrArg Prod.snd (srvdbBookUpdate_connection columns written.1 written.2)
  | shelfBuild msg =>
      have same := srvdbShelfBuild_connection columns written.1 written.2 numbered.2 stack
      exact congrArg (fun result => result.2.2) same
  | shelfRemove msg =>
      exact congrArg Prod.snd (srvdbShelfRemove_connection columns written)

/-- Over every run of plain requests the rows are what the bytes of the tables mean. -/
theorem run_connection {server : Server} {db : Mysql} (columns : server.Columns db.mode)
    (numbered : db.archive.WellNumbered) {requests : List (List UInt8 × ArchiveRequest)}
    (written : ∀ sent ∈ requests, WrittenRequest server sent.2) :
    Execution.run (Request.step server) (connection db)
        (requests.map fun sent => splicedRequest sent.1 sent.2) =
      connection (Execution.run ArchiveRequest.step db (requests.map Prod.snd)) := by
  induction requests generalizing db with
  | nil => rfl
  | cons sent rest induction =>
      have first := written sent List.mem_cons_self
      have mode : (ArchiveRequest.step db sent.2).mode = db.mode :=
        (ArchiveRequest.perform_framed Mysql.Continues.tableFrame { db with failed := false }
          sent.2).mode
      have columnsAfter : server.Columns (ArchiveRequest.step db sent.2).mode := mode ▸ columns
      have later := induction columnsAfter (ArchiveRequest.step_wellNumbered db sent.2 numbered)
        fun sent member => written sent (List.mem_cons_of_mem _ member)
      rw [List.map_cons, List.map_cons, Execution.run, Execution.run,
        step_connection columns numbered first sent.1]
      exact later

end Bookshelfdq.Spliced
