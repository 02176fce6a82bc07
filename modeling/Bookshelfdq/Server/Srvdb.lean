import Bookshelfdq.Server.Allocation

/-! # The server's books and shelves

The functions of `srvdb.c` on one account's archive. A function that returns an
`int` truth value returns a `Bool` here; `*num_rows` is the value under `some`. -/

namespace Bookshelfdq

/-! ## Inserting and changing books

The two flags of a book are formatted with `%c`, without quotes. A request to
delete or update means a whole shelf when only its shelf number makes sense. -/

/-- The row a book entry becomes under the number `bookno`. -/
def BookEntry.row (mode : SqlMode) (book : BookEntry) (bookno : Int) : Option BookRow :=
  (mode.store 200 book.name).bind fun name =>
    (mode.store 70 book.author).bind fun author =>
      (mode.store 200 book.label).map fun label =>
        { shelfno := book.shelfno
          floorno := book.floorno
          bookno := bookno
          name := name
          author := author
          label := label
          borrowed := book.borrowed
          onReading := book.onReading
          cleaned := .avl
          encodingTime := book.encodingTime }

def BookEntry.wellFormed (book : BookEntry) : Bool :=
  unquoted book.borrowed && unquoted book.onReading

theorem BookEntry.row_eq_some {mode : SqlMode} {book : BookEntry} {bookno : Int}
    {row : BookRow} (fits : book.row mode bookno = some row) :
    row.bookno = bookno ∧ row.shelfno = book.shelfno ∧ row.cleaned = .avl := by
  rcases Option.bind_eq_some_iff.mp fits with ⟨name, _, fits⟩
  rcases Option.bind_eq_some_iff.mp fits with ⟨author, _, fits⟩
  rcases Option.map_eq_some_iff.mp fits with ⟨label, _, rfl⟩
  exact ⟨rfl, rfl, rfl⟩

def bookAllocation (mode : SqlMode) (book : BookEntry) : Allocation BookRow where
  rows := Archive.books
  replace new archive := { archive with books := new }
  number := BookRow.bookno
  deleted row := row.cleaned == .del
  available row := row.cleaned == .avl
  wellFormed := book.wellFormed
  renew row := book.row mode row.bookno
  create := book.row mode
  capacity := maxBookNum
  record := MessageCs.setBookno
  fullText := "上架失败:图书数量达到上限"
  failText := "上架图书失败..."
  capacity_pos := by decide
  rows_replace _ _ := rfl
  replace_rows _ := rfl
  number_renew _ _ fits := (BookEntry.row_eq_some fits).1
  available_renew _ _ fits := by rw [(BookEntry.row_eq_some fits).2.2]; rfl
  number_create _ _ fits := (BookEntry.row_eq_some fits).1
  available_create _ _ fits := by rw [(BookEntry.row_eq_some fits).2.2]; rfl
  deleted_of_available row live := by rw [beq_iff_eq.mp live]; rfl

def srvdbBookInsert (msg : MessageCs) (db : Mysql) : Bool × MessageCs × Mysql :=
  (bookAllocation db.mode msg.stuff.book).allocate msg db

/-- Run one statement of a request that says nothing but success or failure. -/
def execute (msg : MessageCs) (statement : Mysql → Option Mysql) (db : Mysql) : Bool × Mysql :=
  if msg.user = "" then (false, db) else mysqlQuery statement db

def BookEntry.namesShelf (book : BookEntry) : Bool :=
  book.bookno == nonSenseInt && book.shelfno != nonSenseInt

def BookRow.clean (cleaned : BookCleaned) (row : BookRow) : BookRow :=
  { row with cleaned := cleaned }

def srvdbBookDelete (msg : MessageCs) (db : Mysql) : Bool × Mysql :=
  let book := msg.stuff.book
  execute msg (updateBooks
    (fun row => if book.namesShelf then row.shelfno == book.shelfno
      else row.bookno == book.bookno)
    (fun row => some (row.clean .del))) db

def srvdbBookUpdate (msg : MessageCs) (db : Mysql) : Bool × Mysql :=
  let book := msg.stuff.book
  if book.namesShelf then
    execute msg (updateBooks (fun row => row.shelfno == book.shelfno)
      (fun row => some (row.clean .unsorted))) db
  else
    execute msg (fun db =>
      if book.wellFormed then
        updateBooks (fun row => row.bookno == book.bookno)
          (fun row => book.row db.mode row.bookno) db
      else none) db

/-! ## Finding books

A search over no shelf in particular has `shelfno>0` in its condition in place of
`shelfno=…`. -/

/-- A criterion of a search entry: whether it is joined by `OR` to what stands
before it, and the test on the column. -/
structure Criterion where
  disjunct : Bool
  test : (Char → Char → Bool) → String → Bool

/-- The first character of a search text is its mode: '-' fuzzy, '+' or '0'
half exact, '=' exact. -/
def criterion (text : String) : Option Criterion :=
  match text.toList with
  | '-' :: rest => some ⟨true, fun collation column =>
      sqlContains collation column (String.ofList rest)⟩
  | '0' :: rest => some ⟨false, fun collation column =>
      sqlContains collation column (String.ofList rest)⟩
  | '+' :: rest => some ⟨false, fun collation column =>
      sqlContains collation column (String.ofList rest)⟩
  | '=' :: rest => some ⟨false, fun collation column =>
      sqlEqual collation column (String.ofList rest)⟩
  | _ => none

/-- `(name … author … label …)`, where `AND` binds closer than `OR`. -/
def criteriaHold (collation : Char → Char → Bool) (name author label : Criterion)
    (row : BookRow) : Bool :=
  let byName := name.test collation row.name
  let byAuthor := author.test collation row.author
  let byLabel := label.test collation row.label
  match author.disjunct, label.disjunct with
  | false, false => byName && byAuthor && byLabel
  | false, true => byName && byAuthor || byLabel
  | true, false => byName || byAuthor && byLabel
  | true, true => byName || byAuthor || byLabel

def inScope (shelfno : Int) (row : BookRow) : Bool :=
  if shelfno = nonSenseInt then decide (row.shelfno > shelfno)
  else row.shelfno == shelfno

/-- Which rows a find request is about, whatever page of them it asks for. -/
def bookWhere (collation : Char → Char → Bool) (book : BookEntry) : Option (BookRow → Bool) :=
  if book.borrowed = flagFindUnsorted ∧ book.onReading = flagFindUnsorted then
    some fun row => row.cleaned == .unsorted && inScope book.shelfno row
  else if book.borrowed = flagBorrowed then
    some fun row => row.borrowed == '1' && row.cleaned == .avl && inScope book.shelfno row
  else if book.onReading = flagOnReading then
    some fun row => row.onReading == '1' && row.cleaned == .avl && inScope book.shelfno row
  else
    match criterion book.name, criterion book.author, criterion book.label with
    | some name, some author, some label =>
        some fun row => inScope book.shelfno row && row.cleaned == .avl &&
          (if book.floorno ≠ nonSenseInt ∧ book.shelfno ≠ nonSenseInt then
            row.floorno == book.floorno else true) &&
          criteriaHold collation name author label row
    | _, _, _ => none

/-- A negative start number points at one book, unless one of the three listings
by flag is asked for. -/
def pointsAtBook (book : BookEntry) : Bool :=
  !(book.borrowed == flagFindUnsorted && book.onReading == flagFindUnsorted) &&
    !(book.borrowed == flagBorrowed) && !(book.onReading == flagOnReading) &&
    decide (book.bookno < 0)

theorem pointsAtBook_of_nonneg {book : BookEntry} (nonneg : 0 ≤ book.bookno) :
    pointsAtBook book = false := by
  have positive : ¬ book.bookno < 0 := by omega
  simp [pointsAtBook, positive]

/-- The rows a find request selects, in the order and number of its statement. -/
def selectBooks (collation : Char → Char → Bool) (book : BookEntry) (books : List BookRow) :
    Option (List ResultRow) :=
  if pointsAtBook book then
    some ((books.filter fun row => row.bookno == -book.bookno).map .book)
  else
    (bookWhere collation book).map fun selected =>
      if book.bookno = breakLimitInt then
        ((Table.orderBy BookRow.bookno (books.filter fun row =>
          selected row && decide (row.bookno > nonSenseInt))).take maxBookNum).map
            fun row => .bookno row.bookno
      else
        ((Table.orderBy BookRow.bookno (books.filter fun row =>
          selected row && decide (row.bookno > book.bookno))).take defaultFinds).map .book

def srvdbBookFind (msg : MessageCs) (db : Mysql) : Option Nat × Mysql :=
  let book := msg.stuff.book
  if msg.user = "" then (none, db)
  else match selectBooks db.collation book db.archive.books with
    | none => (none, db)
    | some rows =>
        match mysqlSelect db with
        | (false, db) => (none, db)
        | (true, db) =>
            if db.nextFault then (none, { db.fail with resPtr := none })
            else if book.bookno = breakLimitInt then
              (some rows.length, srvdbFreeResult (db.storeResult rows 1))
            else (some rows.length, db.storeResult rows 10)

inductive FetchResult
  | err
  | cont
  | endMore
  | finish
deriving DecidableEq

def BookRow.entry (row : BookRow) : BookEntry where
  shelfno := row.shelfno
  floorno := row.floorno
  bookno := row.bookno
  name := row.name
  author := row.author
  label := row.label
  borrowed := row.borrowed
  onReading := row.onReading
  encodingTime := row.encodingTime

/-- The common part of the two fetch functions: `decode` copies the columns of a
row into the message and fails when the row has others. -/
def fetchResult (decode : ResultRow → MessageCs → Option MessageCs) (rows : List ResultRow)
    (msg : MessageCs) (db : Mysql) : FetchResult × MessageCs × Mysql :=
  if db.nextFault then (.err, msg, srvdbFreeResult db.fail)
  else match rows with
    | [] =>
        if db.resRows = defaultFinds then (.endMore, msg, db.advance)
        else (.finish, msg, srvdbFreeResult db.advance)
    | row :: rest =>
        match decode row msg with
        | some msg => (.cont, msg, { db.advance with resPtr := some rest })
        | none => (.err, msg, srvdbFreeResult db.advance)

def decodeBook : ResultRow → MessageCs → Option MessageCs
  | .book row, msg => some (msg.setBook row.entry)
  | _, _ => none

def srvdbBookFetchResult (msg : MessageCs) (db : Mysql) : FetchResult × MessageCs × Mysql :=
  match db.resPtr with
  | none => (.finish, msg, db)
  | some rows => fetchResult decodeBook rows msg db

/-! `srvdb_book_count` asks its four questions with one message, changed in place
from each to the next. -/

def MessageCs.countOnReading (msg : MessageCs) : MessageCs :=
  msg.setBook { msg.stuff.book with bookno := breakLimitInt, onReading := flagOnReading }

def MessageCs.countBorrowed (msg : MessageCs) : MessageCs :=
  msg.setBook { msg.stuff.book with onReading := nulChar, borrowed := flagBorrowed }

def MessageCs.countUnsorted (msg : MessageCs) : MessageCs :=
  msg.setBook { msg.stuff.book with borrowed := flagFindUnsorted, onReading := flagFindUnsorted }

def MessageCs.countAll (msg : MessageCs) : MessageCs :=
  msg.setBook { msg.stuff.book with
    borrowed := nulChar, onReading := nulChar, name := "0", author := "0", label := "0" }

/-- `srvdb_book_count`. Each find writes its number of rows into one field. -/
def srvdbBookCount (msg : MessageCs) (db : Mysql) : Bool × MessageCs × Mysql :=
  let onReadingMsg := msg.countOnReading
  match srvdbBookFind onReadingMsg db with
  | (none, db) => (false, onReadingMsg, db)
  | (some booksOnReading, db) =>
      let borrowedMsg := onReadingMsg.countBorrowed
      match srvdbBookFind borrowedMsg db with
      | (none, db) => (false, borrowedMsg, db)
      | (some booksBorrowed, db) =>
          let unsortedMsg := borrowedMsg.countUnsorted
          match srvdbBookFind unsortedMsg db with
          | (none, db) => (false, unsortedMsg, db)
          | (some booksUnsorted, db) =>
              let allMsg := unsortedMsg.countAll
              match srvdbBookFind allMsg db with
              | (none, db) => (false, allMsg, db)
              | (some booksAll, db) =>
                  (true, allMsg.setBookCount
                    ⟨booksAll + booksUnsorted, booksOnReading, booksBorrowed, booksUnsorted⟩, db)

/-! ## Shelves

The depths of the floors are spliced into the statements unescaped. Where their text would break
its literal, which no depth up to `maxDepth` does, the statement is refused here; what its bytes do
then is in `Spliced`. -/

/-- The depths of the floors as one character each, separated by commas, up to a zero byte. For no
floor at all the source leaves its buffer unset. -/
def floorDepthText (ndepth : List Nat) : String :=
  String.ofList ((List.intersperse ','
    (ndepth.map fun depth => Char.ofNat ((depth + 48) % 256))).takeWhile (· != nulChar))

def ShelfEntry.row (mode : SqlMode) (shelf : ShelfEntry) (shelfno : Int) : Option ShelfRow :=
  (mode.store 200 shelf.name).bind fun name =>
    (mode.store 1 (toString shelf.nfloors)).bind fun nfloors =>
      (mode.store 50 (floorDepthText (shelf.ndepth.take shelf.nfloors))).map fun floorDepth =>
        { shelfno := shelfno
          name := name
          nfloors := nfloors
          floorDepth := floorDepth
          cleaned := .avl
          buildingTime := shelf.buildingTime }

def ShelfEntry.wellFormed (shelf : ShelfEntry) : Bool :=
  !(floorDepthText (shelf.ndepth.take shelf.nfloors)).toList.any breaksLiteral

theorem ShelfEntry.row_eq_some {mode : SqlMode} {shelf : ShelfEntry} {shelfno : Int}
    {row : ShelfRow} (fits : shelf.row mode shelfno = some row) :
    row.shelfno = shelfno ∧ row.cleaned = .avl := by
  rcases Option.bind_eq_some_iff.mp fits with ⟨name, _, fits⟩
  rcases Option.bind_eq_some_iff.mp fits with ⟨nfloors, _, fits⟩
  rcases Option.map_eq_some_iff.mp fits with ⟨floorDepth, _, rfl⟩
  exact ⟨rfl, rfl⟩

def shelfAllocation (mode : SqlMode) (shelf : ShelfEntry) : Allocation ShelfRow where
  rows := Archive.shelves
  replace new archive := { archive with shelves := new }
  number := ShelfRow.shelfno
  deleted row := row.cleaned == .del
  available row := row.cleaned == .avl
  wellFormed := shelf.wellFormed
  renew row := shelf.row mode row.shelfno
  create := shelf.row mode
  capacity := maxShelfNum
  record := MessageCs.setShelfno
  fullText := "打造失败:书架达到上限"
  failText := "打造书架失败"
  capacity_pos := by decide
  rows_replace _ _ := rfl
  replace_rows _ := rfl
  number_renew _ _ fits := (ShelfEntry.row_eq_some fits).1
  available_renew _ _ fits := by rw [(ShelfEntry.row_eq_some fits).2]; rfl
  number_create _ _ fits := (ShelfEntry.row_eq_some fits).1
  available_create _ _ fits := by rw [(ShelfEntry.row_eq_some fits).2]; rfl
  deleted_of_available row live := by rw [beq_iff_eq.mp live]; rfl

def srvdbShelfBuild (msg : MessageCs) (db : Mysql) : Bool × MessageCs × Mysql :=
  (shelfAllocation db.mode msg.stuff.shelf).allocate msg db

def ShelfRow.clean (cleaned : ShelfCleaned) (row : ShelfRow) : ShelfRow :=
  { row with cleaned := cleaned }

/-- `srvdb_shelf_remove`. The second statement, which would set the shelf's books
unsorted, is formatted but never sent: `if(!res)` tests the first result again. -/
def srvdbShelfRemove (msg : MessageCs) (db : Mysql) : Bool × Mysql :=
  execute msg (updateShelves (fun row => row.shelfno == msg.stuff.shelf.code)
    (fun row => some (row.clean .del))) db

def selectShelves (shelfno : Int) (shelves : List ShelfRow) : List ResultRow :=
  if shelfno = breakLimitInt then
    ((Table.orderBy ShelfRow.shelfno (shelves.filter fun row =>
      decide (row.shelfno > 0) && row.cleaned == .avl)).take maxShelfNum).map
        fun row => .shelfno row.shelfno
  else if shelfno < 0 then
    ((Table.orderBy ShelfRow.shelfno (shelves.filter fun row =>
      row.shelfno == -shelfno && row.cleaned == .avl)).take defaultFinds).map .shelf
  else
    ((Table.orderBy ShelfRow.shelfno (shelves.filter fun row =>
      decide (row.shelfno > shelfno) && row.cleaned == .avl)).take defaultFinds).map .shelf

def srvdbShelfFind (msg : MessageCs) (db : Mysql) : Option Nat × Mysql :=
  let shelfno := msg.stuff.shelf.code
  if msg.user = "" then (none, db)
  else
    let rows := selectShelves shelfno db.archive.shelves
    match mysqlSelect db with
    | (false, db) => (none, db)
    | (true, db) =>
        if db.nextFault then (none, { db.fail with resPtr := none })
        else (some rows.length, db.storeResult rows (if shelfno = breakLimitInt then 1 else 6))

/-- What is left of `'0'` taken away, in an `unsigned char`. -/
def digitValue (character : Char) : Nat := (character.toNat + 208) % 256

def ShelfRow.entry (row : ShelfRow) : ShelfEntry :=
  let nfloors := digitValue (row.nfloors.toList.headD nulChar)
  { code := row.shelfno
    name := row.name
    nfloors := nfloors
    ndepth := (List.range nfloors).map fun floor =>
      digitValue (row.floorDepth.toList.getD (2 * floor) nulChar)
    buildingTime := row.buildingTime }

def decodeShelf : ResultRow → MessageCs → Option MessageCs
  | .shelf row, msg => some (msg.setShelf row.entry)
  | _, _ => none

def srvdbShelfFetchResult (msg : MessageCs) (db : Mysql) : FetchResult × MessageCs × Mysql :=
  fetchResult decodeShelf (db.resPtr.getD []) msg db

def srvdbShelfCount (msg : MessageCs) (db : Mysql) : Bool × MessageCs × Mysql :=
  let msg := msg.setShelfno breakLimitInt
  match srvdbShelfFind msg db with
  | (none, db) => (false, msg, db)
  | (some shelvesAll, db) => (true, msg.setExtra shelvesAll, srvdbFreeResult db)

end Bookshelfdq
