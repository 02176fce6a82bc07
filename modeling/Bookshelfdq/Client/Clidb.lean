import Bookshelfdq.Clisrv
import Bookshelfdq.Foundation.Execution

/-! # The client's caches

The functions of `clidb.c` on the two dbm files and the static variables beside
them. The file of books is emptied at each login, that of shelves is kept. -/

namespace Bookshelfdq

/-! ## Books

`bookData` is the file: what `clidb_book_reset` leaves behind stays in it. -/

structure BookCache where
  bookData : Nat → Option BookEntry
  bookDbmPos : Nat
  bookSearchPos : Nat
  bookSearchStep : Nat
  bookSearchCnt : Nat

namespace BookCache

def empty : BookCache where
  bookData _ := none
  bookDbmPos := 0
  bookSearchPos := 0
  bookSearchStep := 10
  bookSearchCnt := 0

def clidbBookReset (cache : BookCache) : BookCache :=
  { cache with bookDbmPos := 0, bookSearchPos := 0 }

/-- `clidb_book_insert` at a position. -/
def clidbBookInsertAt (book : BookEntry) (insPos : Nat) (cache : BookCache) : BookCache :=
  { cache with bookData := Function.update cache.bookData insPos (some book) }

/-- `clidb_book_insert` with `ins_pos` equal to `-1`. -/
def clidbBookInsert (book : BookEntry) (cache : BookCache) : BookCache :=
  { cache.clidbBookInsertAt book cache.bookDbmPos with bookDbmPos := cache.bookDbmPos + 1 }

def clidbBookSearchReset (cache : BookCache) : BookCache :=
  { cache with bookSearchPos := 0 }

def clidbBookSearchStep (step : Nat) (cache : BookCache) : BookCache :=
  { cache with bookSearchStep := step, bookSearchCnt := 0 }

def clidbBookBackwardMode (cache : BookCache) : BookCache :=
  let factor := cache.bookSearchPos / cache.bookSearchStep
  let factor :=
    if 0 < cache.bookSearchPos ∧ cache.bookSearchPos % cache.bookSearchStep = 0 then factor - 1
    else factor
  { cache with bookSearchPos := factor * cache.bookSearchStep }

/-- What `clidb_book_get` returns: 1 with an entry, 0, or `-1` at the end of the
page or of the cache. -/
inductive Fetched
  | entry (book : BookEntry)
  | missing
  | finished
deriving DecidableEq

def clidbBookGet (cache : BookCache) : Fetched × BookCache :=
  if cache.bookDbmPos ≤ cache.bookSearchPos then (.finished, cache)
  else
    let counted := { cache with bookSearchCnt := cache.bookSearchCnt + 1 }
    if cache.bookSearchStep < counted.bookSearchCnt then (.finished, counted)
    else
      let moved := { counted with bookSearchPos := cache.bookSearchPos + 1 }
      match cache.bookData cache.bookSearchPos with
      | some book => (.entry book, moved)
      | none => (.missing, moved)

def clidbBookPeek (cache : BookCache) (peekPos : Nat) : Option BookEntry :=
  cache.bookData peekPos

/-- `clidb_book_delete` marks the entry by an empty time. -/
def clidbBookDelete (delPos : Nat) (cache : BookCache) : BookCache :=
  match cache.clidbBookPeek delPos with
  | some book => cache.clidbBookInsertAt { book with encodingTime := .empty } delPos
  | none => cache

/-- The entries stored since the last reset. -/
def stored (cache : BookCache) : List (Option BookEntry) :=
  (List.range cache.bookDbmPos).map cache.bookData

def appendBooks (books : List BookEntry) (cache : BookCache) : BookCache :=
  books.foldl (fun cache book => cache.clidbBookInsert book) cache

end BookCache

/-! ## Shelves

The three values of a record: absent, set locally, and synchronised. -/

@[reducible] def recordUnset : Nat := 0

@[reducible] def recordSet : Nat := 1

@[reducible] def recordSync : Nat := 2

/-- `shelfData` and `shelfRecords` are the file, under the keys `<user>_shelf_<n>`
and `<user>_shelf_record`; `dbmFaults` are the outcomes of the writes to come. -/
structure ShelfCache where
  shelfData : String → Int → Option ShelfEntry
  shelfRecords : String → Option (Int → Nat)
  currentUser : String
  shelfRecord : Int → Nat
  dbmFaults : List Bool

namespace ShelfCache

def empty : ShelfCache where
  shelfData _ _ := none
  shelfRecords _ := none
  currentUser := ""
  shelfRecord _ := recordUnset
  dbmFaults := []

/-- One `dbm_store` or `dbm_delete`. -/
def dbmWrite (write : ShelfCache → ShelfCache) (cache : ShelfCache) : Bool × ShelfCache :=
  let advanced := { cache with dbmFaults := cache.dbmFaults.tail }
  if cache.dbmFaults.headD false then (false, advanced) else (true, write advanced)

theorem dbmWrite_of_fault {cache : ShelfCache} (fault : cache.dbmFaults.headD false = true)
    (write : ShelfCache → ShelfCache) : cache.dbmWrite write =
      (false, { cache with dbmFaults := cache.dbmFaults.tail }) := by
  rw [dbmWrite, fault]
  rfl

theorem dbmWrite_of_healthy {cache : ShelfCache} (healthy : cache.dbmFaults.headD false = false)
    (write : ShelfCache → ShelfCache) : cache.dbmWrite write =
      (true, write { cache with dbmFaults := cache.dbmFaults.tail }) := by
  rw [dbmWrite, healthy]
  rfl

def shelfRecordSave (cache : ShelfCache) : Bool × ShelfCache :=
  cache.dbmWrite fun cache => { cache with
    shelfRecords := Function.update cache.shelfRecords cache.currentUser
      (some cache.shelfRecord) }

def shelfRecordObtain (cache : ShelfCache) : ShelfCache :=
  match cache.shelfRecords cache.currentUser with
  | some record => { cache with shelfRecord := record }
  | none => cache.shelfRecordSave.2

def clidbInit (loginUser : String) (cache : ShelfCache) : ShelfCache :=
  { cache with currentUser := loginUser }.shelfRecordObtain

/-- The cache as a new process finds it: the file is kept, the statics are zero. -/
def restart (dbmFaults : List Bool) (cache : ShelfCache) : ShelfCache :=
  { cache with currentUser := "", shelfRecord := fun _ => recordUnset, dbmFaults := dbmFaults }

def setRecord (shelfno : Int) (value : Nat) (cache : ShelfCache) : ShelfCache :=
  { cache with shelfRecord := Function.update cache.shelfRecord shelfno value }

/-- The file with the current user's entry for one shelf replaced. -/
def storeShelf (shelfno : Int) (entry : Option ShelfEntry) (cache : ShelfCache) : ShelfCache :=
  { cache with
    shelfData := Function.update cache.shelfData cache.currentUser
      (Function.update (cache.shelfData cache.currentUser) shelfno entry) }

/-- `clidb_shelf_real_insert`, where `mark` is the record value of its mode. -/
def clidbShelfRealInsert (mark : Nat) (shelf : ShelfEntry) (cache : ShelfCache) :
    Bool × ShelfCache :=
  match cache.dbmWrite (storeShelf shelf.code (some shelf)) with
  | (false, cache) => (false, cache)
  | (true, cache) => (cache.setRecord shelf.code mark).shelfRecordSave

def clidbShelfInsert (shelf : ShelfEntry) (cache : ShelfCache) : Bool × ShelfCache :=
  cache.clidbShelfRealInsert recordSet shelf

def clidbShelfSynchronize (shelf : ShelfEntry) (cache : ShelfCache) : Bool × ShelfCache :=
  cache.clidbShelfRealInsert recordSync shelf

def clidbShelfGet (cache : ShelfCache) (shelfno : Int) : Option ShelfEntry :=
  cache.shelfData cache.currentUser shelfno

/-- `clidb_shelf_delete`; deleting a key that is not in the file is an error. -/
def clidbShelfDelete (shelfno : Int) (cache : ShelfCache) : Bool × ShelfCache :=
  if (cache.clidbShelfGet shelfno).isNone then (false, cache)
  else match cache.dbmWrite (storeShelf shelfno none) with
    | (false, cache) => (false, cache)
    | (true, cache) => (cache.setRecord shelfno recordUnset).shelfRecordSave

def clidbShelfExists (cache : ShelfCache) (shelfno : Int) : Bool :=
  decide (shelfno ≤ maxShelfNum) && decide (0 < cache.shelfRecord shelfno)

def clidbShelfNotSyncs (cache : ShelfCache) (shelfno : Int) : Bool :=
  decide (shelfno ≤ maxShelfNum) && cache.shelfRecord shelfno == recordSet

def sortedMark (shelfno : Int) (mark : Nat) : Nat :=
  if 1 ≤ shelfno ∧ shelfno ≤ maxShelfNum ∧ mark = recordSync then recordSet else mark

def clidbShelfRecordSort (cache : ShelfCache) : Bool × ShelfCache :=
  let sorted := fun shelfno => sortedMark shelfno (cache.shelfRecord shelfno)
  { cache with shelfRecord := sorted }.shelfRecordSave

end ShelfCache

end Bookshelfdq
