import Bookshelfdq.Client.Clishell
import Bookshelfdq.Client.DisplayWidth

/-! # The page of books

`display_bookinfo_page` and `next_page_bookinfo` of `ncgui.c`. A visit begins with
`display` and lasts while `shown` holds its page; `press` is one round of its loop.
The statics outlive the visit. -/

namespace Bookshelfdq

@[reducible] def padHight : Nat := defaultFinds

namespace BookCache

/-- The loop over `clidb_book_get` with what it prints: positions and entries, the
first row first. `none` stands for an entry that is not in the file. Every round
counts, so that `fuel` above the step is never used up. -/
def getPage : Nat → BookCache → Option (List (Nat × BookEntry)) × BookCache
  | 0, cache => (some [], cache)
  | fuel + 1, cache =>
      match cache.clidbBookGet with
      | (.finished, after) => (some [], after)
      | (.missing, after) => (none, after)
      | (.entry book, after) =>
          let rest := getPage fuel after
          (rest.1.map ((cache.bookSearchPos, book) :: ·), rest.2)

/-- The books from the cache, at most one page of them. -/
def printPage (cache : BookCache) : Option (List (Nat × BookEntry)) × BookCache :=
  (cache.clidbBookSearchStep padHight).getPage (padHight + 1)

end BookCache

namespace Client

def withBooks (client : Client) (books : BookCache) : Client := { client with books := books }

/-- `client_searching_book` or `client_shelf_loading_book`. -/
def loadBooks (search : Option BookEntry) (shelfno bookno : Int) (client : Client) :
    Int × Client :=
  let msg := match search with
    | some searchEntry => clientSearchingBookMsg client.loginUser bookno searchEntry
    | none => clientShelfLoadingBookMsg client.loginUser shelfno bookno
  let found := client.findFromServer msg
  (found.1, found.2.2)

/-- `next_page_bookinfo`: the rows printed, or `none` for its return with `-1`, and the
new value of `*bookno`. `stale` is what `local_book` held if no book was read. -/
def nextPageBookinfo (search : Option BookEntry) (shelfno bookno stale : Int) (client : Client) :
    Option (List (Nat × BookEntry)) × Int × Client :=
  match client.books.printPage with
  | (none, books) => (none, bookno, client.withBooks books)
  | (some (row :: rows), books) => (some (row :: rows), bookno, client.withBooks books)
  | (some [], books) =>
      match (client.withBooks books).loadBooks search shelfno bookno with
      | (found, client) =>
          if found = 0 then (none, bookno, client)
          else if found = -1 then (some [], bookno, client)
          else match client.books.printPage with
            | (none, books) => (none, bookno, client.withBooks books)
            | (some rows, books) =>
                (some rows, (rows.getLast?.map fun row => row.2.bookno).getD stale,
                  client.withBooks books)

end Client

/-! ## State -/

/-- The variables of a visit: the rows on the pad, the slider, the book peeked last,
and the arguments. -/
structure BookPage where
  rows : List (Nat × BookEntry)
  currentRow : Nat
  localBook : BookEntry
  collectMode : Bool
  search : Option BookEntry
  modeShelfno : Int

structure Ncgui where
  client : Client
  localShelfno : Int
  localBookno : Int
  bookPageCnt : Nat
  bcollect : Bool
  newMark : Char
  noNextPageFlag : Bool
  globalNewBookComing : Bool
  shown : Option BookPage

namespace Ncgui

/-- The program before the first visit. -/
def start (client : Client) : Ncgui where
  client := client
  localShelfno := nonSenseInt
  localBookno := nonSenseInt
  bookPageCnt := 0
  bcollect := false
  newMark := Char.ofNat 0
  noNextPageFlag := false
  globalNewBookComing := false
  shown := none

def resetBooks (gui : Ncgui) : Ncgui :=
  { gui with
    localBookno := nonSenseInt
    bookPageCnt := 0
    noNextPageFlag := false
    client := gui.client.withBooks gui.client.books.clidbBookReset }

def withClient (gui : Ncgui) (client : Client) : Ncgui := { gui with client := client }

def withPage (gui : Ncgui) (page : BookPage) : Ncgui := { gui with shown := some page }

/-- The first lines of `display_bookinfo_page`. `search` comes with the mark of the
search, the first character of its `encoding_time`. -/
def resetOnChange (shelfno : Int) (collectMode : Bool) (search : Option (Char × BookEntry))
    (gui : Ncgui) : Ncgui :=
  match search with
  | some (mark, _) =>
      if gui.newMark ≠ mark then
        { gui.resetBooks with newMark := mark, localShelfno := nonSenseInt }
      else gui
  | none =>
      if (gui.localShelfno ≠ shelfno ∧ gui.bcollect = collectMode) ∨
          gui.bcollect ≠ collectMode ∨ gui.globalNewBookComing then
        { gui.resetBooks with
          globalNewBookComing := false
          localShelfno := shelfno
          bcollect := collectMode }
      else gui

/-- `clidb_book_peek` into a variable. -/
def peeked (gui : Ncgui) (position : Nat) (localBook : BookEntry) : BookEntry :=
  (gui.client.books.clidbBookPeek position).getD localBook

/-- `show_book_info` measures the author in the book it is given, not in a copy of it. -/
def showBookInfo (book : BookEntry) : BookEntry :=
  if book.encodingTime = .empty then book
  else { book with author := limitedText book.author 18 }

/-- A visit up to the first `prefresh`. `stale` is what `local_book` held. -/
def display (shelfno : Int) (collectMode : Bool) (search : Option (Char × BookEntry))
    (stale : BookEntry) (gui : Ncgui) : Ncgui :=
  if collectMode ∧ search.isSome then gui
  else
    let gui := gui.resetOnChange shelfno collectMode search
    let searchEntry := search.map Prod.snd
    let modeShelfno := if gui.bcollect then nonSenseInt else gui.localShelfno
    let next := gui.client.nextPageBookinfo searchEntry modeShelfno gui.localBookno stale.bookno
    let gui := { gui with client := next.2.2, localBookno := next.2.1 }
    match next.1 with
    | none => gui
    | some [] => gui
    | some (row :: rows) =>
        gui.withPage
          { rows := row :: rows
            currentRow := 0
            localBook := showBookInfo (gui.peeked (gui.bookPageCnt * padHight) stale)
            collectMode := collectMode
            search := searchEntry
            modeShelfno := modeShelfno }

/-! ## Keys -/

/-- What the user may do to the book under the slider. -/
inductive BookAction
  | reading
  | borrow
  | tagging (label : String)
  | delete
  | collect (floorno : Int)

inductive Key
  | up
  | down
  | right (stale : Int)
  | left
  | action (action : BookAction)
  | backspace

/-- `get_choice` moves the slider around `logic_rows`. -/
def slide (page : BookPage) : Key → BookPage
  | .up =>
      { page with currentRow :=
          if page.currentRow = 0 then page.rows.length - 1 else page.currentRow - 1 }
  | .down =>
      { page with currentRow :=
          if page.currentRow = page.rows.length - 1 then 0 else page.currentRow + 1 }
  | _ => page

/-- `cur_dbm_pos`. -/
def curDbmPos (gui : Ncgui) (page : BookPage) : Nat :=
  gui.bookPageCnt * padHight + page.currentRow

/-- `encoding_time[11] = 'H'`, which has no effect on a shorter text. -/
def collectedTime (time : PlainText) : PlainText :=
  let text := String.ofList (time.text.toList.set 11 'H')
  if plain : text.toList.any breaksLiteral = false then ⟨text, plain⟩ else time

/-- A request that changes one book, and the entry it leaves in the cache on success. -/
def update (msg : MessageCs) (written : MessageCs → BookEntry) (position : Nat)
    (client : Client) : Bool × Client :=
  match client.findFromServer msg with
  | (result, reply, client) =>
      if result = 1 then
        (true, client.withBooks (client.books.clidbBookInsertAt (written reply) position))
      else (false, client)

def clientShelfCollectingBook (shelfno : Int) (book : BookEntry) (position : Nat)
    (client : Client) : BookEntry × Client :=
  let marked := { book with encodingTime := collectedTime book.encodingTime }
  match update (clientShelfCollectingBookMsg client.loginUser shelfno book) (fun _ => marked)
      position client with
  | (true, client) => (marked, client)
  | (false, client) => (book, client)

def clientShelfDeleteBook (book : BookEntry) (position : Nat) (client : Client) :
    BookEntry × Client :=
  match client.findFromServer (clientShelfDeleteBookMsg client.loginUser book) with
  | (result, _, client) =>
      if result = 1 then
        ({ book with encodingTime := .empty },
          client.withBooks (client.books.clidbBookDelete position))
      else (book, client)

/-- `client_shelf_moving_book` stores the entry of the reply. -/
def clientShelfMovingBook (book : BookEntry) (position : Nat) (moveAction : Int)
    (client : Client) : BookEntry × Client :=
  (book, (update (clientShelfMovingBookMsg client.loginUser book moveAction)
    (fun reply => reply.stuff.book) position client).2)

def clientShelfTaggingBook (book : BookEntry) (position : Nat) (client : Client) :
    BookEntry × Client :=
  (book, (update (clientShelfTaggingBookMsg client.loginUser book) (fun _ => book) position
    client).2)

/-- The branch of `KEY_ENTER`, with what it leaves in `local_book`. An entry that is
deleted already has no options, and reading is one only for a book that stands on its
shelf. -/
def act (action : BookAction) (bcollect : Bool) (localShelfno : Int) (book : BookEntry)
    (position : Nat) (client : Client) : BookEntry × Client :=
  match bcollect, action with
  | true, .collect floorno =>
      if book.encodingTime.text.toList[11]? = some 'H' then (book, client)
      else clientShelfCollectingBook localShelfno { book with floorno := floorno } position client
  | true, _ => (book, client)
  | false, .collect _ => (book, client)
  | false, .reading =>
      if book.encodingTime = .empty ∨ book.onReading = '1' ∨ book.borrowed = '1' then (book, client)
      else clientShelfMovingBook book position 0 client
  | false, .borrow =>
      if book.encodingTime = .empty then (book, client)
      else clientShelfMovingBook book position 1 client
  | false, .tagging label =>
      if book.encodingTime = .empty then (book, client)
      else clientShelfTaggingBook { book with label := label } position client
  | false, .delete =>
      if book.encodingTime = .empty then (book, client)
      else clientShelfDeleteBook book position client

/-- The end of a visit. The two counts that follow a search are calls of their own. -/
def leave (gui : Ncgui) : Ncgui :=
  { gui with
    client := gui.client.withBooks gui.client.books.clidbBookBackwardMode
    shown := none }

/-- Back to the page before. -/
def pageLeft (gui : Ncgui) : Ncgui :=
  let client := gui.client.withBooks gui.client.books.clidbBookBackwardMode
  { gui with
    client := client
    noNextPageFlag := if 0 < gui.bookPageCnt then false else gui.noNextPageFlag
    bookPageCnt := gui.bookPageCnt - 1 }.leave

/-- On to the page behind. An error ends the visit then and there. -/
def pageRight (stale : Int) (page : BookPage) (gui : Ncgui) : Ncgui :=
  if gui.noNextPageFlag then gui.withPage page
  else
    let next := gui.client.nextPageBookinfo page.search page.modeShelfno gui.localBookno stale
    let gui := { gui with client := next.2.2, localBookno := next.2.1 }
    match next.1 with
    | none => { gui with shown := none }
    | some [] => { gui with noNextPageFlag := true, shown := some page }
    | some (_ :: _) => { gui with bookPageCnt := gui.bookPageCnt + 1 }.leave

def pageAction (action : BookAction) (page : BookPage) (gui : Ncgui) : Ncgui :=
  let acted := act action gui.bcollect gui.localShelfno page.localBook (gui.curDbmPos page)
    gui.client
  let gui := gui.withClient acted.2
  let localBook :=
    if gui.bcollect ∨ acted.1.encodingTime = .empty then acted.1
    else showBookInfo (gui.peeked (gui.curDbmPos page) acted.1)
  gui.withPage { page with localBook := localBook }

/-- One round of the loop. -/
def press (key : Key) (gui : Ncgui) : Ncgui :=
  match gui.shown with
  | none => gui
  | some page =>
      let slid := slide page key
      let localBook := showBookInfo (gui.peeked (gui.curDbmPos slid) slid.localBook)
      let page := { slid with localBook := localBook }
      match key with
      | .backspace => gui.leave
      | .up => gui.withPage page
      | .down => gui.withPage page
      | .left => gui.pageLeft
      | .right stale => gui.pageRight stale page
      | .action action => gui.pageAction action page

end Ncgui

end Bookshelfdq
