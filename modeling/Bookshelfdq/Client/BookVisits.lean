import Bookshelfdq.Client.LookthroughPage

/-! # Visits to the page of books

The loops around `display_bookinfo_page` in `display_lookthrough_page` and
`ncgui_display_searchbook_page`, and what the program does between two visits. A page that was
turned is displayed by the next call. -/

namespace Bookshelfdq

/-- The number of a shelf in the record of shelves. -/
@[reducible] def ShelfNumber : Type := {shelfno : Int // 0 < shelfno}

/-- The arguments of `display_bookinfo_page`, and what `local_book` holds. -/
structure PageCall where
  shelfno : Int
  collectMode : Bool
  search : Option (Char × BookEntry)
  stale : BookEntry

/-- The condition of `display_bookinfo_page` without a search. -/
def Ncgui.renews (shelfno : Int) (collectMode : Bool) (gui : Ncgui) : Bool :=
  (gui.localShelfno != shelfno && gui.bcollect == collectMode) ||
    gui.bcollect != collectMode || gui.globalNewBookComing

/-! ## One call after the other -/

/-- What a key makes of a call: its loop goes on, an error ends it then and there, or it ends with
or without a page to turn to. -/
inductive PageEnd
  | stays
  | fails
  | leaves
  | turns

/-- A new page counts as turned to before the call ends. -/
def pageEnd (key : Ncgui.Key) (before after : Ncgui) : PageEnd :=
  match after.shown, key with
  | some _, _ => .stays
  | none, .backspace => .leaves
  | none, .left => .turns
  | none, _ => if before.bookPageCnt < after.bookPageCnt then .turns else .fails

namespace ShelfSession

def withGui (session : ShelfSession) (gui : Ncgui) : ShelfSession := { session with gui := gui }

def displayBookinfo (call : PageCall) (session : ShelfSession) : ShelfSession :=
  session.withGui
    (session.gui.display call.shelfno call.collectMode call.search call.stale)

/-- A call with a search ends with the two counts. -/
def finish (msg : MessageCs) (call : PageCall) (session : ShelfSession) : ShelfSession :=
  if call.search.isSome then session.synced msg else session

def pressBookinfo (msg : MessageCs) (call : PageCall) (key : Ncgui.Key)
    (session : ShelfSession) : ShelfSession :=
  match session.gui.shown with
  | none => session
  | some _ =>
      let pressed := session.withGui (session.gui.press key)
      match pageEnd key session.gui pressed.gui with
      | .stays => pressed
      | .fails => pressed
      | .leaves => pressed.finish msg call
      | .turns => (pressed.finish msg call).displayBookinfo call

/-! ## Leafing -/

/-- The rows of the pages from the one shown to the last. -/
def leafOn (msg : MessageCs) (stale : Int) (call : PageCall) :
    Nat → ShelfSession → Option (List (Nat × BookEntry))
  | 0, _ => none
  | fuel + 1, session =>
      match session.gui.shown with
      | none => some []
      | some page =>
          let turned := session.pressBookinfo msg call (.right stale)
          if turned.gui.noNextPageFlag then some page.rows
          else (leafOn msg stale call fuel turned).map (page.rows ++ ·)

/-- A visit that goes back to the first page, and then on to the last. -/
def leafThrough (msg : MessageCs) (stale : Int) (call : PageCall) (fuel : Nat)
    (session : ShelfSession) : Option (List (Nat × BookEntry)) :=
  let opened := session.displayBookinfo call
  leafOn msg stale call fuel ((pressBookinfo msg call .left)^[opened.gui.bookPageCnt] opened)

end ShelfSession

/-- What the server lists: the available books of a shelf, or the unsorted books of all shelves. -/
def BookRow.listedFor (shelfno : Int) (row : BookRow) : Bool :=
  if shelfno = nonSenseInt then row.cleaned == .unsorted && decide (0 < row.shelfno)
  else row.cleaned == .avl && row.shelfno == shelfno

/-! ## Sessions -/

/-- Requests that only ask. -/
inductive Enquiry
  | countBook (shelfno : Int)
  | verifyAccount (account : AccountEntry)
  | shelvesCountSync (stale : MessageCs)
  | booksCountSync (stale : MessageCs)

def Enquiry.run (session : ShelfSession) : Enquiry → ShelfSession
  | countBook shelfno =>
      session.withGui (session.gui.withClient
        (session.gui.client.clientShelfCountBook shelfno).2.2)
  | verifyAccount account =>
      session.withGui (session.gui.withClient
        (session.gui.client.findFromServer (clientVerifyAccountMsg account 0)).2.2)
  | shelvesCountSync stale => session.countSync stale
  | booksCountSync stale =>
      session.withGui (session.gui.withClient
        (session.gui.client.clientBooksCountSync stale).2)

/-- The first character that `client_searching_book` prints for its `new_mark`. -/
def markChar (newMark : Bool) : Char := if newMark then '1' else '0'

/-- A session with the `new_mark` of `client_searching_book` and the call of the page shown.
`unsorted` is no variable of the program: a shelf has been unsorted since the listing in the cache
was begun. -/
structure BookSession where
  session : ShelfSession
  newMark : Bool
  call : PageCall
  unsorted : Bool

/-- What the user does. A key is for the page shown, and all else is for the pages before it. -/
inductive BookEvent
  | visit (shelfno : ShelfNumber) (collectMode : Bool) (stale : BookEntry)
  | search (entry stale : BookEntry)
  | key (key : Ncgui.Key) (msg : MessageCs)
  | newBook (time : PlainText) (book : BookEntry)
  | deleteShelf (shelfno : ShelfNumber) (whole : Option Bool)
  | buildShelf (time : PlainText) (shelf : ShelfEntry)
  | enquire (enquiry : Enquiry)

namespace BookSession

def start (session : ShelfSession) : BookSession where
  session := session
  newMark := false
  call := ⟨nonSenseInt, false, none, .zeroed⟩
  unsorted := false

def withSession (book : BookSession) (session : ShelfSession) : BookSession :=
  { book with session := session }

def gui (book : BookSession) : Ncgui := book.session.gui

/-- `client_searching_book` with `BREAK_LIMIT_INT`. -/
def markSearch (entry : BookEntry) (book : BookSession) : BookSession :=
  let msg := clientSearchingBookMsg book.gui.client.loginUser breakLimitInt entry
  { book with
    session := book.session.withGui (book.gui.withClient (book.gui.client.findFromServer msg).2.2)
    newMark := !book.newMark }

def display (call : PageCall) (book : BookSession) : BookSession :=
  { book with session := book.session.displayBookinfo call, call := call }

/-- An event between two visits. -/
def between (book : BookSession) : BookEvent → BookSession
  | .visit shelfno collectMode stale =>
      { book.display ⟨shelfno.val, collectMode, none, stale⟩ with
        unsorted := book.unsorted && !book.gui.renews shelfno.val collectMode }
  | .search entry stale =>
      let marked := book.markSearch entry
      marked.display ⟨entry.shelfno, false, some (markChar marked.newMark, entry), stale⟩
  | .key _ _ => book
  | .newBook time entry =>
      book.withSession (book.session.withGui ((Mutation.insertBook time entry).perform book.gui).2)
  | .deleteShelf shelfno whole =>
      { book with
        session := book.session.withGui (book.gui.deleteShelfPage shelfno.val whole).2
        unsorted := book.unsorted || whole == some true }
  | .buildShelf time shelf =>
      book.withSession (book.session.withGui ((Mutation.buildShelf time shelf).perform book.gui).2)
  | .enquire enquiry => book.withSession (enquiry.run book.session)

def step (book : BookSession) (event : BookEvent) : BookSession :=
  match book.gui.shown, event with
  | none, event => book.between event
  | some _, .key key msg => book.withSession (book.session.pressBookinfo msg book.call key)
  | some _, _ => book

/-- Leafing through a visit, whatever the buffers hold, comes to an end and shows every book that
the server lists. -/
def ShowsAll (book : BookSession) : BookEvent → Prop
  | .visit shelfno collectMode stale =>
      book.gui.shown = none → ∀ msg last, ∃ rounds, ∀ fuel ≥ rounds, ∃ rows,
        book.session.leafThrough msg last ⟨shelfno.val, collectMode, none, stale⟩ fuel = some rows ∧
        ∀ row ∈ book.gui.client.link.server.db.archive.books,
          row.listedFor (if collectMode then nonSenseInt else shelfno.val) = true →
            ∃ shown ∈ rows, shown.2.bookno = row.bookno
  | _ => True

/-- A visit for collecting that reuses the cache comes only if no shelf has been unsorted since the
listing in it was begun. -/
def RenewsUnsorted (book : BookSession) : BookEvent → Prop
  | .visit shelfno collectMode _ =>
      book.gui.shown = none → collectMode = true → book.unsorted = true →
        book.gui.renews shelfno.val true = true
  | _ => True

end BookSession

end Bookshelfdq
