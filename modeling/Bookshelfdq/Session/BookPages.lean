import Bookshelfdq.Client.BookPositions
import Bookshelfdq.Server.ShelfIntegrity
import Bookshelfdq.Session.Calls

/-! # Pages of books over a session

`clidb.c` keeps the position of the next book to read, `display_bookinfo_page` the
number of the page. The row under the slider is the book acted on as long as the two
are in step. -/

namespace Bookshelfdq

/-! ## Calls and the cache of books -/

namespace Client

@[simp] theorem send_books (msg : MessageCs) (client : Client) :
    (client.send msg).2.books = client.books := rfl

theorem clientBooksCountSync_books (stale : MessageCs) (client : Client) :
    (client.clientBooksCountSync stale).2.books = client.books := by
  simp only [clientBooksCountSync, send, receive]
  rcases client.link.socketClientSendRequest _ with ⟨_ | _, link⟩
  · rfl
  · dsimp only
    rcases link.socketClientGetResponse with ⟨_ | reply, link⟩
    · rfl
    · dsimp only
      cases reply.response <;> rfl

theorem clientShelvesCountSync_books (stale : MessageCs) (shelvesAll : Int) (client : Client) :
    (client.clientShelvesCountSync stale shelvesAll).2.2.books = client.books := by
  simp only [clientShelvesCountSync, send, receive]
  rcases client.link.socketClientSendRequest _ with ⟨_ | _, link⟩
  · rfl
  · dsimp only
    rcases link.socketClientGetResponse with ⟨_ | reply, link⟩
    · rfl
    · dsimp only
      cases reply.response <;> rfl

theorem listingLoop_books (stale : MessageCs) (fuel shelfCnt : Nat) (client : Client) :
    (client.listingLoop stale fuel shelfCnt).2.books = client.books := by
  induction fuel generalizing shelfCnt client with
  | zero => rfl
  | succ fuel induction =>
      simp only [listingLoop, receive]
      rcases client.link.socketClientGetResponse with ⟨_ | reply, link⟩
      · rfl
      · dsimp only
        cases reply.response with
        | success =>
            simp only [synchronize]
            rcases client.shelves.clidbShelfSynchronize reply.stuff.shelf with ⟨_ | _, shelves⟩
            · rfl
            · exact induction _ { client with link := link, shelves := shelves }
        | findEndMore =>
            simp only [send]
            rcases link.socketClientSendRequest _ with ⟨_ | _, sent⟩
            · rfl
            · exact induction _ { client with link := sent }
        | failed => exact induction _ { client with link := link }
        | findEnd => rfl

theorem pointedQuery_books (stale : MessageCs) (shelfno : Int) (shelfCnt : Nat)
    (client : Client) : (client.pointedQuery stale shelfno shelfCnt).2.books = client.books := by
  simp only [pointedQuery, send, receive]
  rcases client.link.socketClientSendRequest _ with ⟨_ | _, link⟩
  · rfl
  · dsimp only
    rcases link.socketClientGetResponse with ⟨_ | reply, link⟩
    · rfl
    · dsimp only
      cases reply.response with
      | success =>
          simp only [synchronize]
          rcases client.shelves.clidbShelfSynchronize reply.stuff.shelf with
            ⟨_ | _, shelves⟩ <;> rfl
      | findEnd =>
          simp only [deleteShelf]
          rcases client.shelves.clidbShelfDelete shelfno with ⟨_ | _, shelves⟩ <;> rfl
      | failed => rfl
      | findEndMore => rfl

theorem pointedLoop_books (stale : MessageCs) (shelfnos : List Int) (shelfCnt : Nat)
    (client : Client) : (client.pointedLoop stale shelfnos shelfCnt).2.books = client.books := by
  induction shelfnos generalizing shelfCnt client with
  | nil => rfl
  | cons shelfno shelfnos induction =>
      rw [pointedLoop]
      split
      · have same := pointedQuery_books stale shelfno shelfCnt client
        generalize client.pointedQuery stale shelfno shelfCnt = queried at same ⊢
        rcases queried with ⟨_ | counted, after⟩
        · exact same
        · exact (induction counted after).trans same
      · exact induction shelfCnt client

theorem clientShelvesInfoSync_books (fuel : Nat) (stale : MessageCs) (shelvesAll : Int)
    (client : Client) :
    (client.clientShelvesInfoSync fuel stale shelvesAll).2.books = client.books := by
  rw [clientShelvesInfoSync]
  have counting := clientShelvesCountSync_books stale shelvesAll client
  generalize client.clientShelvesCountSync stale shelvesAll = counted at counting ⊢
  rcases counted with ⟨_ | _, total, client⟩
  · exact counting
  · rw [← counting]
    dsimp only
    have sending := send_books (clientShelvesInfoSyncMsg client.loginUser stale nonSenseInt) client
    generalize client.send _ = sent at sending ⊢
    rcases sent with ⟨_ | _, asked⟩
    · exact sending
    · rw [← sending]
      dsimp only
      have listing := listingLoop_books stale fuel 0 asked
      generalize asked.listingLoop stale fuel 0 = listed at listing ⊢
      rcases listed with ⟨_ | shelfCnt, read⟩
      · exact listing
      · rw [← listing]
        dsimp only
        have pointing := pointedLoop_books stale shelfNumbers shelfCnt read
        generalize read.pointedLoop stale shelfNumbers shelfCnt = looped at pointing ⊢
        rcases looped with ⟨_ | shelfCnt, last⟩ <;> exact pointing

end Client

/-- Every call leaves the books in the cache as they are. It may append the books of a
late reply. -/
theorem ClientCall.perform_extends {altered : Nat → Prop} (fuel : Nat) (call : ClientCall)
    (client : Client) : client.books.Extends altered (call.perform fuel client).books := by
  cases call with
  | session request => exact client.findFromServer_extends _
  | registerAccount account => exact client.findFromServer_extends _
  | verifyAccount account initMode => exact client.findFromServer_extends _
  | booksCountSync stale =>
      rw [perform, client.clientBooksCountSync_books stale]
      exact .refl _
  | shelvesCountSync stale shelvesAll =>
      rw [perform, client.clientShelvesCountSync_books stale shelvesAll]
      exact .refl _
  | shelvesInfoSync stale shelvesAll =>
      rw [perform, client.clientShelvesInfoSync_books fuel stale shelvesAll]
      exact .refl _

/-! ## Going back -/

namespace BookCache

theorem backward_of_page {cache : BookCache} {count size : Nat}
    (searchStep : cache.bookSearchStep = padHight)
    (searchPos : cache.bookSearchPos = count * padHight + size) (positive : 0 < size)
    (few : size ≤ padHight) :
    cache.clidbBookBackwardMode.bookSearchPos = count * padHight := by
  simp only [clidbBookBackwardMode, searchStep, searchPos, padHight, defaultFinds] at few ⊢
  split <;> omega

theorem backward_of_start {cache : BookCache} {count : Nat}
    (searchStep : cache.bookSearchStep = padHight)
    (searchPos : cache.bookSearchPos = count * padHight) :
    cache.clidbBookBackwardMode.bookSearchPos = (count - 1) * padHight := by
  simp only [clidbBookBackwardMode, searchStep, searchPos, padHight, defaultFinds]
  split <;> omega

end BookCache

/-! ## Runs -/

namespace Ncgui

/-- What can happen to the page of books, during a visit or between visits: a visit, a
key, any other call of the client, and a book put on a shelf. -/
inductive Input
  | display (shelfno : Int) (collectMode : Bool) (search : Option (Char × BookEntry))
      (stale : BookEntry)
  | key (key : Key)
  | call (call : ClientCall)
  | newBook

/-- There is one visit at a time. -/
def step (fuel : Nat) (gui : Ncgui) : Input → Ncgui
  | .display shelfno collectMode search stale =>
      match gui.shown with
      | none => gui.display shelfno collectMode search stale
      | some _ => gui
  | .key key => gui.press key
  | .call call => gui.withClient (call.perform fuel gui.client)
  | .newBook => { gui with globalNewBookComing := true }

/-- `clidb_book_peek` at the position used for a row. -/
def peekRow (gui : Ncgui) (line : Nat) : Option BookEntry :=
  gui.client.books.clidbBookPeek (gui.bookPageCnt * padHight + line)

/-- Every row of the page shown is at the position used for it, and an action goes to
the book under the slider. -/
structure ActsOnRow (gui : Ncgui) (page : BookPage) : Prop where
  positions : ∀ line row, page.rows[line]? = some row →
    gui.bookPageCnt * padHight + line = row.1
  action : ∃ row book, page.rows[page.currentRow]? = some row ∧
    gui.client.books.clidbBookPeek row.1 = some book ∧
    ∀ action, (gui.press (.action action)).client =
      (act action gui.bcollect gui.localShelfno (showBookInfo book) row.1 gui.client).2

/-- A page is shown with the books that are in the cache, and as long as it is shown only
the row acted on changes. -/
def ShowsCache (fuel : Nat) (gui : Ncgui) (input : Input) : Prop :=
  ∀ page, (gui.step fuel input).shown = some page → ∀ line row, page.rows[line]? = some row →
    match gui.shown with
    | none => (gui.step fuel input).peekRow line = some row.2
    | some earlier => earlier.rows[line]? = some row ∧
        (((∃ action, input = .key (.action action)) ∧ line = earlier.currentRow) ∨
          (gui.step fuel input).peekRow line = gui.peekRow line)

/-- The next page can be had: the request for it, if one is needed, does not fail, and
there is no book ahead or more than the page shown has room for. -/
def NextPageFits (gui : Ncgui) (page : BookPage) : Prop :=
  ¬ gui.client.LoadFails page.search page.modeShelfno gui.localBookno ∧
    (gui.client.booksAhead page.search page.modeShelfno gui.localBookno = 0 ∨
      padHight < page.rows.length +
        gui.client.booksAhead page.search page.modeShelfno gui.localBookno)

/-- The only input that can fail is the key for the next page. -/
def PagesOn (gui : Ncgui) : Input → Prop
  | .key (.right _) =>
      match gui.shown with
      | none => True
      | some page => gui.noNextPageFlag = false → gui.NextPageFits page
  | _ => True

/-! ## In step -/

/-- Between visits the next book is the first of its page. -/
structure Resting (gui : Ncgui) : Prop where
  shown : gui.shown = none
  filled : gui.client.books.Filled
  searchPos : gui.client.books.bookSearchPos = gui.bookPageCnt * padHight

/-- During a visit the next book is the one behind the rows shown. -/
structure Showing (gui : Ncgui) (page : BookPage) : Prop where
  shown : gui.shown = some page
  filled : gui.client.books.Filled
  slider : page.currentRow < page.rows.length
  few : page.rows.length ≤ padHight
  positions : ∀ line row, page.rows[line]? = some row →
    row.1 = gui.bookPageCnt * padHight + line
  searchPos : gui.client.books.bookSearchPos = gui.bookPageCnt * padHight + page.rows.length
  inside : gui.client.books.bookSearchPos ≤ gui.client.books.bookDbmPos
  searchStep : gui.client.books.bookSearchStep = padHight

def InStep (gui : Ncgui) : Prop := gui.Resting ∨ ∃ page, gui.Showing page

theorem inStep_start {client : Client} (fresh : client.books = .empty) :
    (start client).InStep := by
  refine .inl ⟨rfl, ?_, ?_⟩
  · intro position used
    rw [start, fresh] at used
    cases used
  · rw [start, fresh]
    rfl

theorem Showing.used {gui : Ncgui} {page : BookPage} (showing : gui.Showing page) {line : Nat}
    {row : Nat × BookEntry} (entry : page.rows[line]? = some row) :
    row.1 < gui.client.books.bookDbmPos := by
  have position := showing.positions line row entry
  have bound := (List.getElem?_eq_some_iff.mp entry).1
  have searchPos := showing.searchPos
  have inside := showing.inside
  omega

/-- The visit goes on with the same rows. -/
structure Stays (altered : Nat → Prop) (gui : Ncgui) (page : BookPage) (after : Ncgui) :
    Prop where
  visit : ∃ later, after.shown = some later ∧ later.rows = page.rows ∧
    later.currentRow < later.rows.length
  count : after.bookPageCnt = gui.bookPageCnt
  books : gui.client.books.Extends altered after.client.books

theorem Stays.weaken {altered : Nat → Prop} {gui after : Ncgui} {page : BookPage}
    (stays : Stays (fun _ => False) gui page after) : Stays altered gui page after :=
  ⟨stays.visit, stays.count, stays.books.weaken fun _ => False.elim⟩

theorem Showing.stays {altered : Nat → Prop} {gui after : Ncgui} {page : BookPage}
    (showing : gui.Showing page) (stays : Stays altered gui page after) :
    ∃ later, after.Showing later ∧ later.rows = page.rows := by
  rcases stays.visit with ⟨later, shown, rows, slider⟩
  refine ⟨later, ⟨shown, stays.books.filled showing.filled, slider, ?_, ?_, ?_, ?_, ?_⟩, rows⟩
  · rw [rows]
    exact showing.few
  · rw [rows, stays.count]
    exact showing.positions
  · rw [rows, stays.count, stays.books.searchPos]
    exact showing.searchPos
  · rw [stays.books.searchPos]
    exact showing.inside.trans stays.books.dbmPos
  · rw [stays.books.searchStep]
    exact showing.searchStep

theorem actsOnRow_of_showing {gui : Ncgui} {page : BookPage} (showing : gui.Showing page) :
    gui.ActsOnRow page := by
  refine ⟨fun line row entry => (showing.positions line row entry).symm, ?_⟩
  have entry : page.rows[page.currentRow]? = some (page.rows.get ⟨_, showing.slider⟩) :=
    List.getElem?_eq_getElem showing.slider
  have position := showing.positions page.currentRow _ entry
  rcases Option.isSome_iff_exists.mp (showing.filled _ (showing.used entry)) with ⟨book, stored⟩
  refine ⟨_, book, entry, stored, fun action => ?_⟩
  rw [position] at stored ⊢
  have peeked : gui.peeked (gui.curDbmPos page) page.localBook = book := by
    rw [Ncgui.peeked, curDbmPos, BookCache.clidbBookPeek, stored]
    rfl
  rw [press, showing.shown]
  simp only [slide, peeked, pageAction, withPage, withClient]
  rfl

/-! ## Visits -/

theorem resetOnChange_resting {gui : Ncgui} (resting : gui.Resting) (shelfno : Int)
    (collectMode : Bool) (search : Option (Char × BookEntry)) :
    (gui.resetOnChange shelfno collectMode search).Resting := by
  have emptied : gui.client.books.clidbBookReset.Filled := fun position used => nomatch used
  rcases search with _ | ⟨mark, entry⟩
  · simp only [resetOnChange]
    split
    · exact ⟨resting.shown, emptied, (Nat.zero_mul _).symm⟩
    · exact resting
  · simp only [resetOnChange]
    split
    · exact ⟨resting.shown, emptied, (Nat.zero_mul _).symm⟩
    · exact resting

/-- A visit shows a page of books as they are in the cache, or nothing. -/
theorem display_cases {gui : Ncgui} (resting : gui.Resting) (shelfno : Int)
    (collectMode : Bool) (search : Option (Char × BookEntry)) (stale : BookEntry) :
    (gui.display shelfno collectMode search stale).Resting ∨
    ∃ page, (gui.display shelfno collectMode search stale).Showing page ∧
      ∀ line row, page.rows[line]? = some row →
        (gui.display shelfno collectMode search stale).peekRow line = some row.2 := by
  rw [display]
  split
  · exact .inl resting
  · have reset := resetOnChange_resting resting shelfno collectMode search
    generalize gui.resetOnChange shelfno collectMode search = gui at reset ⊢
    dsimp only
    generalize (if gui.bcollect then nonSenseInt else gui.localShelfno) = modeShelfno
    have next := Client.nextPageBookinfo_cases (search.map Prod.snd) modeShelfno gui.localBookno
      stale.bookno reset.filled
    generalize gui.client.nextPageBookinfo (search.map Prod.snd) modeShelfno gui.localBookno
      stale.bookno = turned at next ⊢
    rcases turned with ⟨printed, bookno, after⟩
    dsimp only at next ⊢
    rcases next with ⟨_, rfl, kept⟩ | ⟨rows, grown, _, rfl, size, kept, read⟩
    · exact .inl ⟨reset.shown, kept.filled reset.filled, kept.searchPos.trans reset.searchPos⟩
    · have filled := read.filled (kept.filled reset.filled)
      have start := kept.searchPos.trans reset.searchPos
      have searchPos := read.searchPos
      rw [start] at searchPos
      cases rows with
      | nil => exact .inl ⟨reset.shown, filled, searchPos⟩
      | cons row rows =>
          have positions : ∀ line entry, (row :: rows)[line]? = some entry →
              entry.1 = gui.bookPageCnt * padHight + line := by
            intro line entry found
            rw [← start]
            exact (read.entries line entry found).1
          refine .inr ⟨_, ⟨rfl, filled, Nat.succ_pos _, ?_, positions, searchPos, ?_, ?_⟩, ?_⟩
          · dsimp only
            omega
          · exact read.inside (List.cons_ne_nil row rows)
          · exact read.searchStep.trans kept.searchStep
          · intro line entry found
            have stored := (read.entries line entry found).2
            rw [positions line entry found, ← read.data] at stored
            exact stored

/-! ## Actions -/

section Actions

variable (book : BookEntry) (position : Nat) (client : Client)

theorem update_extends (msg : MessageCs) (written : MessageCs → BookEntry) :
    client.books.Extends (· = position) (update msg written position client).2.books := by
  rw [update]
  have found : client.books.Extends (· = position) (client.findFromServer msg).2.2.books :=
    client.findFromServer_extends msg
  generalize client.findFromServer msg = reply at found ⊢
  rcases reply with ⟨result, reply, after⟩
  dsimp only at found ⊢
  split
  · exact found.trans (BookCache.extends_insertAt _ position after.books)
  · exact found

theorem clientShelfCollectingBook_extends (shelfno : Int) :
    client.books.Extends (· = position)
      (clientShelfCollectingBook shelfno book position client).2.books := by
  rw [clientShelfCollectingBook]
  have updated := update_extends position client
    (clientShelfCollectingBookMsg client.loginUser shelfno book)
    (fun _ => { book with encodingTime := collectedTime book.encodingTime })
  generalize update _ _ position client = result at updated ⊢
  rcases result with ⟨_ | _, after⟩ <;> exact updated

theorem clientShelfDeleteBook_extends :
    client.books.Extends (· = position) (clientShelfDeleteBook book position client).2.books := by
  rw [clientShelfDeleteBook]
  have found : client.books.Extends (· = position)
      (client.findFromServer (clientShelfDeleteBookMsg client.loginUser book)).2.2.books :=
    client.findFromServer_extends _
  generalize client.findFromServer _ = reply at found ⊢
  rcases reply with ⟨result, reply, after⟩
  dsimp only at found ⊢
  split
  · exact found.trans (BookCache.extends_delete position after.books)
  · exact found

/-- An action changes the entry at its position and no other. -/
theorem act_extends (action : BookAction) (bcollect : Bool) (localShelfno : Int) :
    client.books.Extends (· = position)
      (act action bcollect localShelfno book position client).2.books := by
  cases bcollect with
  | true =>
      cases action with
      | collect floorno =>
          rw [act]
          split
          · exact .refl _
          · exact clientShelfCollectingBook_extends _ position client localShelfno
      | _ => exact .refl _
  | false =>
      cases action with
      | collect floorno => exact .refl _
      | reading =>
          rw [act]
          split
          · exact .refl _
          · exact update_extends position client _ _
      | borrow =>
          rw [act]
          split
          · exact .refl _
          · exact update_extends position client _ _
      | tagging label =>
          rw [act]
          split
          · exact .refl _
          · exact update_extends position client _ _
      | delete =>
          rw [act]
          split
          · exact .refl _
          · exact clientShelfDeleteBook_extends book position client

end Actions

/-! ## Keys -/

section Keys

variable {gui : Ncgui} {page : BookPage}

theorem slide_rows (page : BookPage) (key : Key) : (slide page key).rows = page.rows := by
  cases key <;> rfl

theorem slide_currentRow (slider : page.currentRow < page.rows.length) (key : Key) :
    (slide page key).currentRow < (slide page key).rows.length := by
  rw [slide_rows]
  cases key with
  | up =>
      simp only [slide]
      split <;> omega
  | down =>
      simp only [slide]
      split <;> omega
  | _ => exact slider

theorem leave_resting (showing : gui.Showing page) : gui.leave.Resting :=
  have positive := Nat.zero_lt_of_lt showing.slider
  ⟨rfl, showing.filled,
    BookCache.backward_of_page showing.searchStep showing.searchPos positive showing.few⟩

theorem pageLeft_resting (showing : gui.Showing page) : gui.pageLeft.Resting := by
  have back := (leave_resting showing).searchPos
  exact ⟨rfl, showing.filled, BookCache.backward_of_start showing.searchStep back⟩

/-- What the key for the next page can do: nothing, end the visit on an error, find no
next page, or go on to it. -/
theorem pageRight_cases (showing : gui.Showing page) (stale : Int) {later : BookPage}
    (rows : later.rows = page.rows) (slider : later.currentRow < later.rows.length) :
    (gui.noNextPageFlag = true ∧ Stays (fun _ => False) gui page (gui.pageRight stale later)) ∨
    (gui.noNextPageFlag = false ∧
      gui.client.LoadFails later.search later.modeShelfno gui.localBookno ∧
      (gui.pageRight stale later).shown = none ∧
      (gui.pageRight stale later).client.books.bookSearchPos ≠
        (gui.pageRight stale later).bookPageCnt * padHight) ∨
    (gui.NextPageFits later ∧ Stays (fun _ => False) gui page (gui.pageRight stale later)) ∨
    (gui.noNextPageFlag = false ∧ (gui.pageRight stale later).shown = none ∧
      (gui.pageRight stale later).client.books.Filled ∧
      ((gui.pageRight stale later).client.books.bookSearchPos =
          (gui.pageRight stale later).bookPageCnt * padHight ↔ gui.NextPageFits later)) := by
  rw [pageRight]
  cases flag : gui.noNextPageFlag with
  | true => exact .inl ⟨rfl, ⟨later, rfl, rows, slider⟩, rfl, .refl _⟩
  | false =>
      rw [if_neg Bool.false_ne_true]
      have next := Client.nextPageBookinfo_cases later.search later.modeShelfno gui.localBookno
        stale showing.filled
      generalize gui.client.nextPageBookinfo later.search later.modeShelfno gui.localBookno
        stale = turned at next ⊢
      rcases turned with ⟨printed, bookno, after⟩
      dsimp only at next ⊢
      have positive := Nat.zero_lt_of_lt showing.slider
      have few := showing.few
      have stepped : gui.client.books.Extends (fun _ => False)
          (gui.client.books.clidbBookSearchStep padHight) :=
        ⟨Nat.le_refl _, fun _ _ _ => rfl, rfl, showing.searchStep.symm, id⟩
      rcases next with ⟨fails, rfl, kept⟩ | ⟨printed, grown, answered, rfl, length, kept, read⟩
      · refine .inr (.inl ⟨rfl, fails, rfl, ?_⟩)
        dsimp only
        rw [(stepped.trans kept).searchPos, showing.searchPos]
        omega
      · have grows := stepped.trans kept
        cases printed with
        | nil =>
            have none : gui.client.booksAhead later.search later.modeShelfno
                gui.localBookno = 0 := by
              have size : 0 < padHight := by decide
              rw [List.length_nil] at length
              omega
            exact .inr (.inr (.inl ⟨⟨answered, .inl none⟩, ⟨later, rfl, rows, slider⟩, rfl,
              grows.trans read.extends⟩))
        | cons row printed =>
            have searchStep := read.searchStep.trans kept.searchStep
            have reached : after.books.bookSearchPos = gui.bookPageCnt * padHight +
                (page.rows.length + (row :: printed).length) := by
              rw [read.searchPos, grows.searchPos, showing.searchPos, Nat.add_assoc]
            refine .inr (.inr (.inr ⟨rfl, rfl, read.filled (grows.filled showing.filled), ?_⟩))
            change after.books.clidbBookBackwardMode.bookSearchPos =
              (gui.bookPageCnt + 1) * padHight ↔ _
            rw [NextPageFits, rows, and_iff_right answered]
            by_cases room : page.rows.length + (row :: printed).length ≤ padHight
            · have back := BookCache.backward_of_page searchStep reached (by omega) room
              rw [back, Nat.add_mul]
              rw [List.length_cons] at length room
              omega
            · have next : after.books.bookSearchPos = (gui.bookPageCnt + 1) * padHight +
                  (page.rows.length + (row :: printed).length - padHight) := by
                rw [reached, Nat.add_mul]
                omega
              have forward := BookCache.backward_of_page searchStep next (by omega) (by omega)
              rw [forward]
              rw [List.length_cons] at length room
              omega

/-- What a key can do: the visit goes on with the same rows, or ends, in step unless it
is the key for a next page that does not fit. -/
theorem press_cases (showing : gui.Showing page) (key : Key) :
    (gui.PagesOn (.key key) ∧
      Stays (fun position => (∃ action, key = .action action) ∧ position = gui.curDbmPos page)
        gui page (gui.press key)) ∨
    ((gui.press key).shown = none ∧ ((gui.press key).Resting ↔ gui.PagesOn (.key key))) := by
  have sliding := slide_currentRow showing.slider key
  have rows := slide_rows page key
  rw [press, showing.shown]
  dsimp only
  cases key with
  | backspace => exact .inr ⟨rfl, iff_of_true (leave_resting showing) trivial⟩
  | left => exact .inr ⟨rfl, iff_of_true (pageLeft_resting showing) trivial⟩
  | up => exact .inl ⟨trivial, ⟨_, rfl, rows, sliding⟩, rfl, .refl _⟩
  | down => exact .inl ⟨trivial, ⟨_, rfl, rows, sliding⟩, rfl, .refl _⟩
  | right stale =>
      have pagesOn : gui.PagesOn (.key (.right stale)) ↔
          (gui.noNextPageFlag = false → gui.NextPageFits page) := by
        rw [PagesOn, showing.shown]
      rw [pagesOn]
      rcases @pageRight_cases gui page showing stale
        { slide page (.right stale) with
          localBook := showBookInfo (gui.peeked (gui.curDbmPos page) page.localBook) } rows
        sliding with
        ⟨flag, stays⟩ | ⟨flag, fails, shown, off⟩ | ⟨fits, stays⟩ | ⟨flag, shown, filled, turned⟩
      · refine .inl ⟨fun unset => ?_, stays.weaken⟩
        rw [flag] at unset
        cases unset
      · refine .inr ⟨shown, iff_of_false ?_ ?_⟩
        · intro resting
          exact off resting.searchPos
        · intro fits
          exact (fits flag).1 fails
      · exact .inl ⟨fun _ => fits, stays.weaken⟩
      · refine .inr ⟨shown, ?_, ?_⟩
        · intro resting _
          exact turned.mp resting.searchPos
        · intro fits
          exact ⟨shown, filled, turned.mpr (fits flag)⟩
  | action action =>
      refine .inl ⟨trivial, ⟨_, rfl, rows, sliding⟩, rfl, ?_⟩
      have acted := act_extends (showBookInfo (gui.peeked (gui.curDbmPos page) page.localBook))
        (gui.curDbmPos page) gui.client action gui.bcollect gui.localShelfno
      exact acted.weaken fun position same => ⟨⟨action, rfl⟩, same⟩

end Keys

/-! ## Every step -/

/-- What an input can do during a visit. -/
theorem step_cases {gui : Ncgui} {page : BookPage} (showing : gui.Showing page) (fuel : Nat)
    (input : Input) :
    (gui.PagesOn input ∧ Stays (fun position => (∃ action, input = .key (.action action)) ∧
        position = gui.curDbmPos page) gui page (gui.step fuel input)) ∨
    ((gui.step fuel input).shown = none ∧
      ((gui.step fuel input).Resting ↔ gui.PagesOn input)) := by
  have visit : ∃ later, gui.shown = some later ∧ later.rows = page.rows ∧
      later.currentRow < later.rows.length := ⟨page, showing.shown, rfl, showing.slider⟩
  cases input with
  | display shelfno collectMode search stale =>
      rw [step, showing.shown]
      exact .inl ⟨trivial, visit, rfl, .refl _⟩
  | key key =>
      apply (press_cases showing key).imp_left
      rintro ⟨pagesOn, stays⟩
      refine ⟨pagesOn, stays.visit, stays.count, stays.books.weaken ?_⟩
      rintro position ⟨⟨action, rfl⟩, same⟩
      exact ⟨⟨action, rfl⟩, same⟩
  | call call => exact .inl ⟨trivial, visit, rfl, call.perform_extends fuel gui.client⟩
  | newBook => exact .inl ⟨trivial, visit, rfl, .refl _⟩

theorem pagesOn_of_resting {gui : Ncgui} (resting : gui.Resting) (input : Input) :
    gui.PagesOn input := by
  cases input with
  | key key =>
      cases key with
      | right stale =>
          rw [PagesOn, resting.shown]
          trivial
      | _ => trivial
  | _ => trivial

theorem step_of_resting {gui : Ncgui} (resting : gui.Resting) (fuel : Nat) (input : Input) :
    (gui.step fuel input).Resting ∨
    ∃ page, (gui.step fuel input).Showing page ∧ ∀ line row, page.rows[line]? = some row →
      (gui.step fuel input).peekRow line = some row.2 := by
  cases input with
  | display shelfno collectMode search stale =>
      rw [step, resting.shown]
      exact display_cases resting shelfno collectMode search stale
  | key key =>
      rw [step, press, resting.shown]
      exact .inl resting
  | call call =>
      have kept : gui.client.books.Extends (fun _ => False)
          (call.perform fuel gui.client).books := call.perform_extends fuel gui.client
      exact .inl ⟨resting.shown, kept.filled resting.filled,
        kept.searchPos.trans resting.searchPos⟩
  | newBook => exact .inl ⟨resting.shown, resting.filled, resting.searchPos⟩

/-- A step keeps the two positions in step exactly if it is not the key for a next page
that does not fit. -/
theorem step_inStep_iff {gui : Ncgui} (inStep : gui.InStep) (fuel : Nat) (input : Input) :
    (gui.step fuel input).InStep ↔ gui.PagesOn input := by
  rcases inStep with resting | ⟨page, showing⟩
  · apply iff_of_true _ (pagesOn_of_resting resting input)
    rcases step_of_resting resting fuel input with rests | ⟨page, shows, _⟩
    · exact .inl rests
    · exact .inr ⟨page, shows⟩
  · rcases step_cases showing fuel input with ⟨pagesOn, stays⟩ | ⟨shown, rests⟩
    · rcases showing.stays stays with ⟨later, shows, _⟩
      exact iff_of_true (.inr ⟨later, shows⟩) pagesOn
    · rw [← rests]
      constructor
      · rintro (resting | ⟨later, shows⟩)
        · exact resting
        · rw [shows.shown] at shown
          cases shown
      · exact .inl

theorem inStep_actsOnRow {gui : Ncgui} (inStep : gui.InStep) (page : BookPage)
    (shown : gui.shown = some page) : gui.ActsOnRow page := by
  rcases inStep with resting | ⟨shows, showing⟩
  · rw [resting.shown] at shown
    cases shown
  · rw [showing.shown] at shown
    cases shown
    exact actsOnRow_of_showing showing

theorem step_showsCache {gui : Ncgui} (inStep : gui.InStep) (fuel : Nat) (input : Input) :
    gui.ShowsCache fuel input := by
  intro page shown line row entry
  rcases inStep with resting | ⟨earlier, showing⟩
  · rw [resting.shown]
    rcases step_of_resting resting fuel input with rests | ⟨shows, showing, stored⟩
    · rw [rests.shown] at shown
      cases shown
    · rw [showing.shown] at shown
      cases shown
      exact stored line row entry
  · rw [showing.shown]
    rcases step_cases showing fuel input with ⟨_, stays⟩ | ⟨ended, _⟩
    · rcases stays.visit with ⟨later, shows, rows, _⟩
      rw [shows] at shown
      cases shown
      rw [rows] at entry
      refine ⟨entry, ?_⟩
      by_cases acted : (∃ action, input = .key (.action action)) ∧ line = earlier.currentRow
      · exact .inl acted
      · apply Or.inr
        have unaltered : ¬ ((∃ action, input = .key (.action action)) ∧
            gui.bookPageCnt * padHight + line = gui.curDbmPos earlier) := by
          rintro ⟨action, same⟩
          exact acted ⟨action, Nat.add_left_cancel same⟩
        have used := showing.used entry
        rw [showing.positions line row entry] at used
        rw [peekRow, peekRow, stays.count]
        exact stays.books.data _ used unaltered
    · rw [ended] at shown
      cases shown

/-- Over a session the two positions stay in step exactly if every next page fits. -/
theorem always_inStep_iff (fuel : Nat) {client : Client} (fresh : client.books = .empty)
    (inputs : List Input) :
    Execution.Always (step fuel) InStep (start client) inputs ↔
      Execution.Along (step fuel) PagesOn (start client) inputs := by
  apply Execution.always_iff_along _ (inStep_start fresh)
  intro gui input inStep
  exact step_inStep_iff inStep fuel input

/-- In a session in which every key for the next page finds one that fits, whatever else
fails or comes late, the rows of a page are at the positions used for them, every
action goes to the row under the slider, and the rows are the books of the cache. -/
theorem action_on_shown_row (fuel : Nat) (client : Client) (fresh : client.books = .empty)
    (inputs : List Input)
    (pagesOn : Execution.Along (step fuel) PagesOn (start client) inputs) :
    Execution.Always (step fuel) (fun gui => ∀ page, gui.shown = some page → gui.ActsOnRow page)
        (start client) inputs ∧
      Execution.Along (step fuel) (ShowsCache fuel) (start client) inputs := by
  apply Execution.always_and_along_of_along _ _ _ (inStep_start fresh) pagesOn
  · intro gui input inStep pagesOn
    exact (step_inStep_iff inStep fuel input).mpr pagesOn
  · intro gui inStep
    exact inStep_actsOnRow inStep
  · intro gui input inStep _
    exact step_showsCache inStep fuel input

instance (search : Option BookEntry) (shelfno bookno : Int) (client : Client) :
    Decidable (client.LoadFails search shelfno bookno) :=
  inferInstanceAs (Decidable (_ ∧ _))

instance (gui : Ncgui) (page : BookPage) : Decidable (gui.NextPageFits page) :=
  inferInstanceAs (Decidable (_ ∧ _))

instance (gui : Ncgui) : (input : Input) → Decidable (gui.PagesOn input)
  | .key (.right _) =>
      match shown : gui.shown with
      | none => .isTrue (by rw [PagesOn, shown]; trivial)
      | some page =>
          decidable_of_iff (gui.noNextPageFlag = false → gui.NextPageFits page)
            (by rw [PagesOn, shown])
  | .key .up => .isTrue trivial
  | .key .down => .isTrue trivial
  | .key .left => .isTrue trivial
  | .key (.action _) => .isTrue trivial
  | .key .backspace => .isTrue trivial
  | .display _ _ _ _ => .isTrue trivial
  | .call _ => .isTrue trivial
  | .newBook => .isTrue trivial

/-- A session with a shelf that holds two books, over a connection with delays. -/
def sampleClient (delays : List Bool) : Client :=
  let server := Execution.run Server.step Server.sample
    [clientBuildShelfMsg "reader" Server.sampleTime Server.sampleShelf,
      clientShelfInsertBookMsg "reader" Server.sampleTime (Server.sampleBook 1),
      clientShelfInsertBookMsg "reader" Server.sampleTime (Server.sampleBook 1)]
  let client := Client.connected server .empty .empty "reader"
  { client with link := { client.link with delays := delays } }

def sampleVisit : Input := .display 1 false none .zeroed

/-- The second book is deleted, there is no next page, and the shelf is visited again. -/
theorem action_on_second_row :
    Execution.Along (step 0) PagesOn (start (sampleClient []))
        [sampleVisit, .key .down, .key (.action .delete), .key (.right 0), .key .backspace,
          sampleVisit] ∧
      Execution.Always (step 0) (fun gui => ∀ page, gui.shown = some page → gui.ActsOnRow page)
        (start (sampleClient []))
        [sampleVisit, .key .down, .key (.action .delete), .key (.right 0), .key .backspace,
          sampleVisit] :=
  ⟨by decide, (action_on_shown_row 0 (sampleClient []) rfl _ (by decide)).1⟩

theorem not_actsOnRow {gui : Ncgui} {position : Nat}
    (first : (gui.shown.bind fun page => page.rows[0]?.map Prod.fst) = some position)
    (off : gui.bookPageCnt * padHight ≠ position) :
    ¬ ∀ page, gui.shown = some page → gui.ActsOnRow page := by
  intro acts
  rcases Option.bind_eq_some_iff.mp first with ⟨page, shown, found⟩
  rcases Option.map_eq_some_iff.mp found with ⟨row, entry, rfl⟩
  exact off ((acts page shown).positions 0 row entry)

/-- The first load stops after one book, and the second visit shows it. In the first run
the key for the next page times out, and the third visit shows the second book with
the page number and so the position of the first. In the second run the key brings the
second book, and the page number is one ahead of the page then shown. -/
theorem action_off_shown_row :
    ¬ Execution.Always (step 0) (fun gui => ∀ page, gui.shown = some page → gui.ActsOnRow page)
        (start (sampleClient [false, true, true]))
        [sampleVisit, sampleVisit, .key (.right 0), sampleVisit] ∧
      ¬ Execution.Always (step 0) (fun gui => ∀ page, gui.shown = some page → gui.ActsOnRow page)
        (start (sampleClient [false, true]))
        [sampleVisit, sampleVisit, .key (.right 0), sampleVisit] :=
  ⟨fun always => not_actsOnRow (by decide : _ = some 1) (by decide) always.2.2.2.2,
    fun always => not_actsOnRow (by decide : _ = some 0) (by decide) always.2.2.2.2⟩

end Ncgui

end Bookshelfdq
