import Bookshelfdq.Session.BookPages
import Bookshelfdq.Session.Prompt

/-! # What the page of books does to the server and the cache

Over a prompt connection, an input of the page either reads rows of the server into the
cache or carries out one action on one entry. -/

namespace Bookshelfdq

/-! ## Updates and deletions -/

namespace Server

variable {server : Server} {loginUser : String}

theorem step_delete_cases (book : BookEntry) :
    (server.step (clientShelfDeleteBookMsg loginUser book)).db.archive = server.db.archive ∨
      (server.step (clientShelfDeleteBookMsg loginUser book)).db.archive =
        server.db.archive.cleanBooks .del fun row => row.bookno == book.bookno := by
  rw [@step_of_archiveRequest server _ (.bookDelete (clientShelfDeleteBookMsg loginUser book)) rfl,
    ArchiveRequest.perform]
  rcases srvdbBookDelete_cases (clientShelfDeleteBookMsg loginUser book) server.db with
    ⟨after, result, archive⟩ | ⟨after, result, archive⟩
  · rw [result]
    exact .inl archive
  · rw [result]
    have single : (clientShelfDeleteBookMsg loginUser book).stuff.book.namesShelf = false :=
      Bool.and_false _
    have selects : (clientShelfDeleteBookMsg loginUser book).stuff.book.deletes =
        fun row => row.bookno == book.bookno := by
      funext row
      rw [BookEntry.deletes, single]
      rfl
    rw [selects] at archive
    exact .inr archive

/-- What an update of the session does to the archive. -/
theorem step_update_cases (sent : BookEntry) :
    (server.step (clientShelfTaggingBookMsg loginUser sent)).db.archive = server.db.archive ∨
    (sent.namesShelf = true ∧
      (server.step (clientShelfTaggingBookMsg loginUser sent)).db.archive =
        server.db.archive.cleanBooks .unsorted fun row => row.shelfno == sent.shelfno) ∨
    ∃ books, sent.namesShelf = false ∧
      Table.update (fun row => row.bookno == sent.bookno)
        (fun row => sent.row server.db.mode row.bookno) server.db.archive.books = some books ∧
      (server.step (clientShelfTaggingBookMsg loginUser sent)).db.archive =
        { server.db.archive with books := books } := by
  rw [@step_of_archiveRequest server _ (.bookUpdate (clientShelfTaggingBookMsg loginUser sent)) rfl,
    ArchiveRequest.perform]
  rcases srvdbBookUpdate_cases (clientShelfTaggingBookMsg loginUser sent) server.db with
    ⟨after, result, archive⟩ | ⟨after, result, whole, archive⟩ |
    ⟨after, books, result, single, updated, archive⟩
  · rw [result]
    exact .inl archive
  · rw [result]
    exact .inr (.inl ⟨whole, archive⟩)
  · rw [result]
    exact .inr (.inr ⟨books, single, updated, archive⟩)

end Server

/-! ## Appended books -/

namespace BookCache

/-- An entry of the grown cache is new, or was there and, if it is in use, was in use. -/
theorem appendBooks_data {added : List BookEntry} {cache : BookCache} {position : Nat}
    {book : BookEntry} (stored : (cache.appendBooks added).bookData position = some book) :
    book ∈ added ∨ (cache.bookData position = some book ∧
      (position < (cache.appendBooks added).bookDbmPos → position < cache.bookDbmPos)) := by
  induction added generalizing cache with
  | nil => exact .inr ⟨stored, id⟩
  | cons first added induction =>
      rcases induction stored with member | ⟨inserted, used⟩
      · exact .inl (List.mem_cons_of_mem _ member)
      · have data : (cache.clidbBookInsert first).bookData =
            Function.update cache.bookData cache.bookDbmPos (some first) := rfl
        rw [data] at inserted
        by_cases last : position = cache.bookDbmPos
        · rw [last, Function.update_self] at inserted
          exact .inl (List.mem_cons.mpr (.inl (Option.some.inj inserted).symm))
        · rw [Function.update_of_ne last] at inserted
          refine .inr ⟨inserted, fun grown => ?_⟩
          exact Nat.lt_of_le_of_ne (Nat.le_of_lt_succ (used grown)) last

theorem clidbBookInsertAt_data (cache : BookCache) (book : BookEntry) (position : Nat) :
    (cache.clidbBookInsertAt book position).bookData =
      Function.update cache.bookData position (some book) := rfl

theorem getPage_data (fuel : Nat) (cache : BookCache) :
    (cache.getPage fuel).2.bookData = cache.bookData ∧
      (cache.getPage fuel).2.bookDbmPos = cache.bookDbmPos := by
  induction fuel generalizing cache with
  | zero => exact ⟨rfl, rfl⟩
  | succ fuel induction =>
      have kept : cache.clidbBookGet.2.bookData = cache.bookData ∧
          cache.clidbBookGet.2.bookDbmPos = cache.bookDbmPos := by
        rw [clidbBookGet]
        split
        · exact ⟨rfl, rfl⟩
        · dsimp only
          split
          · exact ⟨rfl, rfl⟩
          · split <;> exact ⟨rfl, rfl⟩
      rw [getPage]
      generalize cache.clidbBookGet = got at kept ⊢
      rcases got with ⟨fetched, after⟩
      cases fetched with
      | finished => exact kept
      | missing => exact kept
      | entry book =>
          have rest := induction after
          exact ⟨rest.1.trans kept.1, rest.2.trans kept.2⟩

theorem printPage_data (cache : BookCache) :
    cache.printPage.2.bookData = cache.bookData ∧
      cache.printPage.2.bookDbmPos = cache.bookDbmPos :=
  getPage_data _ _

end BookCache

/-! ## Reading -/

namespace Client

/-- The request that `next_page_bookinfo` sends for more books. -/
def loadMsg (loginUser : String) (search : Option BookEntry) (shelfno bookno : Int) : MessageCs :=
  match search with
  | some searchEntry => clientSearchingBookMsg loginUser bookno searchEntry
  | none => clientShelfLoadingBookMsg loginUser shelfno bookno

theorem loadMsg_request (loginUser : String) (search : Option BookEntry) (shelfno bookno : Int) :
    (loadMsg loginUser search shelfno bookno).request = .findBook := by
  cases search <;> rfl

theorem loadMsg_reads (loginUser : String) (search : Option BookEntry) (shelfno bookno : Int) :
    (loadMsg loginUser search shelfno bookno).archiveRequest = none := by
  rw [MessageCs.archiveRequest, loadMsg_request]

/-- The request `msg` has been sent or not, and rows that it lists may have been cached. -/
structure Reads (msg : MessageCs) (client after : Client) : Prop where
  prompt : after.link.Prompt
  sends : client.link.Sends msg after.link
  loginUser : after.loginUser = client.loginUser
  entries : ∀ position book, after.books.bookData position = some book →
    (client.books.bookData position = some book ∧
      (position < after.books.bookDbmPos → position < client.books.bookDbmPos)) ∨
    ∃ row, client.link.server.Lists msg row ∧ book = row.entry

theorem Reads.quiet {msg : MessageCs} {client : Client} {books : BookCache}
    (prompt : client.link.Prompt) (data : books.bookData = client.books.bookData)
    (dbmPos : books.bookDbmPos ≤ client.books.bookDbmPos) :
    client.Reads msg (client.withBooks books) where
  prompt := prompt
  sends := .inl ⟨rfl, rfl⟩
  loginUser := rfl
  entries position book stored := by
    rw [← data]
    exact .inl ⟨stored, fun used => Nat.lt_of_lt_of_le used dbmPos⟩

/-- Reading the cache before or after makes no difference. -/
theorem Reads.withBooks {msg : MessageCs} {client after : Client} {before books : BookCache}
    (reads : (client.withBooks before).Reads msg after)
    (beforeData : before.bookData = client.books.bookData)
    (beforeDbmPos : before.bookDbmPos ≤ client.books.bookDbmPos)
    (data : books.bookData = after.books.bookData)
    (dbmPos : books.bookDbmPos = after.books.bookDbmPos) :
    client.Reads msg (after.withBooks books) where
  prompt := reads.prompt
  sends := reads.sends
  loginUser := reads.loginUser
  entries position book stored := by
    have entry := reads.entries position book (data ▸ stored)
    rw [← beforeData]
    apply entry.imp_left
    rintro ⟨cached, used⟩
    refine ⟨cached, fun inUse => ?_⟩
    exact Nat.lt_of_lt_of_le (used (dbmPos ▸ inUse)) beforeDbmPos

variable {client : Client} (prompt : client.link.Prompt)

include prompt

theorem loadBooks_reads (search : Option BookEntry) (shelfno bookno : Int) :
    client.Reads (loadMsg client.loginUser search shelfno bookno)
        (client.loadBooks search shelfno bookno).2 ∧
      ∃ added, (client.loadBooks search shelfno bookno).2.books = client.books.appendBooks added ∧
        (∀ book ∈ added, ∃ row, client.link.server.Lists
          (loadMsg client.loginUser search shelfno bookno) row ∧ book = row.entry) ∧
        ((client.loadBooks search shelfno bookno).1 = 0 ∨
          (client.loadBooks search shelfno bookno).1 = -1 ∨ added ≠ []) := by
  have kind := loadMsg_request client.loginUser search shelfno bookno
  rcases findFromServer_find prompt kind with
    ⟨result, reply, link, added, found, still, sends, listed, outcome⟩
  have loaded : client.loadBooks search shelfno bookno =
      (result, { client with link := link, books := client.books.appendBooks added }) := by
    cases search with
    | none => exact congrArg (fun found => (found.1, found.2.2)) found
    | some searchEntry => exact congrArg (fun found => (found.1, found.2.2)) found
  rw [loaded]
  refine ⟨⟨still, sends, rfl, ?_⟩, added, rfl, listed, outcome⟩
  intro position book stored
  rcases BookCache.appendBooks_data stored with member | kept
  · exact .inr (listed book member)
  · exact .inl kept

theorem nextPageBookinfo_reads (search : Option BookEntry) (shelfno bookno stale : Int) :
    client.Reads (loadMsg client.loginUser search shelfno bookno)
      (client.nextPageBookinfo search shelfno bookno stale).2.2 := by
  have printed := client.books.printPage_data
  rw [nextPageBookinfo]
  generalize client.books.printPage = page at printed ⊢
  rcases page with ⟨rows, books⟩
  have quiet : client.Reads (loadMsg client.loginUser search shelfno bookno)
      (client.withBooks books) := .quiet prompt printed.1 (Nat.le_of_eq printed.2)
  rcases rows with _ | (_ | ⟨row, rows⟩)
  · exact quiet
  · have still : (client.withBooks books).link.Prompt := prompt
    have loads := (loadBooks_reads still search shelfno bookno).1
    dsimp only
    generalize (client.withBooks books).loadBooks search shelfno bookno = loaded at loads ⊢
    rcases loaded with ⟨found, after⟩
    dsimp only at loads ⊢
    have kept : client.Reads (loadMsg client.loginUser search shelfno bookno)
        (after.withBooks after.books) :=
      loads.withBooks printed.1 (Nat.le_of_eq printed.2) rfl rfl
    split
    · exact kept
    · split
      · exact kept
      · have again := after.books.printPage_data
        generalize after.books.printPage = page at again ⊢
        rcases page with ⟨_ | rows, books⟩
        · exact loads.withBooks printed.1 (Nat.le_of_eq printed.2) again.1 again.2
        · exact loads.withBooks printed.1 (Nat.le_of_eq printed.2) again.1 again.2
  · exact quiet

end Client

/-! ## Acting -/

namespace Ncgui

/-- A move changes the two flags. -/
theorem movedBook_flags (book : BookEntry) (moveAction : Int) :
    ∃ borrowed onReading, (movedBook book moveAction).1 =
      { book with borrowed := borrowed, onReading := onReading } := by
  rw [movedBook]
  split
  · exact ⟨_, _, rfl⟩
  · split
    · split
      · exact ⟨_, _, rfl⟩
      · split
        · exact ⟨_, _, rfl⟩
        · exact ⟨_, _, rfl⟩
    · exact ⟨_, _, rfl⟩

/-- The entry that an action sends to be stored, and the one it leaves in the cache. -/
def BookAction.stores (localShelfno : Int) (book : BookEntry) :
    Bool → BookAction → Option (BookEntry × BookEntry)
  | true, .collect floorno =>
      if book.encodingTime.text.toList[11]? = some 'H' then none
      else some ({ book with floorno := floorno, shelfno := localShelfno },
        { book with floorno := floorno, encodingTime := collectedTime book.encodingTime })
  | false, .reading =>
      if book.encodingTime = .empty ∨ book.onReading = '1' ∨ book.borrowed = '1' then none
      else some ((movedBook book 0).1, (movedBook book 0).1)
  | false, .borrow =>
      if book.encodingTime = .empty then none
      else some ((movedBook book 1).1, (movedBook book 1).1)
  | false, .tagging label =>
      if book.encodingTime = .empty then none
      else some ({ book with label := label }, { book with label := label })
  | _, _ => none

/-- What an action stores: a new place, a new label, or new flags. -/
theorem BookAction.stores_cases {localShelfno : Int} {book sent written : BookEntry}
    {bcollect : Bool} {action : BookAction}
    (stored : stores localShelfno book bcollect action = some (sent, written)) :
    (∃ floorno, bcollect = true ∧ action = .collect floorno ∧
      sent = { book with floorno := floorno, shelfno := localShelfno } ∧
      written = { book with floorno := floorno, encodingTime := collectedTime book.encodingTime }) ∨
    (∃ label, bcollect = false ∧ action = .tagging label ∧ sent = { book with label := label } ∧
      written = sent) ∨
    (bcollect = false ∧ action = .reading ∧ ¬(book.onReading = '1' ∨ book.borrowed = '1') ∧
      sent = (movedBook book 0).1 ∧ written = sent) ∨
    (bcollect = false ∧ action = .borrow ∧ sent = (movedBook book 1).1 ∧ written = sent) := by
  cases bcollect with
  | true =>
      cases action with
      | collect floorno =>
          rw [stores] at stored
          split at stored
          · cases stored
          · cases stored
            exact .inl ⟨floorno, rfl, rfl, rfl, rfl⟩
      | _ => cases stored
  | false =>
      cases action with
      | tagging label =>
          rw [stores] at stored
          split at stored
          · cases stored
          · cases stored
            exact .inr (.inl ⟨label, rfl, rfl, rfl, rfl⟩)
      | reading =>
          rw [stores] at stored
          split at stored
          · cases stored
          case isFalse standing =>
            cases stored
            exact .inr (.inr (.inl ⟨rfl, rfl, fun away => standing (.inr away), rfl, rfl⟩))
      | borrow =>
          rw [stores] at stored
          split at stored
          · cases stored
          · cases stored
            exact .inr (.inr (.inr ⟨rfl, rfl, rfl, rfl⟩))
      | _ => cases stored

/-- The request of an action: none, one deletion, or one update. The entry it leaves in the
cache is the one to be written, or the one of the reply where the two are the same. -/
theorem act_request (action : BookAction) (bcollect : Bool) (localShelfno : Int)
    (book : BookEntry) (position : Nat) (client : Client) :
    ((act action bcollect localShelfno book position client).2 = client ∧
      BookAction.stores localShelfno book bcollect action = none ∧
      (bcollect = false → action = .delete → book.encodingTime = .empty)) ∨
    (bcollect = false ∧ action = .delete ∧ book.encodingTime ≠ .empty ∧
      (act action bcollect localShelfno book position client).2 =
        (clientShelfDeleteBook book position client).2) ∨
    ∃ sent written leaves, BookAction.stores localShelfno book bcollect action =
        some (sent, written) ∧
      (∀ reply : MessageCs, leaves reply = written ∨
        written = sent ∧ leaves reply = reply.stuff.book) ∧
      (act action bcollect localShelfno book position client).2 =
        (update (clientShelfTaggingBookMsg client.loginUser sent) leaves position client).2 := by
  cases bcollect with
  | true =>
      cases action with
      | collect floorno =>
          rw [act, BookAction.stores]
          by_cases taken : book.encodingTime.text.toList[11]? = some 'H'
          · rw [if_pos taken, if_pos taken]
            exact .inl ⟨rfl, rfl, fun impossible => absurd impossible.symm Bool.false_ne_true⟩
          · rw [if_neg taken, if_neg taken, clientShelfCollectingBook]
            refine .inr (.inr ⟨_, _, _, rfl, fun _ => .inl rfl, ?_⟩)
            dsimp only [clientShelfCollectingBookMsg]
            generalize update _ _ position client = result
            rcases result with ⟨_ | _, after⟩ <;> rfl
      | _ => exact .inl ⟨rfl, rfl, fun impossible => absurd impossible.symm Bool.false_ne_true⟩
  | false =>
      cases action with
      | collect floorno =>
          refine .inl ⟨rfl, rfl, fun _ other => ?_⟩
          cases other
      | reading =>
          rw [act, BookAction.stores]
          split
          · refine .inl ⟨rfl, rfl, fun _ other => ?_⟩
            cases other
          · exact .inr (.inr ⟨_, _, _, rfl, fun _ => .inr ⟨rfl, rfl⟩, rfl⟩)
      | borrow =>
          rw [act, BookAction.stores]
          split
          · refine .inl ⟨rfl, rfl, fun _ other => ?_⟩
            cases other
          · exact .inr (.inr ⟨_, _, _, rfl, fun _ => .inr ⟨rfl, rfl⟩, rfl⟩)
      | tagging label =>
          rw [act, BookAction.stores]
          split
          · refine .inl ⟨rfl, rfl, fun _ other => ?_⟩
            cases other
          · exact .inr (.inr ⟨_, _, _, rfl, fun _ => .inl rfl, rfl⟩)
      | delete =>
          rw [act]
          split
          case isTrue deleted => exact .inl ⟨rfl, rfl, fun _ _ => deleted⟩
          case isFalse stands => exact .inr (.inl ⟨rfl, rfl, stands, rfl⟩)

/-- One update has been sent or not; if it is known to have succeeded, the entry is in the
cache. -/
structure Updates (sent written : BookEntry) (position : Nat) (client after : Client) : Prop where
  prompt : after.link.Prompt
  sends : client.link.Sends (clientShelfTaggingBookMsg client.loginUser sent) after.link
  loginUser : after.loginUser = client.loginUser
  books : after.books = client.books ∨
    after.books = client.books.clidbBookInsertAt written position ∧
      after.link.server =
        client.link.server.step (clientShelfTaggingBookMsg client.loginUser sent) ∧
      (srvdbBookUpdate (clientShelfTaggingBookMsg client.loginUser sent)
        client.link.server.db).1 = true

/-- One deletion has been sent or not; if it is known to have succeeded, the entry is marked. -/
structure Deletes (book : BookEntry) (position : Nat) (client after : Client) : Prop where
  prompt : after.link.Prompt
  sends : client.link.Sends (clientShelfDeleteBookMsg client.loginUser book) after.link
  loginUser : after.loginUser = client.loginUser
  books : after.books = client.books ∨ after.books = client.books.clidbBookDelete position

variable {client : Client} (prompt : client.link.Prompt)

include prompt

theorem update_updates {sent book : BookEntry} (written : MessageCs → BookEntry) (position : Nat)
    (writes : ∀ reply, reply.stuff = (clientShelfTaggingBookMsg client.loginUser sent).stuff →
      written reply = book) :
    Updates sent book position client
      (update (clientShelfTaggingBookMsg client.loginUser sent) written position client).2 := by
  rcases Client.findFromServer_update prompt
    (rfl : (clientShelfTaggingBookMsg client.loginUser sent).request = .updateBook) with
    ⟨result, reply, link, found, still, sends, outcome⟩
  rw [update, found]
  dsimp only
  by_cases one : result = 1
  · rcases outcome one with ⟨stuff, accepted, server⟩
    rw [if_pos one]
    refine ⟨still, sends, rfl, .inr ⟨?_, server, accepted⟩⟩
    rw [← writes reply stuff]
    rfl
  · rw [if_neg one]
    exact ⟨still, sends, rfl, .inl rfl⟩

theorem clientShelfDeleteBook_deletes (book : BookEntry) (position : Nat) :
    Deletes book position client (clientShelfDeleteBook book position client).2 := by
  rcases Client.findFromServer_single prompt
    (rfl : (clientShelfDeleteBookMsg client.loginUser book).request.isSingle = true) with
    ⟨result, reply, link, found, still, sends, _⟩
  rw [clientShelfDeleteBook, found]
  dsimp only
  split
  · exact ⟨still, sends, rfl, .inr rfl⟩
  · exact ⟨still, sends, rfl, .inl rfl⟩

/-- What an action can do: nothing, one deletion, or one update. -/
theorem act_cases (action : BookAction) (bcollect : Bool) (localShelfno : Int) (book : BookEntry)
    (position : Nat) :
    (act action bcollect localShelfno book position client).2 = client ∨
    (bcollect = false ∧ action = .delete ∧
      Deletes book position client (act action bcollect localShelfno book position client).2) ∨
    ∃ sent written, BookAction.stores localShelfno book bcollect action = some (sent, written) ∧
      Updates sent written position client
        (act action bcollect localShelfno book position client).2 := by
  rcases act_request action bcollect localShelfno book position client with
    ⟨idle, _⟩ | ⟨browsing, deletes, _, acted⟩ | ⟨sent, written, leaves, stored, left, acted⟩
  · exact .inl idle
  · rw [acted]
    exact .inr (.inl ⟨browsing, deletes, clientShelfDeleteBook_deletes prompt book position⟩)
  · rw [acted]
    refine .inr (.inr ⟨sent, written, stored, update_updates prompt leaves position ?_⟩)
    intro reply stuff
    rcases left reply with same | ⟨same, echoed⟩
    · exact same
    · rw [echoed, stuff, same]
      rfl

omit prompt in
theorem reads_of_reset {msg : MessageCs} {gui : Ncgui} {after : Client} (shelfno : Int)
    (collectMode : Bool) (search : Option (Char × BookEntry))
    (reads : (gui.resetOnChange shelfno collectMode search).client.Reads msg after) :
    gui.client.Reads msg after := by
  have kept : ∀ position, gui.client.books.clidbBookReset.bookDbmPos ≤ position :=
    fun position => Nat.zero_le position
  rcases search with _ | ⟨mark, entry⟩
  · rw [resetOnChange] at reads
    split at reads
    · exact reads.withBooks rfl (kept _) rfl rfl
    · exact reads
  · rw [resetOnChange] at reads
    split at reads
    · exact reads.withBooks rfl (kept _) rfl rfl
    · exact reads

omit prompt in
theorem resetOnChange_link (shelfno : Int) (collectMode : Bool)
    (search : Option (Char × BookEntry)) (gui : Ncgui) :
    (gui.resetOnChange shelfno collectMode search).client.link = gui.client.link := by
  rcases search with _ | ⟨mark, entry⟩
  · rw [resetOnChange]
    split <;> rfl
  · rw [resetOnChange]
    split <;> rfl

end Ncgui

/-! ## Inputs of the page -/

namespace Ncgui

/-- The shelf that a visit loads from. -/
def modeShelf (gui : Ncgui) : Int := if gui.bcollect then nonSenseInt else gui.localShelfno

theorem display_client {collectMode : Bool} {search : Option (Char × BookEntry)}
    (supported : ¬(collectMode = true ∧ search.isSome = true)) (shelfno : Int) (stale : BookEntry)
    (gui : Ncgui) :
    (gui.display shelfno collectMode search stale).client =
      ((gui.resetOnChange shelfno collectMode search).client.nextPageBookinfo
        (search.map Prod.snd) (gui.resetOnChange shelfno collectMode search).modeShelf
        (gui.resetOnChange shelfno collectMode search).localBookno stale.bookno).2.2 := by
  rw [display, if_neg supported]
  generalize gui.resetOnChange shelfno collectMode search = fresh
  rw [modeShelf]
  dsimp only
  split <;> rfl

/-- The entry that a key finds under the slider, as it is displayed. -/
def acted (gui : Ncgui) (page : BookPage) : BookEntry :=
  showBookInfo (gui.peeked (gui.curDbmPos page) page.localBook)

variable {gui : Ncgui} (prompt : gui.client.link.Prompt)

include prompt

theorem display_reads (shelfno : Int) (collectMode : Bool) (search : Option (Char × BookEntry))
    (stale : BookEntry) (supported : ¬(collectMode = true ∧ search.isSome = true)) :
    let fresh := gui.resetOnChange shelfno collectMode search
    fresh.client.Reads (Client.loadMsg fresh.client.loginUser (search.map Prod.snd) fresh.modeShelf
      fresh.localBookno) (gui.display shelfno collectMode search stale).client := by
  intro fresh
  have still : fresh.client.link.Prompt := by
    rw [resetOnChange_link]
    exact prompt
  rw [display_client supported]
  exact Client.nextPageBookinfo_reads still _ _ _ _

theorem pageRight_reads (stale : Int) (page : BookPage) :
    gui.client.Reads (Client.loadMsg gui.client.loginUser page.search page.modeShelfno gui.localBookno)
      (gui.pageRight stale page).client := by
  have reads := Client.nextPageBookinfo_reads prompt page.search page.modeShelfno gui.localBookno
    stale
  rw [pageRight]
  split
  · exact .quiet prompt rfl (Nat.le_refl _)
  · dsimp only
    split
    · exact reads
    · exact reads
    · exact ⟨reads.prompt, reads.sends, reads.loginUser, reads.entries⟩

omit prompt in
/-- The inputs of the page. A visit with a search ends with the two counts. -/
def Input.ofPage : Input → Bool
  | .call (.booksCountSync _) => true
  | .call (.shelvesCountSync _ _) => true
  | .call _ => false
  | _ => true

/-- An input of the page that is no action reads. -/
theorem step_reads (fuel : Nat) {input : Input} (ofPage : input.ofPage = true)
    (passive : ∀ action, input ≠ .key (.action action)) :
    ∃ msg, msg.archiveRequest = none ∧ gui.client.Reads msg (gui.step fuel input).client := by
  have quiet : ∀ books : BookCache, books.bookData = gui.client.books.bookData →
      books.bookDbmPos ≤ gui.client.books.bookDbmPos → ∃ msg : MessageCs,
        msg.archiveRequest = none ∧ gui.client.Reads msg (gui.client.withBooks books) :=
    fun books data dbmPos => ⟨{ MessageCs.zeroed with request := .findBook }, rfl,
      .quiet prompt data dbmPos⟩
  have idle := quiet gui.client.books rfl (Nat.le_refl _)
  have counts : ∀ {msg : MessageCs} {link : Link}, link.Prompt → gui.client.link.Sends msg link →
      gui.client.Reads msg { gui.client with link := link } := by
    intro msg link still sends
    exact ⟨still, sends, rfl, fun _ _ stored => .inl ⟨stored, id⟩⟩
  cases input with
  | display shelfno collectMode search stale =>
      rw [step]
      split
      · by_cases refused : collectMode = true ∧ search.isSome = true
        · rw [display, if_pos refused]
          exact idle
        · exact ⟨_, Client.loadMsg_reads _ _ _ _, reads_of_reset shelfno collectMode search
            (display_reads prompt shelfno collectMode search stale refused)⟩
      · exact idle
  | call call =>
      cases call with
      | booksCountSync stale =>
          rcases Client.clientBooksCountSync_prompt prompt stale with ⟨link, after, still, sends⟩
          rw [step, withClient, ClientCall.perform, after]
          exact ⟨_, rfl, counts still sends⟩
      | shelvesCountSync stale shelvesAll =>
          rcases Client.clientShelvesCountSync_prompt prompt stale shelvesAll with
            ⟨link, after, still, sends⟩
          rw [step, withClient, ClientCall.perform, after]
          exact ⟨_, rfl, counts still sends⟩
      | _ => cases ofPage
  | newBook => exact idle
  | key key =>
      rw [step, press]
      split
      · exact idle
      · cases key with
        | backspace => exact quiet _ rfl (Nat.le_refl _)
        | up => exact idle
        | down => exact idle
        | left => exact quiet _ rfl (Nat.le_refl _)
        | right stale =>
            exact ⟨_, Client.loadMsg_reads _ _ _ _, pageRight_reads prompt stale _⟩
        | action action => exact absurd rfl (passive action)

omit prompt in
/-- An action is carried out on the entry under the slider. -/
theorem step_action (fuel : Nat) (action : BookAction) :
    (gui.step fuel (.key (.action action))).client = gui.client ∨
    ∃ page, gui.shown = some page ∧ (gui.step fuel (.key (.action action))).client =
      (act action gui.bcollect gui.localShelfno (gui.acted page) (gui.curDbmPos page)
        gui.client).2 := by
  rw [step, press]
  cases shown : gui.shown with
  | none => exact .inl rfl
  | some page => exact .inr ⟨page, rfl, rfl⟩

end Ncgui

end Bookshelfdq
