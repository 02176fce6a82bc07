import Bookshelfdq.Client.Clishell
import Bookshelfdq.Foundation.Window
import Bookshelfdq.Server.Replies
import Bookshelfdq.Server.ShelfIntegrity

/-! # Leafing through a listing

The client asks for the books after the last one it has, until none comes. Over a
healthy connection this brings every matching book into its cache once, in the
order of their numbers, and as many as a count request reports. -/

namespace Bookshelfdq

/-! ## The cache -/

namespace BookCache

theorem stored_clidbBookInsert (book : BookEntry) (cache : BookCache) :
    (cache.clidbBookInsert book).stored = cache.stored ++ [some book] := by
  have earlier : (List.range cache.bookDbmPos).map
      (Function.update cache.bookData cache.bookDbmPos (some book)) =
        (List.range cache.bookDbmPos).map cache.bookData := by
    apply List.map_congr_left
    intro position member
    have below := List.mem_range.mp member
    exact Function.update_of_ne (by omega) _ _
  simp [stored, clidbBookInsert, clidbBookInsertAt, List.range_succ, earlier]

theorem stored_appendBooks (books : List BookEntry) (cache : BookCache) :
    (cache.appendBooks books).stored = cache.stored ++ books.map some := by
  induction books generalizing cache with
  | nil => simp [appendBooks]
  | cons book books induction =>
      have rest := induction (cache.clidbBookInsert book)
      rw [stored_clidbBookInsert] at rest
      simpa [appendBooks] using rest

/-- The number of the book received last. -/
def lastBookno (cache : BookCache) : Int :=
  ((cache.clidbBookPeek (cache.bookDbmPos - 1)).map BookEntry.bookno).getD nonSenseInt

theorem lastBookno_clidbBookInsert (book : BookEntry) (cache : BookCache) :
    (cache.clidbBookInsert book).lastBookno = book.bookno := by
  simp [lastBookno, clidbBookPeek, clidbBookInsert, clidbBookInsertAt]

theorem lastBookno_appendBooks (books : List BookEntry) (last : BookEntry) (cache : BookCache) :
    (cache.appendBooks (books ++ [last])).lastBookno = last.bookno := by
  simp [appendBooks, List.foldl_append, lastBookno_clidbBookInsert]

end BookCache

/-! ## A healthy connection -/

/-- Nothing is under way and nothing will fail or come late. -/
structure Client.Calm (client : Client) : Prop where
  inbox : client.link.inbox = []
  others : client.link.others = []
  sendFails : client.link.sendFails = []
  delays : client.link.delays = []
  sendFaults : client.link.server.sendFaults = []
  faults : client.link.server.db.faults = []
  numbered : client.link.server.db.archive.WellNumbered

theorem Client.Calm.inbox_posted {client : Client} (calm : client.Calm) (msg : MessageCs) :
    (client.posted msg).link.inbox =
      (client.link.server.replies msg).map fun reply => (client.link.sent, reply) := by
  simp [posted, Link.posted, Link.reached_of_others calm.others, calm.inbox]

/-! ## One page -/

/-- The last message of a listing that starts with `msg`. -/
def lastRow (msg : MessageCs) (rows : List BookRow) : MessageCs :=
  rows.foldl (fun msg row => (msg.setBook row.entry).respond .success) msg

/-- What the receive loop makes of the replies to a find. -/
theorem Client.findLoop_rowReplies (flagNotCached : Bool) {closing : ServerResponse}
    (ending : closing = .findEnd ∨ closing = .findEndMore) (rows : List BookRow)
    (fuel nfinds : Nat) (enough : rows.length < fuel) (start msg : MessageCs)
    (kind : msg.request = .findBook) (number : Nat) (client : Client)
    (delays : client.link.delays = [])
    (inbox : client.link.inbox = (rowReplies fillBook closing (rows.map .book) msg).map
      fun reply => (number, reply)) :
    ∃ consumed, client.findLoop flagNotCached fuel nfinds start =
      (if closing = .findEnd ∧ nfinds = 0 ∧ rows = [] then -1 else 1,
        (lastRow msg rows).respond closing,
        { client with
          link := { client.link with inbox := [], consumed := consumed }
          books := if flagNotCached then client.books
            else client.books.appendBooks (rows.map BookRow.entry) }) := by
  rcases client with ⟨⟨server, others, sendFails, delayed, waiting, sent, exchanges, consumed⟩,
    books, shelves, loginUser⟩
  dsimp only at delays inbox
  subst delays inbox
  induction rows generalizing fuel nfinds start msg consumed books with
  | nil =>
      cases fuel with
      | zero => cases enough
      | succ fuel =>
          refine ⟨consumed ++ [number], ?_⟩
          rcases ending with rfl | rfl
          · simp [findLoop, receive, Link.socketClientGetResponse, rowReplies, lastRow,
              BookCache.appendBooks]
          · simp [findLoop, receive, Link.socketClientGetResponse, rowReplies, lastRow,
              BookCache.appendBooks]
  | cons row rows induction =>
      cases fuel with
      | zero => cases enough
      | succ fuel =>
          have kept : ((msg.setBook row.entry).respond .success).request =
              .findBook := kind
          rcases induction fuel (nfinds + 1) (by simpa using enough)
            ((msg.setBook row.entry).respond .success)
            ((msg.setBook row.entry).respond .success) kept
            (if flagNotCached then books else books.clidbBookInsert row.entry)
            (consumed ++ [number]) with ⟨later, result⟩
          refine ⟨later, ?_⟩
          cases flagNotCached with
          | true =>
              simpa [findLoop, receive, Link.socketClientGetResponse, rowReplies, lastRow, fillBook,
                cacheBook, kind] using result
          | false =>
              simpa [findLoop, receive, Link.socketClientGetResponse, rowReplies, lastRow, fillBook,
                cacheBook, BookCache.appendBooks, kind] using result

/-! ## Listings

A listing is what the client leafs through: the books of one shelf, the unsorted
books (shelf `NON_SENSE_INT`), or the results of a search. -/

inductive Listing
  | shelf (shelfno : Int)
  | search (searchEntry : BookEntry)

namespace Listing

def message (loginUser : String) : Listing → Int → MessageCs
  | shelf shelfno, bookno => clientShelfLoadingBookMsg loginUser shelfno bookno
  | search searchEntry, bookno => clientSearchingBookMsg loginUser bookno searchEntry

/-- The condition on rows of this listing's requests, if the server accepts them. -/
def condition (listing : Listing) (collation : Char → Char → Bool) : Option (BookRow → Bool) :=
  bookWhere collation (listing.message "" nonSenseInt).stuff.book

/-- The rows of the table that belong to the listing, in the table's order. -/
def matching (selected : BookRow → Bool) (archive : Archive) : List BookRow :=
  archive.books.filter selected

theorem message_request (listing : Listing) (loginUser : String) (bookno : Int) :
    (listing.message loginUser bookno).request = .findBook := by
  cases listing <;> rfl

theorem message_user (listing : Listing) (loginUser : String) (bookno : Int) :
    (listing.message loginUser bookno).user = loginUser := by
  cases listing <;> rfl

theorem message_bookno (listing : Listing) (loginUser : String) (bookno : Int) :
    (listing.message loginUser bookno).stuff.book.bookno = bookno := by
  cases listing <;> rfl

theorem bookWhere_message (listing : Listing) (collation : Char → Char → Bool)
    (loginUser : String) (bookno : Int) :
    bookWhere collation (listing.message loginUser bookno).stuff.book =
      listing.condition collation := by
  cases listing <;> rfl

end Listing

section Selection

variable {listing : Listing} (loginUser : String) {collation : Char → Char → Bool}
  {selected : BookRow → Bool} (accepted : listing.condition collation = some selected)

include accepted

theorem selectBooks_page {archive : Archive} (numbered : archive.WellNumbered) {start : Int}
    (nonneg : 0 ≤ start) (below : start ≠ breakLimitInt) :
    selectBooks collation (listing.message loginUser start).stuff.book archive.books =
      some ((Window.page BookRow.bookno defaultFinds start
        (Listing.matching selected archive)).map .book) := by
  have number := listing.message_bookno loginUser start
  have listed : pointsAtBook (listing.message loginUser start).stuff.book = false :=
    pointsAtBook_of_nonneg (number.symm ▸ nonneg)
  have condition := (listing.bookWhere_message collation loginUser start).trans accepted
  have rows : archive.books.filter (fun row => selected row && decide (row.bookno > start)) =
      Window.above BookRow.bookno start (Listing.matching selected archive) := by
    rw [Window.above, Listing.matching, List.filter_filter]
    apply List.filter_congr
    intro row _
    exact Bool.and_comm _ _
  have ordered := Window.above_pairwise start (numbered.ordered selected)
  simp only [selectBooks, listed, condition, number, below, Option.map_some, Bool.false_eq_true,
    if_false, rows]
  rw [Listing.matching, Table.orderBy_of_pairwise ordered, Window.page]

theorem selectBooks_count {archive : Archive} (numbered : archive.WellNumbered) :
    selectBooks collation (listing.message loginUser breakLimitInt).stuff.book archive.books =
      some ((Listing.matching selected archive).map fun row => .bookno row.bookno) := by
  have number := listing.message_bookno loginUser breakLimitInt
  have listed : pointsAtBook (listing.message loginUser breakLimitInt).stuff.book = false :=
    pointsAtBook_of_nonneg (number.symm ▸ by decide)
  have condition := (listing.bookWhere_message collation loginUser breakLimitInt).trans accepted
  have rows : archive.books.filter (fun row => selected row && decide (row.bookno > nonSenseInt)) =
      Listing.matching selected archive := by
    apply List.filter_congr
    intro row member
    have positive : row.bookno > nonSenseInt := (numbered.bookno_bounds member).1
    simp [positive]
  have few : (Listing.matching selected archive).length ≤ maxBookNum := by
    rcases numbered with ⟨⟨count, bound, numbered⟩, _⟩
    have whole := numbered.length
    have part := List.length_filter_le selected archive.books
    rw [Listing.matching]
    omega
  simp only [selectBooks, listed, condition, number, Option.map_some, Bool.false_eq_true,
    if_false, if_true, rows]
  have ordered : (Listing.matching selected archive).Pairwise fun left right =>
      left.bookno < right.bookno := numbered.ordered selected
  rw [Table.orderBy_of_pairwise ordered, List.take_of_length_le few]

end Selection

/-! ## One request -/

namespace Client

/-- What a listing request leaves in place. -/
structure Continued (before after : Client) : Prop where
  calm : after.Calm
  archive : after.link.server.db.archive = before.link.server.db.archive
  collation : after.link.server.db.collation = before.link.server.db.collation
  loginUser : after.loginUser = before.loginUser

theorem Calm.finds {client : Client} (calm : client.Calm) {listing : Listing}
    (named : client.loginUser ≠ "") {start : Int} {rows : List ResultRow}
    (selects : selectBooks client.link.server.db.collation
      (listing.message client.loginUser start).stuff.book
      client.link.server.db.archive.books = some rows) :
    FindsBooks (listing.message client.loginUser start) client.link.server.db rows := by
  refine ⟨?_, selects, ?_⟩
  · rw [listing.message_user]
    exact named
  · rw [calm.faults]
    rfl

/-- The replies to a request that writes nothing have been read. -/
theorem Calm.posted {client : Client} (calm : client.Calm) {msg : MessageCs}
    (readsOnly : msg.archiveRequest = none) (books : BookCache) (consumed : List Nat) :
    client.Continued { client.posted msg with
      link := { (client.posted msg).link with inbox := [], consumed := consumed }
      books := books } := by
  have same := Link.reached_of_others calm.others
  have reads : client.link.server.db.Reads (client.link.reached.step msg).db := by
    rw [same]
    exact Server.step_reads readsOnly
  have reliable : (client.link.reached.step msg).sendFaults = [] := by
    rw [same]
    exact Server.step_sendFaults msg calm.sendFaults
  have others : client.link.others.tail = [] := by rw [calm.others, List.tail_nil]
  refine ⟨⟨rfl, others, calm.sendFails, calm.delays, reliable, reads.faults calm.faults, ?_⟩,
    reads.archive, reads.collation, rfl⟩
  exact reads.archive.symm ▸ calm.numbered

theorem closingResponse_ending (nrows : Nat) :
    closingResponse nrows = .findEnd ∨ closingResponse nrows = .findEndMore := by
  rw [closingResponse]
  split
  · exact .inr rfl
  · exact .inl rfl

section Request

variable {client : Client} (calm : client.Calm) (named : client.loginUser ≠ "")
  {listing : Listing} {selected : BookRow → Bool}
  (accepted : listing.condition client.link.server.db.collation = some selected)

include calm named accepted

/-- One request for a page, from the client's side. -/
theorem findFromServer_page {start : Int} (nonneg : 0 ≤ start) (below : start ≠ breakLimitInt) :
    ∃ msg after, client.findFromServer (listing.message client.loginUser start) =
        (if Window.page BookRow.bookno defaultFinds start
            (Listing.matching selected client.link.server.db.archive) = [] then -1 else 1,
          msg, after) ∧
      client.Continued after ∧
      after.books = client.books.appendBooks ((Window.page BookRow.bookno defaultFinds start
        (Listing.matching selected client.link.server.db.archive)).map BookRow.entry) := by
  have kind := listing.message_request client.loginUser start
  have number := listing.message_bookno client.loginUser start
  have limit : (listing.message client.loginUser start).stuff.book.bookno ≠ breakLimitInt :=
    number.symm ▸ below
  have selects := selectBooks_page client.loginUser accepted calm.numbered nonneg below
  have finds := calm.finds named selects
  have replies := Server.replies_findBook calm.sendFaults kind finds limit
  rw [calm.faults, List.tail_nil, List.tail_nil, beforeFault_nil, List.length_map] at replies
  generalize Window.page BookRow.bookno defaultFinds start
    (Listing.matching selected client.link.server.db.archive) = rows at replies ⊢
  have flag : ((listing.message client.loginUser start).request == .findBook &&
      (listing.message client.loginUser start).stuff.book.bookno == breakLimitInt) = false := by
    simp [limit]
  have opened : ((listing.message client.loginUser start).opened.setExtra rows.length).request =
      .findBook := kind
  have inbox : (client.posted (listing.message client.loginUser start)).link.inbox =
      (rowReplies fillBook (closingResponse rows.length) (rows.map .book)
        ((listing.message client.loginUser start).opened.setExtra rows.length)).map
          fun reply => (client.link.sent, reply) := by
    rw [← replies]
    exact calm.inbox_posted _
  have enough : rows.length <
      (client.posted (listing.message client.loginUser start)).link.inbox.length + 1 := by
    rw [inbox, List.length_map, length_rowReplies, List.length_map]
    omega
  rcases findLoop_rowReplies false (closingResponse_ending rows.length) rows _ 0 enough
    (listing.message client.loginUser start) _ opened client.link.sent
    (client.posted (listing.message client.loginUser start)) calm.delays inbox with
    ⟨consumed, result⟩
  have readsOnly : (listing.message client.loginUser start).archiveRequest = none := by
    simp [MessageCs.archiveRequest, kind]
  have equation : client.findFromServer (listing.message client.loginUser start) =
      (if rows = [] then -1 else 1,
        (lastRow ((listing.message client.loginUser start).opened.setExtra rows.length)
          rows).respond (closingResponse rows.length),
        { client.posted (listing.message client.loginUser start) with
          link := { (client.posted (listing.message client.loginUser start)).link with
            inbox := [], consumed := consumed }
          books := client.books.appendBooks (rows.map BookRow.entry) }) := by
    rw [findFromServer, flag, send_of_sendFails calm.sendFails]
    dsimp only
    rw [result]
    cases rows with
    | nil => simp [closingResponse, posted]
    | cons row rows => simp [posted]
  exact ⟨_, _, equation, calm.posted readsOnly _ consumed, rfl⟩

/-- One request for the number of books, from the client's side. -/
theorem findFromServer_count :
    (client.findFromServer
        (listing.message client.loginUser breakLimitInt)).2.1.extraInfo.getD 0 0 =
      (Listing.matching selected client.link.server.db.archive).length := by
  have kind := listing.message_request client.loginUser breakLimitInt
  have number := listing.message_bookno client.loginUser breakLimitInt
  have selects := selectBooks_count client.loginUser accepted calm.numbered
  have finds := calm.finds named selects
  have replies := Server.replies_countingBooks calm.sendFaults kind finds number
  rw [List.length_map] at replies
  rw [findFromServer, send_of_sendFails calm.sendFails]
  have inbox := calm.inbox_posted (listing.message client.loginUser breakLimitInt)
  have delays : (client.posted (listing.message client.loginUser breakLimitInt)).link.delays =
      [] := calm.delays
  rw [replies] at inbox
  simp only [inbox, delays, List.map_cons, List.map_nil, findLoop, receive,
    Link.socketClientGetResponse, List.headD_nil, Bool.false_eq_true, if_false,
    MessageCs.respond_response, MessageCs.respond_extraInfo]
  cases listing <;> rfl

end Request

/-! ## The whole listing -/

/-- Repeat the request with the number of the last book received until nothing is
received. `fuel` bounds the number of requests. -/
def leafing (listing : Listing) : Nat → Int → Client → Option Client
  | 0, _, _ => none
  | fuel + 1, start, client =>
      match client.findFromServer (listing.message client.loginUser start) with
      | (result, _, client) =>
          if result = -1 then some client
          else leafing listing fuel client.books.lastBookno client

theorem lastBookno_page {rows : List BookRow} (nonempty : rows ≠ []) (start : Int)
    (cache : BookCache) :
    (cache.appendBooks (rows.map BookRow.entry)).lastBookno =
      Window.lastKey BookRow.bookno start rows := by
  rcases List.eq_nil_or_concat rows with empty | ⟨front, last, concat⟩
  · exact absurd empty nonempty
  · rw [List.concat_eq_append] at concat
    subst concat
    rw [List.map_append, List.map_singleton, BookCache.lastBookno_appendBooks]
    simp [Window.lastKey, BookRow.entry]

theorem lastKey_page_bounds {archive : Archive} (numbered : archive.WellNumbered)
    {selected : BookRow → Bool} {start : Int}
    (nonempty : Window.page BookRow.bookno defaultFinds start
      (Listing.matching selected archive) ≠ []) :
    0 ≤ Window.lastKey BookRow.bookno start (Window.page BookRow.bookno defaultFinds start
        (Listing.matching selected archive)) ∧
      Window.lastKey BookRow.bookno start (Window.page BookRow.bookno defaultFinds start
        (Listing.matching selected archive)) ≠ breakLimitInt := by
  rcases List.eq_nil_or_concat (Window.page BookRow.bookno defaultFinds start
    (Listing.matching selected archive)) with empty | ⟨front, last, concat⟩
  · exact absurd empty nonempty
  · have member : last ∈ archive.books := by
      have inPage : last ∈ Window.page BookRow.bookno defaultFinds start
          (Listing.matching selected archive) := by simp [concat]
      have above := List.mem_of_mem_take inPage
      exact (List.mem_filter.mp (List.mem_filter.mp above).1).1
    have bounds := numbered.bookno_bounds member
    rw [concat]
    simp only [Window.lastKey, List.concat_eq_append, List.getLast?_append, List.getLast?_singleton,
      Option.some_or, Option.map_some, Option.getD_some]
    omega

theorem leafing_of_calm {client : Client} (calm : client.Calm) (named : client.loginUser ≠ "")
    {listing : Listing} {selected : BookRow → Bool}
    (accepted : listing.condition client.link.server.db.collation = some selected)
    (fuel : Nat) (start : Int) (nonneg : 0 ≤ start) (below : start ≠ breakLimitInt)
    (enough : (Window.above BookRow.bookno start
      (Listing.matching selected client.link.server.db.archive)).length < fuel) :
    ∃ after, client.leafing listing fuel start = some after ∧
      client.Continued after ∧
      after.books.stored = client.books.stored ++
        (Window.above BookRow.bookno start
          (Listing.matching selected client.link.server.db.archive)).map
            fun row => some row.entry := by
  induction fuel generalizing client start with
  | zero => omega
  | succ fuel induction =>
      have ordered : (Listing.matching selected client.link.server.db.archive).Pairwise
          fun left right => left.bookno < right.bookno := calm.numbered.ordered selected
      rcases findFromServer_page calm named accepted nonneg below with
        ⟨msg, after, result, continued, books⟩
      rw [leafing, result]
      by_cases ended : Window.page BookRow.bookno defaultFinds start
          (Listing.matching selected client.link.server.db.archive) = []
      · have nothing := (Window.page_eq_nil_iff (by decide)).mp ended
        refine ⟨after, by simp [ended], continued, ?_⟩
        rw [books, ended, nothing]
        simp [BookCache.appendBooks]
      · have next := lastBookno_page ended start client.books
        rw [← books] at next
        have bounds := lastKey_page_bounds calm.numbered ended
        have shorter := Window.length_above_lastKey ordered ended
        rcases induction continued.calm (continued.loginUser ▸ named)
          (continued.collation ▸ accepted) _ bounds.1 bounds.2
          (by rw [continued.archive]; omega) with
          ⟨final, leafed, later, stored⟩
        refine ⟨final, ?_, ?_, ?_⟩
        · rw [if_neg ended]
          simpa [next] using leafed
        · exact ⟨later.calm, later.archive.trans continued.archive,
            later.collation.trans continued.collation,
            later.loginUser.trans continued.loginUser⟩
        · rw [stored, books, BookCache.stored_appendBooks, continued.archive, List.append_assoc]
          rw [← Window.page_append_above ordered ended]
          simp

theorem run_fresh_wellNumbered (mode : SqlMode) (collation : Char → Char → Bool)
    (accounts : List AccountRow) (bcrypt : Bcrypt) (salts : List (Option String))
    (history : List MessageCs) :
    (Execution.run Server.step (Server.fresh mode collation accounts bcrypt salts [])
        history).db.archive.WellNumbered ∧
      (Execution.run Server.step (Server.fresh mode collation accounts bcrypt salts [])
        history).db.faults = [] ∧
      (Execution.run Server.step (Server.fresh mode collation accounts bcrypt salts [])
        history).db.collation = collation ∧
      (Execution.run Server.step (Server.fresh mode collation accounts bcrypt salts [])
        history).sendFaults = [] := by
  have preserved : ∀ (server : Server) request,
      server.db.archive.WellNumbered ∧ server.db.faults = [] ∧
          server.db.collation = collation ∧ server.sendFaults = [] →
        (server.step request).db.archive.WellNumbered ∧ (server.step request).db.faults = [] ∧
          (server.step request).db.collation = collation ∧
          (server.step request).sendFaults = [] := by
    intro server request invariant
    rcases invariant with ⟨numbered, healthy, same, reliable⟩
    have continues := server.step_continues request
    exact ⟨server.step_wellNumbered request numbered, continues.faults healthy,
      continues.collation.trans same, Server.step_sendFaults request reliable⟩
  exact Execution.run_invariant preserved
    ⟨Archive.wellNumbered_empty, rfl, rfl, rfl⟩ history

/-- On every table the server can reach, leafing through a listing that the server
accepts comes to an end with every matching row appended to the cache, once and in
the order of the numbers; and a count request reports how many there are. -/
theorem leafing_complete (mode : SqlMode) (collation : Char → Char → Bool)
    (accounts : List AccountRow) (bcrypt : Bcrypt) (salts : List (Option String))
    (history : List MessageCs) (books : BookCache) (shelves : ShelfCache) (loginUser : String)
    (named : loginUser ≠ "") (listing : Listing) (selected : BookRow → Bool)
    (accepted : listing.condition collation = some selected) :
    let server := Execution.run Server.step
      (Server.fresh mode collation accounts bcrypt salts []) history
    let client := connected server books shelves loginUser
    let rows := Listing.matching selected server.db.archive
    (∃ rounds, ∀ fuel ≥ rounds, ∃ after,
        client.leafing listing fuel nonSenseInt = some after ∧
        after.books.stored = books.stored ++ rows.map fun row => some row.entry) ∧
      (rows.Pairwise fun left right => left.bookno < right.bookno) ∧
      (client.findFromServer (listing.message loginUser breakLimitInt)).2.1.extraInfo.getD 0 0 =
        rows.length := by
  intro server client rows
  rcases run_fresh_wellNumbered mode collation accounts bcrypt salts history with
    ⟨numbered, healthy, same, reliable⟩
  have calm : client.Calm := ⟨rfl, rfl, rfl, rfl, reliable, healthy, numbered⟩
  have accepted : listing.condition client.link.server.db.collation = some selected :=
    same.symm ▸ accepted
  have all : Window.above BookRow.bookno nonSenseInt rows = rows := by
    apply List.filter_eq_self.mpr
    intro row member
    have positive := (numbered.bookno_bounds (List.mem_filter.mp member).1).1
    exact decide_eq_true positive
  refine ⟨⟨rows.length + 1, ?_⟩, numbered.ordered selected,
    findFromServer_count calm named accepted⟩
  intro fuel enough
  rcases leafing_of_calm calm named accepted fuel nonSenseInt (by decide) (by decide)
    (by change (Window.above BookRow.bookno nonSenseInt rows).length < fuel
        rw [all]
        omega) with ⟨after, leafed, _, stored⟩
  refine ⟨after, leafed, ?_⟩
  change after.books.stored = books.stored ++
    (Window.above BookRow.bookno nonSenseInt rows).map _ at stored
  rw [stored, all]

/-- A shelf with two books, listed and counted. -/
theorem leafing_sample_shelf :
    let server := Execution.run Server.step
      (Server.fresh .strict (fun left right => left == right) []
        ⟨fun _ _ => none, fun _ _ => -1⟩ [] [])
      [clientBuildShelfMsg "reader" Server.sampleTime Server.sampleShelf,
        clientShelfInsertBookMsg "reader" Server.sampleTime (Server.sampleBook 1),
        clientShelfInsertBookMsg "reader" Server.sampleTime (Server.sampleBook 1)]
    let client := connected server .empty .empty "reader"
    ∃ selected, Listing.condition (.shelf 1) (fun left right => left == right) = some selected ∧
      (Listing.matching selected server.db.archive).length = 2 ∧
      (∃ rounds, ∀ fuel ≥ rounds, ∃ after,
        client.leafing (.shelf 1) fuel nonSenseInt = some after ∧
        after.books.stored = BookCache.empty.stored ++
          (Listing.matching selected server.db.archive).map fun row => some row.entry) :=
  ⟨_, rfl, by decide, (leafing_complete _ _ _ _ _ _ _ _ _ (by decide) _ _ rfl).1⟩

end Client

end Bookshelfdq
