import Bookshelfdq.Server.Counting
import Bookshelfdq.Session.CalmCalls
import Bookshelfdq.Session.DeletedBooks

/-! # What the cache holds of a listing

The cache of a visit holds every book that the server lists up to the number asked for last. A page
brings the next books, and what is done to a book in the cache or to other shelves adds none. -/

namespace Bookshelfdq

/-! ## The listing of a shelf -/

theorem criterion_fuzzy : criterion "-" =
    some ⟨true, fun collation column => sqlContains collation column ""⟩ := rfl

theorem condition_shelf (collation : Char → Char → Bool) (shelfno : Int) :
    (Listing.shelf shelfno).condition collation = some (BookRow.listedFor shelfno) := by
  have plain : '0' ≠ flagFindUnsorted ∧ '0' ≠ flagBorrowed ∧ '0' ≠ flagOnReading := by decide
  rw [Listing.condition, Listing.message]
  by_cases unsorted : shelfno = nonSenseInt
  · have listed : BookRow.listedFor shelfno = fun row : BookRow =>
        row.cleaned == .unsorted && inScope shelfno row := by
      funext row
      simp [BookRow.listedFor, inScope, unsorted]
    rw [listed]
    simp [clientShelfLoadingBookMsg, bookWhere, unsorted]
  · have listed : BookRow.listedFor shelfno = fun row : BookRow =>
        inScope shelfno row && row.cleaned == .avl := by
      funext row
      simp [BookRow.listedFor, inScope, unsorted, Bool.and_comm]
    rw [listed]
    simp [clientShelfLoadingBookMsg, bookWhere, unsorted, plain, criterion_fuzzy, criteriaHold,
      sqlContains_empty]

theorem BookRow.not_listedFor_of_del {row : BookRow} (deleted : row.cleaned = .del)
    (shelfno : Int) : row.listedFor shelfno = false := by
  have other : (BookCleaned.del == .unsorted) = false ∧ (BookCleaned.del == .avl) = false := by
    decide
  rw [listedFor, deleted]
  split <;> simp [other]

/-! ## What a request adds to it -/

namespace Server

variable {server : Server} {shelfno : Int} {row : BookRow}

/-- A deletion lists nothing new. -/
theorem listed_of_delete {msg : MessageCs} (kind : msg.request = .deleteBook)
    (member : row ∈ (server.step msg).db.archive.books) (listed : row.listedFor shelfno = true) :
    row ∈ server.db.archive.books := by
  have written : msg.archiveRequest =
      some (.bookDelete { msg with response := .success, errorText := "" }) := by
    simp [MessageCs.archiveRequest, kind]
  rw [step_of_archiveRequest written, ArchiveRequest.perform] at member
  rcases srvdbBookDelete_cases { msg with response := .success, errorText := "" } server.db with
    ⟨after, result, archive⟩ | ⟨after, result, archive⟩
  · rw [result, archive] at member
    exact member
  · rw [result, archive] at member
    rcases List.mem_map.mp member with ⟨old, oldMem, same⟩
    split at same
    · have deleted : row.cleaned = .del := by rw [← same]; rfl
      rw [BookRow.not_listedFor_of_del deleted] at listed
      cases listed
    · exact same ▸ oldMem

/-- Unsorting the books of a shelf lists nothing new on any shelf. -/
theorem listed_of_unsorting {loginUser : String} {emptied : Int} (real : shelfno ≠ nonSenseInt)
    (positive : 0 < emptied)
    (member : row ∈ (server.step (clientShelfUnsortedBooksMsg loginUser emptied)).db.archive.books)
    (listed : row.listedFor shelfno = true) : row ∈ server.db.archive.books := by
  have whole : (clientShelfUnsortedBooksMsg loginUser emptied).stuff.book.namesShelf = true :=
    (BookEntry.namesShelf_iff _).mpr ⟨rfl, Int.ne_of_gt positive⟩
  have written : (clientShelfUnsortedBooksMsg loginUser emptied).archiveRequest =
      some (.bookUpdate (clientShelfUnsortedBooksMsg loginUser emptied)) := rfl
  rw [step_of_archiveRequest written, ArchiveRequest.perform] at member
  rcases srvdbBookUpdate_cases (clientShelfUnsortedBooksMsg loginUser emptied) server.db with
    ⟨after, result, archive⟩ | ⟨after, result, _, archive⟩ | ⟨_, _, _, single, _⟩
  · rw [result, archive] at member
    exact member
  · rw [result, archive] at member
    rcases List.mem_map.mp member with ⟨old, oldMem, same⟩
    split at same
    · have unsorted : row.cleaned = .unsorted := by rw [← same]; rfl
      have other : (BookCleaned.unsorted == .avl) = false := by decide
      rw [BookRow.listedFor, if_neg real, unsorted, other] at listed
      cases listed
    · exact same ▸ oldMem
  · rw [whole] at single
    cases single

/-- An update of one book can list that book only. -/
theorem listed_of_update {loginUser : String} {sent : BookEntry} (positive : 0 < sent.bookno)
    (member : row ∈ (server.step (clientShelfTaggingBookMsg loginUser sent)).db.archive.books) :
    row ∈ server.db.archive.books ∨ row.bookno = sent.bookno := by
  have single : sent.namesShelf = false := by
    have other : (sent.bookno == nonSenseInt) = false := beq_eq_false_iff_ne.mpr
      (Int.ne_of_gt positive)
    rw [BookEntry.namesShelf, other, Bool.false_and]
  rcases @step_update_cases server loginUser sent with archive | ⟨whole, _⟩ |
    ⟨books, _, updated, archive⟩
  · rw [archive] at member
    exact .inl member
  · rw [single] at whole
    cases whole
  · rw [archive] at member
    rcases Table.exists_source_of_mem updated member with ⟨old, oldMem, becomes⟩
    rw [Table.Becomes] at becomes
    split at becomes
    case isTrue chosen =>
      rw [beq_iff_eq] at chosen
      exact .inr ((BookEntry.row_eq_some becomes).1.trans chosen)
    case isFalse => exact .inl (Option.some.inj becomes ▸ oldMem)

/-- The requests for shelves leave the books alone. -/
theorem books_of_shelf {msg : MessageCs} (numbered : server.db.archive.WellNumbered)
    (kind : msg.request = .buildShelf ∨ msg.request = .removeShelf) :
    (server.step msg).db.archive.books = server.db.archive.books := by
  rcases kind with builds | removes
  · have written : msg.archiveRequest =
        some (.shelfBuild { msg with response := .success, errorText := "" }) := by
      simp [MessageCs.archiveRequest, builds]
    rw [step_of_archiveRequest written]
    exact srvdbShelfBuild_books _ _ numbered.2
  · exact step_removeShelf_books removes

/-- A book that is refused is not there. -/
theorem books_of_refused {msg : MessageCs} (numbered : server.db.archive.WellNumbered)
    (kind : msg.request = .insertBook) (refused : (srvdbBookInsert msg.opened server.db).1 = false) :
    (server.step msg).db.archive.books = server.db.archive.books := by
  have written : msg.archiveRequest = some (.bookInsert msg.opened) := by
    simp [MessageCs.archiveRequest, kind, MessageCs.opened]
  rw [step_of_archiveRequest written, ArchiveRequest.perform]
  rcases (bookAllocation server.db.mode msg.opened.stuff.book).allocate_cases msg.opened server.db
    (Allocation.WellNumbered.nodup numbered.1) with ⟨number, after, result, _⟩ | ⟨answer, after, result, same⟩
  · rw [srvdbBookInsert, result] at refused
    cases refused
  · rw [srvdbBookInsert, result]
    exact congrArg Archive.books same

end Server

/-! ## The numbers in the cache -/

namespace BookCache

/-- The numbers of the entries stored since the last reset. -/
def numbers (cache : BookCache) : List (Option Int) := cache.stored.map (Option.map BookEntry.bookno)

theorem length_numbers (cache : BookCache) : cache.numbers.length = cache.bookDbmPos := by
  rw [numbers, stored, List.length_map, List.length_map, List.length_range]

theorem getElem?_numbers {cache : BookCache} {position : Nat} (used : position < cache.bookDbmPos) :
    cache.numbers[position]? = some ((cache.bookData position).map BookEntry.bookno) := by
  rw [numbers, stored, List.getElem?_map, List.getElem?_map, List.getElem?_range used]
  rfl

theorem numbers_appendBooks (books : List BookEntry) (cache : BookCache) :
    (cache.appendBooks books).numbers =
      cache.numbers ++ books.map fun book => some book.bookno := by
  rw [numbers, stored_appendBooks, List.map_append, List.map_map]
  rfl

/-- Writing a book over an entry with its number changes no number. -/
theorem numbers_insertAt {cache : BookCache} {book : BookEntry} {position : Nat}
    (same : (cache.bookData position).map BookEntry.bookno = some book.bookno) :
    (cache.clidbBookInsertAt book position).numbers = cache.numbers := by
  rw [numbers, numbers, stored, stored, List.map_map, List.map_map]
  apply List.map_congr_left
  intro other _
  rw [Function.comp_apply, Function.comp_apply, clidbBookInsertAt_data]
  by_cases written : other = position
  · rw [written, Function.update_self, same]
    rfl
  · rw [Function.update_of_ne written]

theorem numbers_delete (cache : BookCache) (position : Nat) :
    (cache.clidbBookDelete position).numbers = cache.numbers := by
  rw [clidbBookDelete, clidbBookPeek]
  cases stored : cache.bookData position with
  | none => rfl
  | some book =>
      apply numbers_insertAt
      rw [stored]
      rfl

end BookCache

/-! ## Coverage -/

namespace Client

/-- Nothing is listed behind the number. -/
def Whole (listed : BookRow → Bool) (bookno : Int) (client : Client) : Prop :=
  ∀ row ∈ client.link.server.db.archive.books, listed row = true → row.bookno ≤ bookno

/-- The cache holds all that is listed up to the number. A page that is not full was the last. -/
structure Covers (listed : BookRow → Bool) (bookno : Int) (client : Client) : Prop where
  filled : client.books.Filled
  bounds : 0 ≤ bookno ∧ bookno ≠ breakLimitInt
  known : ∀ number, some number ∈ client.books.numbers → 0 < number ∧ number ≤ bookno
  rows : ∀ row ∈ client.link.server.db.archive.books, listed row = true → row.bookno ≤ bookno →
    some row.bookno ∈ client.books.numbers
  short : client.books.bookDbmPos % padHight ≠ 0 → client.Whole listed bookno

/-- Rows that come into the listing have their number in the cache. -/
def AddsCached (listed : BookRow → Bool) (client after : Client) : Prop :=
  ∀ row ∈ after.link.server.db.archive.books, listed row = true →
    row ∈ client.link.server.db.archive.books ∨ some row.bookno ∈ client.books.numbers

section Kept

variable {listed : BookRow → Bool} {bookno : Int} {client after : Client}
  (covers : client.Covers listed bookno) (adds : client.AddsCached listed after)

include covers adds

theorem Covers.whole (whole : client.Whole listed bookno) : after.Whole listed bookno := by
  intro row member chosen
  rcases adds row member chosen with old | cached
  · exact whole row old chosen
  · exact (covers.known _ cached).2

theorem Covers.kept (filled : after.books.Filled)
    (numbers : after.books.numbers = client.books.numbers) : after.Covers listed bookno := by
  refine ⟨filled, covers.bounds, ?_, ?_, ?_⟩
  · rw [numbers]
    exact covers.known
  · intro row member chosen early
    rw [numbers]
    rcases adds row member chosen with old | cached
    · exact covers.rows row old chosen early
    · exact cached
  · have same := congrArg List.length numbers
    rw [BookCache.length_numbers, BookCache.length_numbers] at same
    rw [same]
    exact fun unfinished => covers.whole adds (covers.short unfinished)

end Kept

/-! ## Pages -/

/-- The rows listed behind the number. -/
def rowsAhead (listed : BookRow → Bool) (bookno : Int) (client : Client) : List BookRow :=
  Window.above BookRow.bookno bookno
    (Listing.matching listed client.link.server.db.archive)

/-- The rows that a request for the next page brings. -/
def rowsNext (listed : BookRow → Bool) (bookno : Int) (client : Client) : List BookRow :=
  Window.page BookRow.bookno defaultFinds bookno
    (Listing.matching listed client.link.server.db.archive)

theorem whole_iff {listed : BookRow → Bool} {bookno : Int} {client : Client} :
    client.Whole listed bookno ↔ client.rowsAhead listed bookno = [] := by
  rw [rowsAhead, Window.above, Listing.matching, List.filter_filter, List.filter_eq_nil_iff]
  apply forall₂_congr
  intro row _
  rw [Bool.and_eq_true, decide_eq_true_iff]
  constructor
  · rintro early ⟨later, chosen⟩
    exact Int.not_lt.mpr (early chosen) later
  · intro none chosen
    exact Int.not_lt.mp fun later => none ⟨later, chosen⟩

section Page

variable {client : Client} (calm : client.Calm) {listed : BookRow → Bool} {bookno : Int}

theorem rowsNext_eq_nil_iff : client.rowsNext listed bookno = [] ↔ client.Whole listed bookno := by
  rw [whole_iff, rowsNext, rowsAhead, Window.page_eq_nil_iff (by decide)]

include calm

theorem length_rowsAhead (nonempty : client.rowsNext listed bookno ≠ []) :
    (client.rowsNext listed bookno).length +
        (client.rowsAhead listed
          (Window.lastKey BookRow.bookno bookno (client.rowsNext listed bookno))).length =
      (client.rowsAhead listed bookno).length := by
  have ordered : (Listing.matching listed client.link.server.db.archive).Pairwise fun left right =>
      left.bookno < right.bookno := calm.numbered.ordered listed
  have split := congrArg List.length (Window.page_append_above ordered nonempty)
  rw [List.length_append] at split
  exact split

/-- With the next page in the cache, it holds what is listed up to the last book of that page. -/
theorem Covers.nextPage {after : Client} (covers : client.Covers listed bookno)
    (full : client.books.bookDbmPos % padHight = 0)
    (nonempty : client.rowsNext listed bookno ≠ [])
    (archive : after.link.server.db.archive = client.link.server.db.archive)
    (filled : after.books.Filled)
    (numbers : after.books.numbers = client.books.numbers ++
      (client.rowsNext listed bookno).map fun row => some row.bookno) :
    after.Covers listed (Window.lastKey BookRow.bookno bookno (client.rowsNext listed bookno)) := by
  have ordered := calm.numbered.ordered listed
  have later : bookno ≤ Window.lastKey BookRow.bookno bookno (client.rowsNext listed bookno) :=
    Window.lastKey_page_ge
  refine ⟨filled, lastKey_page_bounds calm.numbered nonempty, ?_, ?_, ?_⟩
  · intro number cached
    rw [numbers] at cached
    rcases List.mem_append.mp cached with old | new
    · have known := covers.known number old
      exact ⟨known.1, known.2.trans later⟩
    · rcases List.mem_map.mp new with ⟨row, member, same⟩
      rw [← Option.some.inj same]
      have above := List.mem_of_mem_take member
      have inTable := (List.mem_filter.mp (List.mem_filter.mp above).1).1
      exact ⟨(calm.numbered.bookno_bounds inTable).1, Window.le_lastKey ordered member⟩
  · intro row member chosen early
    rw [archive] at member
    rw [numbers]
    by_cases before : row.bookno ≤ bookno
    · exact List.mem_append_left _ (covers.rows row member chosen before)
    · have inPage := Window.mem_page_of_le_lastKey (List.mem_filter.mpr ⟨member, chosen⟩) ordered
        (Int.not_le.mp before) early
      exact List.mem_append_right _ (List.mem_map_of_mem inPage)
  · intro unfinished
    have length := congrArg List.length numbers
    rw [BookCache.length_numbers, List.length_append, BookCache.length_numbers,
      List.length_map] at length
    have few : (client.rowsNext listed bookno).length ≤ padHight := by
      rw [rowsNext, Window.page, List.length_take]
      exact Nat.min_le_left _ _
    have short : (client.rowsNext listed bookno).length < defaultFinds := by
      rcases Nat.lt_or_eq_of_le few with less | equal
      · exact less
      · rw [length, equal, Nat.add_mod_right] at unfinished
        exact absurd full unfinished
    rw [whole_iff, rowsAhead, archive]
    exact Window.above_lastKey_of_short ordered short

end Page

/-- What `next_page_bookinfo` does: it prints the next page of the cache, which it fills up from the
server when it is at its end. -/
structure Brings (shelfno bookno : Int) (client : Client) (rows : List (Nat × BookEntry))
    (next : Int) (after : Client) : Prop where
  continued : client.Continued after
  covers : after.Covers (BookRow.listedFor shelfno) next
  length : rows.length =
    min padHight (after.books.bookDbmPos - client.books.bookSearchPos)
  entries : ∀ line row, rows[line]? = some row →
    row.1 = client.books.bookSearchPos + line ∧ after.books.bookData row.1 = some row.2
  searchPos : after.books.bookSearchPos = client.books.bookSearchPos + rows.length
  searchStep : after.books.bookSearchStep = padHight
  numbers : client.books.numbers <+: after.books.numbers
  total : after.books.bookDbmPos + (after.rowsAhead (BookRow.listedFor shelfno) next).length =
    client.books.bookDbmPos + (client.rowsAhead (BookRow.listedFor shelfno) bookno).length
  ended : rows = [] → client.Whole (BookRow.listedFor shelfno) bookno
  settled : client.Whole (BookRow.listedFor shelfno) bookno → next = bookno

section Brings

variable {client : Client} (calm : client.Calm) (named : client.loginUser ≠ "")
  {shelfno bookno : Int} (covers : client.Covers (BookRow.listedFor shelfno) bookno)

theorem numbers_of_read {before after : BookCache} {rows : List (Nat × BookEntry)}
    (read : (before.clidbBookSearchStep padHight).Read after rows) :
    after.numbers = before.numbers := by
  rw [BookCache.numbers, BookCache.numbers, BookCache.stored, BookCache.stored, read.data,
    read.dbmPos]
  rfl

include calm

theorem Calm.withBooks (books : BookCache) : client.Continued (client.withBooks books) :=
  ⟨calm.of_link rfl, rfl, rfl, rfl⟩

include covers

omit calm in
/-- A page that is in the cache is read from it. -/
theorem brings_of_read {after : Client} (continued : client.Continued after)
    {rows : List (Nat × BookEntry)}
    (read : (client.books.clidbBookSearchStep padHight).Read after.books rows)
    (length : rows.length = min padHight (client.books.bookDbmPos - client.books.bookSearchPos))
    (ended : rows = [] → client.Whole (BookRow.listedFor shelfno) bookno) :
    client.Brings shelfno bookno rows bookno after := by
  have dbmPos : after.books.bookDbmPos = client.books.bookDbmPos := read.dbmPos
  have archive := continued.archive
  refine ⟨continued, ?_, ?_, ?_, read.searchPos, read.searchStep, ?_, ?_, ended, fun _ => rfl⟩
  · apply covers.kept
    · intro row member _
      rw [archive] at member
      exact .inl member
    · exact read.filled covers.filled
    · exact numbers_of_read read
  · rw [dbmPos]
    exact length
  · intro line row entry
    rcases read.entries line row entry with ⟨position, stored⟩
    exact ⟨position, (congrFun read.data row.1).trans stored⟩
  · exact (numbers_of_read read).symm ▸ List.prefix_refl _
  · have same : after.rowsAhead (BookRow.listedFor shelfno) bookno =
        client.rowsAhead (BookRow.listedFor shelfno) bookno :=
      congrArg (fun archive => Window.above BookRow.bookno bookno
        (Listing.matching (BookRow.listedFor shelfno) archive)) archive
    rw [dbmPos, same]

include named

/-- At the end of the cache the next page is asked for. -/
theorem loadBooks_covers :
    ∃ after, client.loadBooks none shelfno bookno =
        (if client.rowsNext (BookRow.listedFor shelfno) bookno = [] then -1 else 1, after) ∧
      client.Continued after ∧ after.books = client.books.appendBooks
        ((client.rowsNext (BookRow.listedFor shelfno) bookno).map BookRow.entry) := by
  rcases findFromServer_page calm named (condition_shelf _ shelfno) covers.bounds.1
    covers.bounds.2 with ⟨msg, after, result, continued, books⟩
  refine ⟨after, ?_, continued, books⟩
  rw [Listing.message] at result
  rw [loadBooks, result]
  rfl

omit calm named covers in
/-- The last row printed bears the number of the last row that came. -/
theorem bookno_getLast? {cache : BookCache} {printed : List (Nat × BookEntry)} {row : Nat × BookEntry}
    {rows : List BookRow} (nonempty : rows ≠ []) (start : Int)
    (last : printed.getLast? = some row)
    (entry : row.1 + 1 = (cache.appendBooks (rows.map BookRow.entry)).bookDbmPos ∧
      (cache.appendBooks (rows.map BookRow.entry)).bookData row.1 = some row.2) :
    (printed.getLast?.map fun row => row.2.bookno) =
      some (Window.lastKey BookRow.bookno start rows) := by
  have next := lastBookno_page nonempty start cache
  rw [BookCache.lastBookno, ← entry.1, Nat.add_sub_cancel, BookCache.clidbBookPeek, entry.2] at next
  rw [last, ← next]
  rfl

omit named in
/-- The page that has come is read from the cache. -/
theorem brings_of_page {loaded : Client} (continued : client.Continued loaded)
    (nonempty : client.rowsNext (BookRow.listedFor shelfno) bookno ≠ [])
    (atEnd : client.books.bookSearchPos = client.books.bookDbmPos) {books final : BookCache}
    (idle : (client.books.clidbBookSearchStep padHight).Read books [])
    (appended : loaded.books = books.appendBooks
      ((client.rowsNext (BookRow.listedFor shelfno) bookno).map BookRow.entry))
    {rows : List (Nat × BookEntry)}
    (size : rows.length = min padHight (loaded.books.bookDbmPos - loaded.books.bookSearchPos))
    (read : (loaded.books.clidbBookSearchStep padHight).Read final rows) (stale : Int) :
    client.Brings shelfno bookno rows ((rows.getLast?.map fun row => row.2.bookno).getD stale)
      (loaded.withBooks final) := by
  have grows : books.Extends (fun _ => False) loaded.books := by
    rw [appended]
    exact BookCache.extends_appendBooks _ books
  have start : loaded.books.bookSearchPos = client.books.bookSearchPos :=
    grows.searchPos.trans idle.searchPos
  have more : loaded.books.bookDbmPos = client.books.bookDbmPos +
      (client.rowsNext (BookRow.listedFor shelfno) bookno).length := by
    rw [appended, BookCache.bookDbmPos_appendBooks, List.length_map, idle.dbmPos]
    rfl
  have numbers : final.numbers = client.books.numbers ++
      (client.rowsNext (BookRow.listedFor shelfno) bookno).map fun row => some row.bookno := by
    rw [numbers_of_read read, appended, BookCache.numbers_appendBooks, numbers_of_read idle,
      List.map_map]
    rfl
  have few : (client.rowsNext (BookRow.listedFor shelfno) bookno).length ≤ padHight := by
    rw [rowsNext, Window.page, List.length_take]
    exact Nat.min_le_left _ _
  have come : rows.length = (client.rowsNext (BookRow.listedFor shelfno) bookno).length := by
    rw [size, start, more, atEnd]
    omega
  have positive := List.length_pos_iff.mpr nonempty
  have full : client.books.bookDbmPos % padHight = 0 := by
    by_contra unfinished
    exact nonempty (rowsNext_eq_nil_iff.mpr (covers.short unfinished))
  have next : (rows.getLast?.map fun row => row.2.bookno).getD stale =
      Window.lastKey BookRow.bookno bookno
        (client.rowsNext (BookRow.listedFor shelfno) bookno) := by
    have last : rows.getLast? = rows[rows.length - 1]? := List.getLast?_eq_getElem?
    have entry : rows[rows.length - 1]? = some (rows.get ⟨rows.length - 1, by omega⟩) :=
      List.getElem?_eq_getElem (by omega)
    rcases read.entries _ _ entry with ⟨position, stored⟩
    have ends : (rows.get ⟨rows.length - 1, by omega⟩).1 + 1 = loaded.books.bookDbmPos := by
      rw [position, more, ← come, ← atEnd, ← start]
      change loaded.books.bookSearchPos + (rows.length - 1) + 1 = _
      omega
    rw [appended] at ends
    have found : loaded.books.bookData _ = _ := stored
    rw [appended] at found
    rw [bookno_getLast? nonempty bookno (last.trans entry) ⟨ends, found⟩, Option.getD_some]
  have archive := continued.archive
  rw [next]
  refine ⟨continued.trans (continued.calm.withBooks final), ?_, ?_, ?_, ?_, read.searchStep, ?_, ?_,
    ?_, ?_⟩
  · exact covers.nextPage calm full nonempty archive (read.filled (grows.filled (idle.filled
      covers.filled))) numbers
  · rw [size, start]
    exact congrArg (fun dbmPos => min padHight (dbmPos - _)) read.dbmPos.symm
  · intro line row entry
    rcases read.entries line row entry with ⟨position, stored⟩
    refine ⟨position.trans (congrArg (· + line) start), (congrFun read.data row.1).trans stored⟩
  · exact read.searchPos.trans (congrArg (· + rows.length) start)
  · change client.books.numbers <+: final.numbers
    rw [numbers]
    exact List.prefix_append _ _
  · have dbmPos : final.bookDbmPos = loaded.books.bookDbmPos := read.dbmPos
    have total := length_rowsAhead calm nonempty
    have same : (loaded.withBooks final).rowsAhead (BookRow.listedFor shelfno)
        (Window.lastKey BookRow.bookno bookno
          (client.rowsNext (BookRow.listedFor shelfno) bookno)) =
        client.rowsAhead (BookRow.listedFor shelfno) (Window.lastKey BookRow.bookno bookno
          (client.rowsNext (BookRow.listedFor shelfno) bookno)) := by
      rw [rowsAhead, rowsAhead, ← archive]
      rfl
    rw [same]
    change final.bookDbmPos + _ = _
    rw [dbmPos, more]
    omega
  · intro none
    rw [none, List.length_nil] at come
    omega
  · intro whole
    exact absurd (rowsNext_eq_nil_iff.mpr whole) nonempty

theorem nextPageBookinfo_brings (stale : Int)
    (inside : client.books.bookSearchPos ≤ client.books.bookDbmPos) :
    ∃ rows next after, client.nextPageBookinfo none shelfno bookno stale = (some rows, next, after) ∧
      client.Brings shelfno bookno rows next after := by
  rcases BookCache.printPage_read covers.filled with ⟨rows, printed, size, read⟩
  rw [nextPageBookinfo]
  generalize client.books.printPage = page at printed read ⊢
  rcases page with ⟨_, books⟩
  dsimp only at printed read
  subst printed
  cases rows with
  | cons row rows =>
      have some : row :: rows ≠ [] := List.cons_ne_nil row rows
      exact ⟨_, _, _, rfl, brings_of_read covers (calm.withBooks books) read size
        fun none => absurd none some⟩
  | nil =>
      have atEnd : client.books.bookSearchPos = client.books.bookDbmPos := by
        have positive : 0 < padHight := by decide
        rw [List.length_nil] at size
        omega
      have kept := (calm.withBooks books).calm
      have numbers := numbers_of_read read
      have covered : (client.withBooks books).Covers (BookRow.listedFor shelfno) bookno := by
        apply covers.kept
        · exact fun row member _ => .inl member
        · exact read.filled covers.filled
        · exact numbers
      rcases loadBooks_covers kept named covered with ⟨after, loads, continued, appended⟩
      dsimp only
      rw [loads]
      dsimp only
      by_cases empty : (client.withBooks books).rowsNext (BookRow.listedFor shelfno) bookno = []
      · rw [if_pos empty]
        have whole : client.Whole (BookRow.listedFor shelfno) bookno :=
          rowsNext_eq_nil_iff.mp empty
        rw [empty] at appended
        refine ⟨_, _, _, rfl, brings_of_read covers ((calm.withBooks books).trans continued)
          ?_ size fun _ => whole⟩
        rw [appended]
        exact read
      · rw [if_neg empty]
        have appends : (books.appendBooks
            (((client.withBooks books).rowsNext (BookRow.listedFor shelfno) bookno).map
              BookRow.entry)).Filled :=
          (@BookCache.extends_appendBooks (fun _ => False) _ books).filled covered.filled
        change after.books = books.appendBooks _ at appended
        rw [← appended] at appends
        rcases BookCache.printPage_read appends with ⟨rows, printed, length, readMore⟩
        generalize after.books.printPage = page at printed readMore ⊢
        rcases page with ⟨_, final⟩
        dsimp only at printed readMore
        subst printed
        exact ⟨rows, _, after.withBooks final, rfl, brings_of_page calm covers
          ((calm.withBooks books).trans continued) empty atEnd read appended length readMore stale⟩

end Brings

end Client

end Bookshelfdq
