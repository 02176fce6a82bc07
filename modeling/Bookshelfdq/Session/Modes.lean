import Bookshelfdq.Session.PageEffects

/-! # Browsing, collecting and searching

`bcollect` and `local_shelfno` outlive a visit. A visit with a search resets the second but
not the first. -/

namespace Bookshelfdq

/-! ## A stocked cache -/

/-- The positions in use are filled with entries that meet a condition, and none behind
them is read next. -/
structure BookCache.Stocked (holds : BookEntry → Prop) (cache : BookCache) : Prop where
  filled : cache.Filled
  reading : cache.bookSearchPos ≤ cache.bookDbmPos
  entries : ∀ position < cache.bookDbmPos, ∀ book, cache.bookData position = some book →
    holds book

namespace BookCache.Stocked

variable {holds : BookEntry → Prop} {cache : BookCache}

theorem reset (cache : BookCache) : cache.clidbBookReset.Stocked holds where
  filled := fun _ used => absurd used (Nat.not_lt_zero _)
  reading := Nat.le_refl 0
  entries := fun _ used => absurd used (Nat.not_lt_zero _)

theorem peek (stocked : cache.Stocked holds) {position : Nat} (used : position < cache.bookDbmPos) :
    ∃ book, cache.clidbBookPeek position = some book ∧ holds book := by
  rcases Option.isSome_iff_exists.mp (stocked.filled position used) with ⟨book, stored⟩
  exact ⟨book, stored, stocked.entries position used book stored⟩

theorem backward (stocked : cache.Stocked holds) : cache.clidbBookBackwardMode.Stocked holds := by
  refine ⟨stocked.filled, Nat.le_trans ?_ stocked.reading, stocked.entries⟩
  have whole := Nat.div_mul_le_self cache.bookSearchPos cache.bookSearchStep
  rw [clidbBookBackwardMode]
  dsimp only
  split
  · exact Nat.le_trans (Nat.mul_le_mul_right _ (Nat.sub_le _ 1)) whole
  · exact whole

theorem insertAt (stocked : cache.Stocked holds) {book : BookEntry} {position : Nat}
    (good : position < cache.bookDbmPos → holds book) :
    (cache.clidbBookInsertAt book position).Stocked holds := by
  refine ⟨(extends_insertAt book position cache).filled stocked.filled, stocked.reading, ?_⟩
  intro other used entry stored
  rw [clidbBookInsertAt_data] at stored
  by_cases there : other = position
  · rw [there, Function.update_self] at stored
    exact Option.some.inj stored ▸ good (there ▸ used)
  · rw [Function.update_of_ne there] at stored
    exact stocked.entries other used entry stored

theorem delete (stocked : cache.Stocked holds)
    (marks : ∀ book, holds book → holds { book with encodingTime := .empty }) (position : Nat) :
    (cache.clidbBookDelete position).Stocked holds := by
  rw [clidbBookDelete]
  cases stored : cache.clidbBookPeek position with
  | none => exact stocked
  | some book =>
      exact stocked.insertAt fun used => marks book (stocked.entries position used book stored)

/-- Rows read off a stocked cache. -/
theorem read {after : BookCache} {rows : List (Nat × BookEntry)} (stocked : cache.Stocked holds)
    (read : (cache.clidbBookSearchStep padHight).Read after rows) :
    after.Stocked holds ∧ ∀ row ∈ rows, holds row.2 := by
  have inside : after.bookSearchPos ≤ after.bookDbmPos := by
    by_cases none : rows = []
    · rw [read.searchPos, read.dbmPos, none]
      exact stocked.reading
    · exact read.inside none
  refine ⟨⟨read.filled stocked.filled, inside, ?_⟩, ?_⟩
  · intro position used book stored
    rw [read.dbmPos] at used
    rw [read.data] at stored
    exact stocked.entries position used book stored
  · intro row member
    rcases List.mem_iff_getElem?.mp member with ⟨line, entry⟩
    rcases read.entries line row entry with ⟨position, stored⟩
    have bound := (List.getElem?_eq_some_iff.mp entry).1
    apply stocked.entries row.1 _ row.2 stored
    have ended : after.bookSearchPos = cache.bookSearchPos + rows.length := read.searchPos
    have same : after.bookDbmPos = cache.bookDbmPos := read.dbmPos
    have start : row.1 = cache.bookSearchPos + line := position
    omega

theorem append (stocked : cache.Stocked holds) {added : List BookEntry}
    (good : ∀ book ∈ added, holds book) : (cache.appendBooks added).Stocked holds := by
  have grows : cache.Extends (fun _ => False) (cache.appendBooks added) :=
    extends_appendBooks added cache
  refine ⟨grows.filled stocked.filled, ?_, ?_⟩
  · rw [grows.searchPos]
    exact stocked.reading.trans grows.dbmPos
  · intro position used book stored
    rcases appendBooks_data stored with member | ⟨kept, earlier⟩
    · exact good book member
    · exact stocked.entries position (earlier used) book kept

end BookCache.Stocked

namespace Client

/-- The next page leaves the cache stocked, and the number it goes on from is one of a book in it. -/
theorem nextPageBookinfo_stocked {holds : BookEntry → Prop} {client : Client}
    (prompt : client.link.Prompt) (stocked : client.books.Stocked holds)
    (search : Option BookEntry) (shelfno bookno stale : Int)
    (listed : ∀ row, client.link.server.Lists (loadMsg client.loginUser search shelfno bookno) row →
      holds row.entry) :
    (client.nextPageBookinfo search shelfno bookno stale).2.2.books.Stocked holds ∧
      ((client.nextPageBookinfo search shelfno bookno stale).2.1 = bookno ∨
        ∃ book, holds book ∧
          (client.nextPageBookinfo search shelfno bookno stale).2.1 = book.bookno) := by
  rcases BookCache.printPage_read stocked.filled with ⟨rows, printed, size, read⟩
  rcases stocked.read read with ⟨kept, _⟩
  rw [nextPageBookinfo]
  generalize client.books.printPage = page at printed read kept ⊢
  rcases page with ⟨_, books⟩
  dsimp only at printed read kept
  subst printed
  cases rows with
  | cons row rows => exact ⟨kept, .inl rfl⟩
  | nil =>
      have still : (client.withBooks books).link.Prompt := prompt
      rcases loadBooks_reads still search shelfno bookno with ⟨_, added, appended, rows, outcome⟩
      have grown : ((client.withBooks books).loadBooks search shelfno bookno).2.books.Stocked
          holds := by
        rw [appended]
        apply kept.append
        intro book member
        rcases rows book member with ⟨row, lists, rfl⟩
        exact listed row lists
      have ahead : added ≠ [] →
          ((client.withBooks books).loadBooks search shelfno bookno).2.books.bookSearchPos <
            ((client.withBooks books).loadBooks search shelfno bookno).2.books.bookDbmPos := by
        intro some
        have grows : books.Extends (fun _ => False) (books.appendBooks added) :=
          BookCache.extends_appendBooks added books
        have more := List.length_pos_iff.mpr some
        have reading := kept.reading
        rw [appended]
        show (books.appendBooks added).bookSearchPos < (books.appendBooks added).bookDbmPos
        rw [grows.searchPos, BookCache.bookDbmPos_appendBooks]
        omega
      dsimp only
      generalize (client.withBooks books).loadBooks search shelfno bookno =
        loaded at grown ahead outcome ⊢
      rcases loaded with ⟨found, after⟩
      dsimp only at grown ahead outcome ⊢
      by_cases failed : found = 0
      · rw [if_pos failed]
        exact ⟨grown, .inl rfl⟩
      · rw [if_neg failed]
        by_cases finished : found = -1
        · rw [if_pos finished]
          exact ⟨grown, .inl rfl⟩
        · rw [if_neg finished]
          have some := (outcome.resolve_left failed).resolve_left finished
          rcases BookCache.printPage_read grown.filled with ⟨rows, printed, size, read⟩
          rcases grown.read read with ⟨kept, good⟩
          generalize after.books.printPage = page at printed read kept ⊢
          rcases page with ⟨_, books⟩
          dsimp only at printed read kept
          subst printed
          refine ⟨kept, .inr ?_⟩
          have nonempty : rows ≠ [] := by
            rintro rfl
            have more := ahead some
            have height : 0 < padHight := by decide
            rw [List.length_nil] at size
            omega
          refine ⟨(rows.getLast nonempty).2, good _ (List.getLast_mem nonempty), ?_⟩
          dsimp only
          rw [List.getLast?_eq_some_getLast nonempty]
          rfl

end Client

/-! ## The shelves of the books -/

/-- Every book that is not deleted is on a shelf with a number, so that it is among those of
all shelves. -/
def Archive.Visible (archive : Archive) : Prop :=
  ∀ row ∈ archive.books, row.cleaned ≠ .del → inScope nonSenseInt row = true

theorem inScope_of_positive {row : BookRow} (positive : 0 < row.shelfno) :
    inScope nonSenseInt row = true := by
  rw [inScope, if_pos rfl]
  exact decide_eq_true positive

theorem Archive.WellNumbered.positive_of_available {archive : Archive}
    (numbered : archive.WellNumbered) {shelfno : Int} (available : archive.ShelfAvailable shelfno) :
    0 < shelfno := by
  rcases numbered.2 with ⟨count, _, numbered⟩
  rcases available with ⟨shelf, member, rfl, _⟩
  exact ((numbered.mem_iff shelf.shelfno).mp ⟨shelf, member, rfl⟩).1

theorem Archive.Visible.cleanBooks {archive : Archive} (visible : archive.Visible)
    {cleaned : BookCleaned} {selected : BookRow → Bool}
    (positive : cleaned ≠ .del → ∀ row, selected row = true → 0 < row.shelfno) :
    (archive.cleanBooks cleaned selected).Visible := by
  intro row member live
  rcases List.mem_map.mp member with ⟨old, oldMem, equal⟩
  split at equal
  case isTrue chosen =>
    subst equal
    exact inScope_of_positive (positive live old chosen)
  case isFalse =>
    subst equal
    exact visible old oldMem live

/-- An archive in which every book stands where it can be found. -/
structure Archive.Standing (archive : Archive) : Prop where
  numbered : archive.WellNumbered
  integrity : archive.Integrity
  visible : archive.Visible

theorem Archive.Standing.update {server : Server} {loginUser : String} {sent : BookEntry}
    (standing : server.db.archive.Standing)
    (available : server.db.archive.ShelfAvailable sent.shelfno) :
    (server.step (clientShelfTaggingBookMsg loginUser sent)).db.archive.Standing := by
  have positive := standing.numbered.positive_of_available available
  refine ⟨server.step_wellNumbered _ standing.numbered, ?_, ?_⟩
  · apply Server.step_integrity standing.numbered standing.integrity
    · intro _
      exact available
    · intro removes
      cases removes
  · rcases server.step_update_cases sent with archive | ⟨_, archive⟩ | ⟨books, _, updated, archive⟩
    · rw [archive]
      exact standing.visible
    · rw [archive]
      apply standing.visible.cleanBooks
      intro _ row chosen
      exact (beq_iff_eq.mp chosen).symm ▸ positive
    · rw [archive]
      intro row member live
      rcases Table.exists_source_of_mem updated member with ⟨old, oldMem, becomes⟩
      rw [Table.Becomes] at becomes
      split at becomes
      · exact inScope_of_positive ((BookEntry.row_eq_some becomes).2.1 ▸ positive)
      · exact Option.some.inj becomes ▸ standing.visible old oldMem (Option.some.inj becomes ▸ live)

theorem Archive.Standing.delete {server : Server} (standing : server.db.archive.Standing)
    (loginUser : String) (book : BookEntry) :
    (server.step (clientShelfDeleteBookMsg loginUser book)).db.archive.Standing := by
  refine ⟨server.step_wellNumbered _ standing.numbered, ?_, ?_⟩
  · apply Server.step_integrity standing.numbered standing.integrity
    · rintro (inserts | ⟨updates, _⟩)
      · cases inserts
      · cases updates
    · intro removes
      cases removes
  · rcases server.step_delete_cases book with archive | archive
    · rw [archive]
      exact standing.visible
    · rw [archive]
      exact standing.visible.cleanBooks fun marks => absurd rfl marks

/-- The shelves are those they were. -/
theorem Server.step_shelves {server : Server} {request : MessageCs}
    (writes : ∃ loginUser book, request = clientShelfTaggingBookMsg loginUser book ∨
      request = clientShelfDeleteBookMsg loginUser book) :
    (server.step request).db.archive.shelves = server.db.archive.shelves := by
  rcases writes with ⟨loginUser, book, rfl | rfl⟩
  · rcases server.step_update_cases book with archive | ⟨_, archive⟩ | ⟨books, _, _, archive⟩
    · rw [archive]
    · rw [archive]
      rfl
    · rw [archive]
  · rcases server.step_delete_cases book with archive | archive
    · rw [archive]
    · rw [archive]
      rfl

/-! ## What a load lists -/

/-- The search does not ask for unsorted books. A load without a search asks for them only
if it names no shelf. -/
def listsShelved (search : Option BookEntry) (shelfno : Int) : Bool :=
  match search with
  | some entry => !(entry.borrowed == flagFindUnsorted && entry.onReading == flagFindUnsorted)
  | none => shelfno != nonSenseInt

theorem bookWhere_available {collation : Char → Char → Bool} {book : BookEntry}
    {selected : BookRow → Bool} {row : BookRow}
    (condition : bookWhere collation book = some selected)
    (sorted : ¬(book.borrowed = flagFindUnsorted ∧ book.onReading = flagFindUnsorted))
    (chosen : selected row = true) : row.cleaned = .avl := by
  rw [bookWhere, if_neg sorted] at condition
  split at condition
  · cases condition
    simp only [Bool.and_eq_true, beq_iff_eq] at chosen
    exact chosen.1.2
  · split at condition
    · cases condition
      simp only [Bool.and_eq_true, beq_iff_eq] at chosen
      exact chosen.1.2
    · split at condition
      · cases condition
        simp only [Bool.and_eq_true, beq_iff_eq] at chosen
        exact chosen.1.1.2
      · cases condition

theorem Client.loadMsg_sorted {search : Option BookEntry} {shelfno : Int}
    (shelved : listsShelved search shelfno = true) (loginUser : String) (bookno : Int) :
    ¬((loadMsg loginUser search shelfno bookno).stuff.book.borrowed = flagFindUnsorted ∧
      (loadMsg loginUser search shelfno bookno).stuff.book.onReading = flagFindUnsorted) := by
  cases search with
  | some entry =>
      rintro ⟨borrowed, onReading⟩
      have flags : (entry.borrowed == flagFindUnsorted &&
          entry.onReading == flagFindUnsorted) = true :=
        Bool.and_eq_true_iff.mpr ⟨beq_iff_eq.mpr borrowed, beq_iff_eq.mpr onReading⟩
      rw [listsShelved, flags] at shelved
      cases shelved
  | none =>
      have named : shelfno ≠ nonSenseInt := bne_iff_ne.mp shelved
      rintro ⟨borrowed, _⟩
      simp only [loadMsg, clientShelfLoadingBookMsg, if_neg named] at borrowed
      exact absurd borrowed (by decide)

/-- A load that does not ask for unsorted books lists books on shelves. -/
theorem Server.Lists.available {server : Server} {loginUser : String} {search : Option BookEntry}
    {shelfno bookno : Int} {row : BookRow} (shelved : listsShelved search shelfno = true)
    (onward : 0 ≤ bookno)
    (lists : server.Lists (Client.loadMsg loginUser search shelfno bookno) row) :
    row.cleaned = .avl := by
  rcases lists with ⟨selection, selects, member⟩
  have nonneg : 0 ≤ (Client.loadMsg loginUser search shelfno bookno).stuff.book.bookno := by
    cases search <;> exact onward
  rcases (mem_selectBooks selects member).2 with points | ⟨selected, condition, chosen⟩
  · rw [pointsAtBook_of_nonneg nonneg] at points
    cases points
  · exact bookWhere_available condition (Client.loadMsg_sorted shelved loginUser bookno) chosen

/-! ## The modes -/

namespace Ncgui

/-- An entry that may be sent back from the page: in a visit that does not collect, with
the number of an available shelf. -/
structure Shelved (bcollect : Bool) (archive : Archive) (book : BookEntry) : Prop where
  bookno : 0 ≤ book.bookno
  shelfno : bcollect = false → archive.ShelfAvailable book.shelfno

/-- The mode that the statics are in is the one of the visit. -/
structure ModesApart (gui : Ncgui) : Prop where
  prompt : gui.client.link.Prompt
  standing : gui.client.link.server.db.archive.Standing
  stocked : gui.client.books.Stocked
    (Shelved gui.bcollect gui.client.link.server.db.archive)
  bookno : 0 ≤ gui.localBookno
  collecting : gui.bcollect = true →
    gui.client.link.server.db.archive.ShelfAvailable gui.localShelfno
  page : ∀ page, gui.shown = some page → page.collectMode = gui.bcollect ∧
    (gui.bcollect = false → listsShelved page.search page.modeShelfno = true)

/-- A visit names an available shelf, or comes with a search that does not ask for unsorted
books when no visit has left the page collecting. An update is sent for an entry in use. -/
def VisitsApart (gui : Ncgui) : Input → Prop
  | .display shelfno collectMode search _ =>
      gui.shown.isNone → ¬(collectMode = true ∧ search.isSome = true) →
        match search with
        | none => gui.client.link.server.db.archive.ShelfAvailable shelfno
        | some (_, entry) => gui.bcollect = false ∧ listsShelved (some entry) nonSenseInt = true
  | .key (.action action) =>
      ∀ page ∈ gui.shown, gui.bcollect = false →
        BookAction.stores gui.localShelfno (gui.acted page) gui.bcollect action ≠ none →
          gui.curDbmPos page < gui.client.books.bookDbmPos
  | _ => True

/-- Only a visit for collecting collects, and an update carries the number of an available
shelf. -/
structure KeepsModes (fuel : Nat) (gui : Ncgui) (input : Input) : Prop where
  collects : ∀ floorno, input = .key (.action (.collect floorno)) →
    (gui.step fuel input).client ≠ gui.client →
      ∃ page, gui.shown = some page ∧ page.collectMode = true
  updates : ∀ exchange ∈ gui.client.exchangesSince (gui.step fuel input).client,
    exchange.2.request = .updateBook →
      exchange.1.db.archive.ShelfAvailable exchange.2.stuff.book.shelfno ∧
        exchange.2.stuff.book.shelfno ≠ nonSenseInt

theorem ModesApart.listed {gui : Ncgui} (apart : gui.ModesApart) {search : Option BookEntry}
    {shelfno : Int} (lists : gui.bcollect = false → listsShelved search shelfno = true)
    {loginUser : String} (row : BookRow)
    (listed : gui.client.link.server.Lists
      (Client.loadMsg loginUser search shelfno gui.localBookno) row) :
    Shelved gui.bcollect gui.client.link.server.db.archive row.entry := by
  constructor
  · exact Int.le_of_lt (apart.standing.numbered.bookno_bounds listed.mem).1
  · intro browsing
    exact apart.standing.integrity row listed.mem (listed.available (lists browsing) apart.bookno)

/-- What is read leaves the server as it is. -/
theorem ModesApart.reads {gui after : Ncgui} {msg : MessageCs} (apart : gui.ModesApart)
    (readsOnly : msg.archiveRequest = none) (prompt : after.client.link.Prompt)
    (sends : gui.client.link.Sends msg after.client.link)
    (collect : after.bcollect = gui.bcollect) (shelf : after.localShelfno = gui.localShelfno)
    (stocked : after.client.books.Stocked
      (Shelved gui.bcollect gui.client.link.server.db.archive)) (bookno : 0 ≤ after.localBookno)
    (page : ∀ page, after.shown = some page → page.collectMode = gui.bcollect ∧
      (gui.bcollect = false → listsShelved page.search page.modeShelfno = true)) :
    after.ModesApart := by
  have archive := sends.archive_of_reading readsOnly
  refine ⟨prompt, archive ▸ apart.standing, ?_, bookno, ?_, ?_⟩
  · rw [collect, archive]
    exact stocked
  · rw [collect, archive, shelf]
    exact apart.collecting
  · rw [collect]
    exact page

theorem ModesApart.nextPage {gui : Ncgui} (apart : gui.ModesApart) {search : Option BookEntry}
    {shelfno : Int} (lists : gui.bcollect = false → listsShelved search shelfno = true)
    (stale : Int) :
    (gui.client.nextPageBookinfo search shelfno gui.localBookno stale).2.2.books.Stocked
        (Shelved gui.bcollect gui.client.link.server.db.archive) ∧
      0 ≤ (gui.client.nextPageBookinfo search shelfno gui.localBookno stale).2.1 := by
  rcases Client.nextPageBookinfo_stocked apart.prompt apart.stocked search shelfno gui.localBookno
    stale (fun row listed => apart.listed lists row listed) with ⟨stocked, same | ⟨book, good, last⟩⟩
  · rw [same]
    exact ⟨stocked, apart.bookno⟩
  · rw [last]
    exact ⟨stocked, good.bookno⟩

theorem resetBooks_stocked (gui : Ncgui) {holds : BookEntry → Prop} :
    gui.resetBooks.client.books.Stocked holds := .reset gui.client.books

theorem resetOnChange_shown (shelfno : Int) (collectMode : Bool)
    (search : Option (Char × BookEntry)) (gui : Ncgui) :
    (gui.resetOnChange shelfno collectMode search).shown = gui.shown := by
  rcases search with _ | ⟨mark, entry⟩
  · rw [resetOnChange]
    split <;> rfl
  · rw [resetOnChange]
    split <;> rfl

/-- A visit begins in its own mode. -/
theorem ModesApart.resets {gui : Ncgui} (apart : gui.ModesApart) (resting : gui.shown = none)
    {shelfno : Int} {collectMode : Bool} {search : Option (Char × BookEntry)} {stale : BookEntry}
    (visits : gui.VisitsApart (.display shelfno collectMode search stale))
    (supported : ¬(collectMode = true ∧ search.isSome = true)) :
    (gui.resetOnChange shelfno collectMode search).ModesApart ∧
      (gui.resetOnChange shelfno collectMode search).bcollect = collectMode ∧
      ((gui.resetOnChange shelfno collectMode search).bcollect = false →
        listsShelved (search.map Prod.snd)
          (gui.resetOnChange shelfno collectMode search).modeShelf = true) := by
  have allowed := visits (Option.isNone_iff_eq_none.mpr resting) supported
  have away : ∀ page, gui.shown = some page → page.collectMode = collectMode ∧
      (collectMode = false → listsShelved page.search page.modeShelfno = true) := by
    intro page shown
    rw [resting] at shown
    cases shown
  rcases search with _ | ⟨mark, entry⟩
  · have positive := apart.standing.numbered.positive_of_available allowed
    have named : shelfno ≠ nonSenseInt := by
      have zero : nonSenseInt = 0 := rfl
      omega
    rw [resetOnChange]
    by_cases changed : (gui.localShelfno ≠ shelfno ∧ gui.bcollect = collectMode) ∨
        gui.bcollect ≠ collectMode ∨ gui.globalNewBookComing = true
    · rw [if_pos changed]
      refine ⟨⟨apart.prompt, apart.standing, resetBooks_stocked gui, Int.le_refl 0,
        fun _ => allowed, away⟩, rfl, ?_⟩
      intro browsing
      rw [modeShelf, browsing]
      exact bne_iff_ne.mpr named
    · rw [if_neg changed]
      have same : gui.bcollect = collectMode := by
        by_contra different
        exact changed (.inr (.inl different))
      have here : gui.localShelfno = shelfno := by
        by_contra different
        exact changed (.inl ⟨different, same⟩)
      refine ⟨apart, same, ?_⟩
      intro browsing
      rw [modeShelf, browsing, here]
      exact bne_iff_ne.mpr named
  · rcases allowed with ⟨browsing, sorted⟩
    have plain : collectMode = false := by
      cases collectMode with
      | false => rfl
      | true => exact absurd ⟨rfl, rfl⟩ supported
    subst plain
    rw [resetOnChange]
    split
    · refine ⟨⟨apart.prompt, apart.standing, resetBooks_stocked gui, Int.le_refl 0, ?_, ?_⟩,
        browsing, fun _ => sorted⟩
      · intro collecting
        exact absurd (browsing.symm.trans collecting) Bool.false_ne_true
      · show ∀ page, gui.shown = some page → _
        rw [resting]
        intro page shown
        cases shown
    · exact ⟨apart, browsing, fun _ => sorted⟩

theorem ModesApart.displays {gui : Ncgui} (apart : gui.ModesApart) (resting : gui.shown = none)
    {shelfno : Int} {collectMode : Bool} {search : Option (Char × BookEntry)} {stale : BookEntry}
    (visits : gui.VisitsApart (.display shelfno collectMode search stale)) :
    (gui.display shelfno collectMode search stale).ModesApart := by
  by_cases refused : collectMode = true ∧ search.isSome = true
  · rw [display, if_pos refused]
    exact apart
  · rcases apart.resets resting visits refused with ⟨fresh, mode, lists⟩
    have away : (gui.resetOnChange shelfno collectMode search).shown = none :=
      (resetOnChange_shown shelfno collectMode search gui).trans resting
    rw [display, if_neg refused]
    generalize gui.resetOnChange shelfno collectMode search = reset at fresh mode lists away ⊢
    rcases fresh.nextPage lists stale.bookno with ⟨stocked, bookno⟩
    have reads := Client.nextPageBookinfo_reads fresh.prompt (search.map Prod.snd) reset.modeShelf
      reset.localBookno stale.bookno
    have unshown : ∀ page, reset.shown = some page → page.collectMode = reset.bcollect ∧
        (reset.bcollect = false → listsShelved page.search page.modeShelfno = true) := by
      rw [away]
      intro page shown
      cases shown
    dsimp only
    split
    · exact fresh.reads (Client.loadMsg_reads _ _ _ _) reads.prompt reads.sends rfl rfl stocked
        bookno unshown
    · exact fresh.reads (Client.loadMsg_reads _ _ _ _) reads.prompt reads.sends rfl rfl stocked
        bookno unshown
    · refine fresh.reads (Client.loadMsg_reads _ _ _ _) reads.prompt reads.sends rfl rfl stocked
        bookno ?_
      intro page shown
      cases shown
      exact ⟨mode.symm, lists⟩

/-- The next page is read in the mode of the visit. -/
theorem ModesApart.turns {gui : Ncgui} {page : BookPage} (apart : gui.ModesApart)
    (shown : page.collectMode = gui.bcollect ∧
      (gui.bcollect = false → listsShelved page.search page.modeShelfno = true))
    (stale : Int) : (gui.pageRight stale page).ModesApart := by
  rcases apart.nextPage shown.2 stale with ⟨stocked, bookno⟩
  have reads := Client.nextPageBookinfo_reads apart.prompt page.search page.modeShelfno
    gui.localBookno stale
  have kept : ∀ later, some page = some later → later.collectMode = gui.bcollect ∧
      (gui.bcollect = false → listsShelved later.search later.modeShelfno = true) := by
    intro later same
    cases same
    exact shown
  rw [pageRight]
  split
  · exact ⟨apart.prompt, apart.standing, apart.stocked, apart.bookno, apart.collecting, kept⟩
  · dsimp only
    split
    · refine apart.reads (Client.loadMsg_reads _ _ _ _) reads.prompt reads.sends rfl rfl stocked
        bookno ?_
      intro later ended
      cases ended
    · exact apart.reads (Client.loadMsg_reads _ _ _ _) reads.prompt reads.sends rfl rfl stocked
        bookno kept
    · refine apart.reads (Client.loadMsg_reads _ _ _ _) reads.prompt reads.sends rfl rfl
        stocked.backward bookno ?_
      intro later ended
      cases ended

theorem ModesApart.withPage {gui : Ncgui} {page later : BookPage} (apart : gui.ModesApart)
    (shown : gui.shown = some page) (collectMode : later.collectMode = page.collectMode)
    (search : later.search = page.search) (modeShelfno : later.modeShelfno = page.modeShelfno) :
    (gui.withPage later).ModesApart := by
  refine ⟨apart.prompt, apart.standing, apart.stocked, apart.bookno, apart.collecting, ?_⟩
  intro other same
  cases same
  rw [collectMode, search, modeShelfno]
  exact apart.page page shown

theorem ModesApart.leaves {gui : Ncgui} (apart : gui.ModesApart) : gui.leave.ModesApart := by
  refine ⟨apart.prompt, apart.standing, apart.stocked.backward, apart.bookno, apart.collecting, ?_⟩
  intro page ended
  cases ended

/-! ## Actions -/

/-- An entry is sent with the shelf of the mode, and is left in the cache with its own. -/
theorem BookAction.stores_shelfno {localShelfno : Int} {book sent written : BookEntry}
    {bcollect : Bool} {action : BookAction}
    (stored : stores localShelfno book bcollect action = some (sent, written)) :
    sent.shelfno = (if bcollect then localShelfno else book.shelfno) ∧
      written.shelfno = book.shelfno ∧ written.bookno = book.bookno := by
  rcases stores_cases stored with ⟨floorno, rfl, _, rfl, rfl⟩ | ⟨label, rfl, _, rfl, rfl⟩ |
    ⟨rfl, _, _, rfl, rfl⟩ | ⟨rfl, _, rfl, rfl⟩
  · exact ⟨rfl, rfl, rfl⟩
  · exact ⟨rfl, rfl, rfl⟩
  · exact ⟨rfl, rfl, rfl⟩
  · rcases movedBook_flags book 1 with ⟨borrowed, onReading, moved⟩
    rw [moved]
    exact ⟨rfl, rfl, rfl⟩

theorem showBookInfo_place (book : BookEntry) :
    (showBookInfo book).shelfno = book.shelfno ∧ (showBookInfo book).bookno = book.bookno := by
  rw [showBookInfo]
  split <;> exact ⟨rfl, rfl⟩

theorem ModesApart.withClient {gui : Ncgui} {after : Client} (apart : gui.ModesApart)
    (prompt : after.link.Prompt) (standing : after.link.server.db.archive.Standing)
    (shelves : after.link.server.db.archive.shelves = gui.client.link.server.db.archive.shelves)
    (stocked : after.books.Stocked (Shelved gui.bcollect gui.client.link.server.db.archive)) :
    (gui.withClient after).ModesApart := by
  have available : ∀ shelfno, gui.client.link.server.db.archive.ShelfAvailable shelfno →
      after.link.server.db.archive.ShelfAvailable shelfno := by
    intro shelfno
    rw [Archive.ShelfAvailable, Archive.ShelfAvailable, shelves]
    exact id
  refine ⟨prompt, standing, ⟨stocked.filled, stocked.reading, ?_⟩, apart.bookno, ?_, apart.page⟩
  · intro position used book stored
    have shelved := stocked.entries position used book stored
    exact ⟨shelved.bookno, fun browsing => available _ (shelved.shelfno browsing)⟩
  · intro collecting
    exact available _ (apart.collecting collecting)

theorem ModesApart.acted {gui : Ncgui} (apart : gui.ModesApart) {page : BookPage}
    (used : gui.curDbmPos page < gui.client.books.bookDbmPos) :
    Shelved gui.bcollect gui.client.link.server.db.archive (gui.acted page) := by
  rcases apart.stocked.peek used with ⟨book, peek, shelved⟩
  rw [Ncgui.acted, peeked, peek, Option.getD_some]
  constructor
  · rw [(showBookInfo_place book).2]
    exact shelved.bookno
  · rw [(showBookInfo_place book).1]
    exact shelved.shelfno

/-- The client after an action, and the updates it has sent. -/
theorem ModesApart.acts {gui : Ncgui} {page : BookPage} {action : BookAction}
    (apart : gui.ModesApart) (shown : gui.shown = some page)
    (visits : gui.VisitsApart (.key (.action action))) {after : Client}
    (acts : after = (act action gui.bcollect gui.localShelfno (gui.acted page)
      (gui.curDbmPos page) gui.client).2) :
    (gui.withClient after).ModesApart ∧ ∀ exchange ∈ gui.client.exchangesSince after,
      exchange.2.request = .updateBook →
        exchange.1.db.archive.ShelfAvailable exchange.2.stuff.book.shelfno ∧
          exchange.2.stuff.book.shelfno ≠ nonSenseInt := by
  rcases act_cases apart.prompt action gui.bcollect gui.localShelfno (gui.acted page)
    (gui.curDbmPos page) with same | ⟨browsing, rfl, deletes⟩ | ⟨sent, written, stored, updates⟩
  · rw [acts, same]
    refine ⟨apart, ?_⟩
    intro exchange member
    rw [Client.exchangesSince, List.drop_length] at member
    exact absurd member List.not_mem_nil
  · rw [← acts] at deletes
    constructor
    · apply apart.withClient deletes.prompt
      · exact @Link.Sends.server_holds _ _ _ deletes.sends (fun server =>
          server.db.archive.Standing) apart.standing (apart.standing.delete _ _)
      · exact @Link.Sends.server_holds _ _ _ deletes.sends (fun server =>
          server.db.archive.shelves = gui.client.link.server.db.archive.shelves) rfl
          (Server.step_shelves ⟨_, _, .inr rfl⟩)
      · rcases deletes.books with kept | marked
        · rw [kept]
          exact apart.stocked
        · rw [marked]
          exact apart.stocked.delete (fun book shelved => ⟨shelved.bookno, shelved.shelfno⟩) _
    · intro exchange member kind
      rw [Client.eq_of_mem_exchangesSince deletes.sends member] at kind
      cases kind
  · rw [← acts] at updates
    rcases BookAction.stores_shelfno stored with ⟨sentShelf, writtenShelf, writtenNumber⟩
    have used : gui.bcollect = false → gui.curDbmPos page < gui.client.books.bookDbmPos := by
      intro browsing
      apply visits page shown browsing
      rw [stored]
      exact Option.some_ne_none _
    have available : gui.client.link.server.db.archive.ShelfAvailable sent.shelfno := by
      rw [sentShelf]
      cases mode : gui.bcollect with
      | true => exact apart.collecting mode
      | false => exact (apart.acted (used mode)).shelfno mode
    constructor
    · apply apart.withClient updates.prompt
      · exact @Link.Sends.server_holds _ _ _ updates.sends (fun server =>
          server.db.archive.Standing) apart.standing (apart.standing.update available)
      · exact @Link.Sends.server_holds _ _ _ updates.sends (fun server =>
          server.db.archive.shelves = gui.client.link.server.db.archive.shelves) rfl
          (Server.step_shelves ⟨_, _, .inl rfl⟩)
      · rcases updates.books with kept | ⟨inserted, _⟩
        · rw [kept]
          exact apart.stocked
        · rw [inserted]
          apply apart.stocked.insertAt
          intro used
          have shelved := apart.acted used
          exact ⟨writtenNumber ▸ shelved.bookno, writtenShelf ▸ shelved.shelfno⟩
    · intro exchange member _
      rw [Client.eq_of_mem_exchangesSince updates.sends member]
      refine ⟨available, fun absent => ?_⟩
      have positive := apart.standing.numbered.positive_of_available available
      rw [show sent.shelfno = nonSenseInt from absent] at positive
      exact Int.lt_irrefl 0 positive

/-- An input that does not act keeps the modes apart. -/
theorem ModesApart.passes {gui : Ncgui} (apart : gui.ModesApart) (fuel : Nat) {input : Input}
    (ofPage : input.ofPage = true) (visits : gui.VisitsApart input)
    (passive : ∀ action, input ≠ .key (.action action)) : (gui.step fuel input).ModesApart := by
  cases input with
  | display shelfno collectMode search stale =>
      rw [step]
      split
      case h_1 resting => exact apart.displays resting visits
      case h_2 => exact apart
  | newBook => exact ⟨apart.prompt, apart.standing, apart.stocked, apart.bookno, apart.collecting,
      apart.page⟩
  | call call =>
      cases call with
      | booksCountSync stale =>
          rcases Client.clientBooksCountSync_prompt apart.prompt stale with ⟨link, after, still, sends⟩
          rw [step, Ncgui.withClient, ClientCall.perform, after]
          exact apart.reads rfl still sends rfl rfl apart.stocked apart.bookno apart.page
      | shelvesCountSync stale shelvesAll =>
          rcases Client.clientShelvesCountSync_prompt apart.prompt stale shelvesAll with
            ⟨link, after, still, sends⟩
          rw [step, Ncgui.withClient, ClientCall.perform, after]
          exact apart.reads rfl still sends rfl rfl apart.stocked apart.bookno apart.page
      | _ => cases ofPage
  | key key =>
      rw [step, press]
      cases shown : gui.shown with
      | none => exact apart
      | some page =>
          cases key with
          | backspace => exact apart.leaves
          | up => exact apart.withPage shown rfl rfl rfl
          | down => exact apart.withPage shown rfl rfl rfl
          | left =>
              have back : { gui with
                  client := gui.client.withBooks gui.client.books.clidbBookBackwardMode
                  noNextPageFlag := if 0 < gui.bookPageCnt then false else gui.noNextPageFlag
                  bookPageCnt := gui.bookPageCnt - 1 }.ModesApart :=
                ⟨apart.prompt, apart.standing, apart.stocked.backward, apart.bookno,
                  apart.collecting, apart.page⟩
              exact back.leaves
          | right stale =>
              refine apart.turns ?_ stale
              exact apart.page page shown
          | action action => exact absurd rfl (passive action)

theorem step_modes {gui : Ncgui} (apart : gui.ModesApart) (fuel : Nat) {input : Input}
    (ofPage : input.ofPage = true) (visits : gui.VisitsApart input) :
    (gui.step fuel input).ModesApart ∧ gui.KeepsModes fuel input := by
  by_cases active : ∃ action, input = .key (.action action)
  · rcases active with ⟨action, rfl⟩
    cases shown : gui.shown with
    | none =>
        have idle : gui.step fuel (.key (.action action)) = gui := by
          rw [step, press, shown]
        rw [idle]
        refine ⟨apart, ⟨fun _ _ changed => ?_, fun exchange member => ?_⟩⟩
        · rw [idle] at changed
          exact absurd rfl changed
        · rw [idle, Client.exchangesSince, List.drop_length] at member
          exact absurd member List.not_mem_nil
    | some page =>
        have client : (gui.step fuel (.key (.action action))).client =
            (act action gui.bcollect gui.localShelfno (gui.acted page) (gui.curDbmPos page)
              gui.client).2 := by
          rw [step, press, shown]
          rfl
        rcases apart.acts shown visits client with ⟨after, updates⟩
        constructor
        · rw [step, press, shown] at after ⊢
          exact after.withPage shown rfl rfl rfl
        · constructor
          · intro floorno same changed
            cases same
            refine ⟨page, shown, ?_⟩
            rw [(apart.page page shown).1]
            by_contra browsing
            rw [client, Bool.eq_false_iff.mpr browsing] at changed
            exact changed rfl
          · exact updates
  · have passive : ∀ action, input ≠ .key (.action action) :=
      fun action same => active ⟨action, same⟩
    rcases step_reads apart.prompt fuel ofPage passive with ⟨msg, readsOnly, reads⟩
    refine ⟨apart.passes fuel ofPage visits passive, ⟨?_, ?_⟩⟩
    · intro floorno same
      exact absurd same (passive _)
    · intro exchange member kind
      rw [Client.eq_of_mem_exchangesSince reads.sends member] at kind
      rw [MessageCs.archiveRequest, kind] at readsOnly
      cases readsOnly

/-! ## Runs -/

/-- In a session that searches only when no visit has left the page collecting, only visits
for collecting collect, every update carries the number of an available shelf, and every
book stays where it can be found. -/
theorem visits_keep_modes (fuel : Nat) (mode : SqlMode) (collation : Char → Char → Bool)
    (accounts : List AccountRow) (bcrypt : Bcrypt) (salts : List (Option String))
    (sendFaults : List Bool) (history : List MessageCs) (loginUser : String)
    (inputs : List Input)
    (integrity : (Execution.run Server.step
      (.fresh mode collation accounts bcrypt salts sendFaults) history).db.archive.Integrity)
    (visible : (Execution.run Server.step
      (.fresh mode collation accounts bcrypt salts sendFaults) history).db.archive.Visible)
    (visits : Execution.Along (step fuel)
      (fun gui input => input.ofPage = true ∧ gui.VisitsApart input)
      (start (.connected (Execution.run Server.step
        (.fresh mode collation accounts bcrypt salts sendFaults) history) .empty .empty loginUser))
      inputs) :
    Execution.Always (step fuel)
        (fun gui => gui.client.link.server.db.archive.Integrity ∧
          gui.client.link.server.db.archive.Visible)
        (start (.connected (Execution.run Server.step
          (.fresh mode collation accounts bcrypt salts sendFaults) history) .empty .empty
          loginUser)) inputs ∧
      Execution.Along (step fuel) (KeepsModes fuel)
        (start (.connected (Execution.run Server.step
          (.fresh mode collation accounts bcrypt salts sendFaults) history) .empty .empty
          loginUser)) inputs := by
  have numbered := @Execution.run_invariant _ _ Server.step
    (fun server => server.db.archive.WellNumbered) Server.step_wellNumbered
    (.fresh mode collation accounts bcrypt salts sendFaults) Archive.wellNumbered_empty history
  generalize Execution.run Server.step _ history = server at integrity visible visits numbered ⊢
  have initial : (start (.connected server .empty .empty loginUser)).ModesApart := by
    refine ⟨⟨rfl, rfl, rfl⟩, ⟨numbered, integrity, visible⟩, .reset .empty, Int.le_refl 0, ?_, ?_⟩
    · intro collecting
      cases collecting
    · intro page shown
      cases shown
  apply Execution.always_and_along_of_along _ _ _ initial visits
  · intro gui input apart allowed
    exact (step_modes apart fuel allowed.1 allowed.2).1
  · intro gui apart
    exact ⟨apart.standing.integrity, apart.standing.visible⟩
  · intro gui input apart allowed
    exact (step_modes apart fuel allowed.1 allowed.2).2

instance (archive : Archive) : Decidable archive.Visible :=
  inferInstanceAs (Decidable (∀ row ∈ archive.books, _))

instance (gui : Ncgui) : (input : Input) → Decidable (gui.VisitsApart input)
  | .display shelfno collectMode none _ =>
      inferInstanceAs (Decidable (gui.shown.isNone →
        ¬(collectMode = true ∧ (none : Option (Char × BookEntry)).isSome = true) →
          gui.client.link.server.db.archive.ShelfAvailable shelfno))
  | .display _ collectMode (some (mark, entry)) _ =>
      inferInstanceAs (Decidable (gui.shown.isNone →
        ¬(collectMode = true ∧ (some (mark, entry)).isSome = true) →
          gui.bcollect = false ∧ listsShelved (some entry) nonSenseInt = true))
  | .key (.action action) =>
      inferInstanceAs (Decidable (∀ page ∈ gui.shown, gui.bcollect = false →
        BookAction.stores gui.localShelfno (gui.acted page) gui.bcollect action ≠ none →
          gui.curDbmPos page < gui.client.books.bookDbmPos))
  | .key .up => .isTrue trivial
  | .key .down => .isTrue trivial
  | .key .left => .isTrue trivial
  | .key (.right _) => .isTrue trivial
  | .key .backspace => .isTrue trivial
  | .call _ => .isTrue trivial
  | .newBook => .isTrue trivial

/-- A server with a shelf, a book on it and a book that has been set unsorted. -/
def modesServer : Server :=
  Execution.run Server.step Server.sample
    [clientBuildShelfMsg "reader" Server.sampleTime Server.sampleShelf,
      clientShelfInsertBookMsg "reader" Server.sampleTime (Server.sampleBook 1),
      clientShelfUnsortedBooksMsg "reader" 1,
      clientShelfInsertBookMsg "reader" Server.sampleTime (Server.sampleBook 1)]

/-- A visit with a search for every book. -/
def searchVisit (mark : Char) : Input :=
  .display 0 false (some (mark, { BookEntry.zeroed with
    name := "-"
    author := "-"
    label := "-"
    borrowed := '0'
    onReading := '0' })) .zeroed

/-- The shelf is looked at, the unsorted book is collected, the shelf is looked at again
and a book found by a search is lent. -/
def modesInputs : List Input :=
  [sampleVisit, .key (.action .reading), .key .backspace, .display 1 true none .zeroed,
    .key (.action (.collect 17)), .key .backspace, sampleVisit, .key .backspace,
    searchVisit 'a', .key .down, .key (.action .borrow), .key .backspace,
    .call (.booksCountSync .zeroed)]

theorem modes_kept_by_visits :
    Execution.Along (step 0) (fun gui input => input.ofPage = true ∧ gui.VisitsApart input)
        (start (.connected modesServer .empty .empty "reader")) modesInputs ∧
      Execution.Along (step 0) (KeepsModes 0)
        (start (.connected modesServer .empty .empty "reader")) modesInputs :=
  have visits : Execution.Along (step 0)
      (fun gui input => input.ofPage = true ∧ gui.VisitsApart input)
      (start (.connected modesServer .empty .empty "reader")) modesInputs := by
    decide +kernel
  ⟨visits, (visits_keep_modes 0 .strict _ [] _ [] [] _ "reader" modesInputs (by decide +kernel)
    (by decide +kernel) visits).2⟩

/-- A book of a search collected in a visit that is not for collecting. -/
theorem not_keepsModes {gui : Ncgui} {fuel : Nat} {floorno : Int}
    (visit : (gui.shown.map BookPage.collectMode) = some false)
    (moved : (gui.step fuel (.key (.action (.collect floorno)))).client.link.server.db.archive.books.map
      BookRow.shelfno ≠ gui.client.link.server.db.archive.books.map BookRow.shelfno) :
    ¬ gui.KeepsModes fuel (.key (.action (.collect floorno))) := by
  intro keeps
  have changed : (gui.step fuel (.key (.action (.collect floorno)))).client ≠ gui.client := by
    intro same
    rw [same] at moved
    exact moved rfl
  rcases keeps.collects floorno rfl changed with ⟨page, shown, collectMode⟩
  rw [shown, Option.map_some, collectMode] at visit
  cases visit

/-- A visit for collecting is followed by a search, and a book of the search is collected:
it is moved to no shelf at all. -/
theorem search_collects_book :
    modesServer.db.archive.Integrity ∧ modesServer.db.archive.Visible ∧
      ¬ Execution.Along (step 0) (KeepsModes 0)
        (start (.connected modesServer .empty .empty "reader"))
        [.display 1 true none .zeroed, .key .backspace, searchVisit 'a',
          .key (.action (.collect 17))] ∧
      ¬ Execution.Always (step 0) (fun gui => gui.client.link.server.db.archive.Visible)
        (start (.connected modesServer .empty .empty "reader"))
        [.display 1 true none .zeroed, .key .backspace, searchVisit 'a',
          .key (.action (.collect 17))] := by
  refine ⟨by decide +kernel, by decide +kernel, ?_, by decide +kernel⟩
  intro along
  exact not_keepsModes (by decide +kernel) (by decide +kernel) along.2.2.2.1

end Ncgui

end Bookshelfdq
