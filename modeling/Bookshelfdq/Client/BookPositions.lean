import Bookshelfdq.Client.Ncgui

/-! # Positions in the cache of books

What a page reads from the cache, and what requests do to the entries already there. -/

namespace Bookshelfdq

namespace BookCache

/-- Every position in use holds an entry. -/
def Filled (cache : BookCache) : Prop :=
  ∀ position < cache.bookDbmPos, (cache.bookData position).isSome

/-! ## Writing -/

/-- `after` has the entries of `before` but for the altered ones, and may have more. The
position of the next `clidb_book_get` is the same. -/
structure Extends (altered : Nat → Prop) (before after : BookCache) : Prop where
  dbmPos : before.bookDbmPos ≤ after.bookDbmPos
  data : ∀ position < before.bookDbmPos, ¬ altered position →
    after.bookData position = before.bookData position
  searchPos : after.bookSearchPos = before.bookSearchPos
  searchStep : after.bookSearchStep = before.bookSearchStep
  filled : before.Filled → after.Filled

variable {altered : Nat → Prop} {first second third : BookCache}

theorem Extends.refl (cache : BookCache) : Extends altered cache cache :=
  ⟨Nat.le_refl _, fun _ _ _ => rfl, rfl, rfl, id⟩

theorem Extends.trans (left : Extends altered first second)
    (right : Extends altered second third) : Extends altered first third := by
  refine ⟨left.dbmPos.trans right.dbmPos, ?_, right.searchPos.trans left.searchPos,
    right.searchStep.trans left.searchStep, fun filled => right.filled (left.filled filled)⟩
  intro position used unaltered
  have stillUsed := Nat.lt_of_lt_of_le used left.dbmPos
  rw [right.data position stillUsed unaltered, left.data position used unaltered]

theorem Extends.weaken {more : Nat → Prop} (implies : ∀ position, altered position → more position)
    (extended : Extends altered first second) : Extends more first second :=
  ⟨extended.dbmPos,
    fun position used unaltered => extended.data position used fun was =>
      unaltered (implies position was),
    extended.searchPos, extended.searchStep, extended.filled⟩

theorem extends_insertAt (book : BookEntry) (position : Nat) (cache : BookCache) :
    Extends (· = position) cache (cache.clidbBookInsertAt book position) := by
  refine ⟨Nat.le_refl _, fun other _ unaltered => Function.update_of_ne unaltered _ _, rfl, rfl, ?_⟩
  intro filled other used
  by_cases same : other = position
  · simp [clidbBookInsertAt, same]
  · simp only [clidbBookInsertAt, Function.update_of_ne same]
    exact filled other used

theorem extends_delete (position : Nat) (cache : BookCache) :
    Extends (· = position) cache (cache.clidbBookDelete position) := by
  rw [clidbBookDelete]
  cases cache.clidbBookPeek position with
  | none => exact .refl cache
  | some book => exact extends_insertAt _ position cache

theorem extends_insert (book : BookEntry) (cache : BookCache) :
    Extends altered cache (cache.clidbBookInsert book) := by
  refine ⟨Nat.le_succ _, fun position used _ => ?_, rfl, rfl, ?_⟩
  · exact Function.update_of_ne (Nat.ne_of_lt used) _ _
  · intro filled position used
    by_cases last : position = cache.bookDbmPos
    · simp [clidbBookInsert, clidbBookInsertAt, last]
    · have earlier : position < cache.bookDbmPos := Nat.lt_of_le_of_ne (Nat.le_of_lt_succ used) last
      simp only [clidbBookInsert, clidbBookInsertAt, Function.update_of_ne last]
      exact filled position earlier

theorem extends_appendBooks (books : List BookEntry) (cache : BookCache) :
    Extends altered cache (cache.appendBooks books) := by
  induction books generalizing cache with
  | nil => exact .refl cache
  | cons book books induction =>
      exact (extends_insert book cache).trans (induction (cache.clidbBookInsert book))

theorem bookDbmPos_appendBooks (books : List BookEntry) (cache : BookCache) :
    (cache.appendBooks books).bookDbmPos = cache.bookDbmPos + books.length := by
  induction books generalizing cache with
  | nil => rfl
  | cons book books induction =>
      have rest := induction (cache.clidbBookInsert book)
      simp only [appendBooks, List.foldl_cons, List.length_cons] at rest ⊢
      rw [rest]
      simp only [clidbBookInsert]
      omega

/-! ## Reading -/

/-- `rows` are the entries read one after the other from `before`, which is `after` then. -/
structure Read (before after : BookCache) (rows : List (Nat × BookEntry)) : Prop where
  entries : ∀ line row, rows[line]? = some row →
    row.1 = before.bookSearchPos + line ∧ before.bookData row.1 = some row.2
  data : after.bookData = before.bookData
  dbmPos : after.bookDbmPos = before.bookDbmPos
  searchPos : after.bookSearchPos = before.bookSearchPos + rows.length
  inside : rows ≠ [] → after.bookSearchPos ≤ after.bookDbmPos
  searchStep : after.bookSearchStep = before.bookSearchStep

theorem Read.filled {before after : BookCache} {rows : List (Nat × BookEntry)}
    (read : before.Read after rows) (filled : before.Filled) : after.Filled := by
  rw [Filled, read.data, read.dbmPos]
  exact filled

/-- Reading nothing leaves the cache as it is. -/
theorem Read.extends {before after : BookCache} (read : before.Read after []) :
    before.Extends altered after :=
  ⟨Nat.le_of_eq read.dbmPos.symm, fun position _ _ => congrFun read.data position, read.searchPos,
    read.searchStep, read.filled⟩

theorem clidbBookGet_cases {cache : BookCache} (filled : cache.Filled) :
    (cache.bookDbmPos ≤ cache.bookSearchPos ∧ cache.clidbBookGet = (.finished, cache)) ∨
    (cache.bookSearchStep ≤ cache.bookSearchCnt ∧ cache.clidbBookGet =
      (.finished, { cache with bookSearchCnt := cache.bookSearchCnt + 1 })) ∨
    (cache.bookSearchPos < cache.bookDbmPos ∧ cache.bookSearchCnt < cache.bookSearchStep ∧
      ∃ book, cache.bookData cache.bookSearchPos = some book ∧ cache.clidbBookGet =
        (.entry book, { cache with
          bookSearchCnt := cache.bookSearchCnt + 1
          bookSearchPos := cache.bookSearchPos + 1 })) := by
  rw [clidbBookGet]
  by_cases ended : cache.bookDbmPos ≤ cache.bookSearchPos
  · exact .inl ⟨ended, if_pos ended⟩
  · have used : cache.bookSearchPos < cache.bookDbmPos := Nat.lt_of_not_le ended
    rw [if_neg ended]
    by_cases full : cache.bookSearchStep ≤ cache.bookSearchCnt
    · exact .inr (.inl ⟨full, if_pos (Nat.lt_succ_of_le full)⟩)
    · have room : cache.bookSearchCnt < cache.bookSearchStep := Nat.lt_of_not_le full
      rcases Option.isSome_iff_exists.mp (filled _ used) with ⟨book, found⟩
      refine .inr (.inr ⟨used, room, book, found, ?_⟩)
      rw [found]
      exact if_neg (Nat.not_lt_of_le room)

/-- The loop reads what there is, up to the end of the page. -/
theorem getPage_read (fuel : Nat) {cache : BookCache} (filled : cache.Filled)
    (counted : cache.bookSearchCnt ≤ cache.bookSearchStep)
    (enough : cache.bookSearchStep < cache.bookSearchCnt + fuel) :
    ∃ rows, (cache.getPage fuel).1 = some rows ∧
      rows.length = min (cache.bookSearchStep - cache.bookSearchCnt)
        (cache.bookDbmPos - cache.bookSearchPos) ∧
      cache.Read (cache.getPage fuel).2 rows := by
  induction fuel generalizing cache with
  | zero => omega
  | succ fuel induction =>
      rw [getPage]
      rcases clidbBookGet_cases filled with
        ⟨ended, got⟩ | ⟨full, got⟩ | ⟨used, room, book, found, got⟩
      · rw [got]
        refine ⟨[], rfl, ?_, by simp, rfl, rfl, rfl, fun some => absurd rfl some, rfl⟩
        simp only [List.length_nil]
        omega
      · rw [got]
        refine ⟨[], rfl, ?_, by simp, rfl, rfl, rfl, fun some => absurd rfl some, rfl⟩
        simp only [List.length_nil]
        omega
      · rw [got]
        have next := @induction
          { cache with
            bookSearchCnt := cache.bookSearchCnt + 1
            bookSearchPos := cache.bookSearchPos + 1 } filled room (by dsimp only; omega)
        dsimp only at next ⊢
        rcases next with ⟨rows, printed, size, read⟩
        refine ⟨(cache.bookSearchPos, book) :: rows, by rw [printed]; rfl, ?_, ?_, read.data,
          read.dbmPos, ?_, fun _ => ?_, read.searchStep⟩
        · rw [List.length_cons, size]
          omega
        · intro line row entry
          cases line with
          | zero =>
              cases entry
              exact ⟨rfl, found⟩
          | succ line =>
              rcases read.entries line row entry with ⟨position, stored⟩
              exact ⟨by rw [position]; dsimp only; omega, stored⟩
        · rw [read.searchPos, List.length_cons]
          dsimp only
          omega
        · rw [read.searchPos, read.dbmPos, size]
          dsimp only
          omega

theorem printPage_read {cache : BookCache} (filled : cache.Filled) :
    ∃ rows, cache.printPage.1 = some rows ∧
      rows.length = min padHight (cache.bookDbmPos - cache.bookSearchPos) ∧
      (cache.clidbBookSearchStep padHight).Read cache.printPage.2 rows := by
  have stepped : (cache.clidbBookSearchStep padHight).Filled := filled
  have enough : padHight < 0 + (padHight + 1) := by omega
  exact getPage_read (padHight + 1) stepped (Nat.zero_le _) enough

end BookCache

/-! ## Requests -/

namespace Client

/-- The receive loop appends books to the cache and does not look at it. It reports
`-1` only if there were none. -/
theorem findLoop_appends (flagNotCached : Bool) (fuel nfinds : Nat) (msg : MessageCs)
    (client : Client) :
    ∃ result reply link added, (result = -1 → nfinds = 0 ∧ added = []) ∧
      ∀ books, (client.withBooks books).findLoop flagNotCached fuel nfinds msg =
        (result, reply, { client with link := link, books := books.appendBooks added }) := by
  induction fuel generalizing nfinds msg client with
  | zero => exact ⟨0, msg, client.link, [], by simp, fun _ => rfl⟩
  | succ fuel induction =>
      simp only [findLoop, receive, withBooks]
      rcases client.link.socketClientGetResponse with ⟨_ | reply, link⟩
      · exact ⟨0, msg, link, [], by simp, fun _ => rfl⟩
      · dsimp only
        cases reply.response with
        | failed => exact ⟨0, reply, link, [], by simp, fun _ => rfl⟩
        | findEnd =>
            refine ⟨if nfinds = 0 then -1 else 1, reply, link, [], ?_, fun _ => rfl⟩
            by_cases first : nfinds = 0 <;> simp [first]
        | findEndMore => exact ⟨1, reply, link, [], by simp, fun _ => rfl⟩
        | success =>
            dsimp only
            by_cases kind : reply.request = .findBook
            · rcases induction (nfinds + 1) reply { client with link := link } with
                ⟨result, last, later, added, ended, loop⟩
              have ended : result = -1 → False := fun none => nomatch (ended none).1
              simp only [if_pos kind]
              cases flagNotCached with
              | true => exact ⟨result, last, later, added, fun none => (ended none).elim, loop⟩
              | false =>
                  exact ⟨result, last, later, reply.stuff.book :: added,
                    fun none => (ended none).elim,
                    fun books => loop (books.clidbBookInsert reply.stuff.book)⟩
            · simp only [if_neg kind]
              exact ⟨1, reply, link, [], by simp, fun _ => rfl⟩

theorem findFromServer_appends (msg : MessageCs) (client : Client) :
    ∃ result reply link added, (result = -1 → added = []) ∧
      ∀ books, (client.withBooks books).findFromServer msg =
        (result, reply, { client with link := link, books := books.appendBooks added }) := by
  simp only [findFromServer, send, withBooks]
  rcases client.link.socketClientSendRequest msg with ⟨_ | _, link⟩
  · exact ⟨0, msg, link, [], by simp, fun _ => rfl⟩
  · dsimp only
    rcases findLoop_appends (msg.request == .findBook && msg.stuff.book.bookno == breakLimitInt)
      (link.inbox.length + 1) 0 msg { client with link := link } with
      ⟨result, reply, later, added, ended, loop⟩
    exact ⟨result, reply, later, added, fun none => (ended none).2, loop⟩

theorem findFromServer_extends {altered : Nat → Prop} (msg : MessageCs) (client : Client) :
    client.books.Extends altered (client.findFromServer msg).2.2.books := by
  rcases findFromServer_appends msg client with ⟨result, reply, link, added, _, found⟩
  have result := found client.books
  rw [withBooks] at result
  rw [result]
  exact BookCache.extends_appendBooks added client.books

/-! ## The next page -/

section NextPage

variable (search : Option BookEntry) (shelfno bookno stale : Int)

/-- No cached book is left, and the request for more fails. -/
def LoadFails (client : Client) : Prop :=
  client.books.bookDbmPos ≤ client.books.bookSearchPos ∧
    (client.loadBooks search shelfno bookno).1 = 0

/-- The number of books behind the page, those in the cache or else those that the
request for more brings. -/
def booksAhead (client : Client) : Nat :=
  if client.books.bookSearchPos < client.books.bookDbmPos then
    client.books.bookDbmPos - client.books.bookSearchPos
  else
    (client.loadBooks search shelfno bookno).2.books.bookDbmPos - client.books.bookSearchPos

theorem loadBooks_appends (client : Client) :
    ∃ result link added, (result = -1 → added = []) ∧
      ∀ books, (client.withBooks books).loadBooks search shelfno bookno =
        (result, { client with link := link, books := books.appendBooks added }) := by
  cases search with
  | none =>
      rcases findFromServer_appends (clientShelfLoadingBookMsg client.loginUser shelfno bookno)
        client with ⟨result, reply, link, added, ended, found⟩
      refine ⟨result, link, added, ended, fun books => ?_⟩
      simp only [loadBooks, withBooks] at found ⊢
      rw [found]
  | some searchEntry =>
      rcases findFromServer_appends (clientSearchingBookMsg client.loginUser bookno searchEntry)
        client with ⟨result, reply, link, added, ended, found⟩
      refine ⟨result, link, added, ended, fun books => ?_⟩
      simp only [loadBooks, withBooks] at found ⊢
      rw [found]

/-- What `next_page_bookinfo` can do. -/
theorem nextPageBookinfo_cases {client : Client} (filled : client.books.Filled) :
    (client.LoadFails search shelfno bookno ∧
      (client.nextPageBookinfo search shelfno bookno stale).1 = none ∧
      (client.books.clidbBookSearchStep padHight).Extends (fun _ => False)
        (client.nextPageBookinfo search shelfno bookno stale).2.2.books) ∨
    ∃ rows grown, ¬ client.LoadFails search shelfno bookno ∧
      (client.nextPageBookinfo search shelfno bookno stale).1 = some rows ∧
      rows.length = min padHight (client.booksAhead search shelfno bookno) ∧
      (client.books.clidbBookSearchStep padHight).Extends (fun _ => False) grown ∧
      grown.Read (client.nextPageBookinfo search shelfno bookno stale).2.2.books rows := by
  rcases BookCache.printPage_read filled with ⟨rows, printed, size, read⟩
  rw [nextPageBookinfo]
  generalize client.books.printPage = page at printed read ⊢
  rcases page with ⟨_, books⟩
  dsimp only at printed read
  subst printed
  cases rows with
  | cons row rows =>
      have cached : client.books.bookSearchPos < client.books.bookDbmPos := by
        rw [List.length_cons] at size
        omega
      refine .inr ⟨row :: rows, _, fun fails => ?_, rfl, ?_, .refl _, read⟩
      · exact absurd fails.1 (Nat.not_le_of_lt cached)
      · rw [booksAhead, if_pos cached]
        exact size
  | nil =>
      have ended : client.books.bookDbmPos ≤ client.books.bookSearchPos := by
        have positive : 0 < padHight := by decide
        rw [List.length_nil] at size
        omega
      rcases loadBooks_appends search shelfno bookno client with ⟨result, link, added, none, loads⟩
      have load : client.loadBooks search shelfno bookno =
          (result, { client with link := link, books := client.books.appendBooks added }) :=
        loads client.books
      have ahead : client.booksAhead search shelfno bookno =
          client.books.bookDbmPos + added.length - client.books.bookSearchPos := by
        rw [booksAhead, if_neg (Nat.not_lt_of_le ended), load]
        exact congrArg (· - _) (BookCache.bookDbmPos_appendBooks added client.books)
      have appended : (client.books.clidbBookSearchStep padHight).Extends (fun _ => False)
          (books.appendBooks added) :=
        read.extends.trans (BookCache.extends_appendBooks added books)
      have fails : client.LoadFails search shelfno bookno ↔ result = 0 := by
        rw [LoadFails, load, and_iff_right ended]
      dsimp only
      rw [loads]
      dsimp only
      by_cases failed : result = 0
      · rw [if_pos failed]
        exact .inl ⟨fails.mpr failed, rfl, appended⟩
      · rw [if_neg failed]
        have answered : ¬ client.LoadFails search shelfno bookno := fun load =>
          failed (fails.mp load)
        by_cases finished : result = -1
        · rw [if_pos finished]
          have empty := none finished
          subst empty
          refine .inr ⟨[], _, answered, rfl, ?_, .refl _, read⟩
          rw [ahead, List.length_nil, List.length_nil]
          omega
        · rw [if_neg finished]
          rcases BookCache.printPage_read (appended.filled filled) with
            ⟨rows, printed, size, readMore⟩
          generalize (books.appendBooks added).printPage = page at printed readMore ⊢
          rcases page with ⟨_, after⟩
          dsimp only at printed readMore
          subst printed
          refine .inr ⟨rows, _, answered, rfl, ?_, ?_, readMore⟩
          · rw [size, ahead, BookCache.bookDbmPos_appendBooks, appended.searchPos, read.dbmPos]
            rfl
          · exact ⟨appended.dbmPos, appended.data, appended.searchPos, rfl, appended.filled⟩

end NextPage

end Client

end Bookshelfdq
