import Bookshelfdq.Server.ShelfIntegrity

/-! # Deleted books stay deleted

One client session against its server. A row marked deleted should come back into
use only through an insertion that reuses its number. The one request that breaks
this sets all books of a shelf unsorted, the deleted ones included. -/

namespace Bookshelfdq

/-! ## A session -/

namespace SessionRequest

/-- The book of the cache that a request acts on through an update. -/
def actsOn : SessionRequest → Option Int
  | taggingBook book => some book.bookno
  | collectingBook _ book => some book.bookno
  | movingBook book _ => some book.bookno
  | _ => none

/-- The shelf whose books a request sets unsorted. -/
def unsorts : SessionRequest → Option Int
  | unsortedBooks shelfno => some shelfno
  | _ => none

def asks : SessionRequest → Bool
  | loadingBook _ _ => true
  | searchingBook _ _ => true
  | countBook _ => true
  | _ => false

end SessionRequest

def Archive.live (archive : Archive) (bookno : Int) : Bool :=
  archive.books.any fun row => row.bookno == bookno && row.cleaned != .del

/-- The number in each row of a reply to a find request. -/
def listedNumbers (replies : List MessageCs) : List Int :=
  (replies.filter fun reply => reply.request == .findBook && reply.response == .success).map
    fun reply => reply.stuff.book.bookno

/-- `listed` are the numbers of the books the session has received in a listing
and not deleted since. -/
structure Session where
  server : Server
  loginUser : String
  listed : List Int

namespace Session

def answer (session : Session) (request : SessionRequest) : Answer :=
  socketSrvHandle (request.message session.loginUser) session.server

def step (session : Session) (request : SessionRequest) : Session :=
  let answer := session.answer request
  { session with
    server := answer.2.2
    listed := (session.listed ++ listedNumbers answer.2.1).filter
      answer.2.2.db.archive.live }

theorem step_server (session : Session) (request : SessionRequest) :
    (session.step request).server =
      session.server.step (request.message session.loginUser) := rfl

/-- An update is about a book that is listed and not deleted. -/
def ActsOnListed (session : Session) (request : SessionRequest) : Prop :=
  ∀ bookno ∈ request.actsOn, bookno ∈ session.listed

/-! ## The law -/

/-- The request is an insertion that was given the number `bookno`. -/
def Reuses (session : Session) (request : SessionRequest) (bookno : Int) : Prop :=
  (request.message session.loginUser).request = .insertBook ∧
    (srvdbBookInsert (request.message session.loginUser) session.server.db).1 = true ∧
    (srvdbBookInsert (request.message session.loginUser)
      session.server.db).2.1.stuff.book.bookno = bookno

def DeletedStay (session : Session) (request : SessionRequest) : Prop :=
  ∀ row ∈ session.server.db.archive.books, row.cleaned = .del →
    (∀ later ∈ (session.step request).server.db.archive.books, later.bookno = row.bookno →
      later.cleaned = .del) ∨ session.Reuses request row.bookno

/-- Setting a shelf's books unsorted, if it comes to that, finds none of them
deleted. -/
def UnsortsLive (session : Session) (request : SessionRequest) : Prop :=
  ∀ shelfno ∈ request.unsorts, shelfno ≠ nonSenseInt →
    session.loginUser ≠ "" → session.server.db.nextFault = false →
      ∀ row ∈ session.server.db.archive.books, row.shelfno = shelfno → row.cleaned ≠ .del

/-- What a session relies on. -/
structure Sound (session : Session) : Prop where
  numbered : session.server.db.archive.WellNumbered
  listed : ∀ bookno ∈ session.listed, session.server.db.archive.live bookno = true

theorem Sound.step {session : Session} (sound : session.Sound) (request : SessionRequest) :
    (session.step request).Sound := by
  refine ⟨session.server.step_wellNumbered _ sound.numbered, ?_⟩
  intro bookno member
  exact (List.mem_filter.mp member).2

end Session

/-! ## What the requests do to a deleted row -/

theorem BookEntry.namesShelf_iff (book : BookEntry) :
    book.namesShelf = true ↔ book.bookno = nonSenseInt ∧ book.shelfno ≠ nonSenseInt := by
  simp [namesShelf]

theorem Archive.WellNumbered.bookno_ne {archive : Archive} (numbered : archive.WellNumbered)
    {row : BookRow} (member : row ∈ archive.books) : row.bookno ≠ nonSenseInt := by
  rcases numbered with ⟨⟨count, _, numbered⟩, _⟩
  have bounds := (numbered.mem_iff row.bookno).mp ⟨row, member, rfl⟩
  intro zero
  rw [zero] at bounds
  exact absurd bounds.1 (by decide)

theorem Archive.live_iff {archive : Archive} (numbered : archive.WellNumbered) {row : BookRow}
    (member : row ∈ archive.books) : archive.live row.bookno = true ↔ row.cleaned ≠ .del := by
  rcases numbered with ⟨⟨count, _, numbered⟩, _⟩
  simp only [live, List.any_eq_true, Bool.and_eq_true, beq_iff_eq, bne_iff_ne]
  constructor
  · intro alive
    rcases alive with ⟨other, otherMem, equal, flag⟩
    rwa [numbered.key_injective otherMem member equal] at flag
  · intro flag
    exact ⟨row, member, rfl, flag⟩

theorem Archive.cleanBooks_del_of_unselected {archive : Archive}
    (numbered : archive.WellNumbered) {cleaned : BookCleaned} {selected : BookRow → Bool}
    {row later : BookRow} (member : row ∈ archive.books) (deleted : row.cleaned = .del)
    (laterMem : later ∈ (archive.cleanBooks cleaned selected).books)
    (equal : later.bookno = row.bookno) (spared : cleaned = .del ∨ selected row = false) :
    later.cleaned = .del := by
  rcases numbered with ⟨⟨count, _, numbered⟩, _⟩
  have updated := Table.update_total selected (BookRow.clean cleaned) archive.books
  have keeps : ∀ row changed, some (BookRow.clean cleaned row) = some changed →
      changed.bookno = row.bookno := by
    intro row changed same
    rw [← Option.some.inj same]
    rfl
  have becomes := numbered.becomes keeps updated member laterMem equal
  rw [Table.Becomes] at becomes
  rcases spared with wiped | unselected
  · split at becomes
    · rw [← Option.some.inj becomes]
      exact wiped
    · rw [← Option.some.inj becomes]
      exact deleted
  · rw [unselected] at becomes
    rw [← Option.some.inj becomes]
    exact deleted

theorem srvdbBookInsert_deleted {msg : MessageCs} {db : Mysql}
    (numbered : db.archive.WellNumbered) {row later : BookRow}
    (member : row ∈ db.archive.books) (deleted : row.cleaned = .del)
    (laterMem : later ∈ (srvdbBookInsert msg db).2.2.archive.books)
    (equal : later.bookno = row.bookno)
    (other : ¬((srvdbBookInsert msg db).1 = true ∧
      (srvdbBookInsert msg db).2.1.stuff.book.bookno = row.bookno)) :
    later.cleaned = .del := by
  have contract := srvdbBookInsert_contract msg db numbered.1
  have kept : row ∈ (srvdbBookInsert msg db).2.2.archive.books := by
    cases outcome : (srvdbBookInsert msg db).1 with
    | false =>
        rw [contract.unchanged outcome]
        exact member
    | true =>
        rcases contract.given outcome with ⟨number, answered, given⟩
        apply given.keeps member
        left
        intro same
        apply other
        refine ⟨outcome, ?_⟩
        rw [answered]
        exact same.symm
  rcases contract.numbered with ⟨count, _, numbered⟩
  rw [numbered.key_injective laterMem kept equal]
  exact deleted

theorem srvdbBookDelete_deleted {msg : MessageCs} {db : Mysql}
    (numbered : db.archive.WellNumbered) {row later : BookRow}
    (member : row ∈ db.archive.books) (deleted : row.cleaned = .del)
    (laterMem : later ∈ (srvdbBookDelete msg db).2.archive.books)
    (equal : later.bookno = row.bookno) : later.cleaned = .del := by
  rcases srvdbBookDelete_cases msg db with ⟨after, result, archive⟩ | ⟨after, result, archive⟩
  · rw [result, archive] at laterMem
    rcases numbered with ⟨⟨count, _, numbered⟩, _⟩
    rw [numbered.key_injective laterMem member equal]
    exact deleted
  · rw [result, archive] at laterMem
    exact Archive.cleanBooks_del_of_unselected numbered member deleted laterMem equal (.inl rfl)

theorem srvdbBookUpdate_deleted {msg : MessageCs} {db : Mysql}
    (numbered : db.archive.WellNumbered) {row later : BookRow}
    (member : row ∈ db.archive.books) (deleted : row.cleaned = .del)
    (laterMem : later ∈ (srvdbBookUpdate msg db).2.archive.books)
    (equal : later.bookno = row.bookno)
    (wholeApart : (srvdbBookUpdate msg db).1 = true → msg.stuff.book.namesShelf = true →
      row.shelfno ≠ msg.stuff.book.shelfno)
    (singleApart : msg.stuff.book.namesShelf = false → row.bookno ≠ msg.stuff.book.bookno) :
    later.cleaned = .del := by
  rcases srvdbBookUpdate_cases msg db with ⟨after, result, archive⟩ |
    ⟨after, result, whole, archive⟩ | ⟨after, books, result, single, updated, archive⟩
  · rw [result, archive] at laterMem
    rcases numbered with ⟨⟨count, _, numbered⟩, _⟩
    rw [numbered.key_injective laterMem member equal]
    exact deleted
  · rw [result, archive] at laterMem
    have apart := wholeApart (by rw [result]) whole
    exact Archive.cleanBooks_del_of_unselected numbered member deleted laterMem equal
      (.inr (by simpa using apart))
  · rw [result, archive] at laterMem
    rcases numbered with ⟨⟨count, _, numbered⟩, _⟩
    have keeps : ∀ row changed : BookRow, msg.stuff.book.row db.mode row.bookno = some changed →
        changed.bookno = row.bookno := fun row changed fits => (BookEntry.row_eq_some fits).1
    have becomes := numbered.becomes keeps updated member laterMem equal
    rw [Table.Becomes, if_neg (by simpa using singleApart single)] at becomes
    rw [← Option.some.inj becomes]
    exact deleted

theorem execute_true {msg : MessageCs} {statement : Mysql → Option Mysql} {db : Mysql}
    (done : (execute msg statement db).1 = true) : msg.user ≠ "" ∧ db.nextFault = false := by
  rw [execute] at done
  split at done
  · cases done
  · rename_i named
    rw [mysqlQuery] at done
    split at done
    · cases done
    · rename_i healthy
      exact ⟨named, by simpa using healthy⟩

theorem srvdbBookUpdate_true {msg : MessageCs} {db : Mysql}
    (done : (srvdbBookUpdate msg db).1 = true) : msg.user ≠ "" ∧ db.nextFault = false := by
  simp only [srvdbBookUpdate] at done
  split at done
  · exact execute_true done
  · exact execute_true done

theorem step_unsortedBooks {db : Mysql} {loginUser : String} {shelfno : Int}
    (named : loginUser ≠ "") (real : shelfno ≠ nonSenseInt) (healthy : db.nextFault = false) :
    (srvdbBookUpdate (clientShelfUnsortedBooksMsg loginUser shelfno) db).2.archive =
      db.archive.cleanBooks .unsorted (fun row => row.shelfno == shelfno) := by
  have whole : (clientShelfUnsortedBooksMsg loginUser shelfno).stuff.book.namesShelf = true :=
    (BookEntry.namesShelf_iff _).mpr ⟨rfl, real⟩
  rcases updateBooks_clean .unsorted (fun row => row.shelfno == shelfno) db.advance with
    ⟨after, accepts, archive⟩
  have sender : (clientShelfUnsortedBooksMsg loginUser shelfno).user ≠ "" := named
  have done : srvdbBookUpdate (clientShelfUnsortedBooksMsg loginUser shelfno) db =
      (true, after) := by
    simp only [srvdbBookUpdate, whole, if_true]
    exact execute_of_healthy sender healthy accepts
  rw [done]
  exact archive

theorem movedBook_bookno (book : BookEntry) (moveAction : Int) :
    (movedBook book moveAction).1.bookno = book.bookno := by
  rw [movedBook]
  split
  · rfl
  · split
    · split
      · rfl
      · split <;> rfl
    · rfl

namespace Session

theorem deletedStay_of_books {session : Session} {request : SessionRequest}
    (sound : session.Sound)
    (books : (session.step request).server.db.archive.books =
      session.server.db.archive.books) : session.DeletedStay request := by
  intro row member deleted
  left
  intro later laterMem equal
  rw [books] at laterMem
  rcases sound.numbered with ⟨⟨count, _, numbered⟩, _⟩
  rw [numbered.key_injective laterMem member equal]
  exact deleted

theorem deletedStay_of_reads {session : Session} {request : SessionRequest}
    (sound : session.Sound)
    (readsOnly : (request.message session.loginUser).archiveRequest = none) :
    session.DeletedStay request := by
  apply deletedStay_of_books sound
  rw [step_server, (Server.step_reads readsOnly).archive]

/-- The rows an update of a single book leaves alone, seen from the session. -/
theorem deletedStay_of_update {session : Session} {request : SessionRequest}
    (sound : session.Sound) {book : BookEntry}
    (message : request.message session.loginUser =
      clientShelfTaggingBookMsg session.loginUser book)
    (listed : book.bookno ∈ session.listed) : session.DeletedStay request := by
  have written : (request.message session.loginUser).archiveRequest =
      some (.bookUpdate (clientShelfTaggingBookMsg session.loginUser book)) := by
    rw [message]
    rfl
  have alive := sound.listed book.bookno listed
  have positive : book.bookno ≠ nonSenseInt := by
    simp only [Archive.live, List.any_eq_true, Bool.and_eq_true, beq_iff_eq] at alive
    rcases alive with ⟨row, rowMem, equal, _⟩
    exact equal ▸ sound.numbered.bookno_ne rowMem
  intro row member deleted
  left
  intro later laterMem equal
  rw [step_server, Server.step_of_archiveRequest written] at laterMem
  apply srvdbBookUpdate_deleted sound.numbered member deleted laterMem equal
  · intro _ whole
    exact absurd ((BookEntry.namesShelf_iff _).mp whole).1 positive
  · intro _ same
    have same : row.bookno = book.bookno := same
    rw [← same, Archive.live_iff sound.numbered member] at alive
    exact alive deleted

theorem deletedStay_of_insert {session : Session} (sound : session.Sound) (time : PlainText)
    (book : BookEntry) : session.DeletedStay (.insertBook time book) := by
  intro row member deleted
  by_cases reused : session.Reuses (.insertBook time book) row.bookno
  · exact .inr reused
  · left
    intro later laterMem equal
    have written : ((SessionRequest.insertBook time book).message
        session.loginUser).archiveRequest = some (.bookInsert
          (clientShelfInsertBookMsg session.loginUser time book)) := rfl
    rw [step_server, Server.step_of_archiveRequest written] at laterMem
    apply srvdbBookInsert_deleted sound.numbered member deleted laterMem equal
    intro given
    exact reused ⟨rfl, given⟩

theorem deletedStay_of_delete {session : Session} {request : SessionRequest}
    (sound : session.Sound) {msg : MessageCs}
    (written : (request.message session.loginUser).archiveRequest = some (.bookDelete msg)) :
    session.DeletedStay request := by
  intro row member deleted
  left
  intro later laterMem equal
  rw [step_server, Server.step_of_archiveRequest written] at laterMem
  exact srvdbBookDelete_deleted sound.numbered member deleted laterMem equal

/-- The rows of a shelf that are set unsorted are none of the deleted ones. -/
theorem deletedStay_of_unsorted {session : Session} {shelfno : Int} (sound : session.Sound)
    (live : session.UnsortsLive (.unsortedBooks shelfno)) :
    session.DeletedStay (.unsortedBooks shelfno) := by
  intro row member deleted
  left
  intro later laterMem equal
  have written : ((SessionRequest.unsortedBooks shelfno).message
      session.loginUser).archiveRequest = some (.bookUpdate
        (clientShelfUnsortedBooksMsg session.loginUser shelfno)) := rfl
  rw [step_server, Server.step_of_archiveRequest written] at laterMem
  apply srvdbBookUpdate_deleted sound.numbered member deleted laterMem equal
  · intro done whole standing
    have real : shelfno ≠ nonSenseInt := ((BookEntry.namesShelf_iff _).mp whole).2
    rcases srvdbBookUpdate_true done with ⟨named, healthy⟩
    exact live shelfno rfl real named healthy row member standing deleted
  · intro _ none
    exact absurd none (sound.numbered.bookno_ne member)

theorem deletedStay_of_unsortsLive {session : Session} {request : SessionRequest}
    (sound : session.Sound) (acts : session.ActsOnListed request)
    (live : session.UnsortsLive request) : session.DeletedStay request := by
  cases request with
  | insertBook time book => exact deletedStay_of_insert sound time book
  | deleteBook book => exact deletedStay_of_delete sound rfl
  | abandonBooks shelfno => exact deletedStay_of_delete sound rfl
  | unsortedBooks shelfno => exact deletedStay_of_unsorted sound live
  | taggingBook book => exact deletedStay_of_update sound rfl (acts _ rfl)
  | collectingBook shelfno book =>
      have listed : book.bookno ∈ session.listed := acts _ rfl
      exact deletedStay_of_update sound rfl listed
  | movingBook book moveAction =>
      have listed : book.bookno ∈ session.listed := acts _ rfl
      exact deletedStay_of_update sound rfl ((movedBook_bookno book moveAction).symm ▸ listed)
  | buildShelf time shelf =>
      apply deletedStay_of_books sound
      have written : ((SessionRequest.buildShelf time shelf).message
          session.loginUser).archiveRequest = some (.shelfBuild
            (clientBuildShelfMsg session.loginUser time shelf)) := rfl
      rw [step_server, Server.step_of_archiveRequest written]
      exact srvdbShelfBuild_books _ _ sound.numbered.2
  | deleteItself shelfno =>
      apply deletedStay_of_books sound
      rw [step_server]
      exact Server.step_removeShelf_books rfl
  | loadingBook shelfno bookno => exact deletedStay_of_reads sound rfl
  | searchingBook bookno searchEntry => exact deletedStay_of_reads sound rfl
  | countBook shelfno => exact deletedStay_of_reads sound rfl

theorem unsortsLive_of_deletedStay {session : Session} {request : SessionRequest}
    (stay : session.DeletedStay request) : session.UnsortsLive request := by
  intro shelfno equal real named healthy row member standing deleted
  cases request <;> simp only [SessionRequest.unsorts, Option.mem_def, reduceCtorEq,
    Option.some.injEq] at equal
  subst equal
  rename_i shelfno
  have written : ((SessionRequest.unsortedBooks shelfno).message
      session.loginUser).archiveRequest = some (.bookUpdate
        (clientShelfUnsortedBooksMsg session.loginUser shelfno)) := rfl
  have unsorted : row.clean .unsorted ∈
      (session.step (.unsortedBooks shelfno)).server.db.archive.books := by
    rw [step_server, Server.step_of_archiveRequest written, ArchiveRequest.perform,
      step_unsortedBooks named real healthy]
    exact List.mem_map.mpr ⟨row, member, by simp [standing]⟩
  rcases stay row member deleted with kept | reused
  · cases kept _ unsorted rfl
  · cases reused.1

end Session

/-! ## Listings and counts do not see deleted books -/

def Mysql.withoutDeleted (db : Mysql) : Mysql :=
  { db with archive := { db.archive with
      books := db.archive.books.filter fun row => row.cleaned != .del } }

def Server.withoutDeleted (server : Server) : Server := server.withDb server.db.withoutDeleted

theorem bookWhere_live {collation : Char → Char → Bool} {book : BookEntry}
    {selected : BookRow → Bool} (condition : bookWhere collation book = some selected)
    {row : BookRow} (chosen : selected row = true) : row.cleaned ≠ .del := by
  intro deleted
  rw [bookWhere] at condition
  split at condition
  · rw [← Option.some.inj condition] at chosen
    simp [deleted] at chosen
  · split at condition
    · rw [← Option.some.inj condition] at chosen
      simp [deleted] at chosen
    · split at condition
      · rw [← Option.some.inj condition] at chosen
        simp [deleted] at chosen
      · split at condition
        · rw [← Option.some.inj condition] at chosen
          simp [deleted] at chosen
        · cases condition

theorem selectBooks_withoutDeleted {collation : Char → Char → Bool} {book : BookEntry}
    (listing : pointsAtBook book = false) (books : List BookRow) :
    selectBooks collation book (books.filter fun row => row.cleaned != .del) =
      selectBooks collation book books := by
  cases condition : bookWhere collation book with
  | none => simp [selectBooks, listing, condition]
  | some selected =>
      have same : ∀ start : Int, (books.filter fun row => row.cleaned != .del).filter
          (fun row => selected row && decide (row.bookno > start)) =
            books.filter (fun row => selected row && decide (row.bookno > start)) := by
        intro start
        rw [List.filter_filter]
        apply List.filter_congr
        intro row _
        cases chosen : selected row with
        | false => simp
        | true => simp [bookWhere_live condition chosen]
      simp only [selectBooks, listing, condition, Option.map_some, Bool.false_eq_true, if_false,
        same]

theorem mysqlSelect_withoutDeleted (db : Mysql) :
    mysqlSelect db.withoutDeleted =
      ((mysqlSelect db).1, (mysqlSelect db).2.withoutDeleted) := by
  have fault : db.withoutDeleted.nextFault = db.nextFault := rfl
  rw [mysqlSelect, mysqlSelect, mysqlQuery, mysqlQuery, fault]
  split <;> rfl

theorem srvdbBookFind_withoutDeleted (msg : MessageCs) (db : Mysql)
    (listing : pointsAtBook msg.stuff.book = false) :
    srvdbBookFind msg db.withoutDeleted =
      ((srvdbBookFind msg db).1, (srvdbBookFind msg db).2.withoutDeleted) := by
  have selection : selectBooks db.withoutDeleted.collation msg.stuff.book
      db.withoutDeleted.archive.books =
        selectBooks db.collation msg.stuff.book db.archive.books :=
    selectBooks_withoutDeleted listing db.archive.books
  rw [srvdbBookFind, srvdbBookFind, selection, mysqlSelect_withoutDeleted]
  by_cases anonymous : msg.user = ""
  · simp only [anonymous, if_true]
  · simp only [anonymous, if_false]
    cases selectBooks db.collation msg.stuff.book db.archive.books with
    | none => rfl
    | some rows =>
        rcases mysqlSelect db with ⟨accepted, queried⟩
        cases accepted with
        | false => rfl
        | true =>
            have fault : queried.withoutDeleted.nextFault = queried.nextFault := rfl
            dsimp only
            rw [fault]
            by_cases failing : queried.nextFault = true
            · simp only [failing, if_true]
              rfl
            · simp only [failing]
              by_cases counting : msg.stuff.book.bookno = breakLimitInt
              · simp only [counting, if_true]
                rfl
              · simp only [counting, if_false]
                rfl

theorem srvdbBookFetchResult_withoutDeleted (msg : MessageCs) (db : Mysql) :
    srvdbBookFetchResult msg db.withoutDeleted =
      ((srvdbBookFetchResult msg db).1, (srvdbBookFetchResult msg db).2.1,
        (srvdbBookFetchResult msg db).2.2.withoutDeleted) := by
  have result : db.withoutDeleted.resPtr = db.resPtr := rfl
  have fault : db.withoutDeleted.nextFault = db.nextFault := rfl
  have count : db.withoutDeleted.resRows = db.resRows := rfl
  rw [srvdbBookFetchResult, srvdbBookFetchResult, result]
  cases db.resPtr with
  | none => rfl
  | some rows =>
      by_cases failing : db.nextFault = true
      · simp only [fetchResult, fault, failing, if_true]
        rfl
      · cases rows with
        | nil =>
            by_cases more : db.resRows = defaultFinds
            · simp only [fetchResult, fault, failing, count, more, if_true]
              rfl
            · simp only [fetchResult, fault, failing, count, more, if_false]
              rfl
        | cons row rest =>
            simp only [fetchResult, fault, failing]
            cases decodeBook row msg <;> rfl

theorem srvdbBookCount_withoutDeleted (msg : MessageCs) (db : Mysql) :
    srvdbBookCount msg db.withoutDeleted =
      ((srvdbBookCount msg db).1, (srvdbBookCount msg db).2.1,
        (srvdbBookCount msg db).2.2.withoutDeleted) := by
  have first : pointsAtBook msg.countOnReading.stuff.book = false := by
    simp [pointsAtBook, MessageCs.countOnReading, MessageCs.setBook]
  have second : pointsAtBook msg.countOnReading.countBorrowed.stuff.book = false := by
    simp [pointsAtBook, MessageCs.countBorrowed, MessageCs.setBook]
  have third : pointsAtBook
      msg.countOnReading.countBorrowed.countUnsorted.stuff.book = false := by
    simp [pointsAtBook, MessageCs.countUnsorted, MessageCs.setBook]
  have fourth : pointsAtBook
      msg.countOnReading.countBorrowed.countUnsorted.countAll.stuff.book = false := by
    have limit : ¬ breakLimitInt < 0 := by decide
    simp [pointsAtBook, MessageCs.countOnReading, MessageCs.countBorrowed,
      MessageCs.countUnsorted, MessageCs.countAll, MessageCs.setBook, limit]
  rw [srvdbBookCount, srvdbBookCount]
  dsimp only
  rw [srvdbBookFind_withoutDeleted _ _ first]
  rcases srvdbBookFind msg.countOnReading db with ⟨_ | booksOnReading, db⟩
  · rfl
  · dsimp only
    rw [srvdbBookFind_withoutDeleted _ _ second]
    rcases srvdbBookFind msg.countOnReading.countBorrowed db with ⟨_ | booksBorrowed, db⟩
    · rfl
    · dsimp only
      rw [srvdbBookFind_withoutDeleted _ _ third]
      rcases srvdbBookFind msg.countOnReading.countBorrowed.countUnsorted db with
        ⟨_ | booksUnsorted, db⟩
      · rfl
      · dsimp only
        rw [srvdbBookFind_withoutDeleted _ _ fourth]
        rcases srvdbBookFind msg.countOnReading.countBorrowed.countUnsorted.countAll db with
          ⟨_ | booksAll, db⟩ <;> rfl

theorem Server.send_withoutDeleted (msg : MessageCs) (server : Server) :
    server.withoutDeleted.send msg =
      ((server.send msg).1, (server.send msg).2.1, (server.send msg).2.2.withoutDeleted) := by
  have fault : server.withoutDeleted.sendFaults = server.sendFaults := rfl
  rw [send, send, fault]
  by_cases failing : server.sendFaults.headD false = true
  · simp only [failing, if_true]
    rfl
  · simp only [failing]
    rfl

theorem sendRows_withoutDeleted (fuel : Nat) (msg : MessageCs) (server : Server) :
    sendRows srvdbBookFetchResult fuel msg server.withoutDeleted =
      ((sendRows srvdbBookFetchResult fuel msg server).1,
        (sendRows srvdbBookFetchResult fuel msg server).2.1,
        (sendRows srvdbBookFetchResult fuel msg server).2.2.withoutDeleted) := by
  induction fuel generalizing msg server with
  | zero => rfl
  | succ fuel induction =>
      have fetched : srvdbBookFetchResult msg server.withoutDeleted.db = _ :=
        srvdbBookFetchResult_withoutDeleted msg server.db
      rw [sendRows, sendRows, fetched]
      rcases srvdbBookFetchResult msg server.db with ⟨outcome, row, db⟩
      have moved : server.withoutDeleted.withDb db.withoutDeleted =
          (server.withDb db).withoutDeleted := rfl
      cases outcome with
      | err => rfl
      | finish =>
          dsimp only
          rw [moved, Server.send_withoutDeleted]
      | endMore =>
          dsimp only
          rw [moved, Server.send_withoutDeleted]
      | cont =>
          dsimp only
          rw [moved, Server.send_withoutDeleted]
          rcases (server.withDb db).send (row.respond .success) with
            ⟨_ | _, sent, next⟩
          · rfl
          · dsimp only
            rw [induction]

theorem Server.answerFind_withoutDeleted (server : Server) (msg : MessageCs)
    (found : Option Nat × Mysql) :
    (server.withoutDeleted.answerFind srvdbBookFetchResult msg
        (found.1, found.2.withoutDeleted)).2.1 =
      (server.answerFind srvdbBookFetchResult msg found).2.1 := by
  rcases found with ⟨_ | nrows, db⟩
  · change ((server.withDb db).withoutDeleted.send _).2.1 = ((server.withDb db).send _).2.1
    rw [send_withoutDeleted]
  · change (sendRows _ _ _ (server.withDb db).withoutDeleted).2.1 =
      (sendRows _ _ _ (server.withDb db)).2.1
    rw [sendRows_withoutDeleted]

theorem Server.answer_withoutDeleted (server : Server) (result : Bool × MessageCs × Mysql) :
    (server.withoutDeleted.answer (result.1, result.2.1, result.2.2.withoutDeleted)).2.1 =
      (server.answer result).2.1 := by
  change ((server.withDb result.2.2).withoutDeleted.send _).2.1 =
    ((server.withDb result.2.2).send _).2.1
  rw [send_withoutDeleted]

namespace Session

/-- Listings and counts answer as if the deleted rows were not in the table. -/
def HidesDeleted (session : Session) (request : SessionRequest) : Prop :=
  request.asks = true →
    (session.answer request).2.1 =
      ({ session with server := session.server.withoutDeleted }.answer request).2.1

theorem answer_find_withoutDeleted {server : Server} {request : MessageCs}
    (kind : request.request = .findBook) (listing : pointsAtBook request.stuff.book = false) :
    (socketSrvHandle request server.withoutDeleted).2.1 =
      (socketSrvHandle request server).2.1 := by
  have find : server.withoutDeleted.db = server.db.withoutDeleted := rfl
  simp only [socketSrvHandle, kind]
  rw [find, srvdbBookFind_withoutDeleted { request with
    request := .findBook, response := .success, errorText := "" } _ listing,
    Server.answerFind_withoutDeleted]

theorem answer_count_withoutDeleted {server : Server} {request : MessageCs}
    (kind : request.request = .countBook) :
    (socketSrvHandle request server.withoutDeleted).2.1 =
      (socketSrvHandle request server).2.1 := by
  have count : server.withoutDeleted.db = server.db.withoutDeleted := rfl
  simp only [socketSrvHandle, kind]
  rw [count, srvdbBookCount_withoutDeleted, Server.answer_withoutDeleted]

theorem hidesDeleted (session : Session) (request : SessionRequest) :
    session.HidesDeleted request := by
  intro asks
  cases request with
  | loadingBook shelfno bookno =>
      exact (answer_find_withoutDeleted rfl (pointsAtBook_of_nonneg (Int.natCast_nonneg bookno))).symm
  | searchingBook bookno searchEntry =>
      exact (answer_find_withoutDeleted rfl (pointsAtBook_of_nonneg (Int.natCast_nonneg bookno))).symm
  | countBook shelfno => exact (answer_count_withoutDeleted rfl).symm
  | insertBook time book => cases asks
  | deleteBook book => cases asks
  | abandonBooks shelfno => cases asks
  | unsortedBooks shelfno => cases asks
  | taggingBook book => cases asks
  | collectingBook shelfno book => cases asks
  | movingBook book moveAction => cases asks
  | buildShelf time shelf => cases asks
  | deleteItself shelfno => cases asks

/-! ## Runs -/

/-- A session that has just logged in to a new archive. Any database call of the
run may fail. -/
def opened (server : Server) (loginUser : String) (faults : List Bool) : Session where
  server := server.withDb { server.db with archive := ⟨[], []⟩, faults := faults }
  loginUser := loginUser
  listed := []

/-- In every session deleted rows stay deleted until their number is reused, and
stay out of every listing and count, exactly if no shelf that bears a deleted book
is set unsorted. -/
theorem deleted_stay_iff_unsorts_live (server : Server) (loginUser : String)
    (faults : List Bool) (requests : List SessionRequest)
    (acts : Execution.Along step ActsOnListed (opened server loginUser faults) requests) :
    Execution.Along step (fun session request =>
          session.DeletedStay request ∧ session.HidesDeleted request)
        (opened server loginUser faults) requests ↔
      Execution.Along step UnsortsLive (opened server loginUser faults) requests := by
  have sound : (opened server loginUser faults).Sound :=
    ⟨Archive.wellNumbered_empty, fun bookno member => by cases member⟩
  apply Execution.along_congr_of_along (fun _ request sound => sound.step request) _ sound acts
  intro session request sound acts
  constructor
  · intro law
    exact unsortsLive_of_deletedStay law.1
  · intro live
    exact ⟨deletedStay_of_unsortsLive sound acts live, hidesDeleted session request⟩

instance (session : Session) (request : SessionRequest) :
    Decidable (session.ActsOnListed request) :=
  inferInstanceAs (Decidable (∀ bookno ∈ request.actsOn, _))

instance (session : Session) (request : SessionRequest) (bookno : Int) :
    Decidable (session.Reuses request bookno) :=
  inferInstanceAs (Decidable (_ ∧ _ ∧ _))

instance (session : Session) (request : SessionRequest) :
    Decidable (session.DeletedStay request) :=
  inferInstanceAs (Decidable (∀ row ∈ session.server.db.archive.books, _ → _ ∨ _))

instance (session : Session) (request : SessionRequest) :
    Decidable (session.UnsortsLive request) :=
  inferInstanceAs (Decidable (∀ shelfno ∈ request.unsorts, _))

/-- A book is deleted, then its shelf is set unsorted: the book is back, and the
listing of unsorted books shows it. -/
theorem deleted_book_returns :
    Execution.Along step ActsOnListed (opened Server.sample "reader" [])
        [.buildShelf Server.sampleTime Server.sampleShelf,
          .insertBook Server.sampleTime (Server.sampleBook 1),
          .loadingBook 1 0,
          .deleteBook { Server.sampleBook 1 with bookno := 1 },
          .unsortedBooks 1] ∧
      ¬ Execution.Along step DeletedStay (opened Server.sample "reader" [])
        [.buildShelf Server.sampleTime Server.sampleShelf,
          .insertBook Server.sampleTime (Server.sampleBook 1),
          .loadingBook 1 0,
          .deleteBook { Server.sampleBook 1 with bookno := 1 },
          .unsortedBooks 1] ∧
      listedNumbers ((Execution.run step (opened Server.sample "reader" [])
        [.buildShelf Server.sampleTime Server.sampleShelf,
          .insertBook Server.sampleTime (Server.sampleBook 1),
          .loadingBook 1 0,
          .deleteBook { Server.sampleBook 1 with bookno := 1 },
          .unsortedBooks 1]).answer (.loadingBook nonSenseInt 0)).2.1 = [1] := by
  decide

/-- A listed book is lent, deleted and replaced before its shelf is set unsorted. -/
theorem deleted_stay_in_ordinary_session :
    Execution.Along step (fun session request =>
        session.DeletedStay request ∧ session.HidesDeleted request)
      (opened Server.sample "reader" [])
      [.buildShelf Server.sampleTime Server.sampleShelf,
        .insertBook Server.sampleTime (Server.sampleBook 1),
        .loadingBook 1 0,
        .movingBook { Server.sampleBook 1 with bookno := 1 } 1,
        .deleteBook { Server.sampleBook 1 with bookno := 1 },
        .insertBook Server.sampleTime (Server.sampleBook 1),
        .unsortedBooks 1] :=
  (deleted_stay_iff_unsorts_live _ _ _ _ (by decide)).mpr (by decide)

end Session

end Bookshelfdq
