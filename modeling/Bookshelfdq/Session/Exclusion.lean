import Bookshelfdq.Server.Counting
import Bookshelfdq.Session.Fleet
import Bookshelfdq.Session.PageEffects
import Bookshelfdq.Session.Paging

/-! # A book is not read and lent out at once

Nothing in the table keeps a book from being on reading and borrowed at once. That it is
not follows from what the page offers for a copy of the book and from what every copy
comes from, though copies may be stale and replies may be read by a later call. -/

namespace Bookshelfdq

def BookEntry.Exclusive (book : BookEntry) : Prop :=
  ¬(book.borrowed = '1' ∧ book.onReading = '1')

def BookRow.Exclusive (row : BookRow) : Prop :=
  ¬(row.borrowed = '1' ∧ row.onReading = '1')

/-! ## Entries and rows -/

theorem BookEntry.row_flags {mode : SqlMode} {book : BookEntry} {bookno : Int} {row : BookRow}
    (written : book.row mode bookno = some row) :
    row.borrowed = book.borrowed ∧ row.onReading = book.onReading := by
  rcases Option.bind_eq_some_iff.mp written with ⟨name, _, written⟩
  rcases Option.bind_eq_some_iff.mp written with ⟨author, _, written⟩
  rcases Option.map_eq_some_iff.mp written with ⟨label, _, rfl⟩
  exact ⟨rfl, rfl⟩

theorem BookEntry.Exclusive.row {mode : SqlMode} {book : BookEntry} {bookno : Int} {row : BookRow}
    (exclusive : book.Exclusive) (written : book.row mode bookno = some row) : row.Exclusive := by
  rcases BookEntry.row_flags written with ⟨borrowed, onReading⟩
  rw [BookRow.Exclusive, borrowed, onReading]
  exact exclusive

theorem Ncgui.showBookInfo_exclusive {book : BookEntry} (exclusive : book.Exclusive) :
    (showBookInfo book).Exclusive := by
  rw [showBookInfo]
  split <;> exact exclusive

theorem movedBook_exclusive {book : BookEntry} {moveAction : Int}
    (standing : moveAction = 0 → ¬ book.borrowed = '1') (exclusive : book.Exclusive) :
    (movedBook book moveAction).1.Exclusive := by
  have cleared : '0' ≠ '1' := by decide
  rw [movedBook]
  split
  case isTrue reading => exact fun both => standing reading both.1
  · split
    · split
      · exact fun both => cleared both.2
      case isFalse closed =>
        split
        · exact fun both => cleared both.1
        · exact fun both => closed both.2
    · exact exclusive

/-- What an action sends and stores of a copy that is not both, is not both. -/
theorem Ncgui.BookAction.stores_exclusive {localShelfno : Int} {book sent written : BookEntry}
    {bcollect : Bool} {action : BookAction} (exclusive : book.Exclusive)
    (stored : stores localShelfno book bcollect action = some (sent, written)) :
    sent.Exclusive ∧ written.Exclusive := by
  rcases stores_cases stored with ⟨floorno, _, _, rfl, rfl⟩ | ⟨label, _, _, rfl, rfl⟩ |
    ⟨_, _, standing, rfl, rfl⟩ | ⟨_, _, rfl, rfl⟩
  · exact ⟨exclusive, exclusive⟩
  · exact ⟨exclusive, exclusive⟩
  · have moved : (movedBook book 0).1.Exclusive :=
      movedBook_exclusive (fun _ lent => standing (.inr lent)) exclusive
    exact ⟨moved, moved⟩
  · have moved : (movedBook book 1).1.Exclusive :=
      movedBook_exclusive (fun one => absurd one Int.one_ne_zero) exclusive
    exact ⟨moved, moved⟩

/-! ## Counts -/

/-- The number that `show_shelf_info` prints for the books on the shelf. -/
def BookCount.onShelf (count : BookCount) : Int :=
  count.booksAll - count.booksUnsorted - count.booksOnReading - count.booksBorrowed

theorem Archive.reading_add_borrowed_le {archive : Archive}
    (exclusive : ∀ row ∈ archive.books, row.Exclusive) (shelfno : Int) :
    archive.onReadingIn shelfno + archive.borrowedIn shelfno ≤ archive.availableIn shelfno := by
  apply Table.length_filter_add_le
  · intro row member both
    simp only [Bool.and_eq_true, beq_iff_eq] at both
    exact exclusive row member ⟨both.2.1.1, both.1.1.1⟩
  · intro row chosen
    simp only [Bool.and_eq_true, beq_iff_eq] at chosen ⊢
    exact ⟨chosen.1.2, chosen.2⟩
  · intro row chosen
    simp only [Bool.and_eq_true, beq_iff_eq] at chosen ⊢
    exact ⟨chosen.1.2, chosen.2⟩

theorem Archive.bookCount_le {archive : Archive}
    (exclusive : ∀ row ∈ archive.books, row.Exclusive) (shelfno : Int) :
    (archive.bookCount shelfno).booksOnReading + (archive.bookCount shelfno).booksBorrowed ≤
      (archive.bookCount shelfno).booksAll - (archive.bookCount shelfno).booksUnsorted := by
  have bound := archive.reading_add_borrowed_le exclusive shelfno
  simp only [bookCount]
  omega

/-- A count that is not misled by a flag is right. -/
theorem eq_bookCount_of_countAnswer {msg : MessageCs} {db : Mysql} {count : BookCount}
    (numbered : db.archive.WellNumbered) (healthy : db.faults = [])
    (anyFloor : msg.stuff.book.floorno = nonSenseInt)
    (unset : msg.stuff.book.borrowed ≠ flagBorrowed) (answer : countAnswer msg db = some count) :
    count = db.archive.bookCount msg.stuff.book.shelfno := by
  by_cases named : msg.user = ""
  · rw [countAnswer_of_anonymous named] at answer
    cases answer
  · have answers : healthyFor 8 db.faults = true := by
      rw [healthy]
      rfl
    rw [countAnswer_of_healthy named numbered anyFloor answers, Archive.firstCount,
      if_neg unset] at answer
    exact (Option.some.inj answer).symm

/-! ## Replies -/

/-- Replies to whole requests. A reply that can end a call with success carries an entry
that is not both, and so does whatever comes behind a row. -/
def Settled : List MessageCs → Prop
  | [] => True
  | reply :: replies =>
      0 ≤ reply.bookCount.onShelf ∧
        (reply.response = .success ∨ reply.response = .findEndMore →
          reply.stuff.book.Exclusive) ∧
        (reply.response = .success → reply.request = .findBook →
          ∃ next ∈ replies.head?, next.stuff.book.Exclusive) ∧
        Settled replies

theorem Settled.append {first second : List MessageCs} (left : Settled first)
    (right : Settled second) : Settled (first ++ second) := by
  induction first with
  | nil => exact right
  | cons reply first induction =>
      rcases left with ⟨count, ends, row, rest⟩
      refine ⟨count, ends, ?_, induction rest⟩
      intro success kind
      rcases row success kind with ⟨next, head, exclusive⟩
      refine ⟨next, ?_, exclusive⟩
      cases first with
      | nil => cases head
      | cons other first => exact head

theorem settled_single {reply : MessageCs} (count : 0 ≤ reply.bookCount.onShelf)
    (ends : reply.response = .success ∨ reply.response = .findEndMore →
      reply.stuff.book.Exclusive)
    (other : reply.response = .success → reply.request ≠ .findBook) : Settled [reply] :=
  ⟨count, ends, fun success kind => absurd kind (other success), trivial⟩

theorem rowReplies_settled {closing : ServerResponse} (closes : closing ≠ .success)
    (rows : List BookRow) (exclusive : ∀ row ∈ rows, row.Exclusive) (start : MessageCs)
    (count : 0 ≤ start.bookCount.onShelf)
    (more : closing = .findEndMore → rows = [] → start.stuff.book.Exclusive) :
    Settled (rowReplies fillBook closing (rows.map .book) start) := by
  induction rows generalizing start with
  | nil =>
      refine @settled_single (start.respond closing) count ?_ ?_
      · rintro (success | endMore)
        · exact absurd success closes
        · exact more endMore rfl
      · intro success
        exact absurd success closes
  | cons row rows induction =>
      have here : row.entry.Exclusive := exclusive row List.mem_cons_self
      refine ⟨count, fun _ => here, ?_, ?_⟩
      · intro _ _
        cases rows with
        | nil => exact ⟨_, rfl, here⟩
        | cons second rows =>
            have there : second.entry.Exclusive :=
              exclusive second (List.mem_cons_of_mem _ List.mem_cons_self)
            exact ⟨_, rfl, there⟩
      · apply induction (fun row member => exclusive row (List.mem_cons_of_mem _ member))
        · exact count
        · intro _ _
          exact here

/-- A server on which nothing fails, with rows that are not both. -/
structure Server.Tidy (server : Server) : Prop where
  numbered : server.db.archive.WellNumbered
  faults : server.db.faults = []
  sendFaults : server.sendFaults = []
  rows : ∀ row ∈ server.db.archive.books, row.Exclusive

/-- A request for books: a find, or one that is answered by one reply and carries an entry
that is not both. `extra_info` is zeroed, and so is the flag that a count goes by. -/
structure MessageCs.Sound (msg : MessageCs) : Prop where
  kind : msg.request = .findBook ∨ msg.request.isSingle = true ∧ msg.stuff.book.Exclusive
  extra : msg.extraInfo = MessageCs.zeroed.extraInfo
  counting : msg.request = .countBook →
    msg.stuff.book.floorno = nonSenseInt ∧ msg.stuff.book.borrowed ≠ flagBorrowed

theorem srvdbBookCount_reply (msg : MessageCs) (db : Mysql) :
    ((srvdbBookCount msg db).1 = false ∧
      (srvdbBookCount msg db).2.1.extraInfo = msg.extraInfo) ∨
    ((srvdbBookCount msg db).1 = true ∧
      (srvdbBookCount msg db).2.1.stuff.book.borrowed = nulChar) := by
  simp only [srvdbBookCount]
  split
  · exact .inl ⟨rfl, rfl⟩
  · split
    · exact .inl ⟨rfl, rfl⟩
    · split
      · exact .inl ⟨rfl, rfl⟩
      · split
        · exact .inl ⟨rfl, rfl⟩
        · exact .inr ⟨rfl, rfl⟩

theorem srvdbBookInsert_reply (msg : MessageCs) (db : Mysql) :
    (srvdbBookInsert msg db).2.1.extraInfo = msg.extraInfo ∧
      (srvdbBookInsert msg db).2.1.request = msg.request ∧
      (srvdbBookInsert msg db).2.1.stuff.book.borrowed = msg.stuff.book.borrowed ∧
      (srvdbBookInsert msg db).2.1.stuff.book.onReading = msg.stuff.book.onReading := by
  have kept := @Allocation.allocate_keeps _ _ (bookAllocation db.mode msg.stuff.book) _
    (fun reply => (reply.extraInfo, reply.request, reply.stuff.book.borrowed,
      reply.stuff.book.onReading)) (fun _ _ => rfl) (fun _ _ => rfl) msg db
  rw [Prod.mk.injEq, Prod.mk.injEq, Prod.mk.injEq] at kept
  exact kept

theorem srvdbShelfCount_reply (msg : MessageCs) (db : Mysql) :
    (srvdbShelfCount msg db).2.1.stuff.book = msg.stuff.book ∧
      ((srvdbShelfCount msg db).2.1.extraInfo = msg.extraInfo ∨
        ∃ number : Nat, (srvdbShelfCount msg db).2.1.extraInfo = msg.extraInfo.set 0 number) := by
  simp only [srvdbShelfCount]
  split
  · exact ⟨rfl, .inl rfl⟩
  · exact ⟨rfl, .inr ⟨_, rfl⟩⟩

theorem onShelf_of_extra {msg : MessageCs} {first : Int} (nonneg : 0 ≤ first)
    (extra : msg.extraInfo = MessageCs.zeroed.extraInfo.set 0 first) :
    0 ≤ msg.bookCount.onShelf := by
  have count : msg.bookCount = ⟨first, 0, 0, 0⟩ := by
    rw [MessageCs.bookCount, extra]
    rfl
  rw [count]
  simpa [BookCount.onShelf] using nonneg

theorem MessageCs.Sound.onShelf {msg : MessageCs} (sound : msg.Sound) :
    0 ≤ msg.bookCount.onShelf :=
  onShelf_of_extra (Int.le_refl 0) sound.extra

namespace Server

theorem Tidy.step {server : Server} (tidy : server.Tidy) {msg : MessageCs} (sound : msg.Sound) :
    (server.step msg).Tidy where
  numbered := server.step_wellNumbered msg tidy.numbered
  faults := (server.step_continues msg).faults tidy.faults
  sendFaults := server.step_sendFaults msg tidy.sendFaults
  rows := by
    apply step_rows (fun row cleaned exclusive => exclusive) tidy.numbered tidy.rows
    intro writes bookno row written
    apply BookEntry.Exclusive.row _ written
    rcases sound.kind with find | ⟨_, exclusive⟩
    · rcases writes with inserts | updates
      · exact absurd (find.symm.trans inserts) ClientRequest.noConfusion
      · exact absurd (find.symm.trans updates) ClientRequest.noConfusion
    · exact exclusive

theorem Tidy.find_settled {server : Server} (tidy : server.Tidy) {msg : MessageCs}
    (sound : msg.Sound) (kind : msg.request = .findBook) : Settled (server.replies msg) := by
  have counted : ∀ number : Nat, 0 ≤ (msg.opened.setExtra number).bookCount.onShelf := by
    intro number
    apply onShelf_of_extra (Int.natCast_nonneg number)
    rw [MessageCs.setExtra, ← sound.extra]
    rfl
  by_cases found : ∃ selection, FindsBooks msg server.db selection
  · rcases found with ⟨selection, finds⟩
    by_cases counting : msg.stuff.book.bookno = breakLimitInt
    · rw [replies_countingBooks tidy.sendFaults kind finds counting]
      refine @settled_single ((msg.opened.setExtra selection.length).respond .findEnd)
        (counted _) ?_ ?_
      · rintro (success | endMore)
        · cases success
        · cases endMore
      · intro success
        cases success
    · rw [replies_findBook tidy.sendFaults kind finds counting, tidy.faults]
      rcases exists_bookRows finds.selects counting with ⟨rows, rfl⟩
      rw [List.tail_nil, List.tail_nil, beforeFault_nil]
      apply rowReplies_settled (closingResponse_ne_success _) rows _ _ (counted _)
      · rintro endMore rfl
        cases endMore
      · intro row member
        exact tidy.rows row (mem_selectBooks finds.selects (List.mem_map_of_mem member)).1
  · rw [replies_findBook_refused tidy.sendFaults kind fun rows finds => found ⟨rows, finds⟩]
    refine @settled_single (msg.opened.respond .failed) sound.onShelf ?_ ?_
    · rintro (success | endMore)
      · cases success
      · cases endMore
    · intro success
      cases success

theorem replies_answer {server : Server} (reliable : server.sendFaults = [])
    (result : Bool × MessageCs × Mysql) :
    (server.answer result).2.1 =
      [result.2.1.respond (if result.1 then .success else .failed)] := by
  rw [answer, send_of_reliable reliable]

theorem Tidy.count_settled {server : Server} (tidy : server.Tidy) {msg : MessageCs}
    (sound : msg.Sound) (kind : msg.request = .countBook) : Settled (server.replies msg) := by
  rcases sound.counting kind with ⟨anyFloor, unset⟩
  have anyFloor : msg.opened.stuff.book.floorno = nonSenseInt := anyFloor
  have unset : msg.opened.stuff.book.borrowed ≠ flagBorrowed := unset
  have handled : server.replies msg = (server.answer (srvdbBookCount msg.opened server.db)).2.1 := by
    simp only [replies, socketSrvHandle, kind, MessageCs.opened]
  have request := srvdbBookCount_request msg.opened server.db
  rw [handled, replies_answer tidy.sendFaults]
  have other : (srvdbBookCount msg.opened server.db).2.1.request ≠ .findBook := by
    rw [request]
    exact fun find => absurd (find.symm.trans kind) ClientRequest.noConfusion
  rcases srvdbBookCount_reply msg.opened server.db with ⟨failed, extra⟩ | ⟨counted, cleared⟩
  · rw [failed, if_neg Bool.false_ne_true]
    refine @settled_single ((srvdbBookCount msg.opened server.db).2.1.respond .failed) ?_ ?_
      fun _ => other
    · exact onShelf_of_extra (Int.le_refl 0) (extra.trans sound.extra)
    · rintro (success | endMore)
      · cases success
      · cases endMore
  · rw [counted, if_pos rfl]
    refine @settled_single ((srvdbBookCount msg.opened server.db).2.1.respond .success) ?_ ?_
      fun _ => other
    · have answer : countAnswer msg.opened server.db =
          some (srvdbBookCount msg.opened server.db).2.1.bookCount := if_pos counted
      have count := eq_bookCount_of_countAnswer tidy.numbered tidy.faults anyFloor unset answer
      have bound := Archive.bookCount_le tidy.rows msg.opened.stuff.book.shelfno
      show 0 ≤ (srvdbBookCount msg.opened server.db).2.1.bookCount.onShelf
      rw [count, BookCount.onShelf]
      omega
    · intro _
      exact fun both => absurd (cleared.symm.trans both.1) (by decide)

theorem Tidy.single_settled {server : Server} (tidy : server.Tidy) {msg : MessageCs}
    (sound : msg.Sound) (single : msg.request.isSingle = true)
    (exclusive : msg.stuff.book.Exclusive) : Settled (server.replies msg) := by
  have echoed : ∀ result : Bool × MessageCs × Mysql,
      server.replies msg = (server.answer result).2.1 → 0 ≤ result.2.1.bookCount.onShelf →
      result.2.1.stuff.book.Exclusive → result.2.1.request = msg.request →
        Settled (server.replies msg) := by
    intro result handled count entry request
    rw [handled, replies_answer tidy.sendFaults]
    refine @settled_single (result.2.1.respond _) count (fun _ => entry) fun _ find => ?_
    rw [← request, show result.2.1.request = .findBook from find] at single
    exact Bool.false_ne_true single
  cases kind : msg.request with
  | insertBook =>
      rcases srvdbBookInsert_reply msg.opened server.db with ⟨extra, request, borrowed, onReading⟩
      refine echoed (srvdbBookInsert msg.opened server.db)
        (by simp only [replies, socketSrvHandle, kind, MessageCs.opened]) ?_ ?_ request
      · exact onShelf_of_extra (Int.le_refl 0) (extra.trans sound.extra)
      · rw [BookEntry.Exclusive, borrowed, onReading]
        exact exclusive
  | deleteBook =>
      exact echoed ((srvdbBookDelete msg.opened server.db).1, msg.opened,
        (srvdbBookDelete msg.opened server.db).2)
        (by simp only [replies, socketSrvHandle, kind, MessageCs.opened]) sound.onShelf exclusive rfl
  | updateBook =>
      exact echoed ((srvdbBookUpdate msg.opened server.db).1, msg.opened,
        (srvdbBookUpdate msg.opened server.db).2)
        (by simp only [replies, socketSrvHandle, kind, MessageCs.opened]) sound.onShelf exclusive rfl
  | countBook => exact tidy.count_settled sound kind
  | countShelf =>
      rcases srvdbShelfCount_reply msg.opened server.db with ⟨book, extra⟩
      refine echoed (srvdbShelfCount msg.opened server.db)
        (by simp only [replies, socketSrvHandle, kind, MessageCs.opened]) ?_ ?_
        (srvdbShelfCount_request msg.opened server.db)
      · rcases extra with same | ⟨number, counted⟩
        · exact onShelf_of_extra (Int.le_refl 0) (same.trans sound.extra)
        · apply onShelf_of_extra (Int.natCast_nonneg number)
          rw [counted, ← sound.extra]
          rfl
      · rw [book]
        exact exclusive
  | _ =>
      rw [kind] at single
      exact absurd single Bool.false_ne_true

theorem Tidy.replies_settled {server : Server} (tidy : server.Tidy) {msg : MessageCs}
    (sound : msg.Sound) : Settled (server.replies msg) := by
  rcases sound.kind with find | ⟨single, exclusive⟩
  · exact tidy.find_settled sound find
  · exact tidy.single_settled sound single exclusive

end Server

/-! ## Calls -/

/-- A session whose replies to come are settled and whose cached copies are not both. -/
structure Client.Tidy (client : Client) : Prop where
  inbox : Settled (client.link.inbox.map Prod.snd)
  others : client.link.others = []
  entries : ∀ position book, client.books.bookData position = some book → book.Exclusive

namespace Client

theorem Tidy.withBooks {client : Client} {books : BookCache} (tidy : client.Tidy)
    (entries : ∀ position book, books.bookData position = some book → book.Exclusive) :
    (client.withBooks books).Tidy :=
  ⟨tidy.inbox, tidy.others, entries⟩

theorem Tidy.insertAt {client : Client} (tidy : client.Tidy) {book : BookEntry}
    (exclusive : book.Exclusive) (position : Nat) :
    (client.withBooks (client.books.clidbBookInsertAt book position)).Tidy := by
  apply tidy.withBooks
  intro other entry stored
  rw [BookCache.clidbBookInsertAt_data] at stored
  by_cases there : other = position
  · rw [there, Function.update_self] at stored
    exact Option.some.inj stored ▸ exclusive
  · rw [Function.update_of_ne there] at stored
    exact tidy.entries other entry stored

theorem Tidy.delete {client : Client} (tidy : client.Tidy) (position : Nat) :
    (client.withBooks (client.books.clidbBookDelete position)).Tidy := by
  rw [BookCache.clidbBookDelete]
  cases stored : client.books.clidbBookPeek position with
  | none => exact tidy
  | some book =>
      have exclusive : { book with encodingTime := .empty }.Exclusive :=
        tidy.entries position book stored
      exact tidy.insertAt exclusive position

theorem Tidy.cacheBook {client : Client} (tidy : client.Tidy) {book : BookEntry}
    (exclusive : book.Exclusive) : (client.cacheBook book).Tidy :=
  have inserted := tidy.insertAt exclusive client.books.bookDbmPos
  ⟨inserted.inbox, inserted.others, inserted.entries⟩

theorem Tidy.send {client : Client} (tidy : client.Tidy) (server : client.link.server.Tidy)
    {msg : MessageCs} (sound : msg.Sound) :
    (client.send msg).2.Tidy ∧ (client.send msg).2.link.server.Tidy := by
  have alone := Link.reached_of_others tidy.others
  rw [Client.send]
  rcases client.link.socketClientSendRequest_cases msg with ⟨_, sent⟩ | ⟨_, sent⟩
  · rw [sent]
    exact ⟨⟨tidy.inbox, tidy.others, tidy.entries⟩, server⟩
  · rw [sent]
    refine ⟨⟨?_, ?_, tidy.entries⟩, ?_⟩
    · show Settled ((client.link.inbox ++ (client.link.reached.replies msg).map
        fun reply => (client.link.sent, reply)).map Prod.snd)
      rw [List.map_append, List.map_map, alone]
      exact tidy.inbox.append (by simpa using server.replies_settled sound)
    · show client.link.others.tail = []
      rw [tidy.others]
      rfl
    · show (client.link.reached.step msg).Tidy
      rw [alone]
      exact server.step sound

/-- What a receive can do: time out, or take the first reply. -/
theorem Tidy.receive {client : Client} (tidy : client.Tidy) :
    (∃ after, client.receive = (none, after) ∧ after.Tidy ∧
      after.link.server = client.link.server) ∨
    ∃ reply replies after, client.receive = (some reply, after) ∧ after.Tidy ∧
      after.link.server = client.link.server ∧ Settled (reply :: replies) ∧
      client.link.inbox.map Prod.snd = reply :: replies ∧
      after.link.inbox.map Prod.snd = replies := by
  rw [Client.receive]
  rcases client.link.socketClientGetResponse_cases with ⟨_, got⟩ | ⟨number, reply, rest, _, inbox, got⟩
  · rw [got]
    exact .inl ⟨_, rfl, ⟨tidy.inbox, tidy.others, tidy.entries⟩, rfl⟩
  · rw [got]
    have settled := tidy.inbox
    rw [inbox, List.map_cons] at settled
    refine .inr ⟨reply, rest.map Prod.snd, _, rfl, ⟨settled.2.2.2, tidy.others, tidy.entries⟩, rfl,
      settled, ?_, rfl⟩
    rw [inbox, List.map_cons]

/-- The receive loop. Behind a row the next reply may end the call. -/
theorem Tidy.findLoop (flagNotCached : Bool) (fuel nfinds : Nat) (msg : MessageCs) {client : Client}
    (tidy : client.Tidy)
    (next : nfinds ≠ 0 → ∀ reply ∈ (client.link.inbox.map Prod.snd).head?,
      reply.stuff.book.Exclusive) :
    (client.findLoop flagNotCached fuel nfinds msg).2.2.Tidy ∧
      (client.findLoop flagNotCached fuel nfinds msg).2.2.link.server = client.link.server ∧
      ((client.findLoop flagNotCached fuel nfinds msg).1 = 1 →
        (client.findLoop flagNotCached fuel nfinds msg).2.1.stuff.book.Exclusive ∧
          0 ≤ (client.findLoop flagNotCached fuel nfinds msg).2.1.bookCount.onShelf) := by
  induction fuel generalizing nfinds msg client with
  | zero => exact ⟨tidy, rfl, fun one => absurd one Int.zero_ne_one⟩
  | succ fuel induction =>
      rw [Client.findLoop]
      rcases tidy.receive with ⟨after, got, kept, server⟩ |
        ⟨reply, replies, after, got, kept, server, ⟨count, ends, row, _⟩, inbox, rest⟩
      · rw [got]
        exact ⟨kept, server, fun one => absurd one Int.zero_ne_one⟩
      · rw [got]
        dsimp only
        cases answer : reply.response with
        | failed => exact ⟨kept, server, fun one => absurd one Int.zero_ne_one⟩
        | findEndMore => exact ⟨kept, server, fun _ => ⟨ends (.inr answer), count⟩⟩
        | findEnd =>
            refine ⟨kept, server, fun one => ⟨?_, count⟩⟩
            have found : nfinds ≠ 0 := by
              intro none
              have ended : (if nfinds = 0 then -1 else 1 : Int) = 1 := one
              rw [if_pos none] at ended
              exact absurd ended (by decide)
            apply next found
            rw [inbox]
            rfl
        | success =>
            dsimp only
            by_cases kind : reply.request = .findBook
            · rw [if_pos kind]
              have exclusive := ends (.inl answer)
              rcases row answer kind with ⟨later, head, behind⟩
              have cached : (if flagNotCached = true then after
                  else after.cacheBook reply.stuff.book).Tidy := by
                split
                · exact kept
                · exact kept.cacheBook exclusive
              have link : (if flagNotCached = true then after
                  else after.cacheBook reply.stuff.book).link = after.link := by
                split <;> rfl
              generalize (if flagNotCached = true then after
                else after.cacheBook reply.stuff.book) = stored at cached link ⊢
              have following : nfinds + 1 ≠ 0 → ∀ reply ∈ (stored.link.inbox.map Prod.snd).head?,
                  reply.stuff.book.Exclusive := by
                intro _ first firstMem
                rw [link, rest] at firstMem
                cases head.symm.trans firstMem
                exact behind
              rcases induction (nfinds + 1) reply cached following with ⟨tidy, same, last⟩
              rw [link, server] at same
              exact ⟨tidy, same, last⟩
            · rw [if_neg kind]
              exact ⟨kept, server, fun _ => ⟨ends (.inl answer), count⟩⟩

/-- A call keeps the session and the server tidy, and a reply it accepts is not both. -/
theorem Tidy.findFromServer {client : Client} (tidy : client.Tidy)
    (server : client.link.server.Tidy) {msg : MessageCs} (sound : msg.Sound) :
    (client.findFromServer msg).2.2.Tidy ∧ (client.findFromServer msg).2.2.link.server.Tidy ∧
      ((client.findFromServer msg).1 = 1 →
        (client.findFromServer msg).2.1.stuff.book.Exclusive ∧
          0 ≤ (client.findFromServer msg).2.1.bookCount.onShelf) := by
  rcases tidy.send server sound with ⟨kept, after⟩
  rw [Client.findFromServer]
  generalize client.send msg = sent at kept after ⊢
  rcases sent with ⟨_ | _, sent⟩
  · exact ⟨kept, after, fun one => absurd one Int.zero_ne_one⟩
  · dsimp only at kept after ⊢
    rcases Tidy.findLoop (msg.request == .findBook && msg.stuff.book.bookno == breakLimitInt)
      (sent.link.inbox.length + 1) 0 msg kept (fun none => absurd rfl none) with
      ⟨tidy, same, last⟩
    exact ⟨tidy, same.symm ▸ after, last⟩

end Client

/-! ## The page -/

/-- The messages that carry an entry of the page, or none. -/
theorem updateMsg_sound {book : BookEntry} (exclusive : book.Exclusive) (loginUser : String) :
    (clientShelfTaggingBookMsg loginUser book).Sound :=
  ⟨.inr ⟨rfl, exclusive⟩, rfl, fun counts => absurd counts ClientRequest.noConfusion⟩

theorem zeroed_exclusive : BookEntry.zeroed.Exclusive := by
  rw [BookEntry.Exclusive]
  decide

theorem deleteMsg_sound (loginUser : String) (book : BookEntry) :
    (clientShelfDeleteBookMsg loginUser book).Sound :=
  ⟨.inr ⟨rfl, zeroed_exclusive⟩, rfl, fun counts => absurd counts ClientRequest.noConfusion⟩

theorem loadMsg_sound (loginUser : String) (search : Option BookEntry) (shelfno bookno : Int) :
    (Client.loadMsg loginUser search shelfno bookno).Sound := by
  have kind := Client.loadMsg_request loginUser search shelfno bookno
  refine ⟨.inl kind, ?_, fun counts => ?_⟩
  · cases search <;> rfl
  · exact absurd (kind.symm.trans counts) ClientRequest.noConfusion

namespace Client

variable {client : Client} (tidy : client.Tidy) (server : client.link.server.Tidy)

include tidy server

theorem Tidy.loadBooks (search : Option BookEntry) (shelfno bookno : Int) :
    (client.loadBooks search shelfno bookno).2.Tidy ∧
      (client.loadBooks search shelfno bookno).2.link.server.Tidy := by
  have called := tidy.findFromServer server (loadMsg_sound client.loginUser search shelfno bookno)
  cases search with
  | none => exact ⟨called.1, called.2.1⟩
  | some entry => exact ⟨called.1, called.2.1⟩

omit tidy server in
theorem Tidy.printPage (tidy : client.Tidy) : (client.withBooks client.books.printPage.2).Tidy := by
  apply tidy.withBooks
  rw [client.books.printPage_data.1]
  exact tidy.entries

theorem Tidy.nextPageBookinfo (search : Option BookEntry) (shelfno bookno stale : Int) :
    (client.nextPageBookinfo search shelfno bookno stale).2.2.Tidy ∧
      (client.nextPageBookinfo search shelfno bookno stale).2.2.link.server.Tidy := by
  have printed := tidy.printPage
  rw [Client.nextPageBookinfo]
  generalize client.books.printPage = page at printed ⊢
  rcases page with ⟨_ | (_ | ⟨row, rows⟩), books⟩
  · exact ⟨printed, server⟩
  · dsimp only at printed ⊢
    have loaded := printed.loadBooks server search shelfno bookno
    generalize (client.withBooks books).loadBooks search shelfno bookno = load at loaded ⊢
    rcases load with ⟨found, after⟩
    dsimp only at loaded ⊢
    split
    · exact loaded
    · split
      · exact loaded
      · have again := loaded.1.printPage
        generalize after.books.printPage = page at again ⊢
        rcases page with ⟨_ | rows, books⟩
        · exact ⟨again, loaded.2⟩
        · exact ⟨again, loaded.2⟩
  · exact ⟨printed, server⟩

theorem Tidy.sendReceive {msg : MessageCs} (sound : msg.Sound) :
    (client.sendReceive msg).Tidy ∧ (client.sendReceive msg).link.server.Tidy := by
  rw [Client.sendReceive]
  rcases tidy.send server sound with ⟨kept, after⟩
  generalize client.send msg = sent at kept after ⊢
  rcases sent with ⟨_ | _, sent⟩
  · exact ⟨kept, after⟩
  · dsimp only at kept after ⊢
    rcases kept.receive with ⟨later, got, still, same⟩ | ⟨_, _, later, got, still, same, _⟩
    · rw [got]
      exact ⟨still, same.symm ▸ after⟩
    · rw [got]
      exact ⟨still, same.symm ▸ after⟩

end Client

namespace Ncgui

variable {client : Client} (tidy : client.Tidy) (server : client.link.server.Tidy)

include tidy server

theorem update_tidy {msg : MessageCs} (sound : msg.Sound) {written : MessageCs → BookEntry}
    (writes : ∀ reply : MessageCs, reply.stuff.book.Exclusive → (written reply).Exclusive)
    (position : Nat) :
    (update msg written position client).2.Tidy ∧
      (update msg written position client).2.link.server.Tidy := by
  rcases tidy.findFromServer server sound with ⟨kept, after, accepts⟩
  rw [update]
  generalize client.findFromServer msg = found at kept after accepts ⊢
  rcases found with ⟨result, reply, called⟩
  dsimp only at kept after accepts ⊢
  split
  case isTrue one => exact ⟨kept.insertAt (writes reply (accepts one).1) position, after⟩
  case isFalse => exact ⟨kept, after⟩

theorem clientShelfDeleteBook_tidy (book : BookEntry) (position : Nat) :
    (clientShelfDeleteBook book position client).2.Tidy ∧
      (clientShelfDeleteBook book position client).2.link.server.Tidy := by
  rcases tidy.findFromServer server (deleteMsg_sound client.loginUser book) with ⟨kept, after, _⟩
  rw [clientShelfDeleteBook]
  generalize client.findFromServer _ = found at kept after ⊢
  rcases found with ⟨result, reply, called⟩
  dsimp only at kept after ⊢
  split
  · exact ⟨kept.delete position, after⟩
  · exact ⟨kept, after⟩

theorem act_tidy {book : BookEntry} (exclusive : book.Exclusive) (action : BookAction)
    (bcollect : Bool) (localShelfno : Int) (position : Nat) :
    (act action bcollect localShelfno book position client).2.Tidy ∧
      (act action bcollect localShelfno book position client).2.link.server.Tidy := by
  rcases act_request action bcollect localShelfno book position client with
    ⟨idle, _⟩ | ⟨_, _, _, acted⟩ | ⟨sent, written, leaves, stored, left, acted⟩
  · rw [idle]
    exact ⟨tidy, server⟩
  · rw [acted]
    exact clientShelfDeleteBook_tidy tidy server book position
  · rw [acted]
    have kept := BookAction.stores_exclusive exclusive stored
    apply update_tidy tidy server (updateMsg_sound kept.1 _)
    intro reply entry
    rcases left reply with same | ⟨_, echoed⟩
    · rw [same]
      exact kept.2
    · rw [echoed]
      exact entry

end Ncgui

/-! ## Sessions -/

namespace Ncgui

/-- The inputs of a session: the page of books, and the calls for new books, for the books
of a whole shelf and for counts, the latter with zeroed fields. -/
def Input.ofBooks : Input → Bool
  | .call (.session (.insertBook _ book)) => book.borrowed == '0' && book.onReading == '0'
  | .call (.session (.abandonBooks _)) => true
  | .call (.session (.unsortedBooks _)) => true
  | .call (.session (.searchingBook _ _)) => true
  | .call (.session (.countBook _)) => true
  | .call (.booksCountSync stale) => stale == .zeroed
  | .call (.shelvesCountSync stale _) => stale == .zeroed
  | .call _ => false
  | _ => true

/-- An action works on an entry that was found in the cache. -/
def ActsOnPeeked (gui : Ncgui) : Input → Prop
  | .key (.action _) => ∀ page ∈ gui.shown,
      (gui.client.books.clidbBookPeek (gui.curDbmPos page)).isSome = true
  | _ => True

/-- The number that is printed when a session asks for the counts of a shelf. -/
def printedOnShelf (gui : Ncgui) (shelfno : Int) : Option Int :=
  match gui.client.findFromServer (clientShelfCountBookMsg gui.client.loginUser shelfno) with
  | (result, reply, _) => if result = 1 then some reply.bookCount.onShelf else none

theorem countMsg_sound (loginUser : String) (shelfno : Int) :
    (clientShelfCountBookMsg loginUser shelfno).Sound :=
  have unset : nulChar ≠ flagBorrowed := by decide
  ⟨.inr ⟨rfl, zeroed_exclusive⟩, rfl, fun _ => ⟨rfl, unset⟩⟩

theorem printedOnShelf_nonneg {gui : Ncgui} (tidy : gui.client.Tidy)
    (server : gui.client.link.server.Tidy) (shelfno number : Int)
    (printed : gui.printedOnShelf shelfno = some number) : 0 ≤ number := by
  rcases tidy.findFromServer server (countMsg_sound gui.client.loginUser shelfno) with
    ⟨_, _, accepts⟩
  rw [printedOnShelf] at printed
  generalize gui.client.findFromServer _ = found at accepts printed
  rcases found with ⟨result, reply, after⟩
  dsimp only at accepts printed
  split at printed
  case isTrue one => exact Option.some.inj printed ▸ (accepts one).2
  case isFalse => cases printed

variable {gui : Ncgui} (tidy : gui.client.Tidy) (server : gui.client.link.server.Tidy)

include tidy server

theorem display_tidy (shelfno : Int) (collectMode : Bool) (search : Option (Char × BookEntry))
    (stale : BookEntry) :
    (gui.display shelfno collectMode search stale).client.Tidy ∧
      (gui.display shelfno collectMode search stale).client.link.server.Tidy := by
  by_cases refused : collectMode = true ∧ search.isSome = true
  · rw [display, if_pos refused]
    exact ⟨tidy, server⟩
  · have reset : (gui.resetOnChange shelfno collectMode search).client.Tidy ∧
        (gui.resetOnChange shelfno collectMode search).client.link.server.Tidy := by
      rcases search with _ | ⟨mark, entry⟩
      · rw [resetOnChange]
        split
        · exact ⟨tidy.withBooks tidy.entries, server⟩
        · exact ⟨tidy, server⟩
      · rw [resetOnChange]
        split
        · exact ⟨tidy.withBooks tidy.entries, server⟩
        · exact ⟨tidy, server⟩
    rw [display_client refused]
    exact reset.1.nextPageBookinfo reset.2 _ _ _ _

theorem pageRight_tidy (stale : Int) (page : BookPage) :
    (gui.pageRight stale page).client.Tidy ∧
      (gui.pageRight stale page).client.link.server.Tidy := by
  have turned := tidy.nextPageBookinfo server page.search page.modeShelfno gui.localBookno stale
  rw [pageRight]
  split
  · exact ⟨tidy, server⟩
  · dsimp only
    split
    · exact turned
    · exact turned
    · exact ⟨turned.1.withBooks turned.1.entries, turned.2⟩

theorem call_tidy (fuel : Nat) {call : ClientCall} (ofBooks : (Input.call call).ofBooks = true) :
    (call.perform fuel gui.client).Tidy ∧ (call.perform fuel gui.client).link.server.Tidy := by
  have calls : ∀ {msg : MessageCs}, msg.Sound → (gui.client.findFromServer msg).2.2.Tidy ∧
      (gui.client.findFromServer msg).2.2.link.server.Tidy := fun sound =>
    have called := tidy.findFromServer server sound
    ⟨called.1, called.2.1⟩
  have unset : nulChar ≠ flagBorrowed := by decide
  cases call with
  | session request =>
      cases request with
      | insertBook time book =>
          have exclusive : { book with encodingTime := time, bookno := nonSenseInt }.Exclusive := by
            have standing : book.borrowed = '0' := beq_iff_eq.mp (Bool.and_eq_true_iff.mp ofBooks).1
            rintro ⟨borrowed, _⟩
            exact absurd (standing.symm.trans borrowed) (by decide)
          exact calls ⟨.inr ⟨rfl, exclusive⟩, rfl,
            fun counts => absurd counts ClientRequest.noConfusion⟩
      | abandonBooks shelfno =>
          exact calls ⟨.inr ⟨rfl, zeroed_exclusive⟩, rfl,
            fun counts => absurd counts ClientRequest.noConfusion⟩
      | unsortedBooks shelfno =>
          exact calls ⟨.inr ⟨rfl, zeroed_exclusive⟩, rfl,
            fun counts => absurd counts ClientRequest.noConfusion⟩
      | searchingBook bookno entry =>
          exact calls (loadMsg_sound gui.client.loginUser (some entry) 0 bookno)
      | countBook shelfno => exact calls (countMsg_sound gui.client.loginUser shelfno)
      | _ => cases ofBooks
  | booksCountSync stale =>
      have zeroed : stale = .zeroed := beq_iff_eq.mp ofBooks
      subst zeroed
      rw [ClientCall.perform, Client.clientBooksCountSync_sendReceive]
      exact tidy.sendReceive server ⟨.inr ⟨rfl, zeroed_exclusive⟩, rfl, fun _ => ⟨rfl, unset⟩⟩
  | shelvesCountSync stale shelvesAll =>
      have zeroed : stale = .zeroed := beq_iff_eq.mp ofBooks
      subst zeroed
      rw [ClientCall.perform, Client.clientShelvesCountSync_sendReceive]
      exact tidy.sendReceive server ⟨.inr ⟨rfl, zeroed_exclusive⟩, rfl,
        fun counts => absurd counts ClientRequest.noConfusion⟩
  | _ => cases ofBooks

theorem step_tidy (fuel : Nat) {input : Input} (ofBooks : input.ofBooks = true)
    (peeked : gui.ActsOnPeeked input) :
    (gui.step fuel input).client.Tidy ∧ (gui.step fuel input).client.link.server.Tidy := by
  have idle : gui.client.Tidy ∧ gui.client.link.server.Tidy := ⟨tidy, server⟩
  have back : (gui.client.withBooks gui.client.books.clidbBookBackwardMode).Tidy :=
    tidy.withBooks tidy.entries
  cases input with
  | display shelfno collectMode search stale =>
      rw [step]
      split
      · exact display_tidy tidy server shelfno collectMode search stale
      · exact idle
  | newBook => exact idle
  | call call => exact call_tidy tidy server fuel ofBooks
  | key key =>
      rw [step, press]
      cases shown : gui.shown with
      | none => exact idle
      | some page =>
          cases key with
          | backspace => exact ⟨back, server⟩
          | up => exact idle
          | down => exact idle
          | left => exact ⟨back.withBooks back.entries, server⟩
          | right stale => exact pageRight_tidy tidy server stale _
          | action action =>
              rcases Option.isSome_iff_exists.mp (peeked page shown) with ⟨book, peek⟩
              have acted : (gui.acted page).Exclusive := by
                rw [Ncgui.acted, Ncgui.peeked, peek]
                exact showBookInfo_exclusive (tidy.entries _ book peek)
              exact act_tidy tidy server acted action gui.bcollect gui.localShelfno
                (gui.curDbmPos page)

end Ncgui

namespace Fleet

variable {Session : Type}

/-- Sessions of one account on a server. Requests of a session may get lost, and the server's
replies may be late. -/
def connected (server : Server) (loginUser : String) (sendFails delays : Session → List Bool) :
    Fleet Session :=
  .start server fun session =>
    let client := Client.connected server .empty .empty loginUser
    { client with
      link := { client.link with sendFails := sendFails session, delays := delays session } }

/-- No row and no copy of it is on reading and borrowed at once, and the counts show it. -/
structure Exclusive (fleet : Fleet Session) : Prop where
  rows : ∀ row ∈ fleet.server.db.archive.books, row.Exclusive
  entries : ∀ session position book,
    (fleet.sessions session).client.books.bookData position = some book → book.Exclusive
  counts : ∀ loginUser shelfno count,
    countAnswer (clientShelfCountBookMsg loginUser shelfno) fleet.server.db = some count →
      count.booksOnReading + count.booksBorrowed ≤ count.booksAll - count.booksUnsorted
  printed : ∀ session shelfno number,
    (fleet.seat session).printedOnShelf shelfno = some number → 0 ≤ number

structure Tidy (fleet : Fleet Session) : Prop where
  server : fleet.server.Tidy
  sessions : ∀ session, (fleet.sessions session).client.Tidy

theorem Tidy.seat {fleet : Fleet Session} (tidy : fleet.Tidy) (session : Session) :
    (fleet.seat session).client.Tidy :=
  ⟨(tidy.sessions session).inbox, (tidy.sessions session).others,
    (tidy.sessions session).entries⟩

theorem Tidy.exclusive {fleet : Fleet Session} (tidy : fleet.Tidy) : fleet.Exclusive where
  rows := tidy.server.rows
  entries session := (tidy.sessions session).entries
  printed session := Ncgui.printedOnShelf_nonneg (tidy.seat session) tidy.server
  counts := by
    intro loginUser shelfno count answer
    have unset : nulChar ≠ flagBorrowed := by decide
    rw [eq_bookCount_of_countAnswer tidy.server.numbered tidy.server.faults rfl unset answer]
    exact Archive.bookCount_le tidy.server.rows shelfno

theorem Tidy.step [DecidableEq Session] {fuel : Nat} {fleet : Fleet Session} (tidy : fleet.Tidy)
    {input : Session × Ncgui.Input} (ofBooks : input.2.ofBooks = true)
    (peeked : (fleet.seat input.1).ActsOnPeeked input.2) : (fleet.step fuel input).Tidy := by
  have kept := @step_keeps Session _ Server.Tidy (fun gui => gui.client.Tidy)
    (fun _ _ tidy => ⟨tidy.inbox, tidy.others, tidy.entries⟩) fuel fleet input tidy.server
    tidy.sessions (by
      rintro gui rfl server tidy
      exact (Ncgui.step_tidy tidy server fuel ofBooks peeked).symm)
  exact ⟨kept.1, kept.2⟩

/-- Whatever sessions of one account do, in whatever order, no book is on reading and
borrowed at once, and no count of books on a shelf is negative. -/
theorem never_read_and_lent [DecidableEq Session] (fuel : Nat) (mode : SqlMode)
    (collation : Char → Char → Bool) (accounts : List AccountRow) (bcrypt : Bcrypt)
    (salts : List (Option String)) (history : List MessageCs) (loginUser : String)
    (sendFails delays : Session → List Bool) (inputs : List (Session × Ncgui.Input))
    (exclusive : ∀ row ∈ (Execution.run Server.step
      (.fresh mode collation accounts bcrypt salts []) history).db.archive.books, row.Exclusive)
    (peeked : Execution.Along (step fuel)
      (fun fleet input => input.2.ofBooks = true ∧ (fleet.seat input.1).ActsOnPeeked input.2)
      (connected (Execution.run Server.step (.fresh mode collation accounts bcrypt salts [])
        history) loginUser sendFails delays) inputs) :
    Execution.Always (step fuel) Exclusive
      (connected (Execution.run Server.step (.fresh mode collation accounts bcrypt salts [])
        history) loginUser sendFails delays) inputs := by
  rcases Client.run_fresh_wellNumbered mode collation accounts bcrypt salts history with
    ⟨numbered, faults, _, sendFaults⟩
  generalize Execution.run Server.step _ history =
    server at exclusive peeked numbered faults sendFaults ⊢
  have initial : (connected server loginUser sendFails delays).Tidy := by
    refine ⟨⟨numbered, faults, sendFaults, exclusive⟩, fun session => ⟨trivial, rfl, ?_⟩⟩
    intro position book stored
    cases stored
  refine (@Execution.always_and_along_of_along _ _ (step fuel) Exclusive _ (fun _ _ => True) Tidy
    ?_ ?_ ?_ _ initial _ peeked).1
  · intro fleet input tidy allowed
    exact tidy.step allowed.1 allowed.2
  · intro fleet tidy
    exact tidy.exclusive
  · intro _ _ _ _
    trivial

instance (row : BookRow) : Decidable row.Exclusive := inferInstanceAs (Decidable (¬ _))

instance (gui : Ncgui) : (input : Ncgui.Input) → Decidable (gui.ActsOnPeeked input)
  | .key (.action _) => inferInstanceAs (Decidable (∀ page ∈ gui.shown,
      (gui.client.books.clidbBookPeek (gui.curDbmPos page)).isSome = true))
  | .key .up => .isTrue trivial
  | .key .down => .isTrue trivial
  | .key .left => .isTrue trivial
  | .key (.right _) => .isTrue trivial
  | .key .backspace => .isTrue trivial
  | .display _ _ _ _ => .isTrue trivial
  | .call _ => .isTrue trivial
  | .newBook => .isTrue trivial

/-- The server of two sessions, with a shelf. -/
def sharedServer : Server :=
  Execution.run Server.step Server.sample
    [clientBuildShelfMsg "reader" Server.sampleTime Server.sampleShelf]

/-- One session puts two books on the shelf. Both look at it, and the replies to the first
load of the other come late. One takes a book for reading; the other lends out its older
copy of the book and returns it. -/
def sharedInputs : List (Bool × Ncgui.Input) :=
  [(true, .call (.session (.insertBook Server.sampleTime (Server.sampleBook 1)))),
    (true, .call (.session (.insertBook Server.sampleTime (Server.sampleBook 1)))),
    (true, Ncgui.sampleVisit), (false, Ncgui.sampleVisit), (false, Ncgui.sampleVisit),
    (true, .key (.action .reading)), (false, .key (.action .borrow)),
    (false, .key (.action .borrow)), (true, .call (.session (.countBook 1)))]

def sharedStart : Fleet Bool :=
  connected sharedServer "reader" (fun _ => []) fun session => if session then [] else [true]

theorem shared_never_read_and_lent :
    Execution.Along (step 0)
        (fun fleet input => input.2.ofBooks = true ∧ (fleet.seat input.1).ActsOnPeeked input.2)
        sharedStart sharedInputs ∧
      Execution.Always (step 0) Exclusive sharedStart sharedInputs :=
  have peeked : Execution.Along (step 0)
      (fun fleet input => input.2.ofBooks = true ∧ (fleet.seat input.1).ActsOnPeeked input.2)
      sharedStart sharedInputs := by
    decide +kernel
  ⟨peeked, never_read_and_lent 0 .strict _ [] _ [] _ "reader" _ _ sharedInputs
    (by decide +kernel) peeked⟩

end Fleet

end Bookshelfdq
