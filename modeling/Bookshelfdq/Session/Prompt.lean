import Bookshelfdq.Client.BookPositions
import Bookshelfdq.Session.Alignment

/-! # Calls over a prompt connection

Sends may fail and replies get lost, but no reply comes late. Then every call has to do
with its own replies only, and what a call does to the server and to the cache of books
can be said once for all calls. -/

namespace Bookshelfdq

/-! ## The rows of a find -/

theorem mem_orderBy {Row : Type u} {key : Row → Int} {rows : List Row} {row : Row} :
    row ∈ Table.orderBy key rows ↔ row ∈ rows :=
  List.mem_insertionSort _

/-- A row that a find selects. -/
theorem mem_selectBooks {collation : Char → Char → Bool} {book : BookEntry}
    {books : List BookRow} {selection : List ResultRow} {row : BookRow}
    (selects : selectBooks collation book books = some selection)
    (member : .book row ∈ selection) :
    row ∈ books ∧ (pointsAtBook book = true ∨
      ∃ selected, bookWhere collation book = some selected ∧ selected row = true) := by
  rw [selectBooks] at selects
  split at selects
  case isTrue points =>
    rw [← Option.some.inj selects] at member
    rcases List.mem_map.mp member with ⟨other, otherMem, same⟩
    cases same
    exact ⟨(List.mem_filter.mp otherMem).1, .inl points⟩
  case isFalse =>
    rcases Option.map_eq_some_iff.mp selects with ⟨selected, condition, selects⟩
    rw [← selects] at member
    split at member
    · rcases List.mem_map.mp member with ⟨other, _, same⟩
      cases same
    · rcases List.mem_map.mp member with ⟨other, otherMem, same⟩
      cases same
      have chosen := List.mem_filter.mp (mem_orderBy.mp (List.mem_of_mem_take otherMem))
      exact ⟨chosen.1, .inr ⟨selected, condition, (Bool.and_eq_true_iff.mp chosen.2).1⟩⟩

/-- The row is one of those that answer the request. -/
def Server.Lists (server : Server) (request : MessageCs) (row : BookRow) : Prop :=
  ∃ selection, selectBooks server.db.collation request.stuff.book server.db.archive.books =
    some selection ∧ .book row ∈ selection

theorem Server.Lists.mem {server : Server} {request : MessageCs} {row : BookRow}
    (lists : server.Lists request row) : row ∈ server.db.archive.books := by
  rcases lists with ⟨selection, selects, member⟩
  exact (mem_selectBooks selects member).1

theorem exists_bookRows {collation : Char → Char → Bool} {book : BookEntry}
    {books : List BookRow} {selection : List ResultRow}
    (selects : selectBooks collation book books = some selection)
    (listing : book.bookno ≠ breakLimitInt) :
    ∃ rows : List BookRow, selection = rows.map .book := by
  by_cases points : pointsAtBook book = true
  · rw [selectBooks, if_pos points] at selects
    exact ⟨_, (Option.some.inj selects).symm⟩
  · rw [selectBooks, if_neg points] at selects
    rcases Option.map_eq_some_iff.mp selects with ⟨selected, _, selects⟩
    rw [if_neg listing] at selects
    exact ⟨_, selects.symm⟩

/-! ## The replies to a find -/

theorem Server.replies_findBook_begins {server : Server} {request : MessageCs}
    (kind : request.request = .findBook) :
    server.replies request <+: server.reliably.replies request := by
  simp only [replies, socketSrvHandle, kind]
  rw [show server.reliably.db = server.db from rfl]
  rcases srvdbBookFind _ server.db with ⟨_ | nrows, db⟩
  · exact send_begins _ _
  · exact sendRows_begins _ _ _ _

/-- Whatever fails, a client sees listed rows, and behind them the closing reply or
nothing. -/
theorem Server.replies_findBook_rows (server : Server) {request : MessageCs}
    (kind : request.request = .findBook) :
    ∃ (rows : List BookRow) (start : MessageCs) (closing : ServerResponse),
      (∀ row ∈ rows, server.Lists request row) ∧ start.request = .findBook ∧
      closing ≠ .success ∧ (closing = .findEndMore → rows ≠ []) ∧
      (request.stuff.book.bookno = breakLimitInt → rows = []) ∧
      server.replies request <+: rowReplies fillBook closing (rows.map .book) start := by
  have reliable : server.reliably.sendFaults = [] := rfl
  have same : server.reliably.db = server.db := rfl
  have begins := server.replies_findBook_begins kind
  by_cases found : ∃ selection, FindsBooks request server.db selection
  · rcases found with ⟨selection, finds⟩
    by_cases counting : request.stuff.book.bookno = breakLimitInt
    · rw [replies_countingBooks reliable kind finds counting] at begins
      refine ⟨[], request.opened.setExtra selection.length, .findEnd, ?_, kind, ?_, ?_,
        fun _ => rfl, begins⟩
      · intro row member
        exact absurd member List.not_mem_nil
      · exact ServerResponse.noConfusion
      · exact ServerResponse.noConfusion
    · rw [replies_findBook reliable kind finds counting] at begins
      rcases exists_bookRows finds.selects counting with ⟨rows, rfl⟩
      refine ⟨rows, request.opened.setExtra (rows.map ResultRow.book).length,
        closingResponse (rows.map ResultRow.book).length, ?_, kind, closingResponse_ne_success _,
        ?_, fun count => absurd count counting, begins.trans (beforeFault_begins _ _)⟩
      · intro row member
        exact ⟨_, finds.selects, List.mem_map_of_mem member⟩
      · rintro more rfl
        exact ServerResponse.noConfusion more
  · rw [replies_findBook_refused reliable kind fun rows finds => found ⟨rows, finds⟩] at begins
    refine ⟨[], request.opened, .failed, ?_, kind, ?_, ?_, fun _ => rfl, begins⟩
    · intro row member
      exact absurd member List.not_mem_nil
    · exact ServerResponse.noConfusion
    · exact ServerResponse.noConfusion

/-! ## Single replies -/

namespace Allocation

variable {Row : Type} [DecidableEq Row] {alloc : Allocation Row} {Feature : Type}
  (feature : MessageCs → Feature)
  (keeps : ∀ number msg, feature (alloc.record number msg) = feature msg)
  (texts : ∀ (msg : MessageCs) text, feature { msg with errorText := text } = feature msg)

include keeps

theorem reuse_keeps {msg reply : MessageCs} {db after : Mysql}
    (reused : alloc.reuse msg db = (some reply, after)) : feature reply = feature msg := by
  rw [reuse] at reused
  split at reused
  · cases reused
  · split at reused
    · cases reused
    · split at reused
      · cases reused
      · split at reused
        · cases reused
          exact keeps _ _
        · cases reused

include texts

omit [DecidableEq Row] in
theorem insertAt_keeps (number : Int) (msg : MessageCs) (db : Mysql) :
    feature (alloc.insertAt number msg db).2.1 = feature msg := by
  rw [insertAt]
  split
  · exact keeps _ _
  · exact (texts _ _).trans (keeps _ _)

omit [DecidableEq Row] in
theorem extend_keeps (msg : MessageCs) (db : Mysql) :
    feature (alloc.extend msg db).2.1 = feature msg := by
  rw [extend]
  split
  · rfl
  · split
    · split
      · exact texts _ _
      · exact insertAt_keeps feature keeps texts _ _ _
    · exact insertAt_keeps feature keeps texts _ _ _

/-- What a number does not change in a message, the reply has as the request had it. -/
theorem allocate_keeps (msg : MessageCs) (db : Mysql) :
    feature (alloc.allocate msg db).2.1 = feature msg := by
  rw [allocate]
  split
  · rfl
  · split
    case h_1 reused => exact reuse_keeps feature keeps reused
    case h_2 => exact extend_keeps feature keeps texts _ _

end Allocation

theorem srvdbBookCount_request (msg : MessageCs) (db : Mysql) :
    (srvdbBookCount msg db).2.1.request = msg.request := by
  simp only [srvdbBookCount]
  split
  · rfl
  · split
    · rfl
    · split
      · rfl
      · split <;> rfl

theorem srvdbShelfCount_request (msg : MessageCs) (db : Mysql) :
    (srvdbShelfCount msg db).2.1.request = msg.request := by
  simp only [srvdbShelfCount]
  split <;> rfl

/-- Requests that are answered by one reply. -/
def ClientRequest.isSingle : ClientRequest → Bool
  | .insertBook => true
  | .deleteBook => true
  | .updateBook => true
  | .countBook => true
  | .countShelf => true
  | _ => false

theorem Server.replies_single {server : Server} {request : MessageCs}
    (single : request.request.isSingle = true) :
    ∃ reply, reply.request = request.request ∧ server.replies request <+: [reply] := by
  cases kind : request.request with
  | insertBook =>
      simp only [replies, socketSrvHandle, kind]
      exact ⟨_, Allocation.allocate_keeps MessageCs.request (fun _ _ => rfl) (fun _ _ => rfl) _ _,
        send_begins _ _⟩
  | deleteBook =>
      simp only [replies, socketSrvHandle, kind]
      exact ⟨_, rfl, send_begins _ _⟩
  | updateBook =>
      simp only [replies, socketSrvHandle, kind]
      exact ⟨_, rfl, send_begins _ _⟩
  | countBook =>
      simp only [replies, socketSrvHandle, kind]
      exact ⟨_, srvdbBookCount_request _ _, send_begins _ _⟩
  | countShelf =>
      simp only [replies, socketSrvHandle, kind]
      exact ⟨_, srvdbShelfCount_request _ _, send_begins _ _⟩
  | _ =>
      rw [kind] at single
      exact absurd single Bool.false_ne_true

/-- An update is answered by the message itself. -/
theorem Server.replies_updateBook {server : Server} {request : MessageCs}
    (kind : request.request = .updateBook) :
    server.replies request <+: [request.opened.respond
      (if (srvdbBookUpdate request.opened server.db).1 then .success else .failed)] := by
  simp only [replies, socketSrvHandle, kind, MessageCs.opened]
  exact send_begins _ _

/-! ## Calls -/

/-- The request has been handled, or has not gone out at all. -/
def Link.Sends (msg : MessageCs) (before after : Link) : Prop :=
  (after.server = before.server ∧ after.exchanges = before.exchanges) ∨
    (after.server = before.server.step msg ∧
      after.exchanges = before.exchanges ++ [(before.server, msg)])

namespace Link.Sends

variable {msg : MessageCs} {before after : Link} (sends : Sends msg before after)

include sends

/-- What the server has and keeps, it has after the call. -/
theorem server_holds {holds : Server → Prop} (held : holds before.server)
    (kept : holds (before.server.step msg)) : holds after.server := by
  rcases sends with ⟨server, _⟩ | ⟨server, _⟩
  · rw [server]
    exact held
  · rw [server]
    exact kept

theorem wellNumbered (numbered : before.server.db.archive.WellNumbered) :
    after.server.db.archive.WellNumbered :=
  @server_holds _ _ _ sends (fun server => server.db.archive.WellNumbered) numbered
    (before.server.step_wellNumbered msg numbered)

theorem archive_of_reading (readsOnly : msg.archiveRequest = none) :
    after.server.db.archive = before.server.db.archive := by
  apply @server_holds _ _ _ sends (fun server => server.db.archive = before.server.db.archive) rfl
  exact (Server.step_reads readsOnly).archive

end Link.Sends

/-- A connection between two calls on which no reply comes late. -/
structure Link.Prompt (link : Link) : Prop where
  inbox : link.inbox = []
  delays : link.delays = []
  others : link.others = []

namespace Client

theorem eq_of_mem_exchangesSince {msg : MessageCs} {client after : Client}
    (sends : client.link.Sends msg after.link) {exchange : Server × MessageCs}
    (member : exchange ∈ client.exchangesSince after) : exchange = (client.link.server, msg) := by
  rcases sends with ⟨_, same⟩ | ⟨_, appended⟩
  · rw [exchangesSince, same, List.drop_length] at member
    exact absurd member List.not_mem_nil
  · rw [exchangesSince_of_append appended] at member
    exact List.mem_singleton.mp member

/-- The receive loop on the replies to a find. -/
theorem findLoop_rows (flagNotCached : Bool) {closing : ServerResponse}
    (ending : closing ≠ .success) (rows : List BookRow) (replies : List MessageCs)
    (start : MessageCs) (kind : start.request = .findBook)
    (begins : replies <+: rowReplies fillBook closing (rows.map .book) start)
    (fuel nfinds : Nat) (enough : replies.length < fuel) (msg : MessageCs) (number : Nat)
    (client : Client) (delays : client.link.delays = [])
    (inbox : client.link.inbox = replies.map fun reply => (number, reply)) :
    ∃ result reply consumed added, added <+: rows ∧
      client.findLoop flagNotCached fuel nfinds msg = (result, reply,
        { client with
          link := { client.link with inbox := [], consumed := consumed }
          books := if flagNotCached then client.books
            else client.books.appendBooks (added.map BookRow.entry) }) ∧
      (result = 0 ∨ result = -1 ∨ nfinds ≠ 0 ∨ added ≠ [] ∨ closing = .findEndMore ∧ rows = []) := by
  rcases client with ⟨⟨server, others, sendFails, delayed, waiting, sent, exchanges, consumed⟩,
    books, shelves, loginUser⟩
  dsimp only at delays inbox
  subst delays inbox
  induction rows generalizing replies start fuel nfinds msg consumed books with
  | nil =>
      cases fuel with
      | zero => omega
      | succ fuel =>
          cases replies with
          | nil =>
              refine ⟨0, msg, consumed, [], List.prefix_refl _, ?_, .inl rfl⟩
              simp [findLoop, receive, Link.socketClientGetResponse, BookCache.appendBooks]
          | cons reply replies =>
              rcases List.cons_prefix_cons.mp begins with ⟨rfl, none⟩
              rw [List.prefix_nil.mp none]
              cases closing with
              | success => exact absurd rfl ending
              | failed =>
                  refine ⟨0, start.respond .failed, consumed ++ [number], [], List.prefix_refl _,
                    ?_, .inl rfl⟩
                  simp [findLoop, receive, Link.socketClientGetResponse, BookCache.appendBooks]
              | findEndMore =>
                  refine ⟨1, start.respond .findEndMore, consumed ++ [number], [],
                    List.prefix_refl _, ?_, .inr (.inr (.inr (.inr ⟨rfl, rfl⟩)))⟩
                  simp [findLoop, receive, Link.socketClientGetResponse, BookCache.appendBooks]
              | findEnd =>
                  refine ⟨if nfinds = 0 then -1 else 1, start.respond .findEnd,
                    consumed ++ [number], [], List.prefix_refl _, ?_, ?_⟩
                  · simp [findLoop, receive, Link.socketClientGetResponse, BookCache.appendBooks]
                  · by_cases first : nfinds = 0
                    · exact .inr (.inl (if_pos first))
                    · exact .inr (.inr (.inl first))
  | cons row rows induction =>
      cases fuel with
      | zero => omega
      | succ fuel =>
          cases replies with
          | nil =>
              refine ⟨0, msg, consumed, [], List.nil_prefix, ?_, .inl rfl⟩
              simp [findLoop, receive, Link.socketClientGetResponse, BookCache.appendBooks]
          | cons reply replies =>
              rcases List.cons_prefix_cons.mp begins with ⟨rfl, rest⟩
              have kept : ((fillBook (.book row) start).respond .success).request = .findBook := kind
              rcases induction replies ((fillBook (.book row) start).respond .success) kept rest fuel
                (nfinds + 1) (by simpa using enough)
                ((fillBook (.book row) start).respond .success)
                (if flagNotCached then books else books.clidbBookInsert row.entry)
                (consumed ++ [number]) with ⟨result, last, later, added, begins, loop, _⟩
              refine ⟨result, last, later, row :: added,
                (List.prefix_cons_inj row).mpr begins, ?_, .inr (.inr (.inr (.inl ?_)))⟩
              · cases flagNotCached with
                | true =>
                    simpa [findLoop, receive, Link.socketClientGetResponse, fillBook, kind]
                      using loop
                | false =>
                    simpa [findLoop, receive, Link.socketClientGetResponse, fillBook, cacheBook,
                      BookCache.appendBooks, kind] using loop
              · exact List.cons_ne_nil _ _

/-- The receive loop on the reply to a request that is no find. -/
theorem findLoop_single (flagNotCached : Bool) {reply : MessageCs} (other : reply.request ≠ .findBook)
    {replies : List MessageCs} (begins : replies <+: [reply]) (fuel : Nat)
    (enough : replies.length < fuel) (msg : MessageCs) (number : Nat) (client : Client)
    (delays : client.link.delays = [])
    (inbox : client.link.inbox = replies.map fun reply => (number, reply)) :
    ∃ result last consumed, client.findLoop flagNotCached fuel 0 msg = (result, last,
        { client with link := { client.link with inbox := [], consumed := consumed } }) ∧
      (result = 1 → last = reply ∧ replies = [reply] ∧ reply.response ≠ .failed) := by
  rcases client with ⟨⟨server, others, sendFails, delayed, waiting, sent, exchanges, consumed⟩,
    books, shelves, loginUser⟩
  dsimp only at delays inbox
  subst delays inbox
  cases fuel with
  | zero => omega
  | succ fuel =>
      cases replies with
      | nil =>
          refine ⟨0, msg, consumed, ?_, ?_⟩
          · simp [findLoop, receive, Link.socketClientGetResponse]
          · intro one
            exact absurd one Int.zero_ne_one
      | cons first replies =>
          rcases List.cons_prefix_cons.mp begins with ⟨rfl, none⟩
          rw [List.prefix_nil.mp none]
          cases answer : first.response with
          | failed =>
              refine ⟨0, first, consumed ++ [number], ?_, ?_⟩
              · simp [findLoop, receive, Link.socketClientGetResponse, answer]
              · intro one
                exact absurd one Int.zero_ne_one
          | findEnd =>
              refine ⟨-1, first, consumed ++ [number], ?_, ?_⟩
              · simp [findLoop, receive, Link.socketClientGetResponse, answer]
              · intro one
                exact absurd one (by decide)
          | findEndMore =>
              refine ⟨1, first, consumed ++ [number], ?_, fun _ => ⟨rfl, rfl, ?_⟩⟩
              · simp [findLoop, receive, Link.socketClientGetResponse, answer]
              · exact ServerResponse.noConfusion
          | success =>
              refine ⟨1, first, consumed ++ [number], ?_, fun _ => ⟨rfl, rfl, ?_⟩⟩
              · simp [findLoop, receive, Link.socketClientGetResponse, answer, other]
              · exact ServerResponse.noConfusion

/-- The client after a request and one reply to it. -/
def sendReceive (msg : MessageCs) (client : Client) : Client :=
  match client.send msg with
  | (false, client) => client
  | (true, client) => client.receive.2

theorem clientBooksCountSync_sendReceive (stale : MessageCs) (client : Client) :
    (client.clientBooksCountSync stale).2 =
      client.sendReceive (clientBooksCountSyncMsg client.loginUser stale) := by
  rw [clientBooksCountSync, sendReceive]
  rcases client.send _ with ⟨_ | _, sent⟩
  · rfl
  · dsimp only
    rcases sent.receive with ⟨_ | reply, after⟩
    · rfl
    · dsimp only
      cases reply.response <;> rfl

theorem clientShelvesCountSync_sendReceive (stale : MessageCs) (shelvesAll : Int)
    (client : Client) : (client.clientShelvesCountSync stale shelvesAll).2.2 =
      client.sendReceive (clientShelvesCountSyncMsg client.loginUser stale) := by
  rw [clientShelvesCountSync, sendReceive]
  rcases client.send _ with ⟨_ | _, sent⟩
  · rfl
  · dsimp only
    rcases sent.receive with ⟨_ | reply, after⟩
    · rfl
    · dsimp only
      cases reply.response <;> rfl

variable {client : Client} (prompt : client.link.Prompt)

include prompt

/-- The request goes out or it does not. -/
theorem send_prompt (msg : MessageCs) :
    (∃ link, client.send msg = (false, { client with link := link }) ∧ link.Prompt ∧
      client.link.Sends msg link) ∨
    ∃ link, client.send msg = (true, { client with link := link }) ∧ link.delays = [] ∧
      link.others = [] ∧ link.server = client.link.server.step msg ∧
      link.exchanges = client.link.exchanges ++ [(client.link.server, msg)] ∧
      link.inbox = (client.link.server.replies msg).map fun reply => (client.link.sent, reply) := by
  have alone := Link.reached_of_others prompt.others
  rcases client.link.socketClientSendRequest_cases msg with ⟨_, sent⟩ | ⟨_, sent⟩
  · refine .inl ⟨{ client.link with sendFails := client.link.sendFails.tail }, ?_, ?_, ?_⟩
    · rw [send, sent]
    · exact ⟨prompt.inbox, prompt.delays, prompt.others⟩
    · exact .inl ⟨rfl, rfl⟩
  · refine .inr ⟨{ client.link.posted msg with sendFails := client.link.sendFails.tail },
      ?_, prompt.delays, ?_, ?_, ?_, ?_⟩
    · rw [send, sent]
    · show client.link.others.tail = []
      rw [prompt.others]
      rfl
    · show client.link.reached.step msg = _
      rw [alone]
    · show client.link.exchanges ++ [(client.link.reached, msg)] = _
      rw [alone]
    · show client.link.inbox ++ _ = _
      rw [prompt.inbox, alone, List.nil_append]

/-- A find appends rows of the server to the cache. It says so, or reports a failure or that
there are none. -/
theorem findFromServer_find {msg : MessageCs} (kind : msg.request = .findBook) :
    ∃ result reply link added, client.findFromServer msg = (result, reply,
        { client with link := link, books := client.books.appendBooks added }) ∧
      link.Prompt ∧ client.link.Sends msg link ∧
      (∀ book ∈ added, ∃ row, client.link.server.Lists msg row ∧ book = row.entry) ∧
      (result = 0 ∨ result = -1 ∨ added ≠ []) := by
  rw [findFromServer]
  rcases send_prompt prompt msg with ⟨link, sent, still, sends⟩ |
    ⟨link, sent, delays, others, server, exchanges, inbox⟩
  · rw [sent]
    refine ⟨0, msg, link, [], rfl, still, sends, ?_, .inl rfl⟩
    intro book member
    exact absurd member List.not_mem_nil
  · rw [sent]
    rcases client.link.server.replies_findBook_rows kind with
      ⟨rows, start, closing, lists, starts, ending, more, counts, begins⟩
    have enough : (client.link.server.replies msg).length < link.inbox.length + 1 := by
      rw [inbox, List.length_map]
      exact Nat.lt_succ_self _
    rcases findLoop_rows (msg.request == .findBook && msg.stuff.book.bookno == breakLimitInt) ending
      rows _ start starts begins _ 0 enough msg client.link.sent { client with link := link } delays
      inbox with ⟨result, reply, consumed, added, part, loop, outcome⟩
    have cached : (if (msg.request == .findBook && msg.stuff.book.bookno == breakLimitInt) = true
        then client.books else client.books.appendBooks (added.map BookRow.entry)) =
          client.books.appendBooks (added.map BookRow.entry) := by
      by_cases counting : msg.stuff.book.bookno = breakLimitInt
      · rw [counts counting] at part
        rw [List.prefix_nil.mp part]
        split <;> rfl
      · rw [beq_eq_false_iff_ne.mpr counting, Bool.and_false]
        rfl
    rw [cached] at loop
    refine ⟨result, reply, { link with inbox := [], consumed := consumed },
      added.map BookRow.entry, loop, ⟨rfl, delays, others⟩, .inr ⟨server, exchanges⟩, ?_, ?_⟩
    · intro book member
      rcases List.mem_map.mp member with ⟨row, rowMem, rfl⟩
      exact ⟨row, lists row (part.subset rowMem), rfl⟩
    · rcases outcome with zero | none | again | some | ⟨endMore, empty⟩
      · exact .inl zero
      · exact .inr (.inl none)
      · exact absurd rfl again
      · exact .inr (.inr (List.map_eq_nil_iff.not.mpr some))
      · exact absurd empty (more endMore)

/-- A request with a single reply leaves the cache as it is. -/
theorem findFromServer_single {msg : MessageCs} (single : msg.request.isSingle = true) :
    ∃ result reply link, client.findFromServer msg = (result, reply, { client with link := link }) ∧
      link.Prompt ∧ client.link.Sends msg link ∧
      (result = 1 → client.link.server.replies msg = [reply] ∧ reply.response ≠ .failed ∧
        link.server = client.link.server.step msg) := by
  rw [findFromServer]
  rcases send_prompt prompt msg with ⟨link, sent, still, sends⟩ |
    ⟨link, sent, delays, others, server, exchanges, inbox⟩
  · rw [sent]
    refine ⟨0, msg, link, rfl, still, sends, ?_⟩
    intro one
    exact absurd one Int.zero_ne_one
  · rw [sent]
    have answered : ∃ reply, reply.request = msg.request ∧
        client.link.server.replies msg <+: [reply] := Server.replies_single single
    rcases answered with ⟨answer, kind, begins⟩
    have other : answer.request ≠ .findBook := by
      intro find
      rw [← kind, find] at single
      exact Bool.false_ne_true single
    have enough : (client.link.server.replies msg).length < link.inbox.length + 1 := by
      rw [inbox, List.length_map]
      exact Nat.lt_succ_self _
    rcases findLoop_single (msg.request == .findBook && msg.stuff.book.bookno == breakLimitInt) other
      begins _ enough msg client.link.sent { client with link := link } delays inbox with
      ⟨result, last, consumed, loop, outcome⟩
    refine ⟨result, last, { link with inbox := [], consumed := consumed }, loop,
      ⟨rfl, delays, others⟩, .inr ⟨server, exchanges⟩, ?_⟩
    intro one
    rcases outcome one with ⟨rfl, only, good⟩
    exact ⟨only, good, server⟩

/-- An update that succeeds is answered by the entry that was sent. -/
theorem findFromServer_update {msg : MessageCs} (kind : msg.request = .updateBook) :
    ∃ result reply link, client.findFromServer msg = (result, reply, { client with link := link }) ∧
      link.Prompt ∧ client.link.Sends msg link ∧
      (result = 1 → reply.stuff = msg.stuff ∧ (srvdbBookUpdate msg.opened client.link.server.db).1 = true ∧
        link.server = client.link.server.step msg) := by
  have single : msg.request.isSingle = true := by
    rw [kind]
    rfl
  rcases findFromServer_single prompt single with ⟨result, reply, link, found, still, sends, outcome⟩
  refine ⟨result, reply, link, found, still, sends, ?_⟩
  intro one
  rcases outcome one with ⟨only, good, server⟩
  have begins := client.link.server.replies_updateBook kind
  rw [only] at begins
  rcases List.cons_prefix_cons.mp begins with ⟨rfl, _⟩
  cases accepted : (srvdbBookUpdate msg.opened client.link.server.db).1 with
  | true => exact ⟨rfl, rfl, server⟩
  | false =>
      rw [accepted] at good
      exact absurd rfl good

/-- Sending a request and waiting for its reply. -/
theorem sendReceive_prompt {msg : MessageCs} (single : msg.request.isSingle = true) :
    ∃ link, client.sendReceive msg = { client with link := link } ∧
      link.Prompt ∧ client.link.Sends msg link := by
  rw [sendReceive]
  rcases send_prompt prompt msg with ⟨link, sent, still, sends⟩ |
    ⟨link, sent, delays, others, server, exchanges, inbox⟩
  · rw [sent]
    exact ⟨link, rfl, still, sends⟩
  · rw [sent]
    have answered : ∃ reply, reply.request = msg.request ∧
        client.link.server.replies msg <+: [reply] := Server.replies_single single
    rcases answered with ⟨reply, _, begins⟩
    dsimp only [receive]
    rcases link.socketClientGetResponse_cases with ⟨late | empty, got⟩ |
      ⟨number, first, rest, _, replies, got⟩
    · rw [delays] at late
      cases late
    · rw [got]
      refine ⟨_, rfl, ⟨empty, ?_, others⟩, .inr ⟨server, exchanges⟩⟩
      rw [delays]
      rfl
    · rw [got]
      refine ⟨_, rfl, ⟨?_, ?_, others⟩, .inr ⟨server, exchanges⟩⟩
      · have few := begins.length_le
        rw [inbox] at replies
        have length := congrArg List.length replies
        rw [List.length_map, List.length_cons] at length
        rw [List.length_singleton] at few
        have none : rest.length = 0 := by omega
        exact List.eq_nil_of_length_eq_zero none
      · rw [delays]
        rfl

theorem clientBooksCountSync_prompt (stale : MessageCs) :
    ∃ link, (client.clientBooksCountSync stale).2 = { client with link := link } ∧ link.Prompt ∧
      client.link.Sends (clientBooksCountSyncMsg client.loginUser stale) link := by
  rw [clientBooksCountSync_sendReceive]
  exact sendReceive_prompt prompt rfl

theorem clientShelvesCountSync_prompt (stale : MessageCs) (shelvesAll : Int) :
    ∃ link, (client.clientShelvesCountSync stale shelvesAll).2.2 = { client with link := link } ∧
      link.Prompt ∧ client.link.Sends (clientShelvesCountSyncMsg client.loginUser stale) link := by
  rw [clientShelvesCountSync_sendReceive]
  exact sendReceive_prompt prompt rfl

end Client

end Bookshelfdq
