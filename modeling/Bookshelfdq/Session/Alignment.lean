import Bookshelfdq.Client.ShelfRecords
import Bookshelfdq.Server.ShelfIntegrity
import Bookshelfdq.Session.Calls

/-! # Replies and the calls that read them

Replies carry no sign of the request they answer, so that a call must read all of
them before the next one starts. -/

namespace Bookshelfdq

/-- The connection neither fails nor delays anything, and leads to a server in a
reachable state. The requests of other sessions and failures of the database are left
open. -/
structure Client.Undisturbed (client : Client) : Prop where
  sendFails : client.link.sendFails = []
  delays : client.link.delays = []
  sendFaults : client.link.server.sendFaults = []
  numbered : client.link.server.db.archive.WellNumbered

/-- A client between two calls, with all replies read. -/
structure Client.Ready (client : Client) : Prop extends client.Undisturbed where
  inbox : client.link.inbox = []

theorem Link.reached_sound {link : Link} (reliable : link.server.sendFaults = [])
    (numbered : link.server.db.archive.WellNumbered) :
    link.reached.sendFaults = [] ∧ link.reached.db.archive.WellNumbered := by
  have preserved : ∀ (server : Server) request, server.sendFaults = [] →
      (server.step request).sendFaults = [] := fun server request reliable =>
    Server.step_sendFaults request reliable
  exact ⟨Execution.run_invariant preserved reliable _, reached_numbered numbered⟩

/-! ## Reading replies -/

namespace Client

theorem receive_of_inbox {client : Client} (delays : client.link.delays = [])
    {number : Nat} {reply : MessageCs} {rest : List (Nat × MessageCs)}
    (inbox : client.link.inbox = (number, reply) :: rest) :
    client.receive = (some reply, { client with link := { client.link with
      inbox := rest, consumed := client.link.consumed ++ [number] } }) := by
  rcases client with ⟨⟨server, others, sendFails, delayed, waiting, sent, exchanges, consumed⟩,
    books, shelves, loginUser⟩
  dsimp only at delays inbox
  subst delays inbox
  rfl

theorem receive_of_empty {client : Client} (delays : client.link.delays = [])
    (inbox : client.link.inbox = []) : client.receive = (none, client) := by
  rcases client with ⟨⟨server, others, sendFails, delayed, waiting, sent, exchanges, consumed⟩,
    books, shelves, loginUser⟩
  dsimp only at delays inbox
  subst delays inbox
  rfl

/-- A receive loop that meets rows before a last reply reads all of them. -/
theorem findLoop_reads_all (flagNotCached : Bool) (inbox : List (Nat × MessageCs))
    (rows : ∀ reply ∈ inbox.dropLast,
      reply.2.response = .success ∧ reply.2.request = .findBook)
    (fuel nfinds : Nat) (enough : inbox.length < fuel) (msg : MessageCs) (client : Client)
    (delays : client.link.delays = []) (waiting : client.link.inbox = inbox) :
    (client.findLoop flagNotCached fuel nfinds msg).2.2.link.inbox = [] ∧
      (client.findLoop flagNotCached fuel nfinds msg).2.2.link.exchanges =
        client.link.exchanges := by
  induction inbox generalizing fuel nfinds msg client with
  | nil =>
      cases fuel with
      | zero => cases enough
      | succ fuel =>
          rw [findLoop, receive_of_empty delays waiting]
          exact ⟨waiting, rfl⟩
  | cons head inbox induction =>
      rcases head with ⟨number, reply⟩
      cases fuel with
      | zero => cases enough
      | succ fuel =>
          rw [findLoop, receive_of_inbox delays waiting]
          cases inbox with
          | nil =>
              have next := induction (by simp) fuel (nfinds + 1) (by simpa using enough) reply
              cases answer : reply.response with
              | failed => simp [answer]
              | findEnd => simp [answer]
              | findEndMore => simp [answer]
              | success =>
                  simp only [answer]
                  split
                  · cases flagNotCached with
                    | true => exact next _ delays rfl
                    | false => exact next _ delays rfl
                  · exact ⟨rfl, rfl⟩
          | cons second inbox =>
              have row : reply.response = .success ∧ reply.request = .findBook :=
                rows (number, reply) (by simp)
              simp only [row.1, row.2, if_true]
              have later : ∀ reply ∈ (second :: inbox).dropLast,
                  reply.2.response = .success ∧ reply.2.request = .findBook := by
                intro reply member
                exact rows reply (by simp [member])
              have next := induction later fuel (nfinds + 1) (by simpa using enough) reply
              cases flagNotCached with
              | true => exact next _ delays rfl
              | false => exact next _ delays rfl

end Client

/-! ## Replies to the requests of `find_from_server` -/

theorem beforeFault_rowReplies_dropLast (fill : ResultRow → MessageCs → MessageCs)
    (keeps : ∀ row msg, (fill row msg).request = msg.request) (closing : ServerResponse)
    (rows : List ResultRow) (msg : MessageCs) (faults : List Bool) :
    ∀ reply ∈ (beforeFault faults (rowReplies fill closing rows msg)).dropLast,
      reply.response = .success ∧ reply.request = msg.request := by
  induction rows generalizing msg faults with
  | nil =>
      intro reply member
      rw [rowReplies, beforeFault] at member
      split at member
      · cases member
      · simp [beforeFault] at member
  | cons row rows induction =>
      intro reply member
      rw [rowReplies, beforeFault] at member
      split at member
      · cases member
      · have rest := induction ((fill row msg).respond .success) faults.tail reply
        have same : ((fill row msg).respond .success).request = msg.request := keeps row msg
        generalize beforeFault faults.tail
          (rowReplies fill closing rows ((fill row msg).respond .success)) = replies at member rest
        cases replies with
        | nil => cases member
        | cons next replies =>
            rw [List.dropLast_cons_cons] at member
            rcases List.mem_cons.mp member with equal | member
            · rw [equal]
              exact ⟨rfl, same⟩
            · rw [← same]
              exact rest member

theorem fillBook_request (row : ResultRow) (msg : MessageCs) :
    (fillBook row msg).request = msg.request := by
  cases row <;> rfl

theorem Server.replies_rows {server : Server} {request : MessageCs}
    (reliable : server.sendFaults = []) (kind : request.request ≠ .findShelf) :
    ∀ reply ∈ (server.replies request).dropLast,
      reply.response = .success ∧ reply.request = .findBook := by
  by_cases find : request.request = .findBook
  · by_cases found : ∃ rows, FindsBooks request server.db rows
    · rcases found with ⟨rows, finds⟩
      by_cases counting : request.stuff.book.bookno = breakLimitInt
      · rw [replies_countingBooks reliable find finds counting]
        simp
      · rw [replies_findBook reliable find finds counting, ← find]
        exact beforeFault_rowReplies_dropLast fillBook fillBook_request _ _ _ _
    · rw [replies_findBook_refused reliable find fun rows finds => found ⟨rows, finds⟩]
      simp
  · by_cases beat : request.request = .heartbeat
    · simp [replies, socketSrvHandle, beat]
    · have single : answers request (server.replies request) = true := by
        rw [answers_iff_answerable reliable]
        cases other : request.request <;> simp_all [Answerable]
      simp only [answers, find, kind, or_self, if_false, beq_iff_eq] at single
      rcases List.length_eq_one_iff.mp single with ⟨reply, only⟩
      rw [only]
      simp

/-! ## Single requests -/

theorem Client.Undisturbed.reached {client : Client} (undisturbed : client.Undisturbed) :
    client.link.reached.sendFaults = [] ∧ client.link.reached.db.archive.WellNumbered :=
  Link.reached_sound undisturbed.sendFaults undisturbed.numbered

theorem Client.Undisturbed.posted {client : Client} (undisturbed : client.Undisturbed)
    (msg : MessageCs) : (client.posted msg).Undisturbed where
  sendFails := undisturbed.sendFails
  delays := undisturbed.delays
  sendFaults := Server.step_sendFaults msg undisturbed.reached.1
  numbered := Server.step_wellNumbered _ msg undisturbed.reached.2

/-- The request has gone out and its only reply has been read. -/
structure Client.Asked (msg : MessageCs) (client after : Client) : Prop where
  ready : after.Ready
  shelves : after.shelves = client.shelves
  exchanges : after.link.exchanges = client.link.exchanges ++ [(client.link.reached, msg)]

namespace Client

variable {client : Client} (ready : client.Ready)

include ready

theorem Ready.inbox_posted (msg : MessageCs) : (client.posted msg).link.inbox =
    (client.link.reached.replies msg).map fun reply => (client.link.sent, reply) := by
  simp [posted, Link.posted, ready.inbox]

theorem findFromServer_reads_all {msg : MessageCs} (kind : msg.request ≠ .findShelf) :
    (client.findFromServer msg).2.2.link.inbox = [] ∧
      client.exchangesSince (client.findFromServer msg).2.2 = [(client.link.reached, msg)] := by
  have rows : ∀ reply ∈ (client.posted msg).link.inbox.dropLast,
      reply.2.response = .success ∧ reply.2.request = .findBook := by
    rw [ready.inbox_posted, ← List.map_dropLast]
    intro reply member
    rcases List.mem_map.mp member with ⟨plain, plainMem, rfl⟩
    exact Server.replies_rows ready.reached.1 kind plain plainMem
  rw [findFromServer, send_of_sendFails ready.sendFails]
  have read := findLoop_reads_all (msg.request == .findBook &&
    msg.stuff.book.bookno == breakLimitInt) _ rows _ 0 (Nat.lt_succ_self _) msg
    (client.posted msg) ready.delays rfl
  exact ⟨read.1, exchangesSince_of_append read.2⟩

/-- A count request is answered by one reply, which the client reads. -/
theorem receive_count (msg : MessageCs)
    (kind : msg.request = .countBook ∨ msg.request = .countShelf) :
    ∃ reply after, (client.posted msg).receive = (some reply, after) ∧
      client.Asked msg after := by
  have answered : answers msg (client.link.reached.replies msg) = true := by
    rw [Server.answers_iff_answerable ready.reached.1]
    rcases kind with kind | kind <;> simp [Server.Answerable, kind]
  have single : (client.link.reached.replies msg).length = 1 := by
    rcases kind with kind | kind <;> simpa [answers, kind] using answered
  rcases List.length_eq_one_iff.mp single with ⟨reply, only⟩
  have inbox := ready.inbox_posted msg
  rw [only] at inbox
  have undisturbed := ready.posted msg
  refine ⟨reply, _, receive_of_inbox undisturbed.delays inbox, ⟨⟨?_, rfl⟩, rfl, rfl⟩⟩
  exact ⟨undisturbed.sendFails, undisturbed.delays, undisturbed.sendFaults, undisturbed.numbered⟩

theorem clientShelvesCountSync_asked (stale : MessageCs) (shelvesAll : Int) :
    ∃ total after, client.clientShelvesCountSync stale shelvesAll = (true, total, after) ∧
      client.Asked (clientShelvesCountSyncMsg client.loginUser stale) after := by
  rcases receive_count ready (clientShelvesCountSyncMsg client.loginUser stale)
    (.inr rfl) with ⟨reply, after, received, asked⟩
  rw [clientShelvesCountSync, send_of_sendFails ready.sendFails]
  dsimp only
  rw [received]
  cases answer : reply.response with
  | success => exact ⟨reply.extraInfo.getD 0 0, after, by simp [answer], asked⟩
  | failed => exact ⟨shelvesAll, after, by simp [answer], asked⟩
  | findEnd => exact ⟨shelvesAll, after, by simp [answer], asked⟩
  | findEndMore => exact ⟨shelvesAll, after, by simp [answer], asked⟩

theorem clientBooksCountSync_asked (stale : MessageCs) :
    client.Asked (clientBooksCountSyncMsg client.loginUser stale)
      (client.clientBooksCountSync stale).2 := by
  rcases receive_count ready (clientBooksCountSyncMsg client.loginUser stale)
    (.inl rfl) with ⟨reply, after, received, asked⟩
  rw [clientBooksCountSync, send_of_sendFails ready.sendFails]
  dsimp only
  rw [received]
  cases answer : reply.response <;> simpa [answer] using asked

end Client

/-! ## The listing pass -/

namespace ShelfCache

/-- Two writes store an entry and the record. -/
theorem clidbShelfRealInsert_fst (mark : Nat) (shelf : ShelfEntry) (cache : ShelfCache) :
    (cache.clidbShelfRealInsert mark shelf).1 = healthyFor 2 cache.dbmFaults ∧
      (healthyFor 2 cache.dbmFaults = true →
        (cache.clidbShelfRealInsert mark shelf).2.dbmFaults = cache.dbmFaults.tail.tail) := by
  rw [clidbShelfRealInsert, healthyFor_succ, healthyFor_succ]
  cases first : cache.dbmFaults.headD false with
  | true =>
      rw [dbmWrite_of_fault first]
      exact ⟨rfl, fun healthy => absurd healthy Bool.false_ne_true⟩
  | false =>
      rw [dbmWrite_of_healthy first]
      dsimp only [shelfRecordSave]
      cases second : cache.dbmFaults.tail.headD false with
      | true =>
          rw [dbmWrite_of_fault second]
          exact ⟨rfl, fun healthy => absurd healthy Bool.false_ne_true⟩
      | false =>
          rw [dbmWrite_of_healthy second]
          exact ⟨rfl, fun _ => rfl⟩

theorem synchronizeAll_fst (shelves : List ShelfEntry) (cache : ShelfCache) :
    (cache.synchronizeAll shelves).1 = healthyFor (2 * shelves.length) cache.dbmFaults := by
  induction shelves generalizing cache with
  | nil => simp [synchronizeAll, healthyFor]
  | cons shelf shelves induction =>
      have inserted := clidbShelfRealInsert_fst recordSync shelf cache
      have double : 2 * (shelf :: shelves).length = 2 * shelves.length + 1 + 1 := by
        simp only [List.length_cons]
        omega
      rw [synchronizeAll, clidbShelfSynchronize, double, healthyFor_succ, healthyFor_succ]
      rw [healthyFor_succ, healthyFor_succ] at inserted
      rcases result : cache.clidbShelfRealInsert recordSync shelf with ⟨stored, after⟩
      rw [result] at inserted
      cases first : cache.dbmFaults.headD false with
      | true =>
          rw [first] at inserted
          have failed : stored = false := inserted.1
          subst failed
          rfl
      | false =>
          cases second : cache.dbmFaults.tail.headD false with
          | true =>
              rw [first, second] at inserted
              have failed : stored = false := inserted.1
              subst failed
              rfl
          | false =>
              rw [first, second] at inserted
              have done : stored = true := inserted.1
              subst done
              rw [← inserted.2 rfl]
              exact induction after

end ShelfCache

/-! ## Replies to a find of shelves -/

theorem beforeFault_of_healthy {α : Type} {items : List α} {faults : List Bool}
    (healthy : healthyFor items.length faults = true) : beforeFault faults items = items := by
  induction items generalizing faults with
  | nil => rfl
  | cons item items induction =>
      rw [List.length_cons, healthyFor_succ, Bool.and_eq_true] at healthy
      have sound : faults.headD false = false := by simpa using healthy.1
      rw [beforeFault, sound, induction healthy.2]
      rfl

section Find

variable {server : Server} {request : MessageCs} (reliable : server.sendFaults = [])
  (numbered : server.db.archive.WellNumbered) (kind : request.request = .findShelf)
  (answered : server.Answerable request)

include reliable numbered kind answered

theorem Server.replies_findShelf_answered (finds : FindsShelves request server.db) :
    server.replies request = rowReplies fillShelf .findEnd
      (selectShelves request.stuff.shelf.code server.db.archive.shelves)
      (request.opened.setExtra
        (selectShelves request.stuff.shelf.code server.db.archive.shelves).length) := by
  simp only [Answerable, kind] at answered
  rcases answered finds with ⟨copied, healthy⟩
  rw [replies_findShelf_copied reliable kind finds copied,
    closingResponse_selectShelves numbered]
  apply beforeFault_of_healthy
  rw [length_rowReplies]
  exact healthy

theorem Server.length_replies_findShelf : (server.replies request).length = 1 ↔
    (FindsShelves request server.db →
      selectShelves request.stuff.shelf.code server.db.archive.shelves = []) := by
  by_cases finds : FindsShelves request server.db
  · rw [replies_findShelf_answered reliable numbered kind answered finds, length_rowReplies]
    simp [finds]
  · rw [replies_findShelf_refused reliable kind finds]
    simp [finds]

end Find

namespace Client

theorem listingLoop_rows (stale : MessageCs) (number : Nat) (rows : List ShelfRow)
    (msg : MessageCs) (fuel shelfCnt : Nat) (enough : rows.length < fuel) (client : Client)
    (delays : client.link.delays = [])
    (inbox : client.link.inbox =
      (rowReplies fillShelf .findEnd (rows.map .shelf) msg).map fun reply => (number, reply)) :
    ((client.shelves.synchronizeAll (rows.map ShelfRow.entry)).1 = true →
      ∃ consumed, client.listingLoop stale fuel shelfCnt = (some (shelfCnt + rows.length),
        { client with
          link := { client.link with inbox := [], consumed := consumed }
          shelves := (client.shelves.synchronizeAll (rows.map ShelfRow.entry)).2 })) ∧
    ((client.shelves.synchronizeAll (rows.map ShelfRow.entry)).1 = false →
      (client.listingLoop stale fuel shelfCnt).1 = none ∧
        (client.listingLoop stale fuel shelfCnt).2.link.inbox ≠ [] ∧
        (client.listingLoop stale fuel shelfCnt).2.link.exchanges =
          client.link.exchanges) := by
  induction rows generalizing msg fuel shelfCnt client with
  | nil =>
      cases fuel with
      | zero => cases enough
      | succ fuel =>
          refine ⟨fun _ => ⟨client.link.consumed ++ [number], ?_⟩,
            fun failed => absurd failed.symm Bool.false_ne_true⟩
          rw [listingLoop, receive_of_inbox delays inbox]
          rfl
  | cons row rows induction =>
      cases fuel with
      | zero => cases enough
      | succ fuel =>
          rw [listingLoop, receive_of_inbox delays inbox]
          simp only [List.map_cons, ShelfCache.synchronizeAll, fillShelf, MessageCs.respond,
            MessageCs.setShelf, synchronize]
          rcases client.shelves.clidbShelfSynchronize row.entry with ⟨_ | _, shelves⟩
          · refine ⟨fun done => absurd done Bool.false_ne_true, fun _ => ⟨rfl, ?_, rfl⟩⟩
            intro empty
            have length := congrArg List.length empty
            simp [length_rowReplies] at length
          · have rest := induction ((fillShelf (.shelf row) msg).respond .success) fuel
              (shelfCnt + 1) (by simpa using enough)
              { client with
                link := { client.link with
                  inbox := (rowReplies fillShelf .findEnd (rows.map .shelf)
                    ((fillShelf (.shelf row) msg).respond .success)).map
                      fun reply => (number, reply)
                  consumed := client.link.consumed ++ [number] }
                shelves := shelves } delays rfl
            have order : shelfCnt + 1 + rows.length = shelfCnt + (rows.length + 1) := by omega
            rw [order] at rest
            exact rest

theorem listingLoop_refused (stale : MessageCs) (number fuel shelfCnt : Nat)
    (enough : 2 ≤ fuel) (client : Client) (delays : client.link.delays = [])
    {reply : MessageCs} (refused : reply.response = .failed)
    (inbox : client.link.inbox = [(number, reply)]) :
    ∃ consumed, client.listingLoop stale fuel shelfCnt = (none,
      { client with link := { client.link with inbox := [], consumed := consumed } }) := by
  rcases Nat.exists_eq_add_of_le' enough with ⟨fuel, rfl⟩
  refine ⟨client.link.consumed ++ [number], ?_⟩
  rw [listingLoop, receive_of_inbox delays inbox]
  simp only [refused]
  rw [listingLoop, receive_of_empty (by exact delays) rfl]

/-! ## The second pass -/

theorem receive_link_of_delays {client : Client} (delays : client.link.delays = []) :
    client.receive.2.link.inbox = client.link.inbox.tail ∧
      client.receive.2.link.sendFails = client.link.sendFails ∧
      client.receive.2.link.delays = [] ∧
      client.receive.2.link.server = client.link.server ∧
      client.receive.2.link.exchanges = client.link.exchanges := by
  cases inbox : client.link.inbox with
  | nil =>
      rw [receive_of_empty delays inbox]
      exact ⟨inbox, rfl, delays, rfl, rfl⟩
  | cons head rest =>
      rw [receive_of_inbox delays inbox]
      exact ⟨rfl, rfl, delays, rfl, rfl⟩

theorem pointedQuery_undisturbed {client : Client} (undisturbed : client.Undisturbed)
    (stale : MessageCs) (shelfno : Int) (shelfCnt : Nat) :
    (client.pointedQuery stale shelfno shelfCnt).2.Undisturbed ∧
      (client.pointedQuery stale shelfno shelfCnt).2.link.inbox =
        (client.link.inbox ++ (client.link.reached.replies (clientShelvesInfoSyncMsg
          client.loginUser stale (-shelfno))).map fun reply => (client.link.sent, reply)).tail ∧
      (client.pointedQuery stale shelfno shelfCnt).2.link.exchanges =
        client.link.exchanges ++ [(client.link.reached, clientShelvesInfoSyncMsg
          client.loginUser stale (-shelfno))] := by
  have link := pointedQuery_link (send_of_sendFails undisturbed.sendFails
    (clientShelvesInfoSyncMsg client.loginUser stale (-shelfno))) shelfCnt
  have asked := undisturbed.posted (clientShelvesInfoSyncMsg client.loginUser stale (-shelfno))
  rcases receive_link_of_delays asked.delays with ⟨inbox, sendFails, delays, server, exchanges⟩
  refine ⟨⟨?_, ?_, ?_, ?_⟩, ?_, ?_⟩
  · rw [link, sendFails]
    exact asked.sendFails
  · rw [link]
    exact delays
  · rw [link, server]
    exact asked.sendFaults
  · rw [link, server]
    exact asked.numbered
  · rw [link, inbox]
    rfl
  · rw [link, exchanges]
    rfl

/-- An exchange of the second pass. -/
structure Pointed (exchange : Server × MessageCs) : Prop where
  reliable : exchange.1.sendFaults = []
  numbered : exchange.1.db.archive.WellNumbered
  kind : exchange.2.request = .findShelf
  code : exchange.2.stuff.shelf.code < 0

theorem tail_append_map_eq_nil {waiting : List (Nat × MessageCs)} {replies : List MessageCs}
    (answered : replies ≠ []) (number : Nat) :
    (waiting ++ replies.map fun reply => (number, reply)).tail = [] ↔
      waiting = [] ∧ replies.length = 1 := by
  cases replies with
  | nil => exact absurd rfl answered
  | cons reply replies =>
      cases waiting with
      | nil => simp
      | cons first waiting => simp

/-- The second pass ends with nothing left to read exactly if it started so and each
of its requests got a single reply. -/
theorem pointedLoop_inbox (stale : MessageCs) (shelfnos : List Int)
    (positive : ∀ shelfno ∈ shelfnos, 0 < shelfno) (shelfCnt : Nat) (client : Client)
    (undisturbed : client.Undisturbed) :
    ∃ exchanges, (client.pointedLoop stale shelfnos shelfCnt).2.link.exchanges =
        client.link.exchanges ++ exchanges ∧
      (∀ exchange ∈ exchanges, Pointed exchange) ∧
      ((∀ exchange ∈ exchanges, exchange.1.replies exchange.2 ≠ []) →
        ((client.pointedLoop stale shelfnos shelfCnt).2.link.inbox = [] ↔
          client.link.inbox = [] ∧
            ∀ exchange ∈ exchanges, (exchange.1.replies exchange.2).length = 1)) := by
  induction shelfnos generalizing shelfCnt client with
  | nil => exact ⟨[], by simp [pointedLoop], by simp, by simp [pointedLoop]⟩
  | cons shelfno shelfnos induction =>
      have later : ∀ shelfno ∈ shelfnos, 0 < shelfno := fun other member =>
        positive other (List.mem_cons_of_mem _ member)
      rw [pointedLoop]
      split
      · rcases pointedQuery_undisturbed undisturbed stale shelfno shelfCnt with
          ⟨still, inbox, exchanges⟩
        have pointed : Pointed (client.link.reached,
            clientShelvesInfoSyncMsg client.loginUser stale (-shelfno)) :=
          ⟨undisturbed.reached.1, undisturbed.reached.2, rfl,
            Int.neg_neg_of_pos (positive shelfno List.mem_cons_self)⟩
        generalize client.pointedQuery stale shelfno shelfCnt = queried at *
        rcases queried with ⟨_ | counted, after⟩ <;> dsimp only at still inbox exchanges ⊢
        · refine ⟨_, exchanges, by simpa using pointed, fun answered => ?_⟩
          rw [inbox, tail_append_map_eq_nil (answered _ List.mem_cons_self)]
          simp
        · rcases induction later counted after still with ⟨rest, appended, pointedRest, read⟩
          refine ⟨(client.link.reached, clientShelvesInfoSyncMsg client.loginUser stale
            (-shelfno)) :: rest, ?_, ?_, fun answered => ?_⟩
          · rw [appended, exchanges, List.append_assoc]
            rfl
          · intro exchange member
            rcases List.mem_cons.mp member with rfl | member
            · exact pointed
            · exact pointedRest exchange member
          · rw [read fun exchange member => answered exchange (List.mem_cons_of_mem _ member),
              inbox, tail_append_map_eq_nil (answered _ List.mem_cons_self)]
            simp [and_assoc]
      · exact induction later shelfCnt client undisturbed

end Client

/-! ## Aligned calls -/

/-- The law of a call: each request was answered in full, and all replies were
read. -/
structure Client.Aligned (before after : Client) : Prop where
  answered : ∀ exchange ∈ before.exchangesSince after,
    answers exchange.2 (exchange.1.replies exchange.2) = true
  read : after.link.inbox = []

/-- The server answers in full and the client reads up to the closing reply. Of the
answer to a find of one shelf it reads only one reply, and it stops reading a listing
at the first shelf that it cannot write to the cache. -/
def Server.Matched (dbmFaults : List Bool) (server : Server) (request : MessageCs) : Prop :=
  server.Answerable request ∧
    (request.request = .findShelf → FindsShelves request server.db →
      if request.stuff.shelf.code < 0 then
        selectShelves request.stuff.shelf.code server.db.archive.shelves = []
      else healthyFor
        (2 * (selectShelves request.stuff.shelf.code server.db.archive.shelves).length)
          dbmFaults = true)

theorem SessionRequest.message_request (request : SessionRequest) (loginUser : String) :
    (request.message loginUser).request ≠ .findShelf := by
  cases request <;> nofun

namespace Client

section Single

variable {client after : Client} {server : Server} {msg : MessageCs}
  (reliable : server.sendFaults = []) (kind : msg.request ≠ .findShelf)
  (read : after.link.inbox = []) (exchanged : client.exchangesSince after = [(server, msg)])

include reliable kind read exchanged

theorem aligned_single_iff : client.Aligned after ↔
    ∀ exchange ∈ client.exchangesSince after,
      exchange.1.Matched client.shelves.dbmFaults exchange.2 := by
  have single : client.Aligned after ↔ answers msg (server.replies msg) = true := by
    constructor
    · intro aligned
      exact aligned.answered (server, msg) (exchanged ▸ List.mem_cons_self)
    · intro answered
      refine ⟨fun exchange member => ?_, read⟩
      rw [exchanged, List.mem_singleton] at member
      exact member ▸ answered
  rw [single, Server.answers_iff_answerable reliable, exchanged]
  simp [Server.Matched, kind]

end Single

/-! ## The synchronising call -/

theorem clientShelvesInfoSync_stopped {client counted read : Client} {fuel : Nat}
    {stale : MessageCs} {shelvesAll total : Int}
    (counting : client.clientShelvesCountSync stale shelvesAll = (true, total, counted))
    (sendFails : counted.link.sendFails = [])
    (listing : (counted.posted (clientShelvesInfoSyncMsg counted.loginUser stale
      nonSenseInt)).listingLoop stale fuel 0 = (none, read)) :
    (client.clientShelvesInfoSync fuel stale shelvesAll).2 = read := by
  rw [clientShelvesInfoSync, counting]
  dsimp only
  rw [send_of_sendFails sendFails]
  dsimp only
  rw [listing]

theorem clientShelvesInfoSync_listed {client counted read : Client} {fuel listed : Nat}
    {stale : MessageCs} {shelvesAll total : Int}
    (counting : client.clientShelvesCountSync stale shelvesAll = (true, total, counted))
    (sendFails : counted.link.sendFails = [])
    (listing : (counted.posted (clientShelvesInfoSyncMsg counted.loginUser stale
      nonSenseInt)).listingLoop stale fuel 0 = (some listed, read)) :
    (client.clientShelvesInfoSync fuel stale shelvesAll).2.link =
      (read.pointedLoop stale shelfNumbers listed).2.link := by
  rw [clientShelvesInfoSync, counting]
  dsimp only
  rw [send_of_sendFails sendFails]
  dsimp only
  rw [listing]
  dsimp only
  rcases read.pointedLoop stale shelfNumbers listed with ⟨_ | shelfCnt, after⟩ <;> rfl

theorem answers_ne_nil {request : MessageCs} {replies : List MessageCs}
    (answered : answers request replies = true) : replies ≠ [] := by
  rintro rfl
  rw [answers] at answered
  split at answered <;> cases answered

theorem Pointed.matched_iff {exchange : Server × MessageCs} (pointed : Pointed exchange)
    (dbmFaults : List Bool) :
    exchange.1.Matched dbmFaults exchange.2 ↔
      answers exchange.2 (exchange.1.replies exchange.2) = true ∧
        (exchange.1.replies exchange.2).length = 1 := by
  rw [Server.Matched, Server.answers_iff_answerable pointed.reliable]
  apply and_congr_right
  intro answered
  rw [Server.length_replies_findShelf pointed.reliable pointed.numbered pointed.kind answered]
  simp [pointed.kind, pointed.code]

theorem shelfNumbers_pos : ∀ shelfno ∈ shelfNumbers, 0 < shelfno := by
  intro shelfno member
  rcases List.mem_map.mp member with ⟨index, _, rfl⟩
  omega

/-- Without wrong row numbers a listing returns rows of shelves only. -/
theorem selectShelves_listing (shelves : List ShelfRow) :
    ∃ rows : List ShelfRow, selectShelves nonSenseInt shelves = rows.map .shelf := by
  have code : nonSenseInt ≠ breakLimitInt := by decide
  rw [selectShelves, if_neg code, if_neg (lt_irrefl _)]
  exact ⟨_, rfl⟩

/-- The count at the head of a call is answered and read in any case. -/
theorem aligned_iff_after_count {client after : Client} {server : Server} {msg : MessageCs}
    {rest : List (Server × MessageCs)} (reliable : server.sendFaults = [])
    (kind : msg.request = .countShelf)
    (exchanged : client.exchangesSince after = (server, msg) :: rest)
    (matched : (∀ exchange ∈ rest, answers exchange.2 (exchange.1.replies exchange.2) = true) ∧
        after.link.inbox = [] ↔
      ∀ exchange ∈ rest, exchange.1.Matched client.shelves.dbmFaults exchange.2) :
    client.Aligned after ↔ ∀ exchange ∈ client.exchangesSince after,
      exchange.1.Matched client.shelves.dbmFaults exchange.2 := by
  have answerable : server.Answerable msg := by simp [Server.Answerable, kind]
  have first := (Server.answers_iff_answerable reliable).mpr answerable
  have both : client.Aligned after ↔
      (∀ exchange ∈ rest, answers exchange.2 (exchange.1.replies exchange.2) = true) ∧
        after.link.inbox = [] := by
    constructor
    · intro aligned
      refine ⟨fun exchange member => ?_, aligned.read⟩
      exact aligned.answered exchange (exchanged ▸ List.mem_cons_of_mem _ member)
    · intro read
      refine ⟨fun exchange member => ?_, read.2⟩
      rw [exchanged] at member
      rcases List.mem_cons.mp member with rfl | member
      · exact first
      · exact read.1 exchange member
  rw [both, matched, exchanged]
  simp [Server.Matched, kind, answerable]

section Synchronising

variable {client counted : Client} {fuel : Nat} {stale : MessageCs} {shelvesAll total : Int}
  (counting : client.clientShelvesCountSync stale shelvesAll = (true, total, counted))
  (asked : client.Asked (clientShelvesCountSyncMsg client.loginUser stale) counted)

include counting asked

theorem exchangesSince_infoSync (fuel : Nat) : ∃ rest,
    client.exchangesSince (client.clientShelvesInfoSync fuel stale shelvesAll).2 =
      (client.link.reached, clientShelvesCountSyncMsg client.loginUser stale) ::
        (counted.link.reached, clientShelvesInfoSyncMsg counted.loginUser stale nonSenseInt) ::
          rest := by
  have sent := asked.ready.sendFails
  have listing := listingLoop_reaches stale fuel 0
    (counted.posted (clientShelvesInfoSyncMsg counted.loginUser stale nonSenseInt))
  have grown : (counted.posted (clientShelvesInfoSyncMsg counted.loginUser stale
      nonSenseInt)).link.Reaches
        (client.clientShelvesInfoSync fuel stale shelvesAll).2.link := by
    rcases listed : (counted.posted (clientShelvesInfoSyncMsg counted.loginUser stale
      nonSenseInt)).listingLoop stale fuel 0 with ⟨_ | shelfCnt, read⟩
    · rw [clientShelvesInfoSync_stopped counting sent listed]
      rw [listed] at listing
      exact listing
    · rw [clientShelvesInfoSync_listed counting sent listed]
      rw [listed] at listing
      exact listing.trans (pointedLoop_reaches stale shelfNumbers shelfCnt read)
  rcases grown.exchanges with ⟨rest, appended⟩
  refine ⟨rest, exchangesSince_of_append ?_⟩
  rw [← appended]
  simp [posted, Link.posted, asked.exchanges]

theorem clientShelvesInfoSync_refused (enough : 2 ≤ fuel)
    (refused : ¬ FindsShelves (clientShelvesInfoSyncMsg counted.loginUser stale nonSenseInt)
      counted.link.reached.db) :
    (client.clientShelvesInfoSync fuel stale shelvesAll).2.link.inbox = [] ∧
      client.exchangesSince (client.clientShelvesInfoSync fuel stale shelvesAll).2 =
        [(client.link.reached, clientShelvesCountSyncMsg client.loginUser stale),
          (counted.link.reached, clientShelvesInfoSyncMsg counted.loginUser stale
            nonSenseInt)] := by
  have inbox := asked.ready.inbox_posted
    (clientShelvesInfoSyncMsg counted.loginUser stale nonSenseInt)
  rw [Server.replies_findShelf_refused asked.ready.reached.1 rfl refused] at inbox
  rcases listingLoop_refused stale counted.link.sent fuel 0 enough _
    (asked.ready.posted _).delays rfl inbox with ⟨consumed, listing⟩
  rw [clientShelvesInfoSync_stopped counting asked.ready.sendFails listing]
  refine ⟨rfl, exchangesSince_of_append ?_⟩
  simp [posted, Link.posted, asked.exchanges]

/-- The listing has been answered in full. -/
theorem clientShelvesInfoSync_answered (enough : maxShelfNum + 2 ≤ fuel)
    (finds : FindsShelves (clientShelvesInfoSyncMsg counted.loginUser stale nonSenseInt)
      counted.link.reached.db)
    (answered : counted.link.reached.Answerable
      (clientShelvesInfoSyncMsg counted.loginUser stale nonSenseInt)) :
    (healthyFor (2 * (selectShelves nonSenseInt
        counted.link.reached.db.archive.shelves).length) client.shelves.dbmFaults = false →
      (client.clientShelvesInfoSync fuel stale shelvesAll).2.link.inbox ≠ []) ∧
    (healthyFor (2 * (selectShelves nonSenseInt
        counted.link.reached.db.archive.shelves).length) client.shelves.dbmFaults = true →
      ∃ rest, client.exchangesSince (client.clientShelvesInfoSync fuel stale shelvesAll).2 =
          (client.link.reached, clientShelvesCountSyncMsg client.loginUser stale) ::
            (counted.link.reached,
              clientShelvesInfoSyncMsg counted.loginUser stale nonSenseInt) :: rest ∧
        (∀ exchange ∈ rest, Pointed exchange) ∧
        ((∀ exchange ∈ rest, exchange.1.replies exchange.2 ≠ []) →
          ((client.clientShelvesInfoSync fuel stale shelvesAll).2.link.inbox = [] ↔
            ∀ exchange ∈ rest, (exchange.1.replies exchange.2).length = 1))) := by
  have numbered := asked.ready.reached.2
  rcases selectShelves_listing counted.link.reached.db.archive.shelves with ⟨rows, select⟩
  have inbox := asked.ready.inbox_posted
    (clientShelvesInfoSyncMsg counted.loginUser stale nonSenseInt)
  rw [Server.replies_findShelf_answered asked.ready.reached.1 numbered rfl answered finds]
    at inbox
  have few : rows.length ≤ maxShelfNum := by
    have short := length_selectShelves_le numbered nonSenseInt
    rw [select, List.length_map] at short
    exact short
  have code : (clientShelvesInfoSyncMsg counted.loginUser stale nonSenseInt).stuff.shelf.code =
    nonSenseInt := rfl
  rw [code, select] at inbox
  have undisturbed := asked.ready.posted
    (clientShelvesInfoSyncMsg counted.loginUser stale nonSenseInt)
  have listing := listingLoop_rows stale counted.link.sent rows _ fuel 0 (by omega) _
    undisturbed.delays inbox
  have same : (counted.posted (clientShelvesInfoSyncMsg counted.loginUser stale
      nonSenseInt)).shelves = client.shelves := asked.shelves
  rw [same, ShelfCache.synchronizeAll_fst, List.length_map] at listing
  rw [select, List.length_map]
  refine ⟨fun failed => ?_, fun healthy => ?_⟩
  · rcases listing.2 failed with ⟨stops, waiting, _⟩
    rcases listed : (counted.posted (clientShelvesInfoSyncMsg counted.loginUser stale
      nonSenseInt)).listingLoop stale fuel 0 with ⟨_ | shelfCnt, read⟩
    · rw [clientShelvesInfoSync_stopped counting asked.ready.sendFails listed]
      rw [listed] at waiting
      exact waiting
    · rw [listed] at stops
      cases stops
  · rcases listing.1 healthy with ⟨consumed, listed⟩
    rw [clientShelvesInfoSync_listed counting asked.ready.sendFails listed]
    have still : Undisturbed { counted.posted (clientShelvesInfoSyncMsg counted.loginUser stale
        nonSenseInt) with
        link := { (counted.posted (clientShelvesInfoSyncMsg counted.loginUser stale
          nonSenseInt)).link with inbox := [], consumed := consumed }
        shelves := (client.shelves.synchronizeAll (rows.map ShelfRow.entry)).2 } :=
      ⟨undisturbed.sendFails, undisturbed.delays, undisturbed.sendFaults, undisturbed.numbered⟩
    rcases pointedLoop_inbox stale shelfNumbers shelfNumbers_pos (0 + rows.length) _ still with
      ⟨rest, appended, pointed, read⟩
    refine ⟨rest, exchangesSince_of_append ?_, pointed, fun replied => ?_⟩
    · rw [clientShelvesInfoSync_listed counting asked.ready.sendFails listed, appended]
      simp [posted, Link.posted, asked.exchanges]
    · rw [read replied]
      simp

end Synchronising

/-- A listing that is answered and stored, and the pointed queries after it. -/
theorem readsAll_iff_matched {server : Server} {msg : MessageCs}
    {rest : List (Server × MessageCs)} {dbmFaults : List Bool} {empty : Prop}
    (reliable : server.sendFaults = []) (matched : server.Matched dbmFaults msg)
    (pointed : ∀ exchange ∈ rest, Pointed exchange)
    (read : (∀ exchange ∈ rest, exchange.1.replies exchange.2 ≠ []) →
      (empty ↔ ∀ exchange ∈ rest, (exchange.1.replies exchange.2).length = 1)) :
    (∀ exchange ∈ (server, msg) :: rest,
        answers exchange.2 (exchange.1.replies exchange.2) = true) ∧ empty ↔
      ∀ exchange ∈ (server, msg) :: rest, exchange.1.Matched dbmFaults exchange.2 := by
  constructor
  · rintro ⟨all, empty⟩ exchange member
    rcases List.mem_cons.mp member with rfl | member
    · exact matched
    · have replied : ∀ exchange ∈ rest, exchange.1.replies exchange.2 ≠ [] :=
        fun exchange member => answers_ne_nil (all exchange (List.mem_cons_of_mem _ member))
      exact ((pointed exchange member).matched_iff _).mpr
        ⟨all exchange (List.mem_cons_of_mem _ member), (read replied).mp empty exchange member⟩
  · intro all
    have each : ∀ exchange ∈ rest, answers exchange.2 (exchange.1.replies exchange.2) = true ∧
        (exchange.1.replies exchange.2).length = 1 := fun exchange member =>
      ((pointed exchange member).matched_iff _).mp (all exchange (List.mem_cons_of_mem _ member))
    refine ⟨fun exchange member => ?_, ?_⟩
    · rcases List.mem_cons.mp member with rfl | member
      · exact (Server.answers_iff_answerable reliable).mpr matched.1
      · exact (each exchange member).1
    · apply (read fun exchange member => answers_ne_nil (each exchange member).1).mpr
      exact fun exchange member => (each exchange member).2

theorem clientShelvesInfoSync_aligned_iff {client : Client} (ready : client.Ready)
    {fuel : Nat} (enough : maxShelfNum + 2 ≤ fuel) (stale : MessageCs) (shelvesAll : Int) :
    client.Aligned (client.clientShelvesInfoSync fuel stale shelvesAll).2 ↔
      ∀ exchange ∈ client.exchangesSince
          (client.clientShelvesInfoSync fuel stale shelvesAll).2,
        exchange.1.Matched client.shelves.dbmFaults exchange.2 := by
  rcases clientShelvesCountSync_asked ready stale shelvesAll with
    ⟨total, counted, counting, asked⟩
  have reliable := asked.ready.reached.1
  have listingAnswered : answers (clientShelvesInfoSyncMsg counted.loginUser stale nonSenseInt)
      (counted.link.reached.replies (clientShelvesInfoSyncMsg counted.loginUser stale
        nonSenseInt)) = true ↔ counted.link.reached.Answerable
          (clientShelvesInfoSyncMsg counted.loginUser stale nonSenseInt) :=
    Server.answers_iff_answerable reliable
  by_cases finds : FindsShelves (clientShelvesInfoSyncMsg counted.loginUser stale nonSenseInt)
      counted.link.reached.db
  · by_cases answered : counted.link.reached.Answerable
        (clientShelvesInfoSyncMsg counted.loginUser stale nonSenseInt)
    · rcases clientShelvesInfoSync_answered counting asked enough finds answered with
        ⟨cut, complete⟩
      cases healthy : healthyFor (2 * (selectShelves nonSenseInt
        counted.link.reached.db.archive.shelves).length) client.shelves.dbmFaults with
      | false =>
          rcases exchangesSince_infoSync counting asked fuel with ⟨rest, exchanged⟩
          apply aligned_iff_after_count ready.reached.1 rfl exchanged
          constructor
          · intro read
            exact absurd read.2 (cut healthy)
          · intro matched
            have written := (matched _ List.mem_cons_self).2 rfl finds
            exact absurd (healthy.symm.trans written) Bool.false_ne_true
      | true =>
          rcases complete healthy with ⟨rest, exchanged, pointed, read⟩
          apply aligned_iff_after_count ready.reached.1 rfl exchanged
          exact readsAll_iff_matched reliable ⟨answered, fun _ _ => healthy⟩ pointed read
    · rcases exchangesSince_infoSync counting asked fuel with ⟨rest, exchanged⟩
      apply aligned_iff_after_count ready.reached.1 rfl exchanged
      constructor
      · intro read
        exact absurd (listingAnswered.mp (read.1 _ List.mem_cons_self)) answered
      · intro matched
        exact absurd (matched _ List.mem_cons_self).1 answered
  · have two : 2 ≤ fuel := le_trans (by decide) enough
    rcases clientShelvesInfoSync_refused counting asked two finds with ⟨read, exchanged⟩
    apply aligned_iff_after_count ready.reached.1 rfl exchanged
    constructor
    · intro all exchange member
      have answered := all.1 exchange member
      rw [List.mem_singleton] at member
      subst member
      exact ⟨listingAnswered.mp answered, fun _ found => absurd found finds⟩
    · intro matched
      refine ⟨fun exchange member => ?_, read⟩
      have answered := (matched exchange member).1
      rw [List.mem_singleton] at member
      subst member
      exact listingAnswered.mpr answered

end Client

/-- A call leaves no reply unread exactly if each of its requests is answered in full
and matched by the reads of the client. -/
theorem ClientCall.aligned_iff_matched (call : ClientCall) {fuel : Nat}
    (enough : maxShelfNum + 2 ≤ fuel) {client : Client} (ready : client.Ready) :
    client.Aligned (call.perform fuel client) ↔
      ∀ exchange ∈ client.exchangesSince (call.perform fuel client),
        exchange.1.Matched client.shelves.dbmFaults exchange.2 := by
  cases call with
  | session request =>
      have kind := request.message_request client.loginUser
      have read := Client.findFromServer_reads_all ready kind
      exact Client.aligned_single_iff ready.reached.1 kind read.1 read.2
  | registerAccount account =>
      have kind : (clientRegisterAccountMsg account).request ≠ .findShelf := by
        simp [clientRegisterAccountMsg]
      have read := Client.findFromServer_reads_all ready kind
      exact Client.aligned_single_iff ready.reached.1 kind read.1 read.2
  | verifyAccount account initMode =>
      have kind : (clientVerifyAccountMsg account initMode).request ≠ .findShelf := by
        rw [clientVerifyAccountMsg]
        split <;> nofun
      have read := Client.findFromServer_reads_all ready kind
      exact Client.aligned_single_iff ready.reached.1 kind read.1 read.2
  | booksCountSync stale =>
      have asked := Client.clientBooksCountSync_asked ready stale
      have kind : (clientBooksCountSyncMsg client.loginUser stale).request ≠ .findShelf := by
        simp [clientBooksCountSyncMsg]
      exact Client.aligned_single_iff ready.reached.1 kind asked.ready.inbox
        (Client.exchangesSince_of_append asked.exchanges)
  | shelvesCountSync stale shelvesAll =>
      rcases Client.clientShelvesCountSync_asked ready stale shelvesAll with
        ⟨total, after, counting, asked⟩
      have kind : (clientShelvesCountSyncMsg client.loginUser stale).request ≠ .findShelf := by
        simp [clientShelvesCountSyncMsg]
      rw [perform, counting]
      exact Client.aligned_single_iff ready.reached.1 kind asked.ready.inbox
        (Client.exchangesSince_of_append asked.exchanges)
  | shelvesInfoSync stale shelvesAll =>
      exact Client.clientShelvesInfoSync_aligned_iff ready enough stale shelvesAll

/-- The cache still has a shelf that has been removed since; `others` are the requests
of other sessions. -/
def Client.outdated (others : List (List MessageCs)) : Client :=
  let cache := ShelfCache.empty.clidbInit "reader"
  let client := connected
    (Execution.run Server.step Server.sample
      [clientBuildShelfMsg "reader" Server.sampleTime Server.sampleShelf,
        clientShelfDeleteItselfMsg "reader" 1])
    .empty (cache.clidbShelfInsert { Server.sampleShelf with code := 1 }).2 "reader"
  { client with link := { client.link with others := others } }

theorem Client.outdated_ready (others : List (List MessageCs)) : (outdated others).Ready := by
  have preserved : ∀ (server : Server) request, server.db.archive.WellNumbered →
      (server.step request).db.archive.WellNumbered := fun server request numbered =>
    server.step_wellNumbered request numbered
  have numbered := Execution.run_invariant preserved
    (show Server.sample.db.archive.WellNumbered from Archive.wellNumbered_empty)
    [clientBuildShelfMsg "reader" Server.sampleTime Server.sampleShelf,
      clientShelfDeleteItselfMsg "reader" 1]
  exact ⟨⟨rfl, rfl, rfl, numbered⟩, rfl⟩

/-- Left alone, the second pass finds the shelf gone. -/
theorem ClientCall.outdated_shelf_aligned :
    (Client.outdated []).Ready ∧
      (Client.outdated []).Aligned
        ((shelvesInfoSync .zeroed 0).perform (maxShelfNum + 2) (Client.outdated [])) ∧
      ∀ exchange ∈ (Client.outdated []).exchangesSince
          ((shelvesInfoSync .zeroed 0).perform (maxShelfNum + 2) (Client.outdated [])),
        exchange.1.Matched (Client.outdated []).shelves.dbmFaults exchange.2 := by
  have ready := Client.outdated_ready []
  have aligned : (Client.outdated []).Aligned
      ((shelvesInfoSync .zeroed 0).perform (maxShelfNum + 2) (Client.outdated [])) :=
    ⟨by decide, by rfl⟩
  exact ⟨ready, aligned, (aligned_iff_matched _ (le_refl _) ready).mp aligned⟩

/-- The number of the shelf is given to a new one between the two passes: the request
for it is answered by a row and a closing reply, of which one is read. -/
theorem ClientCall.shelf_built_between_passes :
    (Client.outdated [[], [], [clientBuildShelfMsg "reader" Server.sampleTime
        Server.sampleShelf]]).Ready ∧
      ¬ (Client.outdated [[], [], [clientBuildShelfMsg "reader" Server.sampleTime
        Server.sampleShelf]]).Aligned
        ((shelvesInfoSync .zeroed 0).perform (maxShelfNum + 2) (Client.outdated
          [[], [], [clientBuildShelfMsg "reader" Server.sampleTime Server.sampleShelf]])) := by
  refine ⟨Client.outdated_ready _, fun aligned => ?_⟩
  have unread : ((shelvesInfoSync .zeroed 0).perform (maxShelfNum + 2) (Client.outdated
    [[], [], [clientBuildShelfMsg "reader" Server.sampleTime
      Server.sampleShelf]])).link.inbox.length = 1 := by decide
  rw [aligned.read] at unread
  cases unread

end Bookshelfdq
