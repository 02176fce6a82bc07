import Bookshelfdq.Client.BookVisits
import Bookshelfdq.Session.CalmSync
import Bookshelfdq.Session.Outcomes
import Bookshelfdq.Session.Overwriting

/-! # Calls over a healthy connection

A call with one reply leaves the books in the cache as they are, and the connection healthy. -/

namespace Bookshelfdq

/-! ## Replies -/

theorem srvdbAccountVerify_request (bcrypt : Bcrypt) (msg : MessageCs) (db : Mysql) :
    (srvdbAccountVerify bcrypt msg db).2.1.request = msg.request := by
  rw [srvdbAccountVerify]
  repeat' split
  all_goals rfl

/-- Requests that are answered once, by success or failure. -/
def ClientRequest.isAnswered (request : ClientRequest) : Bool :=
  request.isMutation || request.isSingle || request == .verifyAccount

namespace Server

variable {server : Server} (reliable : server.sendFaults = []) {request : MessageCs}

include reliable

theorem replies_answered (answered : request.request.isAnswered = true) :
    ∃ (done : Bool) (answer : MessageCs), answer.request = request.request ∧
      server.replies request = [answer.respond (if done then .success else .failed)] := by
  cases kind : request.request with
  | insertBook =>
      simp only [replies, socketSrvHandle, kind, answer_of_reliable reliable]
      exact ⟨_, _, Allocation.allocate_keeps MessageCs.request (fun _ _ => rfl) (fun _ _ => rfl) _ _,
        rfl⟩
  | buildShelf =>
      simp only [replies, socketSrvHandle, kind, answer_of_reliable reliable]
      exact ⟨_, _, Allocation.allocate_keeps MessageCs.request (fun _ _ => rfl) (fun _ _ => rfl) _ _,
        rfl⟩
  | deleteBook =>
      simp only [replies, socketSrvHandle, kind, answer_of_reliable reliable]
      exact ⟨_, _, rfl, rfl⟩
  | updateBook =>
      simp only [replies, socketSrvHandle, kind, answer_of_reliable reliable]
      exact ⟨_, _, rfl, rfl⟩
  | removeShelf =>
      simp only [replies, socketSrvHandle, kind, answer_of_reliable reliable]
      exact ⟨_, _, rfl, rfl⟩
  | countBook =>
      simp only [replies, socketSrvHandle, kind, answer_of_reliable reliable]
      exact ⟨_, _, srvdbBookCount_request _ _, rfl⟩
  | countShelf =>
      simp only [replies, socketSrvHandle, kind, answer_of_reliable reliable]
      exact ⟨_, _, srvdbShelfCount_request _ _, rfl⟩
  | verifyAccount =>
      have same := srvdbAccountVerify_request server.bcrypt
        { request with response := .success, errorText := "" } server.db
      simp only [replies, socketSrvHandle, kind] at same ⊢
      generalize srvdbAccountVerify _ _ server.db = verified at same ⊢
      rcases verified with ⟨_ | _, msg, db⟩
      · rw [answer_of_reliable reliable]
        exact ⟨_, _, same, rfl⟩
      · dsimp only at same ⊢
        split
        · rw [answer_of_reliable reliable]
          exact ⟨_, _, same, rfl⟩
        · rw [answer_of_reliable reliable]
          exact ⟨_, _, same, rfl⟩
  | _ =>
      rw [kind] at answered
      exact absurd answered Bool.false_ne_true

/-- An insertion is answered by what the database has made of it. -/
theorem replies_insertBook (kind : request.request = .insertBook) :
    ∃ answer : MessageCs, answer.request ≠ .findBook ∧ server.replies request = [answer.respond
      (if (srvdbBookInsert request.opened server.db).1 then .success else .failed)] := by
  simp only [replies, socketSrvHandle, kind, answer_of_reliable reliable, MessageCs.opened]
  refine ⟨_, ?_, rfl⟩
  rw [srvdbBookInsert,
    Allocation.allocate_keeps MessageCs.request (fun _ _ => rfl) (fun _ _ => rfl)]
  exact ClientRequest.noConfusion

end Server

/-! ## Calls -/

namespace Client

/-- The server has handled `msg`, and nothing but the cache of shelves has changed. -/
structure Called (msg : MessageCs) (client after : Client) : Prop where
  calm : after.Calm
  server : after.link.server = client.link.server.step msg
  books : after.books = client.books
  loginUser : after.loginUser = client.loginUser

theorem Calm.of_link {client other : Client} (calm : client.Calm) (link : other.link = client.link) :
    other.Calm := by
  refine ⟨?_, ?_, ?_, ?_, ?_, ?_, ?_⟩ <;> rw [link]
  · exact calm.inbox
  · exact calm.others
  · exact calm.sendFails
  · exact calm.delays
  · exact calm.sendFaults
  · exact calm.faults
  · exact calm.numbered

theorem Called.withShelves {msg : MessageCs} {client after : Client}
    (called : client.Called msg after) (shelves : ShelfCache) :
    client.Called msg (after.withShelves shelves) :=
  ⟨called.calm.of_link rfl, called.server, called.books, called.loginUser⟩

section Calm

variable {client : Client} (calm : client.Calm)

include calm

theorem Calm.prompt : client.link.Prompt := ⟨calm.inbox, calm.delays, calm.others⟩

/-- A connection without late replies stays healthy. -/
theorem Calm.of_reaches {after : Client} (prompt : after.link.Prompt)
    (reaches : client.link.Reaches after.link) : after.Calm where
  inbox := prompt.inbox
  others := prompt.others
  sendFails := by
    apply @Link.Reaches.invariant (fun link => link.sendFails = []) _ _ _ _ reaches calm.sendFails
    · intro msg link none
      rw [Link.socketClientSendRequest_of_sendFails none]
      exact none
    · intro link none
      rcases link.socketClientGetResponse_cases with
        ⟨_, received⟩ | ⟨number, reply, rest, _, _, received⟩ <;> rw [received] <;> exact none
  delays := prompt.delays
  sendFaults := @Link.Reaches.server_holds (fun server => server.sendFaults = [])
    (fun _ msg => Server.step_sendFaults msg) _ _ reaches calm.sendFaults
  faults := @Link.Reaches.server_holds (fun server => server.db.faults = [])
    (fun server msg => (server.step_continues msg).faults) _ _ reaches calm.faults
  numbered := reaches.numbered calm.numbered

theorem Calm.handled (msg : MessageCs) (consumed : List Nat) :
    client.Called msg { client.posted msg with
      link := { (client.posted msg).link with inbox := [], consumed := consumed } } := by
  have same := Link.reached_of_others calm.others
  have server : (client.posted msg).link.server = client.link.server.step msg := by
    rw [← same]
    rfl
  have others : client.link.others.tail = [] := by rw [calm.others, List.tail_nil]
  refine ⟨⟨rfl, others, calm.sendFails, calm.delays, ?_, ?_, ?_⟩, server, rfl, rfl⟩ <;>
    dsimp only <;> rw [server]
  · exact Server.step_sendFaults msg calm.sendFaults
  · exact (client.link.server.step_continues msg).faults calm.faults
  · exact client.link.server.step_wellNumbered msg calm.numbered

/-- A request with one reply: 1 stands for success and 0 for failure. -/
theorem Calm.findFromServer_answered {msg answer : MessageCs} {done : Bool}
    (other : answer.request ≠ .findBook)
    (only : client.link.server.replies msg =
      [answer.respond (if done then .success else .failed)]) :
    (client.findFromServer msg).1 = (if done then 1 else 0) ∧
      client.Called msg (client.findFromServer msg).2.2 := by
  have inbox := calm.inbox_posted msg
  rw [only] at inbox
  have received := @receive_of_calm (client.posted msg) calm.delays _ _ _ inbox
  rw [findFromServer, send_of_sendFails calm.sendFails]
  dsimp only
  rw [findLoop, received]
  have handled := calm.handled msg (client.link.consumed ++ [client.link.sent])
  cases done with
  | true =>
      have kept : (answer.respond .success).request ≠ .findBook := other
      simp only [if_true, MessageCs.respond_response, if_neg kept]
      exact ⟨trivial, handled⟩
  | false => exact ⟨rfl, handled⟩

theorem Calm.findFromServer_called {msg : MessageCs}
    (answered : msg.request.isAnswered = true) :
    client.Called msg (client.findFromServer msg).2.2 := by
  rcases Server.replies_answered calm.sendFaults answered with ⟨done, answer, same, only⟩
  refine (calm.findFromServer_answered ?_ only).2
  intro find
  rw [← same, find] at answered
  exact Bool.false_ne_true answered

end Calm

/-! ## Enquiries -/

/-- Nothing has changed but the connection. -/
structure Unchanged (client after : Client) : Prop where
  continued : client.Continued after
  books : after.books = client.books

theorem Called.unchanged {msg : MessageCs} {client after : Client} (called : client.Called msg after)
    (readsOnly : msg.archiveRequest = none) : client.Unchanged after := by
  have reads : client.link.server.db.Reads after.link.server.db := by
    rw [called.server]
    exact Server.step_reads readsOnly
  exact ⟨⟨called.calm, reads.archive, reads.collation, called.loginUser⟩, called.books⟩

variable {client : Client} (calm : client.Calm)

include calm

theorem Calm.unchanged_of_sends {msg : MessageCs} {link : Link} (readsOnly : msg.archiveRequest = none)
    (prompt : link.Prompt) (sends : client.link.Sends msg link)
    (reaches : client.link.Reaches link) : client.Unchanged { client with link := link } := by
  have calmly := @Calm.of_reaches client calm { client with link := link } prompt reaches
  rcases sends with ⟨server, _⟩ | ⟨server, _⟩
  · refine ⟨⟨calmly, ?_, ?_, rfl⟩, rfl⟩ <;> dsimp only <;> rw [server]
  · have reads := @Server.step_reads client.link.server _ readsOnly
    refine ⟨⟨calmly, ?_, ?_, rfl⟩, rfl⟩ <;> dsimp only <;> rw [server]
    · exact reads.archive
    · exact reads.collation

theorem Calm.clientShelvesCountSync_unchanged (stale : MessageCs) (shelvesAll : Int) :
    client.Unchanged (client.clientShelvesCountSync stale shelvesAll).2.2 := by
  have reaches := (client.clientShelvesCountSync_opens stale shelvesAll).reaches
  rcases clientShelvesCountSync_prompt calm.prompt stale shelvesAll with
    ⟨link, after, prompt, sends⟩
  rw [after] at reaches ⊢
  exact calm.unchanged_of_sends rfl prompt sends reaches

theorem Calm.clientBooksCountSync_unchanged (stale : MessageCs) :
    client.Unchanged (client.clientBooksCountSync stale).2 := by
  have reaches := (client.clientBooksCountSync_opens stale).reaches
  rcases clientBooksCountSync_prompt calm.prompt stale with ⟨link, after, prompt, sends⟩
  rw [after] at reaches ⊢
  exact calm.unchanged_of_sends rfl prompt sends reaches

end Client

end Bookshelfdq
