import Bookshelfdq.Client.Mutations
import Bookshelfdq.Session.Mirror
import Bookshelfdq.Session.Prompt

/-! # What is said of a request and what has come of it

The pages announce a success exactly when the server has answered with one, and only then write
their caches; but `client_shelf_moving_book` returns 2 for a reading that failed, and its page asks
for a value other than 0. -/

namespace Bookshelfdq

/-! ## One reply -/

def ClientRequest.isMutation : ClientRequest → Bool
  | .insertBook => true
  | .deleteBook => true
  | .updateBook => true
  | .buildShelf => true
  | .removeShelf => true
  | _ => false

/-- A request for a change is answered once, by success or failure. -/
theorem Server.replies_mutation {server : Server} {request : MessageCs}
    (mutates : request.request.isMutation = true) :
    ∃ (done : Bool) (msg : MessageCs),
      server.replies request <+: [msg.respond (if done then .success else .failed)] ∧
      msg.request = request.request ∧
      (request.request = .updateBook → msg.stuff = request.stuff) := by
  cases kind : request.request with
  | insertBook =>
      simp only [replies, socketSrvHandle, kind]
      refine ⟨_, _, send_begins _ _, ?_, ClientRequest.noConfusion⟩
      apply Allocation.allocate_keeps MessageCs.request
      · exact fun _ _ => rfl
      · exact fun _ _ => rfl
  | deleteBook =>
      simp only [replies, socketSrvHandle, kind]
      exact ⟨_, _, send_begins _ _, rfl, ClientRequest.noConfusion⟩
  | updateBook =>
      simp only [replies, socketSrvHandle, kind]
      exact ⟨_, _, send_begins _ _, rfl, fun _ => rfl⟩
  | buildShelf =>
      simp only [replies, socketSrvHandle, kind]
      refine ⟨_, _, send_begins _ _, ?_, ClientRequest.noConfusion⟩
      apply Allocation.allocate_keeps MessageCs.request
      · exact fun _ _ => rfl
      · exact fun _ _ => rfl
  | removeShelf =>
      simp only [replies, socketSrvHandle, kind]
      exact ⟨_, _, send_begins _ _, rfl, ClientRequest.noConfusion⟩
  | _ =>
      rw [kind] at mutates
      exact absurd mutates Bool.false_ne_true

namespace Client

/-- The first reply read after a request. -/
def replyRead (msg : MessageCs) (client : Client) : Option MessageCs :=
  match client.send msg with
  | (false, _) => none
  | (true, client) => client.receive.1

/-- The reply read is one to this request. -/
def Paired (msg : MessageCs) (client : Client) : Prop :=
  ∀ reply, client.replyRead msg = some reply → reply ∈ client.link.reached.replies msg

/-- The server has answered the request with `r_success`. -/
def Succeeds (msg reply : MessageCs) (client : Client) : Prop :=
  reply ∈ client.link.reached.replies msg ∧ client.replyRead msg = some reply ∧
    reply.response = .success

/-- With nothing under way, the reply read is one to this request. -/
theorem paired_of_idle {client : Client} (idle : client.link.inbox = []) (msg : MessageCs) :
    client.Paired msg := by
  intro reply read
  rw [replyRead] at read
  rcases sent : client.send msg with ⟨_ | _, asked⟩
  · rw [sent] at read
    cases read
  · rw [sent] at read
    dsimp only at read
    have asks := send_done sent
    have waiting : asked.link.inbox = (client.link.reached.replies msg).map fun reply =>
        (client.link.sent, reply) := by
      rw [asks]
      simp [Link.posted, idle]
    rcases received : asked.receive with ⟨_ | first, after⟩
    · rw [received] at read
      cases read
    · rw [received] at read
      rcases receive_done received with ⟨number, rest, inbox, _⟩
      have member : (number, first) ∈ asked.link.inbox := inbox ▸ List.mem_cons_self
      rw [waiting] at member
      rcases List.mem_map.mp member with ⟨answer, answers, same⟩
      rw [← Option.some.inj read, ← (Prod.mk.inj same).2]
      exact answers

section Paired

variable {msg : MessageCs} {client : Client} (mutates : msg.request.isMutation = true)
  (paired : client.Paired msg)

include mutates paired

/-- `find_from_server` returns 1 or 0 and leaves the caches alone. -/
theorem findFromServer_mutation :
    ∃ last after, after.books = client.books ∧ after.shelves = client.shelves ∧
      ((client.findFromServer msg = (1, last, after) ∧ client.Succeeds msg last ∧
          (msg.request = .updateBook → last.stuff = msg.stuff)) ∨
        (client.findFromServer msg = (0, last, after) ∧ ∀ reply, ¬client.Succeeds msg reply)) := by
  have kept : ∀ other : Client, other.receive.2.books = other.books ∧
    other.receive.2.shelves = other.shelves := fun _ => ⟨rfl, rfl⟩
  rw [findFromServer]
  rcases sent : client.send msg with ⟨_ | _, asked⟩
  · have unread : client.replyRead msg = none := by rw [replyRead, sent]
    have same : asked = (client.send msg).2 := by rw [sent]
    refine ⟨msg, asked, by rw [same]; rfl, by rw [same]; rfl, .inr ⟨rfl, ?_⟩⟩
    rintro reply ⟨_, read, _⟩
    rw [unread] at read
    cases read
  · have reading : client.replyRead msg = asked.receive.1 := by rw [replyRead, sent]
    have same : asked = (client.send msg).2 := by rw [sent]
    have books : asked.receive.2.books = client.books := by
      rw [(kept asked).1, same]
      rfl
    have shelves : asked.receive.2.shelves = client.shelves := by
      rw [(kept asked).2, same]
      rfl
    dsimp only
    rw [findLoop]
    rcases received : asked.receive with ⟨_ | reply, after⟩
    · rw [received] at reading books shelves
      refine ⟨msg, after, books, shelves, .inr ⟨rfl, ?_⟩⟩
      rintro reply ⟨_, read, _⟩
      rw [reading] at read
      cases read
    · rw [received] at reading books shelves
      have member := paired reply reading
      rcases Server.replies_mutation mutates with ⟨done, answer, begins, request, stuff⟩
      have only := List.mem_singleton.mp (begins.subset member)
      have kind : reply.request ≠ .findBook := by
        rw [only]
        intro find
        rw [← request, show answer.request = .findBook from find] at mutates
        exact absurd mutates Bool.false_ne_true
      have stuff : msg.request = .updateBook → reply.stuff = msg.stuff := by
        rw [only]
        exact stuff
      cases done with
      | false =>
          have response : reply.response = .failed := by
            rw [only]
            rfl
          refine ⟨reply, after, books, shelves, .inr ⟨?_, ?_⟩⟩
          · simp only [response]
          · rintro other ⟨_, read, success⟩
            rw [Option.some.inj (reading.symm.trans read), success] at response
            cases response
      | true =>
          have response : reply.response = .success := by
            rw [only]
            rfl
          refine ⟨reply, after, books, shelves, .inl ⟨?_, ⟨member, reading, response⟩, stuff⟩⟩
          simp only [response, if_neg kind]

end Paired

end Client

/-! ## Announcements -/

/-- The caches, and the flag by which a page knows that its books are out of date. -/
def Ncgui.caches (gui : Ncgui) : BookCache × ShelfCache × Bool :=
  (gui.client.books, gui.client.shelves, gui.globalNewBookComing)

namespace Mutation

def message (loginUser : String) : Mutation → MessageCs
  | insertBook time book => clientShelfInsertBookMsg loginUser time book
  | deleteBook book _ => clientShelfDeleteBookMsg loginUser book
  | collectingBook shelfno book _ => clientShelfCollectingBookMsg loginUser shelfno book
  | taggingBook book _ => clientShelfTaggingBookMsg loginUser book
  | reading book _ => clientShelfMovingBookMsg loginUser book 0
  | borrow book _ => clientShelfMovingBookMsg loginUser book 1
  | abandonBooks shelfno => clientShelfAbandonBooksMsg loginUser shelfno
  | unsortedBooks shelfno => clientShelfUnsortedBooksMsg loginUser shelfno
  | deleteItself shelfno => clientShelfDeleteItselfMsg loginUser shelfno
  | buildShelf time shelf => clientBuildShelfMsg loginUser time shelf

/-- A book that is not complete is not sent. -/
def sends : Mutation → Bool
  | insertBook _ book => !incompleteBook book
  | _ => true

/-- What a success changes in the caches. A new book is not in the cache of a page, and the books
of a whole shelf are left to the next visit. -/
def record (reply : MessageCs) (mutation : Mutation) (caches : BookCache × ShelfCache × Bool) :
    BookCache × ShelfCache × Bool :=
  match mutation with
  | insertBook _ _ => (caches.1, caches.2.1, true)
  | deleteBook _ position => (caches.1.clidbBookDelete position, caches.2)
  | collectingBook _ book position =>
      (caches.1.clidbBookInsertAt
        { book with encodingTime := Ncgui.collectedTime book.encodingTime } position, caches.2)
  | taggingBook book position => (caches.1.clidbBookInsertAt book position, caches.2)
  | reading book position =>
      (caches.1.clidbBookInsertAt { book with onReading := '1' } position, caches.2)
  | borrow book position => (caches.1.clidbBookInsertAt (movedBook book 1).1 position, caches.2)
  | abandonBooks _ => caches
  | unsortedBooks _ => caches
  | deleteItself shelfno => (caches.1, (caches.2.1.clidbShelfDelete shelfno).2, caches.2.2)
  | buildShelf _ _ => (caches.1, (caches.2.1.clidbShelfInsert reply.stuff.shelf).2, caches.2.2)

/-- The request has been sent and the server has answered it with `r_success`. -/
def Succeeds (mutation : Mutation) (gui : Ncgui) (reply : MessageCs) : Prop :=
  mutation.sends = true ∧ gui.client.Succeeds (mutation.message gui.client.loginUser) reply

/-- Success is announced, and recorded in the caches, if and only if the server says so. -/
structure Reports (mutation : Mutation) (gui : Ncgui) : Prop where
  announced : (∃ text, (mutation.perform gui).1 = some ⟨true, text⟩) ↔
    ∃ reply, mutation.Succeeds gui reply
  recorded : ∀ reply, mutation.Succeeds gui reply →
    (mutation.perform gui).2.caches = mutation.record reply gui.caches
  unchanged : (¬∃ reply, mutation.Succeeds gui reply) →
    (mutation.perform gui).2.caches = gui.caches

theorem message_mutates (loginUser : String) (mutation : Mutation) :
    (mutation.message loginUser).request.isMutation = true := by
  cases mutation <;> rfl

theorem Succeeds.unique {mutation : Mutation} {gui : Ncgui} {first second : MessageCs}
    (one : mutation.Succeeds gui first) (other : mutation.Succeeds gui second) : first = second :=
  Option.some.inj (one.2.2.1.symm.trans other.2.2.1)

theorem reports_of_success {mutation : Mutation} {gui : Ncgui} {reply : MessageCs}
    (success : mutation.Succeeds gui reply)
    (announced : ∃ text, (mutation.perform gui).1 = some ⟨true, text⟩)
    (recorded : (mutation.perform gui).2.caches = mutation.record reply gui.caches) :
    mutation.Reports gui where
  announced := ⟨fun _ => ⟨reply, success⟩, fun _ => announced⟩
  recorded := by
    intro other succeeds
    rw [← success.unique succeeds]
    exact recorded
  unchanged := fun none => absurd ⟨reply, success⟩ none

theorem reports_of_failure {mutation : Mutation} {gui : Ncgui}
    (failure : ∀ reply, ¬mutation.Succeeds gui reply)
    (announced : ∀ text, (mutation.perform gui).1 ≠ some ⟨true, text⟩)
    (unchanged : (mutation.perform gui).2.caches = gui.caches) : mutation.Reports gui where
  announced := ⟨fun ⟨text, said⟩ => absurd said (announced text),
    fun ⟨reply, success⟩ => absurd success (failure reply)⟩
  recorded := fun reply success => absurd success (failure reply)
  unchanged := fun _ => unchanged

theorem movedBook_borrow (book : BookEntry) :
    (movedBook book 1).2 = 2 ∨ (movedBook book 1).2 = 4 := by
  rw [movedBook, if_neg (by decide), if_pos rfl]
  split
  · exact .inr rfl
  · split
    · exact .inr rfl
    · exact .inl rfl

section Found

variable {mutation : Mutation} {gui : Ncgui} {last : MessageCs} {after : Client}
  (books : after.books = gui.client.books) (shelves : after.shelves = gui.client.shelves)

include books shelves

/-- The value 1 is announced as success. -/
theorem perform_of_one (sends : mutation.sends = true)
    (found : gui.client.findFromServer (mutation.message gui.client.loginUser) = (1, last, after))
    (stuff : (mutation.message gui.client.loginUser).request = .updateBook →
      last.stuff = (mutation.message gui.client.loginUser).stuff) :
    (∃ text, (mutation.perform gui).1 = some ⟨true, text⟩) ∧
      (mutation.perform gui).2.caches = mutation.record last gui.caches := by
  cases mutation with
  | insertBook time book =>
      have complete : incompleteBook book = false := by simpa [Mutation.sends] using sends
      simp only [message] at found
      simp [perform, Client.clientShelfInsertBook, complete, found, announce, Ncgui.caches, record,
        books, shelves]
  | reading book position =>
      have echoed : last.stuff.book = { book with onReading := '1' } := by
        rw [stuff rfl]
        rfl
      simp only [message] at found
      simp [perform, Client.clientShelfMovingBook, found, announce, movedBook, Ncgui.caches, record,
        Ncgui.withClient, Client.withBooks, books, shelves, echoed]
  | borrow book position =>
      have echoed : last.stuff.book = (movedBook book 1).1 := by
        rw [stuff rfl]
        rfl
      simp only [message] at found
      rcases movedBook_borrow book with moved | moved <;>
        simp [perform, Client.clientShelfMovingBook, found, announceBorrow, moved, Ncgui.caches,
          record, Ncgui.withClient, Client.withBooks, books, shelves, echoed]
  | deleteBook book position =>
      simp only [message] at found
      simp [perform, Client.clientShelfDeleteBook, found, announce, Ncgui.caches, record,
        Ncgui.withClient, Client.withBooks, books, shelves]
  | collectingBook shelfno book position =>
      simp only [message] at found
      simp [perform, Client.clientShelfCollectingBook, found, announce, Ncgui.caches, record,
        Ncgui.withClient, Client.withBooks, books, shelves]
  | taggingBook book position =>
      simp only [message] at found
      simp [perform, Client.clientShelfTaggingBook, found, announce, Ncgui.caches, record,
        Ncgui.withClient, Client.withBooks, books, shelves]
  | abandonBooks shelfno =>
      simp only [message] at found
      simp [perform, Client.clientShelfAbandonBooks, found, announce, Ncgui.caches, record,
        Ncgui.withClient, books, shelves]
  | unsortedBooks shelfno =>
      simp only [message] at found
      simp [perform, Client.clientShelfUnsortedBooks, found, announce, Ncgui.caches, record,
        Ncgui.withClient, books, shelves]
  | deleteItself shelfno =>
      simp only [message] at found
      simp [perform, Client.clientShelfDeleteItself, found, announce, Ncgui.caches, record,
        Ncgui.withClient, Client.withShelves, books, shelves]
  | buildShelf time shelf =>
      simp only [message] at found
      simp [perform, Client.clientBuildShelf, found, announce, Ncgui.caches, record,
        Ncgui.withClient, Client.withShelves, books, shelves]

/-- The value 0 leaves the caches alone. It is announced as failure, but for a reading. -/
theorem perform_of_zero (sends : mutation.sends = true)
    (found : gui.client.findFromServer (mutation.message gui.client.loginUser) = (0, last, after)) :
    (mutation.perform gui).2.caches = gui.caches ∧
      ((∃ text, (mutation.perform gui).1 = some ⟨true, text⟩) ↔
        ∃ book position, mutation = .reading book position) := by
  cases mutation with
  | insertBook time book =>
      have complete : incompleteBook book = false := by simpa [Mutation.sends] using sends
      simp only [message] at found
      simp [perform, Client.clientShelfInsertBook, complete, found, announce, Ncgui.caches, books,
        shelves]
  | reading book position =>
      simp only [message] at found
      simp [perform, Client.clientShelfMovingBook, found, announce, movedBook, Ncgui.caches,
        Ncgui.withClient, books, shelves]
  | borrow book position =>
      simp only [message] at found
      rcases movedBook_borrow book with moved | moved <;>
        simp [perform, Client.clientShelfMovingBook, found, announceBorrow, moved, Ncgui.caches,
          Ncgui.withClient, books, shelves]
  | deleteBook book position =>
      simp only [message] at found
      simp [perform, Client.clientShelfDeleteBook, found, announce, Ncgui.caches,
        Ncgui.withClient, books, shelves]
  | collectingBook shelfno book position =>
      simp only [message] at found
      simp [perform, Client.clientShelfCollectingBook, found, announce, Ncgui.caches,
        Ncgui.withClient, books, shelves]
  | taggingBook book position =>
      simp only [message] at found
      simp [perform, Client.clientShelfTaggingBook, found, announce, Ncgui.caches,
        Ncgui.withClient, books, shelves]
  | abandonBooks shelfno =>
      simp only [message] at found
      simp [perform, Client.clientShelfAbandonBooks, found, announce, Ncgui.caches,
        Ncgui.withClient, books, shelves]
  | unsortedBooks shelfno =>
      simp only [message] at found
      simp [perform, Client.clientShelfUnsortedBooks, found, announce, Ncgui.caches,
        Ncgui.withClient, books, shelves]
  | deleteItself shelfno =>
      simp only [message] at found
      simp [perform, Client.clientShelfDeleteItself, found, announce, Ncgui.caches,
        Ncgui.withClient, books, shelves]
  | buildShelf time shelf =>
      simp only [message] at found
      simp [perform, Client.clientBuildShelf, found, announce, Ncgui.caches, Ncgui.withClient,
        books, shelves]

end Found

/-- A book that is not complete is refused by the client itself. -/
theorem perform_of_unsent {mutation : Mutation} (gui : Ncgui) (unsent : mutation.sends = false) :
    (mutation.perform gui).2.caches = gui.caches ∧
      (∀ text, (mutation.perform gui).1 ≠ some ⟨true, text⟩) ∧
      ∀ book position, mutation ≠ .reading book position := by
  cases mutation with
  | insertBook time book =>
      have incomplete : incompleteBook book = true := by simpa [Mutation.sends] using unsent
      simp [perform, Client.clientShelfInsertBook, incomplete, announce, Ncgui.caches]
  | _ => exact absurd unsent.symm Bool.false_ne_true

/-- A request is reported as what it has come to exactly if it is no reading that failed. -/
theorem mutation_reports_iff (mutation : Mutation) (gui : Ncgui)
    (paired : gui.client.Paired (mutation.message gui.client.loginUser)) :
    mutation.Reports gui ↔ ∀ book position, mutation = .reading book position →
      ∃ reply, mutation.Succeeds gui reply := by
  cases sending : mutation.sends with
  | false =>
      rcases perform_of_unsent gui sending with ⟨unchanged, announced, moves⟩
      have failure : ∀ reply, ¬mutation.Succeeds gui reply := by
        rintro reply ⟨sends, _⟩
        rw [sending] at sends
        cases sends
      exact ⟨fun _ book position same => absurd same (moves book position),
        fun _ => reports_of_failure failure announced unchanged⟩
  | true =>
      rcases Client.findFromServer_mutation (mutation.message_mutates _) paired with
        ⟨last, after, books, shelves, ⟨found, success, stuff⟩ | ⟨found, failure⟩⟩
      · rcases perform_of_one books shelves sending found stuff with ⟨announced, recorded⟩
        exact ⟨fun _ _ _ _ => ⟨last, sending, success⟩,
          fun _ => reports_of_success ⟨sending, success⟩ announced recorded⟩
      · rcases perform_of_zero books shelves sending found with ⟨unchanged, announced⟩
        have failed : ∀ reply, ¬mutation.Succeeds gui reply := fun reply success =>
          failure reply success.2
        constructor
        · rintro reports book position rfl
          exact reports.announced.mp (announced.mpr ⟨book, position, rfl⟩)
        · intro moves
          refine reports_of_failure failed (fun text said => ?_) unchanged
          rcases announced.mp ⟨text, said⟩ with ⟨book, position, same⟩
          rcases moves book position same with ⟨reply, success⟩
          exact failed reply success

/-- A program connected to a server whose database refuses the next statements. -/
def sampleProgram (faults : List Bool) : Ncgui :=
  .start (.connected (Server.sample.withDb { Server.sample.db with faults := faults }) .empty .empty
    "reader")

theorem borrow_reports : (borrow (Server.sampleBook 1) 0).Reports (sampleProgram [true]) :=
  (mutation_reports_iff _ _ (Client.paired_of_idle rfl _)).mpr
    fun _ _ other => absurd other Mutation.noConfusion

/-- The server refuses a reading, and the page announces it as done. -/
theorem failed_reading_announced :
    let gui := sampleProgram [true]
    let refused := reading (Server.sampleBook 1) 0
    gui.client.Paired (refused.message "reader") ∧
      (gui.client.replyRead (refused.message "reader")).map MessageCs.response = some .failed ∧
      (refused.perform gui).1 = some ⟨true, "借阅成功!"⟩ ∧ ¬refused.Reports gui := by
  intro gui refused
  have failed : (gui.client.replyRead (refused.message "reader")).map MessageCs.response =
    some .failed := by decide
  have said : (refused.perform gui).1 = some ⟨true, "借阅成功!"⟩ := by decide
  refine ⟨Client.paired_of_idle rfl _, failed, said, fun reports => ?_⟩
  rcases reports.announced.mp ⟨_, said⟩ with ⟨reply, _, _, read, success⟩
  have answer : gui.client.replyRead (refused.message "reader") = some reply := read
  rw [answer, Option.map_some, success] at failed
  cases failed

end Mutation

end Bookshelfdq
