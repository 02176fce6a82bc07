import Bookshelfdq.Client.Clishell
import Mathlib.Logic.Relation

/-! # The calls of a session

The functions of `clishell.c` that use the connection, and what each of them can do
to it. -/

namespace Bookshelfdq

/-! ## Calls -/

/-- The calls of the client that use the connection. -/
inductive ClientCall
  | session (request : SessionRequest)
  | registerAccount (account : AccountEntry)
  | verifyAccount (account : AccountEntry) (initMode : Int)
  | booksCountSync (stale : MessageCs)
  | shelvesCountSync (stale : MessageCs) (shelvesAll : Int)
  | shelvesInfoSync (stale : MessageCs) (shelvesAll : Int)

/-- The client after a call. `fuel` bounds the listing pass of the last one. -/
def ClientCall.perform (fuel : Nat) : ClientCall → Client → Client
  | session request, client =>
      (client.findFromServer (request.message client.loginUser)).2.2
  | registerAccount account, client =>
      (client.findFromServer (clientRegisterAccountMsg account)).2.2
  | verifyAccount account initMode, client =>
      (client.findFromServer (clientVerifyAccountMsg account initMode)).2.2
  | booksCountSync stale, client => (client.clientBooksCountSync stale).2
  | shelvesCountSync stale shelvesAll, client =>
      (client.clientShelvesCountSync stale shelvesAll).2.2
  | shelvesInfoSync stale shelvesAll, client =>
      (client.clientShelvesInfoSync fuel stale shelvesAll).2

/-! ## Sends and receives -/

namespace Link

inductive Step : Link → Link → Prop
  | send (msg : MessageCs) (link : Link) : Step link (link.socketClientSendRequest msg).2
  | receive (link : Link) : Step link link.socketClientGetResponse.2

/-- The connection comes to `after` by sends and receives. -/
def Reaches : Link → Link → Prop := Relation.ReflTransGen Step

theorem Reaches.refl (link : Link) : link.Reaches link := Relation.ReflTransGen.refl

theorem Reaches.trans {first second third : Link} (left : first.Reaches second)
    (right : second.Reaches third) : first.Reaches third :=
  Relation.ReflTransGen.trans left right

/-- What sends and receives keep holds of every connection reached. -/
theorem Reaches.invariant {holds : Link → Prop}
    (send : ∀ msg link, holds link → holds (link.socketClientSendRequest msg).2)
    (receive : ∀ link, holds link → holds link.socketClientGetResponse.2)
    {before after : Link} (reaches : before.Reaches after) (initial : holds before) :
    holds after := by
  induction reaches with
  | refl => exact initial
  | tail _ step induction =>
      cases step with
      | send msg => exact send msg _ induction
      | receive => exact receive _ induction

/-- What every request keeps, the server has when a request reaches it. -/
theorem reached_holds {holds : Server → Prop}
    (kept : ∀ server msg, holds server → holds (Server.step server msg)) {link : Link}
    (held : holds link.server) : holds link.reached :=
  Execution.run_invariant kept held _

/-- What every request keeps, calls keep. -/
theorem Reaches.server_holds {holds : Server → Prop}
    (kept : ∀ server msg, holds server → holds (Server.step server msg))
    {before after : Link} (reaches : before.Reaches after) (held : holds before.server) :
    holds after.server := by
  apply @Reaches.invariant (fun link => holds link.server) _ _ _ _ reaches held
  · intro msg link held
    rcases link.socketClientSendRequest_cases msg with ⟨_, sent⟩ | ⟨_, sent⟩
    · rw [sent]
      exact held
    · rw [sent]
      exact kept _ msg (reached_holds kept held)
  · intro link held
    rcases link.socketClientGetResponse_cases with
      ⟨_, received⟩ | ⟨number, reply, rest, _, _, received⟩ <;> rw [received] <;> exact held

theorem reached_numbered {link : Link} (numbered : link.server.db.archive.WellNumbered) :
    link.reached.db.archive.WellNumbered :=
  @reached_holds (fun server => server.db.archive.WellNumbered) Server.step_wellNumbered _ numbered

theorem Reaches.numbered {before after : Link} (reaches : before.Reaches after)
    (numbered : before.server.db.archive.WellNumbered) :
    after.server.db.archive.WellNumbered :=
  @Reaches.server_holds (fun server => server.db.archive.WellNumbered) Server.step_wellNumbered
    _ _ reaches numbered

theorem Reaches.others {before after : Link} (reaches : before.Reaches after)
    (alone : before.others = []) : after.others = [] := by
  apply @Reaches.invariant (fun link => link.others = []) _ _ _ _ reaches alone
  · intro msg link alone
    rcases link.socketClientSendRequest_cases msg with ⟨_, sent⟩ | ⟨_, sent⟩
    · rw [sent]
      exact alone
    · rw [sent]
      exact (congrArg List.tail alone : link.others.tail = [])
  · intro link alone
    rcases link.socketClientGetResponse_cases with
      ⟨_, received⟩ | ⟨number, reply, rest, _, _, received⟩ <;> rw [received] <;> exact alone

theorem Reaches.exchanges {before after : Link} (reaches : before.Reaches after) :
    before.exchanges <+: after.exchanges := by
  apply reaches.invariant _ _ (List.prefix_refl _)
  · intro msg link grown
    rcases link.socketClientSendRequest_cases msg with ⟨_, sent⟩ | ⟨_, sent⟩
    · rw [sent]
      exact grown
    · rw [sent]
      exact grown.trans (List.prefix_append _ _)
  · intro link grown
    rcases link.socketClientGetResponse_cases with
      ⟨_, received⟩ | ⟨number, reply, rest, _, _, received⟩ <;> rw [received] <;> exact grown

end Link

namespace Client

theorem send_reaches (msg : MessageCs) (client : Client) :
    client.link.Reaches (client.send msg).2.link :=
  Relation.ReflTransGen.single (.send msg client.link)

theorem receive_reaches (client : Client) : client.link.Reaches client.receive.2.link :=
  Relation.ReflTransGen.single (.receive client.link)

theorem reaches_of_send {client after : Client} {msg : MessageCs} {accepted : Bool}
    (sent : client.send msg = (accepted, after)) : client.link.Reaches after.link := by
  have reaches := send_reaches msg client
  rw [sent] at reaches
  exact reaches

theorem reaches_of_receive {client after : Client} {reply : Option MessageCs}
    (received : client.receive = (reply, after)) : client.link.Reaches after.link := by
  have reaches := receive_reaches client
  rw [received] at reaches
  exact reaches

@[simp] theorem synchronize_link (shelf : ShelfEntry) (client : Client) :
    (client.synchronize shelf).2.link = client.link := rfl

theorem findLoop_reaches (flagNotCached : Bool) (fuel nfinds : Nat) (msg : MessageCs)
    (client : Client) :
    client.link.Reaches (client.findLoop flagNotCached fuel nfinds msg).2.2.link := by
  induction fuel generalizing nfinds msg client with
  | zero => exact .refl _
  | succ fuel induction =>
      rw [findLoop]
      rcases received : client.receive with ⟨_ | reply, after⟩
      · exact reaches_of_receive received
      · apply (reaches_of_receive received).trans
        dsimp only
        cases reply.response with
        | failed => exact .refl _
        | findEnd => exact .refl _
        | findEndMore => exact .refl _
        | success =>
            dsimp only
            split
            · cases flagNotCached with
              | true => exact induction _ _ after
              | false => exact induction _ _ (after.cacheBook reply.stuff.book)
            · exact .refl _

theorem listingLoop_reaches (stale : MessageCs) (fuel shelfCnt : Nat) (client : Client) :
    client.link.Reaches (client.listingLoop stale fuel shelfCnt).2.link := by
  induction fuel generalizing shelfCnt client with
  | zero => exact .refl _
  | succ fuel induction =>
      rw [listingLoop]
      rcases received : client.receive with ⟨_ | reply, after⟩
      · exact reaches_of_receive received
      · apply (reaches_of_receive received).trans
        dsimp only
        cases reply.response with
        | success =>
            have same := synchronize_link reply.stuff.shelf after
            dsimp only
            rcases synced : after.synchronize reply.stuff.shelf with ⟨_ | _, next⟩
            · rw [synced] at same
              exact same ▸ .refl _
            · rw [synced] at same
              exact same ▸ induction _ next
        | findEndMore =>
            dsimp only
            rcases sent : after.send (clientShelvesInfoSyncMsg after.loginUser stale
              reply.stuff.shelf.code) with ⟨_ | _, next⟩
            · exact reaches_of_send sent
            · exact (reaches_of_send sent).trans (induction _ next)
        | failed => exact induction _ after
        | findEnd => exact .refl _

/-- Whatever the reply, one round of the second pass sends one request and reads one
reply. -/
theorem pointedQuery_link {stale : MessageCs} {shelfno : Int} {client asked : Client}
    (sent : client.send (clientShelvesInfoSyncMsg client.loginUser stale (-shelfno)) =
      (true, asked)) (shelfCnt : Nat) :
    (client.pointedQuery stale shelfno shelfCnt).2.link = asked.receive.2.link := by
  rw [pointedQuery, sent]
  dsimp only
  rcases asked.receive with ⟨_ | reply, after⟩
  · rfl
  · dsimp only
    cases reply.response with
    | success =>
        simp only [synchronize]
        rcases after.shelves.clidbShelfSynchronize reply.stuff.shelf with ⟨_ | _, shelves⟩ <;> rfl
    | findEnd =>
        simp only [deleteShelf]
        rcases after.shelves.clidbShelfDelete shelfno with ⟨_ | _, shelves⟩ <;> rfl
    | failed => rfl
    | findEndMore => rfl

theorem pointedQuery_reaches (stale : MessageCs) (shelfno : Int) (shelfCnt : Nat)
    (client : Client) :
    client.link.Reaches (client.pointedQuery stale shelfno shelfCnt).2.link := by
  rcases sent : client.send (clientShelvesInfoSyncMsg client.loginUser stale (-shelfno)) with
    ⟨_ | _, asked⟩
  · rw [pointedQuery, sent]
    exact reaches_of_send sent
  · rw [pointedQuery_link sent]
    exact (reaches_of_send sent).trans (receive_reaches asked)

theorem pointedLoop_reaches (stale : MessageCs) (shelfnos : List Int) (shelfCnt : Nat)
    (client : Client) :
    client.link.Reaches (client.pointedLoop stale shelfnos shelfCnt).2.link := by
  induction shelfnos generalizing shelfCnt client with
  | nil => exact .refl _
  | cons shelfno shelfnos induction =>
      rw [pointedLoop]
      split
      · have asked := pointedQuery_reaches stale shelfno shelfCnt client
        rcases queried : client.pointedQuery stale shelfno shelfCnt with ⟨_ | counted, after⟩
        · rw [queried] at asked
          exact asked
        · rw [queried] at asked
          exact asked.trans (induction counted after)
      · exact induction shelfCnt client

/-- The requests sent since `before`, with the servers that handled them. -/
def exchangesSince (before after : Client) : List (Server × MessageCs) :=
  after.link.exchanges.drop before.link.exchanges.length

theorem exchangesSince_of_append {before after : Client}
    {new : List (Server × MessageCs)}
    (appended : after.link.exchanges = before.link.exchanges ++ new) :
    before.exchangesSince after = new := by
  rw [exchangesSince, appended, List.drop_left]

/-! ## How a call begins -/

/-- The call sends `msg`, stops if that fails, reads a reply, and stops if there is
none. -/
def Opens (msg : MessageCs) (client after : Client) : Prop :=
  match client.send msg with
  | (false, sent) => after.link = sent.link
  | (true, sent) =>
      match sent.receive with
      | (none, received) => after.link = received.link
      | (some _, received) => received.link.Reaches after.link

theorem Opens.reaches {msg : MessageCs} {client after : Client} (opens : client.Opens msg after) :
    client.link.Reaches after.link := by
  rw [Opens] at opens
  rcases sent : client.send msg with ⟨_ | _, asked⟩
  · rw [sent] at opens
    exact opens ▸ reaches_of_send sent
  · apply (reaches_of_send sent).trans
    rw [sent] at opens
    dsimp only at opens
    rcases received : asked.receive with ⟨_ | reply, read⟩
    · rw [received] at opens
      exact opens ▸ reaches_of_receive received
    · rw [received] at opens
      exact (reaches_of_receive received).trans opens

theorem findFromServer_opens (msg : MessageCs) (client : Client) :
    client.Opens msg (client.findFromServer msg).2.2 := by
  rw [Opens, findFromServer]
  rcases client.send msg with ⟨_ | _, asked⟩
  · rfl
  · dsimp only
    rw [findLoop]
    rcases asked.receive with ⟨_ | reply, after⟩
    · rfl
    · dsimp only
      cases reply.response with
      | failed => exact .refl _
      | findEnd => exact .refl _
      | findEndMore => exact .refl _
      | success =>
          dsimp only
          split
          · split
            · exact findLoop_reaches _ _ _ _ after
            · exact findLoop_reaches _ _ _ _ (after.cacheBook reply.stuff.book)
          · exact .refl _

theorem clientBooksCountSync_opens (stale : MessageCs) (client : Client) :
    client.Opens (clientBooksCountSyncMsg client.loginUser stale)
      (client.clientBooksCountSync stale).2 := by
  rw [Opens, clientBooksCountSync]
  rcases client.send (clientBooksCountSyncMsg client.loginUser stale) with ⟨_ | _, asked⟩
  · rfl
  · dsimp only
    rcases asked.receive with ⟨_ | reply, after⟩
    · rfl
    · dsimp only
      cases reply.response <;> exact .refl _

theorem clientShelvesCountSync_opens (stale : MessageCs) (shelvesAll : Int) (client : Client) :
    client.Opens (clientShelvesCountSyncMsg client.loginUser stale)
      (client.clientShelvesCountSync stale shelvesAll).2.2 := by
  rw [Opens, clientShelvesCountSync]
  rcases client.send (clientShelvesCountSyncMsg client.loginUser stale) with ⟨_ | _, asked⟩
  · rfl
  · dsimp only
    rcases asked.receive with ⟨_ | reply, after⟩
    · rfl
    · dsimp only
      cases reply.response <;> exact .refl _

/-- After the count, whatever it reports. -/
theorem clientShelvesInfoSync_continues (fuel : Nat) (stale : MessageCs) (shelvesAll : Int)
    (client : Client) :
    (client.clientShelvesCountSync stale shelvesAll).2.2.link.Reaches
      (client.clientShelvesInfoSync fuel stale shelvesAll).2.link := by
  rw [clientShelvesInfoSync]
  rcases client.clientShelvesCountSync stale shelvesAll with ⟨_ | _, counted, after⟩
  · exact .refl _
  · dsimp only
    rcases sent : after.send (clientShelvesInfoSyncMsg after.loginUser stale nonSenseInt) with
      ⟨_ | _, asked⟩
    · exact reaches_of_send sent
    · apply (reaches_of_send sent).trans
      have listing := listingLoop_reaches stale fuel 0 asked
      dsimp only
      rcases listed : asked.listingLoop stale fuel 0 with ⟨_ | shelfCnt, read⟩
      · rw [listed] at listing
        exact listing
      · rw [listed] at listing
        apply listing.trans
        have second := pointedLoop_reaches stale shelfNumbers shelfCnt read
        dsimp only
        rcases looped : read.pointedLoop stale shelfNumbers shelfCnt with ⟨_ | total, last⟩ <;>
          rw [looped] at second <;> exact second

theorem clientShelvesInfoSync_opens (fuel : Nat) (stale : MessageCs) (shelvesAll : Int)
    (client : Client) :
    client.Opens (clientShelvesCountSyncMsg client.loginUser stale)
      (client.clientShelvesInfoSync fuel stale shelvesAll).2 := by
  have rest := client.clientShelvesInfoSync_continues fuel stale shelvesAll
  have stops : (client.clientShelvesCountSync stale shelvesAll).1 = false →
      (client.clientShelvesInfoSync fuel stale shelvesAll).2 =
        (client.clientShelvesCountSync stale shelvesAll).2.2 := by
    intro failed
    rw [clientShelvesInfoSync]
    rcases counting : client.clientShelvesCountSync stale shelvesAll with ⟨_ | _, counted, after⟩
    · rfl
    · rw [counting] at failed
      cases failed
  rw [clientShelvesCountSync] at rest stops
  rw [Opens]
  rcases sent : client.send (clientShelvesCountSyncMsg client.loginUser stale) with ⟨_ | _, asked⟩
  · rw [sent] at stops
    exact congrArg Client.link (stops rfl)
  · rw [sent] at rest stops
    dsimp only at rest stops ⊢
    rcases received : asked.receive with ⟨_ | reply, after⟩
    · rw [received] at stops
      exact congrArg Client.link (stops rfl)
    · rw [received] at rest
      dsimp only at rest ⊢
      cases answer : reply.response <;> rw [answer] at rest <;> exact rest

end Client

/-- Every call begins with a request and a reply to it. -/
theorem ClientCall.perform_opens (fuel : Nat) (call : ClientCall) (client : Client) :
    ∃ msg, client.Opens msg (call.perform fuel client) := by
  cases call with
  | session request => exact ⟨_, client.findFromServer_opens _⟩
  | registerAccount account => exact ⟨_, client.findFromServer_opens _⟩
  | verifyAccount account initMode => exact ⟨_, client.findFromServer_opens _⟩
  | booksCountSync stale => exact ⟨_, client.clientBooksCountSync_opens stale⟩
  | shelvesCountSync stale shelvesAll =>
      exact ⟨_, client.clientShelvesCountSync_opens stale shelvesAll⟩
  | shelvesInfoSync stale shelvesAll =>
      exact ⟨_, client.clientShelvesInfoSync_opens fuel stale shelvesAll⟩

end Bookshelfdq
