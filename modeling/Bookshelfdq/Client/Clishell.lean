import Bookshelfdq.Client.Clidb
import Bookshelfdq.Client.Requests
import Bookshelfdq.Client.SocketCli

/-! # The client's requests

The functions of `clishell.c` over the connection and the two caches. -/

namespace Bookshelfdq

structure Client where
  link : Link
  books : BookCache
  shelves : ShelfCache
  loginUser : String

namespace Client

def send (msg : MessageCs) (client : Client) : Bool × Client :=
  let result := client.link.socketClientSendRequest msg
  (result.1, { client with link := result.2 })

def receive (client : Client) : Option MessageCs × Client :=
  let result := client.link.socketClientGetResponse
  (result.1, { client with link := result.2 })

def posted (msg : MessageCs) (client : Client) : Client :=
  { client with link := client.link.posted msg }

theorem send_of_sendFails {client : Client} (sendFails : client.link.sendFails = [])
    (msg : MessageCs) : client.send msg = (true, client.posted msg) := by
  rw [send, Link.socketClientSendRequest_of_sendFails sendFails]
  rfl

def cacheBook (book : BookEntry) (client : Client) : Client :=
  { client with books := client.books.clidbBookInsert book }

/-- A client that has just connected to a server that handles no one else. -/
def connected (server : Server) (books : BookCache) (shelves : ShelfCache)
    (loginUser : String) : Client where
  link :=
    { server := server
      others := []
      sendFails := []
      delays := []
      inbox := []
      sent := 0
      exchanges := []
      consumed := [] }
  books := books
  shelves := shelves
  loginUser := loginUser

/-! ## `find_from_server`

The result is the function's own, the message it leaves behind, and the client. -/

/-- The receive loop. Every round reads one reply, so that `fuel` above their number
is never used up. The message read last decides, whatever it is the reply to. -/
def findLoop (flagNotCached : Bool) : Nat → Nat → MessageCs → Client → Int × MessageCs × Client
  | 0, _, msg, client => (0, msg, client)
  | fuel + 1, nfinds, msg, client =>
      match client.receive with
      | (none, client) => (0, msg, client)
      | (some reply, client) =>
          match reply.response with
          | .failed => (0, reply, client)
          | .findEnd => (if nfinds = 0 then -1 else 1, reply, client)
          | .findEndMore => (1, reply, client)
          | .success =>
              if reply.request = .findBook then
                findLoop flagNotCached fuel (nfinds + 1) reply
                  (if flagNotCached then client else client.cacheBook reply.stuff.book)
              else (1, reply, client)

def findFromServer (msg : MessageCs) (client : Client) : Int × MessageCs × Client :=
  let flagNotCached :=
    msg.request == .findBook && msg.stuff.book.bookno == breakLimitInt
  match client.send msg with
  | (false, client) => (0, msg, client)
  | (true, client) => findLoop flagNotCached (client.link.inbox.length + 1) 0 msg client

/-! ## Counts -/

/-- `client_shelves_count_sync` returns 1 also when the server reports a failure;
the count then keeps its old value. -/
def clientShelvesCountSync (stale : MessageCs) (shelvesAll : Int) (client : Client) :
    Bool × Int × Client :=
  match client.send (clientShelvesCountSyncMsg client.loginUser stale) with
  | (false, client) => (false, shelvesAll, client)
  | (true, client) =>
      match client.receive with
      | (none, client) => (false, shelvesAll, client)
      | (some reply, client) =>
          match reply.response with
          | .success => (true, reply.extraInfo.getD 0 0, client)
          | _ => (true, shelvesAll, client)

def clientBooksCountSync (stale : MessageCs) (client : Client) : Option BookCount × Client :=
  match client.send (clientBooksCountSyncMsg client.loginUser stale) with
  | (false, client) => (none, client)
  | (true, client) =>
      match client.receive with
      | (none, client) => (none, client)
      | (some reply, client) =>
          match reply.response with
          | .success => (some reply.bookCount, client)
          | _ => (none, client)

/-! ## Synchronising the shelves

`msgreq` is uninitialised but for the fields the function sets. A count of `none`
stands for its return with 0. -/

def synchronize (shelf : ShelfEntry) (client : Client) : Bool × Client :=
  let result := client.shelves.clidbShelfSynchronize shelf
  (result.1, { client with shelves := result.2 })

def deleteShelf (shelfno : Int) (client : Client) : Bool × Client :=
  let result := client.shelves.clidbShelfDelete shelfno
  (result.1, { client with shelves := result.2 })

/-- The listing pass up to `r_find_end`. A failure reported by the server only
makes it wait for the next reply; `r_find_end_more` makes it ask again. -/
def listingLoop (stale : MessageCs) : Nat → Nat → Client → Option Nat × Client
  | 0, _, client => (none, client)
  | fuel + 1, shelfCnt, client =>
      match client.receive with
      | (none, client) => (none, client)
      | (some reply, client) =>
          match reply.response with
          | .success =>
              match client.synchronize reply.stuff.shelf with
              | (false, client) => (none, client)
              | (true, client) => listingLoop stale fuel (shelfCnt + 1) client
          | .findEndMore =>
              match client.send (clientShelvesInfoSyncMsg client.loginUser stale
                  reply.stuff.shelf.code) with
              | (false, client) => (none, client)
              | (true, client) => listingLoop stale fuel shelfCnt client
          | .failed => listingLoop stale fuel shelfCnt client
          | .findEnd => (some shelfCnt, client)

/-- One round of the second pass: ask for shelf `shelfno` and read one reply. -/
def pointedQuery (stale : MessageCs) (shelfno : Int) (shelfCnt : Nat) (client : Client) :
    Option Nat × Client :=
  match client.send (clientShelvesInfoSyncMsg client.loginUser stale (-shelfno)) with
  | (false, client) => (none, client)
  | (true, client) =>
      match client.receive with
      | (none, client) => (none, client)
      | (some reply, client) =>
          match reply.response with
          | .success =>
              match client.synchronize reply.stuff.shelf with
              | (false, client) => (none, client)
              | (true, client) => (some (shelfCnt + 1), client)
          | .findEnd =>
              match client.deleteShelf shelfno with
              | (false, client) => (none, client)
              | (true, client) => (some shelfCnt, client)
          | _ => (some shelfCnt, client)

def pointedLoop (stale : MessageCs) : List Int → Nat → Client → Option Nat × Client
  | [], shelfCnt, client => (some shelfCnt, client)
  | shelfno :: rest, shelfCnt, client =>
      if client.shelves.clidbShelfNotSyncs shelfno then
        match pointedQuery stale shelfno shelfCnt client with
        | (none, client) => (none, client)
        | (some shelfCnt, client) => pointedLoop stale rest shelfCnt client
      else pointedLoop stale rest shelfCnt client

/-- The numbers `1, …, MAX_SHELF_NUM`. -/
def shelfNumbers : List Int := (List.range maxShelfNum).map fun index : Nat => (index : Int) + 1

/-- `client_shelves_info_sync`. `fuel` bounds the rounds of the listing pass, which
the source does not. -/
def clientShelvesInfoSync (fuel : Nat) (stale : MessageCs) (shelvesAll : Int) (client : Client) :
    Bool × Client :=
  match client.clientShelvesCountSync stale shelvesAll with
  | (false, _, client) => (false, client)
  | (true, shelvesAll, client) =>
      match client.send (clientShelvesInfoSyncMsg client.loginUser stale nonSenseInt) with
      | (false, client) => (false, client)
      | (true, client) =>
          match listingLoop stale fuel 0 client with
          | (none, client) => (false, client)
          | (some listed, client) =>
              match pointedLoop stale shelfNumbers listed client with
              | (none, client) => (false, client)
              | (some shelfCnt, client) =>
                  let sorted := client.shelves.clidbShelfRecordSort
                  let client := { client with shelves := sorted.2 }
                  (sorted.1 && decide ((shelfCnt : Int) = shelvesAll), client)

end Client

end Bookshelfdq
