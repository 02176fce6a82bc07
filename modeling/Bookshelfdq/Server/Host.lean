import Bookshelfdq.Client.LoginInput
import Bookshelfdq.Foundation.Tenancy
import Bookshelfdq.Server.Tables

/-! # Serving all accounts

The server answers every request over one connection to one database. Seen from an account it is a
server of its own, with a fresh connection for each request; only the accounts table is shared. -/

namespace Bookshelfdq

/-! ## Requests -/

def maxTableName : Nat := 64

/-- MySQL takes digits, the letter `e` and another digit for the start of a number. -/
def readsAsNumber (name : String) : Bool :=
  match name.toList.dropWhile Char.isDigit with
  | letter :: digit :: _ =>
      name.toList.head?.any Char.isDigit && (letter == 'e' || letter == 'E') && digit.isDigit
  | _ => false

/-- A user whose name gives table names that stand in a statement as they are. -/
def plainUser (user : String) : Bool :=
  user.toList.all loginNameChar && !readsAsNumber user &&
    decide ((tableName .shelves user).length ≤ maxTableName)

/-- A request, and what the environment has in store for it: the outcomes of its library calls and
of its replies, and the salts. -/
structure Event where
  request : MessageCs
  faults : List Bool
  salts : List (Option String)
  sendFaults : List Bool
  plain : plainUser request.user = true
  plainAccount : plainUser request.stuff.account.name = true

def ClientRequest.tableKind : ClientRequest → Option TableKind
  | .insertBook | .deleteBook | .updateBook | .findBook | .countBook => some .books
  | .buildShelf | .removeShelf | .findShelf | .countShelf => some .shelves
  | .verifyAccount | .registerAccount | .heartbeat => none

namespace Event

/-- The account whose tables the request names. -/
def owner (event : Event) : String :=
  if event.request.request = .verifyAccount then event.request.stuff.account.name
  else event.request.user

/-- Every statement on a table that does not exist fails. An allocation then sends a second one. -/
def outcomes (event : Event) (part : UserTables) : List Bool :=
  match event.request.request.tableKind with
  | some kind => if part.has kind then event.faults else [true, true]
  | none => event.faults

/-- A request that concerns the accounts opens no table but theirs. -/
def opened (event : Event) (part : UserTables) : Archive :=
  match event.request.request.tableKind with
  | some _ => part.archive
  | none => ⟨[], []⟩

/-- The connection as the request finds it. -/
def enter (event : Event) (part : UserTables) (server : Server) : Server :=
  { server with
    db := { server.db with archive := event.opened part, faults := event.outcomes part }
    salts := event.salts
    sendFaults := event.sendFaults }

end Event

/-- The tables that the statements of `srvdb_user_archive_init` ask for before one fails. -/
def createdKinds (db : Mysql) : List TableKind :=
  match mysqlSelect db with
  | (false, _) => []
  | (true, db) =>
      match mysqlSelect db with
      | (false, _) => [.shelves]
      | (true, _) => [.shelves, .books]

/-- The tables a request asks for. -/
def Event.creates (event : Event) (entered : Server) : List TableKind :=
  let msg := { event.request with response := .success, errorText := "" }
  if event.request.request = .verifyAccount then
    match srvdbAccountVerify entered.bcrypt msg entered.db with
    | (false, _, _) => []
    | (true, msg, db) => if msg.extraInfo.headD 0 = 1 then createdKinds db else []
  else []

/-- `CREATE TABLE IF NOT EXISTS`. -/
def Tables.create (user : String) (tables : Tables) (kind : TableKind) : Tables :=
  if tables.has kind user then tables else tables.put kind.empty user

/-- The tables after a request that has left the rows of `archive` in those it names. -/
def Tables.after (event : Event) (entered : Server) (archive : Archive) (tables : Tables) : Tables :=
  match event.request.request.tableKind with
  | some kind =>
      if tables.has kind event.owner then tables.put (archive.tableRows kind) event.owner
      else tables
  | none => (event.creates entered).foldl (Tables.create event.owner) tables

structure Host where
  server : Server
  tables : Tables

namespace Host

/-- `socket_srv_process_request` with the tables of all accounts. -/
def handle (event : Event) (host : Host) : (Bool × List MessageCs) × Host :=
  let entered := event.enter (host.tables.ofUser event.owner) host.server
  let answer := socketSrvHandle event.request entered
  ((answer.1, answer.2.1),
    ⟨answer.2.2, host.tables.after event entered answer.2.2.db.archive⟩)

/-- The requests with what the server returned and replied, and the server after them. -/
def run : Host → List Event → List (Event × Bool × List MessageCs) × Host
  | host, [] => ([], host)
  | host, event :: events =>
      let first := host.handle event
      let rest := run first.2 events
      ((event, first.1) :: rest.1, rest.2)

end Host

/-! ## One account by itself -/

namespace UserTables

def create (part : UserTables) (kind : TableKind) : UserTables :=
  if part.has kind then part else part.put kind.empty

def after (event : Event) (entered : Server) (archive : Archive) (part : UserTables) : UserTables :=
  match event.request.request.tableKind with
  | some kind => if part.has kind then part.put (archive.tableRows kind) else part
  | none => (event.creates entered).foldl create part

end UserTables

/-- The accounts as tenants: each request meets a connection that no other has used. -/
def accountTenancy (mode : SqlMode) (collation : Char → Char → Bool) (bcrypt : Bcrypt) :
    Tenancy String (List AccountRow) UserTables Event (Bool × List MessageCs) where
  owner := Event.owner
  serve event accounts part :=
    let entered := event.enter part (Server.fresh mode collation accounts bcrypt [] [])
    let answer := socketSrvHandle event.request entered
    ((answer.1, answer.2.1), answer.2.2.db.accounts,
      part.after event entered answer.2.2.db.archive)

end Bookshelfdq
