import Bookshelfdq.Server.Srvdb
import Bookshelfdq.Server.Account

/-! # Answering one request

`socket_srv_process_request` from the decrypted message on. The result is the
function's own, the replies it has sent, and the server afterwards. -/

namespace Bookshelfdq

/-- `salts` are the results of `bcrypt_gensalt` to come and `sendFaults` the
outcomes of encrypting and sending, `true` for a failure. -/
structure Server where
  db : Mysql
  bcrypt : Bcrypt
  salts : List (Option String)
  sendFaults : List Bool

/-- A server at its first start, with a healthy database connection. -/
def Server.fresh (mode : SqlMode) (collation : Char → Char → Bool) (accounts : List AccountRow)
    (bcrypt : Bcrypt) (salts : List (Option String)) (sendFaults : List Bool) : Server where
  db := Mysql.fresh mode collation accounts []
  bcrypt := bcrypt
  salts := salts
  sendFaults := sendFaults

def Server.withDb (server : Server) (db : Mysql) : Server := { server with db := db }

@[simp] theorem Server.withDb_db (server : Server) (db : Mysql) :
    (server.withDb db).db = db := rfl

abbrev Answer := Bool × List MessageCs × Server

def Server.send (msg : MessageCs) (server : Server) : Answer :=
  let after := { server with sendFaults := server.sendFaults.tail }
  if server.sendFaults.headD false then (false, [], after) else (true, [msg], after)

/-- The reply to a request with a single one: `r_success` or `r_failed`. -/
def Server.answer (server : Server) (result : Bool × MessageCs × Mysql) : Answer :=
  (server.withDb result.2.2).send
    (result.2.1.respond (if result.1 then .success else .failed))

/-- The fetch loop of a find request. `fuel` bounds the number of fetches. -/
def sendRows (fetch : MessageCs → Mysql → FetchResult × MessageCs × Mysql) :
    Nat → MessageCs → Server → Answer
  | 0, _, server => (false, [], server)
  | fuel + 1, msg, server =>
      match fetch msg server.db with
      | (.err, _, db) => (false, [], server.withDb db)
      | (.finish, msg, db) => (server.withDb db).send (msg.respond .findEnd)
      | (.endMore, msg, db) => (server.withDb db).send (msg.respond .findEndMore)
      | (.cont, msg, db) =>
          match (server.withDb db).send (msg.respond .success) with
          | (false, _, server) => (false, [], server)
          | (true, sent, server) =>
              let rest := sendRows fetch fuel (msg.respond .success) server
              (rest.1, sent ++ rest.2.1, rest.2.2)

def Server.answerFind (server : Server)
    (fetch : MessageCs → Mysql → FetchResult × MessageCs × Mysql)
    (msg : MessageCs) : Option Nat × Mysql → Answer
  | (none, db) => (server.withDb db).send (msg.respond .failed)
  | (some nrows, db) => sendRows fetch (nrows + 1) (msg.setExtra nrows) (server.withDb db)

def socketSrvHandle (request : MessageCs) (server : Server) : Answer :=
  let msg := { request with response := .success, errorText := "" }
  match msg.request with
  | .insertBook => server.answer (srvdbBookInsert msg server.db)
  | .deleteBook =>
      let result := srvdbBookDelete msg server.db
      server.answer (result.1, msg, result.2)
  | .updateBook =>
      let result := srvdbBookUpdate msg server.db
      server.answer (result.1, msg, result.2)
  | .findBook =>
      server.answerFind srvdbBookFetchResult msg (srvdbBookFind msg server.db)
  | .countBook => server.answer (srvdbBookCount msg server.db)
  | .buildShelf => server.answer (srvdbShelfBuild msg server.db)
  | .removeShelf =>
      let result := srvdbShelfRemove msg server.db
      server.answer (result.1, msg, result.2)
  | .findShelf =>
      server.answerFind srvdbShelfFetchResult msg (srvdbShelfFind msg server.db)
  | .countShelf => server.answer (srvdbShelfCount msg server.db)
  | .verifyAccount =>
      match srvdbAccountVerify server.bcrypt msg server.db with
      | (false, msg, db) => server.answer (false, msg, db)
      | (true, msg, db) =>
          if msg.extraInfo.headD 0 = 1 then
            let result := srvdbUserArchiveInit db
            server.answer (result.1, msg, result.2)
          else server.answer (true, msg, db)
  | .registerAccount =>
      { server with salts := server.salts.tail }.answer
        (srvdbAccountRegister server.bcrypt (server.salts.headD none) msg server.db)
  | .heartbeat => (false, [], server)

end Bookshelfdq
