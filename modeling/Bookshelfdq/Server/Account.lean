import Bookshelfdq.Server.Mysql

/-! # The server's accounts

The account functions of `srvdb.c`. Names are compared in the binary collation of
their column. -/

namespace Bookshelfdq

/-- The vendored `libbcrypt`: `none` for a nonzero return value of `bcrypt_hashpw`;
`bcrypt_checkpw` answers zero for a match and `-1` for an error. Salts are random
and are supplied with each call. -/
structure Bcrypt where
  hashpw : String → String → Option String
  checkpw : String → String → Int

def AccountRow.isNamed (name : String) (row : AccountRow) : Bool :=
  sqlEqual (fun left right => left == right) row.name name

def srvdbAccountVerify (bcrypt : Bcrypt) (msg : MessageCs) (db : Mysql) :
    Bool × MessageCs × Mysql :=
  let account := msg.stuff.account
  let refused := { msg with errorText := "帐号或密码错误" }
  if msg.user = "" then (false, msg, db)
  else match mysqlSelect db with
    | (false, db) => (false, msg, db)
    | (true, db) =>
        match getSimpleResult
            ((db.accounts.find? (·.isNamed account.name)).map AccountRow.type) db with
        | (none, db) => (false, msg, db)
        | (some type, db) =>
            if type ≠ account.type then (false, refused, db)
            else match mysqlSelect db with
              | (false, db) => (false, msg, db)
              | (true, db) =>
                  match getSimpleResult
                      ((db.accounts.find? (·.isNamed account.name)).map
                        AccountRow.password) db with
                  | (none, db) => (false, msg, db)
                  | (some hash, db) =>
                      if bcrypt.checkpw account.password hash = -1 then (false, msg, db)
                      else if bcrypt.checkpw account.password hash = 0 then (true, msg, db)
                      else (false, refused, db)

def insertAccount (account : AccountEntry) (hash : String) (db : Mysql) : Option Mysql :=
  (db.mode.store 200 account.name).bind fun name =>
    (db.mode.store 200 hash).map fun password =>
      { db with accounts := db.accounts ++
          [⟨(db.accounts.map AccountRow.userno).max?.getD 0 + 1, name, password,
            account.type⟩] }

def srvdbAccountRegister (bcrypt : Bcrypt) (salt : Option String) (msg : MessageCs)
    (db : Mysql) : Bool × MessageCs × Mysql :=
  let account := msg.stuff.account
  if msg.user = "" then (false, msg, db)
  else match mysqlSelect db with
    | (false, db) => (false, msg, db)
    | (true, db) =>
        match getSimpleResult (some db.accounts.length) db with
        | (none, db) => (false, msg, db)
        | (some users, db) =>
            if maxUserNum ≤ users then
              (false, { msg with errorText := "创建账户失败:用户数达到上限" }, db)
            else match mysqlSelect db with
              | (false, db) => (false, msg, db)
              | (true, db) =>
                  match getSimpleResult
                      (some (db.accounts.countP (·.isNamed account.name))) db with
                  | (none, db) => (false, msg, db)
                  | (some namesakes, db) =>
                      if namesakes ≠ 0 then
                        (false, { msg with errorText := "创建账户失败:用户已存在" }, db)
                      else match salt.bind (bcrypt.hashpw account.password) with
                        | none => (false, msg, db)
                        | some hash =>
                            let result := mysqlQuery (insertAccount account hash) db
                            (result.1, msg, result.2)

def updatePassword (name hash : String) (db : Mysql) : Option Mysql :=
  (Table.update (fun row : AccountRow => row.isNamed name)
    (fun row => (db.mode.store 200 hash).map fun password => { row with password := password })
    db.accounts).map fun accounts => { db with accounts := accounts }

/-- `srvdb_account_update`, which only the server's own console calls. -/
def srvdbAccountUpdate (bcrypt : Bcrypt) (salt : Option String) (msg : MessageCs)
    (db : Mysql) : Bool × Mysql :=
  let account := msg.stuff.account
  if msg.user = "" then (false, db)
  else match mysqlSelect db with
    | (false, db) => (false, db)
    | (true, db) =>
        match getSimpleResult (some (db.accounts.countP (·.isNamed account.name))) db with
        | (none, db) => (false, db)
        | (some namesakes, db) =>
            if namesakes = 0 then (false, db)
            else match salt.bind (bcrypt.hashpw account.password) with
              | none => (false, db)
              | some hash => mysqlQuery (updatePassword account.name hash) db

def adminDefaultAccount : String := "shelfadmin"

def adminDefaultPw : String := "000000"

/-- The message with which the server registers its administrator. -/
def defaultAdministrator : MessageCs :=
  { MessageCs.zeroed with
    user := adminDefaultAccount
    request := .registerAccount
    stuff := { MessageCs.zeroed.stuff with
      account := ⟨.admin, adminDefaultAccount, adminDefaultPw⟩ } }

/-- `srvdb_accounts_table_init`, run at each start of the server: a `CREATE TABLE IF NOT
EXISTS`, and a registration whose result is ignored. -/
def srvdbAccountsTableInit (bcrypt : Bcrypt) (salt : Option String) (db : Mysql) :
    Bool × Mysql :=
  match mysqlSelect db with
  | (false, db) => (false, db)
  | (true, db) => (true, (srvdbAccountRegister bcrypt salt defaultAdministrator db).2.2)

/-- `srvdb_user_archive_init`: two `CREATE TABLE IF NOT EXISTS`, which leave the
tables of a known account as they are. -/
def srvdbUserArchiveInit (db : Mysql) : Bool × Mysql :=
  match mysqlSelect db with
  | (false, db) => (false, db)
  | (true, db) => mysqlSelect db

end Bookshelfdq
