import Bookshelfdq.Foundation.Since
import Bookshelfdq.Server.HostRuns

/-! # The accounts from one start of the server to the next

`main` of `bsdq_server.c` first sees to the accounts table. With `--admin-reset` it then runs
`reset_admin_password` of `srvshell.c` and ends, and otherwise it serves requests. -/

namespace Bookshelfdq

/-! ## The console -/

def mysqlPwLen : Nat := 16

/-- `fgets` up to the end of the line, and what is left to be read. -/
def fgets (size : Nat) (stdin : List Char) : List Char × List Char :=
  let window := stdin.take (size - 1)
  let line := window.takeWhile (fun character => decide (character ≠ '\n'))
  let taken := if line.length < window.length then line ++ ['\n'] else line
  (taken, stdin.drop taken.length)

/-- `get_mysql_password`. Without a terminal, and at the end of the input, the buffer stays as it
is. The last character is cut off; an empty buffer has none, and the store goes in front of it. -/
def getMysqlPassword (terminal : Bool) (password stdin : List Char) :
    Option (List Char × List Char) :=
  if terminal then
    let entry := fgets mysqlPwLen stdin
    let password := if entry.1 = [] then password else entry.1
    if password = [] then none else some (password.dropLast, entry.2)
  else some (password, stdin)

/-- The message about the administrator that the console makes. -/
def administratorMsg (password : List Char) : MessageCs :=
  { MessageCs.zeroed with
    user := adminDefaultAccount
    request := .verifyAccount
    stuff := { MessageCs.zeroed.stuff with
      account := ⟨.admin, adminDefaultAccount, String.ofList password⟩ } }

/-- `reset_admin_password`. There is no result where a store goes in front of a buffer. -/
def resetAdminPassword (bcrypt : Bcrypt) (salt : Option String) (terminal : Bool)
    (stdin : List Char) (db : Mysql) : Option (Bool × Mysql) :=
  (getMysqlPassword terminal [] stdin).bind fun old =>
    match srvdbAccountVerify bcrypt (administratorMsg old.1) db with
    | (false, _, db) => some (false, db)
    | (true, _, db) =>
        (getMysqlPassword terminal old.1 old.2).bind fun new =>
          (getMysqlPassword terminal [] new.2).map fun again =>
            if new.1 = again.1 then srvdbAccountUpdate bcrypt salt (administratorMsg again.1) db
            else (false, db)

/-! ## Starts, resets and requests -/

inductive ServerInput
  | start (salt : Option String) (faults : List Bool)
  | reset (salt : Option String) (faults : List Bool) (terminal : Bool) (stdin : List Char)
  | request (event : Event)

namespace Host

/-- The connection with the failures in store for what comes next. -/
def facing (host : Host) (faults : List Bool) : Mysql := { host.server.db with faults := faults }

def withDb (host : Host) (db : Mysql) : Host := { host with server := host.server.withDb db }

/-- A reset that stores in front of a buffer is taken to end there. -/
def receive (host : Host) : ServerInput → Host
  | .start salt faults =>
      host.withDb (srvdbAccountsTableInit host.server.bcrypt salt (host.facing faults)).2
  | .reset salt faults terminal stdin =>
      match resetAdminPassword host.server.bcrypt salt terminal stdin (host.facing faults) with
      | some result => host.withDb result.2
      | none => host
  | .request event => host.step event

def accounts (host : Host) : List AccountRow := host.server.db.accounts

/-- The row that a registration stores. -/
structure Stored (host : Host) (account : AccountEntry) (salt : Option String) (row : AccountRow) :
    Prop where
  name : host.server.db.mode.store 200 account.name = some row.name
  type : row.type = account.type
  password : ∃ hash, salt.bind (host.server.bcrypt.hashpw account.password) = some hash ∧
    host.server.db.mode.store 200 hash = some row.password

/-- The input adds the row. -/
def Enrols (host : Host) (row : AccountRow) : ServerInput → Prop
  | .start salt _ => host.Stored defaultAdministrator.stuff.account salt row
  | .reset _ _ _ _ => False
  | .request event =>
      event.request.request = .registerAccount ∧
        host.Stored event.request.stuff.account (event.salts.headD none) row

/-- The input gives the row, which is the administrator's, a new password, after the old one, and
the new one twice. -/
def Resets (host : Host) (row : AccountRow) : ServerInput → Prop
  | .reset salt _ terminal stdin =>
      row.isNamed adminDefaultAccount = true ∧
        ∃ old new again hash, getMysqlPassword terminal [] stdin = some old ∧
          getMysqlPassword terminal old.1 old.2 = some new ∧
          getMysqlPassword terminal [] new.2 = some again ∧ new.1 = again.1 ∧
          salt.bind (host.server.bcrypt.hashpw (String.ofList again.1)) = some hash ∧
          host.server.db.mode.store 200 hash = some row.password ∧
          ∃ administrator ∈ host.accounts, administrator.isNamed adminDefaultAccount = true ∧
            administrator.type = .admin ∧
            host.server.bcrypt.checkpw (String.ofList old.1) administrator.password = 0
  | _ => False

end Host

/-- What of a row is never changed. -/
def AccountRow.identity (row : AccountRow) : Int × String × AccountType :=
  (row.userno, row.name, row.type)

namespace Host

/-! ## One input -/

/-- What an input does to the row before it. -/
def Follows (host : Host) (input : ServerInput) (before after : AccountRow) : Prop :=
  after = before ∨ (after.identity = before.identity ∧ host.Resets after input)

theorem follows_refl (host : Host) (input : ServerInput) (rows : List AccountRow) :
    List.Forall₂ (host.Follows input) rows rows :=
  List.forall₂_same.mpr fun _ _ => .inl rfl

/-- What an input does to the table: rows follow rows, and rows are added. -/
structure Receives (host : Host) (input : ServerInput) (after : List AccountRow)
    (added : List AccountRow) : Prop where
  follows : ∃ kept, after = kept ++ added ∧ List.Forall₂ (host.Follows input) host.accounts kept
  enrols : ∀ row ∈ added, host.Enrols row input

theorem receives_unchanged (host : Host) {input : ServerInput} {after : List AccountRow}
    (same : after = host.accounts) : host.Receives input after [] where
  follows := ⟨after, (List.append_nil _).symm, same ▸ host.follows_refl input host.accounts⟩
  enrols _ member := absurd member List.not_mem_nil

/-- A registration adds the row of its account, or nothing. -/
theorem receives_register {host : Host} {input : ServerInput} {salt : Option String}
    {msg : MessageCs} {db : Mysql} (accounts : db.accounts = host.accounts)
    (mode : db.mode = host.server.db.mode)
    (enrols : ∀ row, host.Stored msg.stuff.account salt row → host.Enrols row input) :
    ∃ added, host.Receives input
      (srvdbAccountRegister host.server.bcrypt salt msg db).2.2.accounts added := by
  rcases srvdbAccountRegister_cases host.server.bcrypt salt msg db with ⟨_, same⟩ |
    ⟨_, _, _, hash, userno, name, password, hashed, named, stored, result⟩
  · exact ⟨[], host.receives_unchanged (same.trans accounts)⟩
  · rw [mode] at named stored
    refine ⟨_, ⟨host.accounts, accounts ▸ result, host.follows_refl input _⟩, ?_⟩
    intro row member
    obtain rfl := List.mem_singleton.mp member
    exact enrols _ ⟨named, rfl, hash, hashed, stored⟩

/-- The new password goes to the rows of the administrator. -/
theorem receives_update {host : Host} {input : ServerInput} {salt : Option String}
    {msg : MessageCs} {db : Mysql} (accounts : db.accounts = host.accounts)
    (mode : db.mode = host.server.db.mode)
    (resets : ∀ row hash, row.isNamed msg.stuff.account.name = true →
      salt.bind (host.server.bcrypt.hashpw msg.stuff.account.password) = some hash →
      host.server.db.mode.store 200 hash = some row.password → host.Resets row input) :
    host.Receives input (srvdbAccountUpdate host.server.bcrypt salt msg db).2.accounts [] := by
  rcases srvdbAccountUpdate_cases host.server.bcrypt salt msg db with ⟨_, same⟩ |
    ⟨_, hash, hashed, updated⟩
  · exact host.receives_unchanged (same.trans accounts)
  · rw [mode, accounts] at updated
    refine ⟨⟨_, (List.append_nil _).symm, ?_⟩, fun _ member => absurd member List.not_mem_nil⟩
    refine (Table.update_eq_some_iff.mp updated).imp ?_
    intro before after becomes
    rw [Table.Becomes] at becomes
    split at becomes
    · rename_i named
      obtain ⟨password, stored, rfl⟩ := Option.map_eq_some_iff.mp becomes
      exact .inr ⟨rfl, resets _ hash named hashed stored⟩
    · exact .inl (Option.some.inj becomes).symm

/-- A reset keeps all rows but the administrator's, which it gives a new password. -/
theorem receives_reset (host : Host) (salt : Option String) (faults : List Bool) (terminal : Bool)
    (stdin : List Char) :
    host.Receives (.reset salt faults terminal stdin)
      (host.receive (.reset salt faults terminal stdin)).accounts [] := by
  rw [receive]
  cases done : resetAdminPassword host.server.bcrypt salt terminal stdin (host.facing faults) with
  | none => exact host.receives_unchanged rfl
  | some result =>
      show host.Receives _ result.2.accounts []
      rw [resetAdminPassword] at done
      rcases Option.bind_eq_some_iff.mp done with ⟨old, oldRead, done⟩
      have kept := srvdbAccountVerify_accounts host.server.bcrypt (administratorMsg old.1)
        (host.facing faults)
      have continues := srvdbAccountVerify_framed Mysql.Reads.accountFrame.toCallFrame
        host.server.bcrypt (administratorMsg old.1) (host.facing faults)
      have row := srvdbAccountVerify_row host.server.bcrypt (administratorMsg old.1)
        (host.facing faults)
      rcases verified : srvdbAccountVerify host.server.bcrypt (administratorMsg old.1)
        (host.facing faults) with ⟨found, msg, db⟩
      rw [verified] at done kept continues row
      cases found with
      | false =>
          obtain rfl := Option.some.inj done
          exact host.receives_unchanged kept
      | true =>
          rcases Option.bind_eq_some_iff.mp done with ⟨new, newRead, done⟩
          rcases Option.map_eq_some_iff.mp done with ⟨again, againRead, rfl⟩
          split
          · rename_i same
            apply receives_update kept continues.mode
            intro changed hash named hashed stored
            rcases row rfl with ⟨_, administrator, among, type, checks⟩
            exact ⟨named, old, new, again, hash, oldRead, newRead, againRead, same, hashed, stored,
              administrator, List.mem_of_find?_eq_some among, List.find?_some among, type, checks⟩
          · exact host.receives_unchanged kept

theorem receives (host : Host) (input : ServerInput) :
    ∃ added, host.Receives input (host.receive input).accounts added := by
  cases input with
  | start salt faults =>
      rw [receive, srvdbAccountsTableInit]
      rcases mysqlSelect_cases (host.facing faults) with failed | created
      · rw [failed]
        exact ⟨[], host.receives_unchanged rfl⟩
      · rw [created]
        exact receives_register rfl rfl fun _ stored => stored
  | reset salt faults terminal stdin => exact ⟨[], host.receives_reset salt faults terminal stdin⟩
  | request event =>
      by_cases registers : event.request.request = .registerAccount
      · have registered := @receives_register host (.request event) (event.salts.headD none)
          { event.request with response := .success, errorText := "" } (host.entered event).db
          rfl rfl fun _ stored => ⟨registers, stored⟩
        simp only [receive, accounts, step, handle, socketSrvHandle, registers]
        simp only [registers] at registered
        simpa [entered, Event.enter] using registered
      · refine ⟨[], host.receives_unchanged ?_⟩
        by_cases verifies : event.request.request = .verifyAccount
        · exact socketSrvHandle_verify_accounts verifies (host.entered event)
        · apply socketSrvHandle_accounts _ (host.entered event)
          cases kind : event.request.request <;> simp_all [ClientRequest.asksAccounts]

theorem Follows.identity {host : Host} {input : ServerInput} {before after : AccountRow}
    (follows : host.Follows input before after) : after.identity = before.identity := by
  rcases follows with rfl | ⟨same, _⟩
  · rfl
  · exact same

theorem identities_of_follows {host : Host} {input : ServerInput} {rows kept : List AccountRow}
    (follows : List.Forall₂ (host.Follows input) rows kept) :
    kept.map AccountRow.identity = rows.map AccountRow.identity := by
  induction follows with
  | nil => rfl
  | cons first _ induction => rw [List.map_cons, List.map_cons, first.identity, induction]

/-- Number, name and type of an account stay, and so does its place in the table. -/
theorem Receives.identities {host : Host} {input : ServerInput} {after added : List AccountRow}
    (receives : host.Receives input after added) :
    host.accounts.map AccountRow.identity <+: after.map AccountRow.identity := by
  rcases receives.follows with ⟨kept, rfl, follows⟩
  rw [List.map_append, identities_of_follows follows]
  exact List.prefix_append _ _

/-- A row that the table did not have in this place has been enrolled or reset. -/
theorem Receives.changed {host : Host} {input : ServerInput} {after added : List AccountRow}
    (receives : host.Receives input after added) {index : Nat} {row : AccountRow}
    (present : after[index]? = some row) (absent : host.accounts[index]? ≠ some row) :
    host.Enrols row input ∨ host.Resets row input := by
  rcases receives.follows with ⟨kept, rfl, follows⟩
  by_cases inside : index < kept.length
  · rw [List.getElem?_append_left inside] at present
    have before : index < host.accounts.length := follows.length_eq ▸ inside
    rcases follows.get before inside with same | ⟨_, resets⟩
    · rw [List.getElem?_eq_getElem inside] at present
      rw [List.getElem?_eq_getElem before] at absent
      exact absurd (congrArg some same.symm) (present ▸ absent)
    · rw [List.getElem?_eq_getElem inside] at present
      exact .inr (Option.some.inj present ▸ resets)
  · rw [List.getElem?_append_right (Nat.not_lt.mp inside)] at present
    exact .inl (receives.enrols row (List.mem_of_getElem? present))

/-! ## Runs -/

/-- A server without accounts. -/
def bare (mode : SqlMode) (collation : Char → Char → Bool) (bcrypt : Bcrypt) (tables : Tables) :
    Host :=
  ⟨Server.fresh mode collation [] bcrypt [] [], tables⟩

def lives (start : Host) (inputs : List ServerInput) : Host := Execution.run receive start inputs

/-- From a server without accounts, through any sequence of starts, resets and requests, whatever
fails: an account keeps its number, name, type and place for good. Every row is as the last input
that wrote it has left it: the start of the server or a registration that asked for this account, or
a reset of the administrator's password by someone who knew the one before. -/
theorem accounts_traced (mode : SqlMode) (collation : Char → Char → Bool) (bcrypt : Bcrypt)
    (tables : Tables) (inputs : List ServerInput) :
    Execution.Along receive
        (fun host input => host.accounts.map AccountRow.identity <+:
          (host.receive input).accounts.map AccountRow.identity)
        (bare mode collation bcrypt tables) inputs ∧
      ∀ (index : Nat) (row : AccountRow),
        ((bare mode collation bcrypt tables).lives inputs).accounts[index]? = some row →
          ∃ earlier input later, inputs = earlier ++ input :: later ∧
            (((bare mode collation bcrypt tables).lives earlier).Enrols row input ∨
              ((bare mode collation bcrypt tables).lives earlier).Resets row input) ∧
            ∀ middle, middle <+: later →
              ((bare mode collation bcrypt tables).lives
                (earlier ++ input :: middle)).accounts[index]? = some row := by
  constructor
  · refine @Execution.along_of_invariant _ _ receive (fun _ => True) _ (fun _ _ _ => trivial) ?_
      _ trivial inputs
    intro host input _
    rcases host.receives input with ⟨added, receives⟩
    exact receives.identities
  · intro index row present
    have absent : (bare mode collation bcrypt tables).accounts[index]? ≠ some row :=
      fun same => by cases same
    rcases Execution.exists_since (fun host : Host => host.accounts[index]? = some row) absent
      present with ⟨earlier, input, later, split, before, since⟩
    refine ⟨earlier, input, later, split, ?_, since⟩
    have came := since [] List.nil_prefix
    rw [Execution.run_append] at came
    rcases ((bare mode collation bcrypt tables).lives earlier).receives input with
      ⟨added, receives⟩
    exact receives.changed came before

end Host

end Bookshelfdq
