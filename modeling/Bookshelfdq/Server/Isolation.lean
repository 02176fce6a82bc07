import Bookshelfdq.Server.AccountStore
import Bookshelfdq.Server.Host

/-! # Accounts apart

The server of all accounts refines the accounts as tenants, so that an account notices nothing of
what others do with their books and shelves. -/

namespace Bookshelfdq

/-! ## What a request leaves alone -/

namespace Server

@[simp] theorem send_bcrypt (msg : MessageCs) (server : Server) :
    (server.send msg).2.2.bcrypt = server.bcrypt := by
  rw [send]
  split <;> rfl

@[simp] theorem answer_bcrypt (server : Server) (result : Bool × MessageCs × Mysql) :
    (server.answer result).2.2.bcrypt = server.bcrypt := by
  simp [answer, withDb]

end Server

theorem sendRows_bcrypt (fetch : MessageCs → Mysql → FetchResult × MessageCs × Mysql) (fuel : Nat)
    (msg : MessageCs) (server : Server) :
    (sendRows fetch fuel msg server).2.2.bcrypt = server.bcrypt := by
  induction fuel generalizing msg server with
  | zero => rfl
  | succ fuel induction =>
      rw [sendRows]
      split
      · rfl
      · simp [Server.withDb]
      · simp [Server.withDb]
      · rename_i row after result
        have kept := Server.send_bcrypt (row.respond .success) (server.withDb after)
        split
        · rename_i sent
          rw [sent] at kept
          exact kept
        · rename_i next sent
          rw [sent] at kept
          rw [induction]
          exact kept

theorem Server.answerFind_bcrypt (server : Server)
    (fetch : MessageCs → Mysql → FetchResult × MessageCs × Mysql) (msg : MessageCs)
    (found : Option Nat × Mysql) :
    (server.answerFind fetch msg found).2.2.bcrypt = server.bcrypt := by
  rcases found with ⟨nrows, db⟩
  cases nrows with
  | none => simp [answerFind, withDb]
  | some nrows => exact sendRows_bcrypt _ _ _ _

theorem socketSrvHandle_bcrypt (request : MessageCs) (server : Server) :
    (socketSrvHandle request server).2.2.bcrypt = server.bcrypt := by
  cases kind : request.request <;>
    simp only [socketSrvHandle, kind, Server.answer_bcrypt, Server.answerFind_bcrypt]
  case verifyAccount =>
    split
    · simp
    · split <;> simp

/-- A request for books or shelves leaves the accounts alone. -/
theorem socketSrvHandle_accounts {request : MessageCs} (archive : request.request.asksAccounts = false)
    (server : Server) :
    (socketSrvHandle request server).2.2.db.accounts = server.db.accounts := by
  have agree : server.Agrees (fun left right => left = server.db.accounts ∧ right = server.db.accounts)
      server :=
    ⟨⟨rfl, rfl, rfl, ⟨rfl, rfl⟩, rfl⟩, rfl, rfl, rfl⟩
  exact (socketSrvHandle_alike_of_archive archive agree).server.db.accounts.1

/-! ## Refinement -/

namespace Tables

theorem ofUser_create (user : String) (tables : Tables) (kind : TableKind) :
    (tables.create user kind).ofUser =
      Function.update tables.ofUser user ((tables.ofUser user).create kind) := by
  rw [create, UserTables.create, ofUser_has]
  split
  · rw [Function.update_eq_self]
  · exact ofUser_put _ _ _

theorem ofUser_createAll (user : String) (kinds : List TableKind) (tables : Tables) :
    (kinds.foldl (create user) tables).ofUser =
      Function.update tables.ofUser user (kinds.foldl UserTables.create (tables.ofUser user)) := by
  induction kinds generalizing tables with
  | nil => exact (Function.update_eq_self _ _).symm
  | cons kind kinds induction =>
      rw [List.foldl_cons, List.foldl_cons, induction, ofUser_create, Function.update_self,
        Function.update_idem]

/-- A request changes the tables of its owner. -/
theorem ofUser_after (event : Event) (entered : Server) (archive : Archive) (tables : Tables) :
    (tables.after event entered archive).ofUser =
      Function.update tables.ofUser event.owner
        ((tables.ofUser event.owner).after event entered archive) := by
  rw [after, UserTables.after]
  cases event.request.request.tableKind with
  | none => exact ofUser_createAll _ _ _
  | some kind =>
      dsimp only
      rw [ofUser_has]
      split
      · exact ofUser_put _ _ _
      · exact (Function.update_eq_self _ _).symm

end Tables

theorem createdKinds_eq {left right : Mysql} (agree : left.Agrees Eq right) :
    createdKinds left = createdKinds right := by
  rw [createdKinds, createdKinds]
  rcases mysqlSelect_agree agree with ⟨accepted, _, _, leftResult, rightResult, agree⟩
  rw [leftResult, rightResult]
  cases accepted with
  | false => rfl
  | true =>
      rcases mysqlSelect_agree agree with ⟨accepted, _, _, leftResult, rightResult, _⟩
      simp only [leftResult, rightResult]
      cases accepted <;> rfl

theorem Event.creates_eq (event : Event) {left right : Server} (agree : left.Agrees Eq right) :
    event.creates left = event.creates right := by
  have verified := srvdbAccountVerify_alike agree.db right.bcrypt
    { event.request with response := .success, errorText := "" }
  simp only [creates, agree.bcrypt]
  split
  · rcases leftResult : srvdbAccountVerify right.bcrypt _ left.db with ⟨result, msg, leftAfter⟩
    rcases rightResult : srvdbAccountVerify right.bcrypt _ right.db with ⟨_, _, rightAfter⟩
    rw [leftResult, rightResult] at verified
    rcases verified with ⟨rfl, rfl, same⟩
    cases result with
    | false => rfl
    | true =>
        dsimp only
        rw [createdKinds_eq same]
  · rfl

namespace Host

/-- The host as the tenants see it. -/
def view (host : Host) : Tenancy.State String (List AccountRow) UserTables :=
  ⟨host.server.db.accounts, host.tables.ofUser⟩

/-- The settings of the connection and the hash functions never change. -/
structure Settings (mode : SqlMode) (collation : Char → Char → Bool) (bcrypt : Bcrypt)
    (host : Host) : Prop where
  mode : host.server.db.mode = mode
  collation : host.server.db.collation = collation
  bcrypt : host.server.bcrypt = bcrypt

variable {mode : SqlMode} {collation : Char → Char → Bool} {bcrypt : Bcrypt}

theorem Settings.handle {host : Host} (settings : host.Settings mode collation bcrypt)
    (event : Event) : (host.handle event).2.Settings mode collation bcrypt := by
  have continues := Server.step_continues
    (event.enter (host.tables.ofUser event.owner) host.server) event.request
  exact ⟨continues.mode.trans settings.mode, continues.collation.trans settings.collation,
    (socketSrvHandle_bcrypt _ _).trans settings.bcrypt⟩

/-- What one request does to the host is what it does to its owner as a tenant. -/
theorem handle_refines {host : Host} (settings : host.Settings mode collation bcrypt)
    (event : Event) :
    (host.handle event).1 =
        ((accountTenancy mode collation bcrypt).step host.view event).1 ∧
      (host.handle event).2.view =
        ((accountTenancy mode collation bcrypt).step host.view event).2 := by
  have agree : (event.enter (host.tables.ofUser event.owner) host.server).Agrees Eq
      (event.enter (host.tables.ofUser event.owner)
        (Server.fresh mode collation host.server.db.accounts bcrypt [] [])) :=
    ⟨⟨settings.mode, settings.collation, rfl, rfl, rfl⟩, settings.bcrypt, rfl, rfl⟩
  have answers := socketSrvHandle_alike event.request agree
  refine ⟨Prod.ext answers.result answers.replies, ?_⟩
  have archive := answers.server.db.archive
  have creates := event.creates_eq agree
  simp only [view, handle, Tenancy.step, accountTenancy, Tables.ofUser_after]
  rw [answers.server.db.accounts, archive, UserTables.after, UserTables.after, creates]

theorem run_refines {host : Host} (settings : host.Settings mode collation bcrypt)
    (events : List Event) :
    (host.run events).1 = ((accountTenancy mode collation bcrypt).run host.view events).1 ∧
      (host.run events).2.view =
        ((accountTenancy mode collation bcrypt).run host.view events).2 := by
  induction events generalizing host with
  | nil => exact ⟨rfl, rfl⟩
  | cons event events induction =>
      have first := handle_refines settings event
      have rest := induction (settings.handle event)
      simp only [run, Tenancy.run, ← first.1, ← first.2]
      exact ⟨congrArg (List.cons _) rest.1, rest.2⟩

end Host

/-! ## Isolation -/

/-- The requests an account depends on: its own, and those that change the accounts table. -/
def Event.concerns (user : String) (event : Event) : Bool :=
  decide (event.owner = user) || decide (event.request.request = .registerAccount)

theorem socketSrvHandle_verify_accounts {request : MessageCs}
    (kind : request.request = .verifyAccount) (server : Server) :
    (socketSrvHandle request server).2.2.db.accounts = server.db.accounts := by
  have verified := srvdbAccountVerify_accounts server.bcrypt
    { request with response := .success, errorText := "" } server.db
  simp only [kind] at verified
  simp only [socketSrvHandle, kind]
  split
  · rename_i result
    rw [result] at verified
    simpa using verified
  · rename_i result
    rw [result] at verified
    split
    · rw [Server.answer_db]
      exact (srvdbUserArchiveInit_framed keepsAccounts_frame _).trans verified
    · simpa using verified

section Tenants

variable {mode : SqlMode} {collation : Char → Char → Bool} {bcrypt : Bcrypt} {event : Event}

theorem accountTenancy_private (other : event.request.request ≠ .registerAccount) :
    (accountTenancy mode collation bcrypt).Private event := by
  intro accounts part
  have kept := fun archive : event.request.request.asksAccounts = false =>
    socketSrvHandle_accounts archive
      (event.enter part (Server.fresh mode collation accounts bcrypt [] []))
  cases kind : event.request.request with
  | registerAccount => exact absurd kind other
  | verifyAccount => exact socketSrvHandle_verify_accounts kind _
  | insertBook => exact kept (by rw [kind]; rfl)
  | deleteBook => exact kept (by rw [kind]; rfl)
  | updateBook => exact kept (by rw [kind]; rfl)
  | findBook => exact kept (by rw [kind]; rfl)
  | countBook => exact kept (by rw [kind]; rfl)
  | buildShelf => exact kept (by rw [kind]; rfl)
  | removeShelf => exact kept (by rw [kind]; rfl)
  | findShelf => exact kept (by rw [kind]; rfl)
  | countShelf => exact kept (by rw [kind]; rfl)
  | heartbeat => exact kept (by rw [kind]; rfl)

theorem accountTenancy_public (kind : event.request.request = .registerAccount) :
    (accountTenancy mode collation bcrypt).Public event := by
  intro accounts left right
  simp [accountTenancy, Event.enter, Event.opened, Event.outcomes, kind, ClientRequest.tableKind]

end Tenants

/-- The host as its accounts see it, without the requests that do not concern one of them. -/
theorem Host.run_concerns (host : Host) (user : String) (events : List Event) :
    (host.run events).1.filter (fun item => item.1.concerns user) =
        (host.run (events.filter (Event.concerns user))).1 ∧
      (host.run events).2.view.Looks user (host.run (events.filter (Event.concerns user))).2.view := by
  have settings : host.Settings host.server.db.mode host.server.db.collation host.server.bcrypt :=
    ⟨rfl, rfl, rfl⟩
  have whole := run_refines settings events
  have part := run_refines settings (events.filter (Event.concerns user))
  have kept : ∀ event ∈ events, event.owner = user → event.concerns user = true := by
    intro event _ own
    simp [Event.concerns, own]
  have common : ∀ event ∈ events, event.concerns user = true → event.owner ≠ user →
      (accountTenancy host.server.db.mode host.server.db.collation host.server.bcrypt).Public
        event := by
    intro event _ concerns other
    simp only [Event.concerns, other, decide_false, Bool.false_or, decide_eq_true_eq] at concerns
    exact accountTenancy_public concerns
  have dropped : ∀ event ∈ events, event.concerns user = false →
      (accountTenancy host.server.db.mode host.server.db.collation host.server.bcrypt).Private
        event := by
    intro event _ concerns
    simp only [Event.concerns, Bool.or_eq_false_iff, decide_eq_false_iff_not] at concerns
    exact accountTenancy_private concerns.2
  have same := Tenancy.run_filter (Event.concerns user) events kept common dropped
    (⟨rfl, rfl⟩ : host.view.Looks user host.view)
  rw [← whole.1, ← whole.2, ← part.1, ← part.2] at same
  exact same

/-- Whatever others do with their books and shelves in between: an account gets the same replies,
and ends with the same tables and accounts, as if they had not done it. -/
theorem Host.isolated (host : Host) (user : String) (events : List Event) :
    (host.run events).1.filter (fun item => item.1.concerns user) =
        (host.run (events.filter (Event.concerns user))).1 ∧
      (host.run events).2.tables.ofUser user =
        (host.run (events.filter (Event.concerns user))).2.tables.ofUser user ∧
      (host.run events).2.server.db.accounts =
        (host.run (events.filter (Event.concerns user))).2.server.db.accounts := by
  rcases host.run_concerns user events with ⟨replies, accounts, tables⟩
  exact ⟨replies, tables, accounts⟩

end Bookshelfdq
