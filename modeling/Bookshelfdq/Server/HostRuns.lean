import Bookshelfdq.Server.Isolation

/-! # Runs of the server of all accounts

What holds of the tables of every account in every state that the server reaches. -/

namespace Bookshelfdq

/-! ## One request -/

/-- A property of an archive that speaks about either table by itself. -/
structure Archive.Tablewise (holds : Archive → Prop) : Prop where
  empty : holds ⟨[], []⟩
  mixes : ∀ {left right : Archive}, holds left → holds right → holds ⟨left.shelves, right.books⟩

theorem Archive.wellNumbered_tablewise : Archive.Tablewise Archive.WellNumbered where
  empty := wellNumbered_empty
  mixes left right := ⟨right.1, left.2⟩

namespace UserTables

section Tablewise

variable {event : Event} {entered : Server} {archive : Archive} {part : UserTables}
  {holds : Archive → Prop} (tablewise : Archive.Tablewise holds)

include tablewise

theorem put_holds (rows : holds part.archive) (written : holds archive) (kind : TableKind) :
    holds (part.put (archive.tableRows kind)).archive := by
  cases kind with
  | shelves => exact tablewise.mixes written rows
  | books => exact tablewise.mixes rows written

theorem create_holds (rows : holds part.archive) (kind : TableKind) :
    holds (part.create kind).archive := by
  rw [create]
  split
  · exact rows
  · have empty := put_holds tablewise rows tablewise.empty kind
    cases kind <;> exact empty

theorem createAll_holds (kinds : List TableKind) (rows : holds part.archive) :
    holds (kinds.foldl create part).archive := by
  induction kinds generalizing part with
  | nil => exact rows
  | cons kind kinds induction => exact induction (create_holds tablewise rows kind)

theorem after_holds (rows : holds part.archive)
    (written : event.request.request.tableKind.isSome → holds archive) :
    holds (part.after event entered archive).archive := by
  rw [after]
  cases table : event.request.request.tableKind with
  | none => exact createAll_holds tablewise _ rows
  | some kind =>
      dsimp only
      split
      · exact put_holds tablewise rows (written (by simp [table])) kind
      · exact rows

end Tablewise

@[simp] theorem put_has (rows : TableRows) (part : UserTables) (kind : TableKind) :
    (part.put rows).has kind = (decide (kind = rows.kind) || part.has kind) := by
  cases rows <;> cases kind <;> rfl

@[simp] theorem create_has (part : UserTables) (created kind : TableKind) :
    (part.create created).has kind = (decide (kind = created) || part.has kind) := by
  rw [create]
  split
  · rename_i present
    by_cases same : kind = created
    · simp [same, present]
    · simp [same]
  · simp

theorem createAll_has (part : UserTables) (kinds : List TableKind) (kind : TableKind) :
    (kinds.foldl create part).has kind = (decide (kind ∈ kinds) || part.has kind) := by
  induction kinds generalizing part with
  | nil => simp
  | cons created kinds induction =>
      rw [List.foldl_cons, induction, create_has]
      by_cases same : kind = created <;> simp [same]

/-- A table comes into being where a request asks for it, and none ever goes. -/
theorem after_has (part : UserTables) (event : Event) (entered : Server) (archive : Archive)
    (kind : TableKind) :
    (part.after event entered archive).has kind =
      (decide (kind ∈ event.creates entered) || part.has kind) := by
  have created : event.request.request.tableKind.isSome → event.creates entered = [] := by
    intro named
    have other : event.request.request ≠ .verifyAccount := by
      intro verify
      simp [verify, ClientRequest.tableKind] at named
    simp [Event.creates, other]
  rw [after]
  cases table : event.request.request.tableKind with
  | none => exact createAll_has _ _ _
  | some written =>
      rw [created (by simp [table])]
      dsimp only
      split
      · rename_i present
        by_cases same : kind = written
        · simp [same, present]
        · simp [same]
      · simp

end UserTables

namespace Host

def step (host : Host) (event : Event) : Host := (host.handle event).2

/-- The server that answers the request, opened for its owner. -/
def entered (host : Host) (event : Event) : Server :=
  event.enter (host.tables.ofUser event.owner) host.server

theorem step_ofUser (host : Host) (event : Event) :
    (host.step event).tables.ofUser =
      Function.update host.tables.ofUser event.owner
        ((host.tables.ofUser event.owner).after event (host.entered event)
          ((host.entered event).step event.request).db.archive) :=
  Tables.ofUser_after _ _ _ _

section Tablewise

variable {holds : Archive → Prop} (tablewise : Archive.Tablewise holds) {host : Host}
  {event : Event} (all : ∀ user, holds (host.tables.ofUser user).archive)

include tablewise all

theorem entered_holds : holds (host.entered event).db.archive := by
  simp only [entered, Event.enter, Event.opened]
  split
  · exact all _
  · exact tablewise.empty

/-- What every request keeps true of the archive it is served from stays true of all archives. -/
theorem step_holds (preserved : ∀ server : Server, holds server.db.archive →
      holds (server.step event.request).db.archive) (user : String) :
    holds ((host.step event).tables.ofUser user).archive := by
  rw [step_ofUser]
  by_cases own : user = event.owner
  · subst own
    rw [Function.update_self]
    apply UserTables.after_holds tablewise (all _)
    intro _
    exact preserved _ (entered_holds tablewise all)
  · rw [Function.update_of_ne own]
    exact all user

end Tablewise

theorem step_numbered (host : Host) (event : Event)
    (numbered : ∀ user, (host.tables.ofUser user).archive.WellNumbered) :
    ∀ user, ((host.step event).tables.ofUser user).archive.WellNumbered :=
  step_holds Archive.wellNumbered_tablewise numbered
    (fun server => server.step_wellNumbered event.request)

theorem step_has (host : Host) (event : Event) (user : String) (kind : TableKind) :
    (host.step event).tables.has kind user =
      (decide (event.owner = user ∧ kind ∈ event.creates (host.entered event)) ||
        host.tables.has kind user) := by
  rw [← Tables.ofUser_has, ← Tables.ofUser_has, step_ofUser]
  by_cases own : user = event.owner
  · subst own
    rw [Function.update_self, UserTables.after_has]
    simp
  · rw [Function.update_of_ne own]
    simp [Ne.symm own]

/-- The request names an account with its password. -/
def Verifies (host : Host) (event : Event) : Prop :=
  event.request.request = .verifyAccount ∧
    (srvdbAccountVerify (host.entered event).bcrypt
      { event.request with response := .success, errorText := "" } (host.entered event).db).1 = true

theorem verifies_of_creates {host : Host} {event : Event} {kind : TableKind}
    (created : kind ∈ event.creates (host.entered event)) : host.Verifies event := by
  simp only [Event.creates] at created
  split at created
  · rename_i verify
    refine ⟨verify, ?_⟩
    split at created
    · cases created
    · rename_i result
      rw [result]
  · cases created

/-- Where the accounts have tables, some of them were there at the start, and the others came with
a verification of their account. -/
theorem exists_verifies_of_has {host : Host} {user : String} {kind : TableKind}
    {events : List Event} (absent : host.tables.has kind user = false)
    (present : (Execution.run step host events).tables.has kind user = true) :
    ∃ earlier event later, events = earlier ++ event :: later ∧ event.owner = user ∧
      (Execution.run step host earlier).Verifies event := by
  induction events generalizing host with
  | nil =>
      rw [Execution.run, absent] at present
      cases present
  | cons event events induction =>
      cases created : (host.step event).tables.has kind user with
      | true =>
          rw [step_has, absent] at created
          simp only [Bool.or_false, decide_eq_true_eq] at created
          exact ⟨[], event, events, rfl, created.1, verifies_of_creates created.2⟩
      | false =>
          rcases induction created present with ⟨earlier, verifying, later, rfl, own, verifies⟩
          exact ⟨event :: earlier, verifying, later, rfl, own, verifies⟩

/-- What one request leaves alone. -/
structure Keeps (before after : Host) (owner : String) : Prop where
  others : ∀ user, user ≠ owner → after.tables.ofUser user = before.tables.ofUser user
  tables : ∀ user kind, before.tables.has kind user = true → after.tables.has kind user = true

theorem step_keeps (host : Host) (event : Event) : host.Keeps (host.step event) event.owner where
  others user other := by rw [step_ofUser, Function.update_of_ne other]
  tables user kind present := by rw [step_has, present, Bool.or_true]

/-- In every run that starts without tables: the numbers of every account stay gap free and within
their limits, a request changes nobody's tables but its owner's, no table ever goes, and an account
has tables only after a request has named it with its password. -/
theorem runs_keep_tables (server : Server) (events : List Event) :
    Execution.Always step (fun host => ∀ user, (host.tables.ofUser user).archive.WellNumbered)
        ⟨server, .fresh⟩ events ∧
      Execution.Along step (fun host event => host.Keeps (host.step event) event.owner)
        ⟨server, .fresh⟩ events ∧
      ∀ user kind, (Execution.run step ⟨server, .fresh⟩ events).tables.has kind user = true →
        ∃ earlier event later, events = earlier ++ event :: later ∧ event.owner = user ∧
          (Execution.run step ⟨server, .fresh⟩ earlier).Verifies event := by
  have start : ∀ user,
      ((⟨server, .fresh⟩ : Host).tables.ofUser user).archive.WellNumbered :=
    fun _ => Archive.wellNumbered_empty
  refine ⟨Execution.always_of_invariant step_numbered start events, ?_, ?_⟩
  · exact @Execution.along_of_invariant _ _ step (fun _ => True) _ (fun _ _ _ => trivial)
      (fun host event _ => host.step_keeps event) ⟨server, .fresh⟩ trivial events
  · intro user kind present
    exact exists_verifies_of_has rfl present

/-! ## Requests for books and shelves -/

end Host

/-- A request for the books or shelves of an account. -/
def Event.serves (user : String) (event : Event) : Bool :=
  decide (event.owner = user) && event.request.request.tableKind.isSome

theorem ClientRequest.asksAccounts_of_tableKind {request : ClientRequest}
    (named : request.tableKind.isSome = true) : request.asksAccounts = false := by
  cases request <;> first | rfl | cases named

theorem UserTables.createAll_of_has {part : UserTables} (all : ∀ kind, part.has kind = true)
    (kinds : List TableKind) : kinds.foldl create part = part := by
  induction kinds with
  | nil => rfl
  | cons kind kinds induction =>
      rw [List.foldl_cons, create, if_pos (all kind)]
      exact induction

namespace Host

/-- Two servers that an account cannot tell apart by what they keep for it. -/
structure SameFor (user : String) (left right : Host) : Prop where
  mode : left.server.db.mode = right.server.db.mode
  collation : left.server.db.collation = right.server.db.collation
  bcrypt : left.server.bcrypt = right.server.bcrypt
  tables : left.tables.ofUser user = right.tables.ofUser user

variable {user : String} {left right : Host} {event : Event}

theorem SameFor.step_serves (same : left.SameFor user right) (serves : event.serves user = true) :
    (left.handle event).1 = (right.handle event).1 ∧
      (left.handle event).2.SameFor user (right.handle event).2 := by
  simp only [Event.serves, Bool.and_eq_true, decide_eq_true_eq] at serves
  rcases serves with ⟨rfl, named⟩
  have agree : (left.entered event).Agrees (fun _ _ => True) (right.entered event) := by
    rw [entered, entered, same.tables]
    exact ⟨⟨same.mode, same.collation, rfl, trivial, rfl⟩, same.bcrypt, rfl, rfl⟩
  have answers := socketSrvHandle_alike_of_archive
    (ClientRequest.asksAccounts_of_tableKind named) agree
  refine ⟨Prod.ext answers.result answers.replies, answers.server.db.mode,
    answers.server.db.collation, answers.server.bcrypt, ?_⟩
  have leftTables := congrFun (left.step_ofUser event) event.owner
  have rightTables := congrFun (right.step_ofUser event) event.owner
  rw [Function.update_self] at leftTables rightTables
  refine leftTables.trans (Eq.trans ?_ rightTables.symm)
  rcases Option.isSome_iff_exists.mp named with ⟨kind, table⟩
  have archive := answers.server.db.archive
  simp only [UserTables.after, table, same.tables, Server.step, archive]

theorem SameFor.step_other (same : left.SameFor user right)
    (all : ∀ kind, left.tables.has kind user = true) (other : event.serves user = false) :
    (left.handle event).2.SameFor user right := by
  have continues := Server.step_continues (left.entered event) event.request
  refine ⟨continues.mode.trans same.mode, continues.collation.trans same.collation,
    (socketSrvHandle_bcrypt _ _).trans same.bcrypt, ?_⟩
  have tables := congrFun (left.step_ofUser event) user
  refine tables.trans (Eq.trans ?_ same.tables)
  by_cases own : event.owner = user
  · subst own
    have unnamed : event.request.request.tableKind = none := by
      simpa [Event.serves] using other
    rw [Function.update_self, UserTables.after, unnamed]
    exact UserTables.createAll_of_has (fun kind => by rw [Tables.ofUser_has, all kind]) _
  · rw [Function.update_of_ne (Ne.symm own)]

/-- Nobody has to have verified anything: requests for the books and shelves of an account that
has tables get the same replies, and have the same effect, when all the requests that concern the
accounts are left out, whatever accounts there are. -/
theorem served_unverified {left right : Host} (same : left.SameFor user right)
    (all : ∀ kind, left.tables.has kind user = true) (events : List Event) :
    (left.run events).1.filter (fun item => item.1.serves user) =
        (right.run (events.filter (Event.serves user))).1 ∧
      (left.run events).2.tables.ofUser user =
        (right.run (events.filter (Event.serves user))).2.tables.ofUser user := by
  induction events generalizing left right with
  | nil => exact ⟨rfl, same.tables⟩
  | cons event events induction =>
      have present : ∀ kind, (left.handle event).2.tables.has kind user = true :=
        fun kind => (left.step_keeps event).tables user kind (all kind)
      cases serves : event.serves user with
      | false =>
          have rest := induction (same.step_other all serves) present
          simpa [run, serves] using rest
      | true =>
          have first := same.step_serves serves
          have rest := induction first.2 present
          simp only [run, List.filter_cons, serves, if_true]
          exact ⟨by rw [first.1, rest.1], rest.2⟩

/-! A server that knows one account, and one that knows none. -/

def sampleHost (accounts : List AccountRow) : Host where
  server := Server.fresh .strict (fun left right => left == right) accounts sampleBcrypt [] []
  tables := (Tables.fresh.put (.shelves []) "reader").put (.books []) "reader"

def sampleEvent (request : ClientRequest) : Event where
  request := { sampleAccount "Ulysses1" with request := request }
  faults := []
  salts := []
  sendFaults := []
  plain := show plainUser "reader" = true by decide
  plainAccount := show plainUser "reader" = true by decide

theorem count_unverified :
    ((sampleHost [⟨1, "reader", "$Ulysses1", .user⟩]).run
        [sampleEvent .verifyAccount, sampleEvent .countShelf]).1.filter
          (fun item => item.1.serves "reader") =
        ((sampleHost []).run ([sampleEvent .verifyAccount, sampleEvent .countShelf].filter
          (Event.serves "reader"))).1 ∧
      ((sampleHost [⟨1, "reader", "$Ulysses1", .user⟩]).run
        [sampleEvent .verifyAccount, sampleEvent .countShelf]).2.tables.ofUser "reader" =
        ((sampleHost []).run ([sampleEvent .verifyAccount, sampleEvent .countShelf].filter
          (Event.serves "reader"))).2.tables.ofUser "reader" := by
  apply served_unverified
  · exact ⟨rfl, rfl, rfl, rfl⟩
  · intro kind
    cases kind <;> decide

end Host

end Bookshelfdq
