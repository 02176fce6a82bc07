import Bookshelfdq.Client.LoginPage
import Bookshelfdq.Foundation.Since
import Bookshelfdq.Session.Asking

/-! # The way into the program

The login and the register page as `main` of `bookMan.c` calls them, with a server whose accounts
others use as well. -/

namespace Bookshelfdq

/-! ## Logging in and registering -/

/-- `client_start_login`. `opened` is the result of `clidb_init`. -/
def clientStartLogin (contact : Contact) (opened : Bool) (account : AccountEntry)
    (server : Server) : Bool × Server :=
  match account.type with
  | .user =>
      let asked := contact.ask (clientVerifyAccountMsg account 1) server
      (asked.1 && opened, asked.2)
  | .admin => contact.ask (clientVerifyAccountMsg account 0) server

/-- `client_start_register`. -/
def clientStartRegister (contact : Contact) (account : AccountEntry) (server : Server) :
    Bool × Server :=
  contact.ask (clientRegisterAccountMsg account) server

/-- An account that `client_start_login` accepts is in the book. -/
theorem clientStartLogin_lookup {bcrypt : Bcrypt} (sound : bcrypt.Sound) {booked : BookedServer}
    (kept : booked.Kept bcrypt) {account : AccountEntry} (admitted : account.Admitted)
    {contact : Contact} {opened : Bool}
    (accepted : (clientStartLogin contact opened account booked.server).1 = true) :
    booked.book.lookup account.name = some (account.type, account.password) := by
  rw [clientStartLogin] at accepted
  cases type : account.type with
  | user =>
      simp only [type, Bool.and_eq_true] at accepted
      exact type ▸ kept.lookup_of_ask 1 sound admitted accepted.1
  | admin =>
      simp only [type] at accepted
      exact type ▸ kept.lookup_of_ask 0 sound admitted accepted

theorem BookedServer.Kept.clientStartLogin {bcrypt : Bcrypt} {booked : BookedServer}
    (kept : booked.Kept bcrypt) (contact : Contact) (opened : Bool) (account : AccountEntry) :
    (BookedServer.mk (clientStartLogin contact opened account booked.server).2
      booked.book).Kept bcrypt := by
  rw [Bookshelfdq.clientStartLogin]
  cases account.type with
  | user => exact kept.ask account 1 contact
  | admin => exact kept.ask account 0 contact

/-! ## The program -/

/-- The account that the register option is chosen for, once it has a name and a password. -/
def RegisterPage.sends (page : RegisterPage) : RegisterAction → Option AccountEntry
  | .register _ => page.registers
  | _ => none

theorem RegisterPage.Fielded.admitted {page : RegisterPage} (fielded : page.Fielded)
    {action : RegisterAction} {account : AccountEntry} (sends : page.sends action = some account) :
    account.type = .user ∧ account.Admitted := by
  cases action with
  | register accepted =>
      rcases registers_eq_some sends with ⟨_, named, present, rfl⟩
      exact ⟨rfl, fielded.name.nameAdmitted named, fielded.password.passwordAdmitted present⟩
  | name keys => cases sends
  | password visit => cases sends
  | back => cases sends

/-- Where the program is before its main menu, or that it has got there with a `login_user`. -/
inductive Front
  | login (page : LoginPage)
  | register (page : RegisterPage)
  | menu (loginUser : String)
  | closed

namespace Front

/-- What `main` does with the result of the login page. `tempStr` is what the register page finds
on its stack. -/
def after (tempStr : List Char) (page : LoginPage) : UiMenu → Front
  | .nonSense => menu (String.ofList (cString page.name))
  | .quit => closed
  | .login => login .initial
  | .register => register (.initial tempStr)

/-- What is left of the program when the login page has gone once through its loop. -/
def afterStep (tempStr : List Char) (page : LoginPage) : LoginStep → Front
  | .stay page => login page
  | .leave chosen => after tempStr page chosen
  | .attempt _ page => login page

/-- The register page is followed by the login page. -/
def afterRegister (page : RegisterPage) : Front :=
  if page.running then register page else login .initial

def Fielded : Front → Prop
  | login page => page.Fielded
  | register page => page.Fielded
  | menu loginUser => NameAdmitted loginUser
  | closed => True

theorem fielded_after {tempStr : List Char} {page : LoginPage} {chosen : UiMenu}
    (named : chosen = .nonSense → NameAdmitted (String.ofList (cString page.name))) :
    (after tempStr page chosen).Fielded := by
  cases chosen with
  | nonSense => exact named rfl
  | quit => trivial
  | login => exact LoginPage.fielded_initial
  | register => exact ⟨RegisterPage.entered_blank .name, RegisterPage.entered_blank .password⟩

theorem fielded_afterStep {tempStr : List Char} {page : LoginPage} {next : LoginStep}
    (keeps : next.Keeps LoginPage.Fielded)
    (named : next = .leave .nonSense → NameAdmitted (String.ofList (cString page.name))) :
    (afterStep tempStr page next).Fielded := by
  cases next with
  | stay page => exact keeps
  | leave chosen => exact fielded_after fun chose => named (congrArg LoginStep.leave chose)
  | attempt account page => exact keeps.1

theorem fielded_afterRegister {page : RegisterPage} (fielded : page.Fielded) :
    (afterRegister page).Fielded := by
  rw [afterRegister]
  split
  · exact fielded
  · exact LoginPage.fielded_initial

end Front

inductive FrontInput
  | login (turn : LoginTurn) (contact : Contact) (opened : Bool) (tempStr : List Char)
  | register (action : RegisterAction) (contact : Contact)
  | others (event : BookedServer.Meanwhile)

def FrontInput.Admitted : FrontInput → Prop
  | login .. => True
  | register .. => True
  | others event => event.Admitted

structure FrontDoor where
  booked : BookedServer
  front : Front

namespace FrontDoor

/-- The account that `client_start_login` is called with. -/
def attempts (door : FrontDoor) : FrontInput → Option AccountEntry
  | .login turn _ _ _ =>
      match door.front with
      | .login page =>
          match page.turn turn with
          | .attempt account _ => some account
          | _ => none
      | _ => none
  | _ => none

/-- The account that `client_start_register` is called with. -/
def registers (door : FrontDoor) : FrontInput → Option AccountEntry
  | .register action _ =>
      match door.front with
      | .register page => page.sends action
      | _ => none
  | _ => none

variable (fascistCheck : Option (List Char → Option String))

/-- Once through the loop of the login page. -/
def login (turn : LoginTurn) (contact : Contact) (opened : Bool) (tempStr : List Char)
    (page : LoginPage) (door : FrontDoor) : FrontDoor :=
  match page.turn turn with
  | .attempt account page =>
      let asked := clientStartLogin contact opened account door.booked.server
      ⟨⟨asked.2, door.booked.book⟩, .afterStep tempStr page (page.answered asked.1)⟩
  | next => { door with front := .afterStep tempStr page next }

/-- Once through the loop of the register page. -/
def register (action : RegisterAction) (contact : Contact) (page : RegisterPage)
    (door : FrontDoor) : FrontDoor :=
  match page.sends action with
  | some account =>
      let asked := clientStartRegister contact account door.booked.server
      ⟨door.booked.hear contact (clientRegisterAccountMsg account),
        .afterRegister (page.step fascistCheck (.register asked.1))⟩
  | none => { door with front := .afterRegister (page.step fascistCheck action) }

def step (door : FrontDoor) : FrontInput → FrontDoor
  | .login turn contact opened tempStr =>
      match door.front with
      | .login page => door.login turn contact opened tempStr page
      | _ => door
  | .register action contact =>
      match door.front with
      | .register page => door.register fascistCheck action contact page
      | _ => door
  | .others event => { door with booked := door.booked.meanwhile event }

/-! ## One step -/

structure Kept (bcrypt : Bcrypt) (door : FrontDoor) : Prop where
  booked : door.booked.Kept bcrypt
  fielded : door.front.Fielded

variable {fascistCheck} {bcrypt : Bcrypt} {door : FrontDoor}

theorem Kept.login (kept : door.Kept bcrypt) {page : LoginPage} (fielded : page.Fielded)
    (turn : LoginTurn) (contact : Contact) (opened : Bool) (tempStr : List Char) :
    (door.login turn contact opened tempStr page).Kept bcrypt := by
  have keeps := fielded.turn turn
  rw [FrontDoor.login]
  cases turned : page.turn turn with
  | stay next =>
      rw [turned] at keeps
      exact ⟨kept.booked, keeps⟩
  | leave chosen =>
      refine ⟨kept.booked, Front.fielded_after ?_⟩
      rintro rfl
      rcases LoginPage.turn_leave turned with same | same <;> cases same
  | attempt account next =>
      rw [turned] at keeps
      refine ⟨kept.booked.clientStartLogin contact opened account, ?_⟩
      exact Front.fielded_afterStep (keeps.1.answered _) fun _ =>
        keeps.1.name.nameAdmitted keeps.2.2.1

theorem Kept.register (kept : door.Kept bcrypt) (sound : bcrypt.Sound) {page : RegisterPage}
    (fielded : page.Fielded) (action : RegisterAction) (contact : Contact) :
    (door.register fascistCheck action contact page).Kept bcrypt := by
  rw [FrontDoor.register]
  cases sends : page.sends action with
  | some account =>
      have admitted := (fielded.admitted sends).2
      refine ⟨kept.booked.hear sound (fun _ => admitted) contact, ?_⟩
      exact Front.fielded_afterRegister (fielded.step fascistCheck _)
  | none => exact ⟨kept.booked, Front.fielded_afterRegister (fielded.step fascistCheck action)⟩

theorem Kept.step (kept : door.Kept bcrypt) (sound : bcrypt.Sound) {input : FrontInput}
    (admitted : input.Admitted) : (door.step fascistCheck input).Kept bcrypt := by
  have fielded := kept.fielded
  cases input with
  | login turn contact opened tempStr =>
      rw [FrontDoor.step]
      cases front : door.front with
      | login page =>
          rw [front] at fielded
          exact kept.login fielded turn contact opened tempStr
      | register page => exact kept
      | menu loginUser => exact kept
      | closed => exact kept
  | register action contact =>
      rw [FrontDoor.step]
      cases front : door.front with
      | register page =>
          rw [front] at fielded
          exact kept.register sound fielded action contact
      | login page => exact kept
      | menu loginUser => exact kept
      | closed => exact kept
  | others event => exact ⟨kept.booked.meanwhile sound admitted, fielded⟩

/-- The login page stays, or the program ends, or the server has found an account to be right. -/
theorem Kept.login_cases (kept : door.Kept bcrypt) (sound : bcrypt.Sound) {page : LoginPage}
    (front : door.front = .login page) (turn : LoginTurn) (contact : Contact) (opened : Bool)
    (tempStr : List Char) :
    (∃ next, (door.login turn contact opened tempStr page).front = .login next) ∨
      (door.login turn contact opened tempStr page).front = .closed ∨
      ∃ account, door.attempts (.login turn contact opened tempStr) = some account ∧
        door.booked.book.lookup account.name = some (account.type, account.password) ∧
        ((account.type = .user ∧
            (door.login turn contact opened tempStr page).front = .menu account.name) ∨
          (account.type = .admin ∧
            (door.login turn contact opened tempStr page).front =
              .register (.initial tempStr))) := by
  have fielded := kept.fielded
  rw [front] at fielded
  have keeps := LoginPage.Fielded.turn fielded turn
  simp only [FrontDoor.login, attempts, front]
  cases turned : page.turn turn with
  | stay next => exact .inl ⟨next, rfl⟩
  | leave chosen =>
      rcases LoginPage.turn_leave turned with rfl | rfl
      · exact .inr (.inl rfl)
      · exact .inl ⟨.initial, rfl⟩
  | attempt account next =>
      rw [turned] at keeps
      rcases keeps with ⟨entered, rfl, named, given⟩
      cases accepted :
          (clientStartLogin contact opened next.account door.booked.server).1 with
      | false =>
          refine .inl ?_
          cases asRegister : next.bReg with
          | false => exact ⟨_, by simp only [LoginPage.answered, asRegister, accepted]; rfl⟩
          | true => exact ⟨_, by simp only [LoginPage.answered, asRegister, accepted]; rfl⟩
      | true =>
          have found := clientStartLogin_lookup sound kept.booked (entered.admitted named given)
            accepted
          refine .inr (.inr ⟨next.account, rfl, found, ?_⟩)
          cases asRegister : next.bReg with
          | false =>
              refine .inl ⟨by simp [LoginPage.account, asRegister], ?_⟩
              simp only [LoginPage.answered, asRegister, accepted]
              rfl
          | true =>
              refine .inr ⟨by simp [LoginPage.account, asRegister], ?_⟩
              simp only [LoginPage.answered, asRegister, accepted]
              rfl

/-- The register page leads nowhere but to the login page. -/
theorem register_cases (action : RegisterAction) (contact : Contact) (page : RegisterPage) :
    (∃ next, (door.register fascistCheck action contact page).front = .register next) ∨
      (door.register fascistCheck action contact page).front = .login .initial := by
  have after : ∀ page, (∃ next, Front.afterRegister page = .register next) ∨
      Front.afterRegister page = .login .initial := by
    intro page
    rw [Front.afterRegister]
    split
    · exact .inl ⟨page, rfl⟩
    · exact .inr rfl
  rw [FrontDoor.register]
  cases page.sends action with
  | some account => exact after _
  | none => exact after _

/-- Where one input can lead. -/
theorem Kept.step_cases (kept : door.Kept bcrypt) (sound : bcrypt.Sound) (input : FrontInput) :
    (door.step fascistCheck input).front = door.front ∨
      (∃ next, (door.step fascistCheck input).front = .login next) ∨
      (door.step fascistCheck input).front = .closed ∨
      ((∃ page, door.front = .register page) ∧
        ∃ next, (door.step fascistCheck input).front = .register next) ∨
      ∃ account, door.attempts input = some account ∧
        door.booked.book.lookup account.name = some (account.type, account.password) ∧
        ((account.type = .user ∧ (door.step fascistCheck input).front = .menu account.name) ∨
          (account.type = .admin ∧
            ∃ page, (door.step fascistCheck input).front = .register page)) := by
  cases input with
  | login turn contact opened tempStr =>
      rw [FrontDoor.step]
      cases front : door.front with
      | login page =>
          rcases kept.login_cases sound front turn contact opened tempStr with stayed | closed |
            ⟨account, attempted, found, entered | ⟨type, registers⟩⟩
          · exact .inr (.inl stayed)
          · exact .inr (.inr (.inl closed))
          · exact .inr (.inr (.inr (.inr ⟨account, attempted, found, .inl entered⟩)))
          · exact .inr (.inr (.inr (.inr ⟨account, attempted, found, .inr ⟨type, _, registers⟩⟩)))
      | register page => exact .inl front
      | menu loginUser => exact .inl front
      | closed => exact .inl front
  | register action contact =>
      rw [FrontDoor.step]
      cases front : door.front with
      | register page =>
          rcases @register_cases fascistCheck door action contact page with stayed | left
          · exact .inr (.inr (.inr (.inl ⟨⟨page, rfl⟩, stayed⟩)))
          · exact .inr (.inl ⟨_, left⟩)
      | login page => exact .inl front
      | menu loginUser => exact .inl front
      | closed => exact .inl front
  | others event => exact .inl rfl

/-- The main menu is entered by the user whose name and password the server has just found to be
right. -/
theorem Kept.menu (kept : door.Kept bcrypt) (sound : bcrypt.Sound) {input : FrontInput}
    {user : String} (before : door.front ≠ .menu user)
    (entered : (door.step fascistCheck input).front = .menu user) :
    ∃ password, door.attempts input = some ⟨.user, user, password⟩ ∧
      door.booked.book.lookup user = some (.user, password) := by
  rcases @step_cases fascistCheck _ _ kept sound input with same | ⟨next, stayed⟩ | closed |
    ⟨_, next, stayed⟩ | ⟨⟨type, name, password⟩, attempted, found, ⟨rfl, came⟩ | ⟨_, page, came⟩⟩
  · exact absurd (same.symm.trans entered) before
  · cases stayed.symm.trans entered
  · cases closed.symm.trans entered
  · cases stayed.symm.trans entered
  · cases came.symm.trans entered
    exact ⟨password, attempted, found⟩
  · cases came.symm.trans entered

/-- The register page is entered once the server has found an administrator's name and password to
be right. -/
theorem Kept.registering (kept : door.Kept bcrypt) (sound : bcrypt.Sound) {input : FrontInput}
    (before : ¬∃ page, door.front = .register page)
    (entered : ∃ page, (door.step fascistCheck input).front = .register page) :
    ∃ name password, door.attempts input = some ⟨.admin, name, password⟩ ∧
      door.booked.book.lookup name = some (.admin, password) := by
  rcases entered with ⟨page, entered⟩
  rcases @step_cases fascistCheck _ _ kept sound input with same | ⟨next, stayed⟩ | closed |
    ⟨registering, _⟩ | ⟨⟨type, name, password⟩, attempted, found, ⟨_, came⟩ | ⟨rfl, _⟩⟩
  · exact absurd ⟨page, same.symm.trans entered⟩ before
  · cases stayed.symm.trans entered
  · cases closed.symm.trans entered
  · exact absurd registering before
  · cases came.symm.trans entered
  · exact ⟨name, password, attempted, found⟩

/-- Accounts are registered from the register page, for users. -/
theorem Kept.registers (kept : door.Kept bcrypt) {input : FrontInput} {account : AccountEntry}
    (registers : door.registers input = some account) :
    account.type = .user ∧ account.Admitted ∧ ∃ page, door.front = .register page := by
  cases input with
  | register action contact =>
      have fielded := kept.fielded
      cases front : door.front with
      | register page =>
          rw [front] at fielded
          rw [FrontDoor.registers, front] at registers
          rcases RegisterPage.Fielded.admitted fielded registers with ⟨type, good⟩
          exact ⟨type, good, page, rfl⟩
      | login page =>
          rw [FrontDoor.registers, front] at registers
          cases registers
      | menu loginUser =>
          rw [FrontDoor.registers, front] at registers
          cases registers
      | closed =>
          rw [FrontDoor.registers, front] at registers
          cases registers
  | login turn contact opened tempStr => cases registers
  | others event => cases registers

/-! ## Runs -/

def start (server : Server) : FrontDoor where
  booked := ⟨server, .empty⟩
  front := .login .initial

/-- A state on the way. -/
def reached (fascistCheck : Option (List Char → Option String)) (server : Server)
    (inputs : List FrontInput) : FrontDoor :=
  Execution.run (step fascistCheck) (start server) inputs

theorem kept_reached (sound : bcrypt.Sound) {server : Server} (hashes : server.bcrypt = bcrypt)
    (unused : server.db.accounts = []) {inputs : List FrontInput}
    (admitted : ∀ input ∈ inputs, input.Admitted) :
    (reached fascistCheck server inputs).Kept bcrypt := by
  have initial : (start server).Kept bcrypt := by
    refine ⟨⟨hashes, ?_⟩, LoginPage.fielded_initial⟩
    rw [start, unused]
    exact .nil
  have preserved : ∀ (door : FrontDoor) (input : FrontInput), door.Kept bcrypt →
      input.Admitted → (door.step fascistCheck input).Kept bcrypt :=
    fun door input kept good => kept.step sound good
  exact Execution.run_of_along preserved initial (Execution.along_of_forall admitted)

theorem reached_snoc (server : Server) (earlier : List FrontInput) (input : FrontInput) :
    reached fascistCheck server (earlier ++ [input]) =
      step fascistCheck (reached fascistCheck server earlier) input :=
  Execution.run_append _ _ _

/-- Whatever is typed, whatever fails and whatever others ask of the server meanwhile: the main menu
is only displayed to a user who gave the password set last for that name, and it is displayed since.
A registration is only asked for while the register page is displayed, for a user and not for an
administrator, after an administrator gave the password set last. -/
theorem runs_authenticated (sound : bcrypt.Sound) {server : Server}
    (hashes : server.bcrypt = bcrypt) (unused : server.db.accounts = []) {inputs : List FrontInput}
    (admitted : ∀ input ∈ inputs, input.Admitted) :
    (∀ user, (reached fascistCheck server inputs).front = .menu user →
      ∃ earlier input later password, inputs = earlier ++ input :: later ∧
        (reached fascistCheck server earlier).attempts input = some ⟨.user, user, password⟩ ∧
        (reached fascistCheck server earlier).booked.book.lookup user = some (.user, password) ∧
        ∀ middle, middle <+: later →
          (reached fascistCheck server (earlier ++ input :: middle)).front = .menu user) ∧
    (∀ input account, (reached fascistCheck server inputs).registers input = some account →
      account.type = .user ∧ account.Admitted ∧
      ∃ earlier input later name password, inputs = earlier ++ input :: later ∧
        (reached fascistCheck server earlier).attempts input = some ⟨.admin, name, password⟩ ∧
        (reached fascistCheck server earlier).booked.book.lookup name = some (.admin, password) ∧
        ∀ middle, middle <+: later →
          ∃ page, (reached fascistCheck server (earlier ++ input :: middle)).front =
            .register page) := by
  have kept : ∀ earlier input later, inputs = earlier ++ input :: later →
      (reached fascistCheck server earlier).Kept bcrypt := by
    rintro earlier input later rfl
    apply kept_reached sound hashes unused
    intro other member
    exact admitted other (List.mem_append_left _ member)
  constructor
  · intro user displayed
    have absent : (start server).front ≠ .menu user := fun same => by cases same
    rcases Execution.exists_since (fun door : FrontDoor => door.front = .menu user) absent displayed
      with ⟨earlier, input, later, split, before, since⟩
    have entered := since [] List.nil_prefix
    rw [← reached, reached_snoc] at entered
    rcases (kept earlier input later split).menu sound before entered with
      ⟨password, attempted, found⟩
    exact ⟨earlier, input, later, password, split, attempted, found, since⟩
  · intro input account registers
    have last := @kept_reached fascistCheck _ sound _ hashes unused _ admitted
    rcases last.registers registers with ⟨type, good, displayed⟩
    refine ⟨type, good, ?_⟩
    have absent : ¬∃ page, (start server).front = .register page := fun ⟨_, same⟩ => by cases same
    rcases Execution.exists_since (fun door : FrontDoor => ∃ page, door.front = .register page)
      absent displayed with ⟨earlier, input, later, split, before, since⟩
    have entered := since [] List.nil_prefix
    rw [← reached, reached_snoc] at entered
    rcases (kept earlier input later split).registering sound before entered with
      ⟨name, password, attempted, found⟩
    exact ⟨earlier, input, later, name, password, split, attempted, found, since⟩

/-! A reader types name and password, and then only has to say `登录`. -/

def sampleTyping (text : String) : LoginTurn where
  choice := .enter
  keys := text.toList.map LoginKey.character

def sampleInputs : List FrontInput :=
  [.others (.console (.tableInit (some "salt"))),
    .login (sampleTyping "reader") .heard true [],
    .others (.request (clientRegisterAccountMsg ⟨.user, "reader", "Ulysses1"⟩)),
    .login (sampleTyping "Ulysses1") .heard true [],
    .login (sampleTyping "") .heard true []]

def sampleServer : Server :=
  Server.fresh .strict (fun left right => left == right) [] sampleBcrypt [some "salt"] []

theorem sampleInputs_admitted : ∀ input ∈ sampleInputs, input.Admitted := by
  have account : AccountEntry.Admitted ⟨.user, "reader", "Ulysses1"⟩ :=
    ⟨⟨by decide, by decide, by decide⟩, ⟨by decide, by decide, by decide⟩⟩
  intro input member
  simp only [sampleInputs, List.mem_cons, List.not_mem_nil, or_false] at member
  rcases member with rfl | rfl | rfl | rfl | rfl
  · trivial
  · trivial
  · exact fun _ => account
  · trivial
  · trivial

theorem reader_authenticated :
    ∃ earlier input later password, sampleInputs = earlier ++ input :: later ∧
      (reached none sampleServer earlier).attempts input = some ⟨.user, "reader", password⟩ ∧
      (reached none sampleServer earlier).booked.book.lookup "reader" = some (.user, password) ∧
      ∀ middle, middle <+: later →
        (reached none sampleServer (earlier ++ input :: middle)).front = .menu "reader" :=
  (@runs_authenticated none _ sampleBcrypt_sound sampleServer rfl rfl _
    sampleInputs_admitted).1 "reader" rfl

end FrontDoor

end Bookshelfdq
