import Bookshelfdq.Client.RegisterPage

/-! # The login page

`ncgui_display_login_page` of `ncgui.c`, as it goes once through its loop at a time. -/

namespace Bookshelfdq

/-- `lg_option_name` to `lg_option_register`, the rows of the slider. -/
inductive LoginRow
  | name
  | password
  | login
  | register
deriving DecidableEq

def LoginRow.above : LoginRow → LoginRow
  | name => register
  | password => name
  | login => password
  | register => login

def LoginRow.below : LoginRow → LoginRow
  | name => password
  | password => login
  | login => register
  | register => name

/-- What `get_choice` returns, and the answer to the question that follows a backspace. -/
inductive LoginChoice
  | up
  | down
  | side
  | enter
  | backspace (confirmed : Bool)
deriving DecidableEq

/-- What the user does while the loop is gone through once. The keys are typed into a field that
is entered. -/
structure LoginTurn where
  choice : LoginChoice
  keys : List LoginKey
deriving DecidableEq

/-- The results of the page. -/
inductive UiMenu
  | nonSense
  | quit
  | login
  | register
deriving DecidableEq

/-- `opEnter` says that `op_key` is `KEY_ENTER` where the loop begins. -/
structure LoginPage where
  name : List Char
  password : List Char
  row : LoginRow
  opEnter : Bool
  bReg : Bool
deriving DecidableEq

/-- Once through the loop: the page stays, it is left, or it first calls `client_start_login`. -/
inductive LoginStep
  | stay (page : LoginPage)
  | leave (menu : UiMenu)
  | attempt (account : AccountEntry) (page : LoginPage)
deriving DecidableEq

namespace LoginPage

def blank : List Char := List.replicate inputSize nulChar

def initial : LoginPage where
  name := blank
  password := blank
  row := .name
  opEnter := false
  bReg := false

/-- The account that the fields name. -/
def account (page : LoginPage) : AccountEntry where
  type := if page.bReg then .admin else .user
  name := String.ofList (cString page.name)
  password := String.ofList (cString page.password)

def enterName (keys : List LoginKey) (page : LoginPage) : LoginStep :=
  let entry := getLoginInput .name page.name keys
  let page := { page with name := entry.2 }
  if entry.1 then
    .stay { page with row := .password, opEnter := decide (cString page.password = []) }
  else if page.bReg then .leave .login
  else .stay page

def enterPassword (keys : List LoginKey) (page : LoginPage) : LoginStep :=
  let entry := getLoginInput .password page.password keys
  let page := { page with password := entry.2 }
  if entry.1 then .stay { page with row := .login, opEnter := page.bReg }
  else if page.bReg then .leave .login
  else .stay page

def enterLogin (page : LoginPage) : LoginStep :=
  if cString page.name = [] then .stay page
  else if cString page.password = [] then .stay page
  else .attempt page.account page

/-- From here on the fields are for the administrator. -/
def enterRegister : LoginStep := .stay { initial with opEnter := true, bReg := true }

def enter (keys : List LoginKey) (page : LoginPage) : LoginStep :=
  match page.row with
  | .name => page.enterName keys
  | .password => page.enterPassword keys
  | .login => page.enterLogin
  | .register => enterRegister

def turn (turn : LoginTurn) (page : LoginPage) : LoginStep :=
  if page.opEnter then { page with opEnter := false }.enter turn.keys
  else
    match turn.choice with
    | .up => .stay { page with row := page.row.above }
    | .down => .stay { page with row := page.row.below }
    | .side => .stay page
    | .enter => page.enter turn.keys
    | .backspace confirmed => if confirmed then .leave .quit else .stay page

/-- What follows the result of `client_start_login`. -/
def answered (accepted : Bool) (page : LoginPage) : LoginStep :=
  match page.bReg, accepted with
  | false, true => .leave .nonSense
  | false, false =>
      .stay { page with password := page.password.set 0 nulChar, row := .password, opEnter := true }
  | true, true => .leave .register
  | true, false => .leave .login

end LoginPage

/-- What is true of a page that stays, or that asks the server. -/
def LoginStep.Keeps (holds : LoginPage → Prop) : LoginStep → Prop
  | .stay page => holds page
  | .leave _ => True
  | .attempt account page =>
      holds page ∧ account = page.account ∧ cString page.name ≠ [] ∧ cString page.password ≠ []

namespace LoginPage

theorem enter_leave {page : LoginPage} {keys : List LoginKey} {chosen : UiMenu}
    (left : page.enter keys = .leave chosen) : chosen = .login := by
  rw [LoginPage.enter] at left
  cases row : page.row with
  | name =>
      simp only [row, enterName] at left
      split_ifs at left
      cases left
      rfl
  | password =>
      simp only [row, enterPassword] at left
      split_ifs at left
      cases left
      rfl
  | login =>
      simp only [row, enterLogin] at left
      split_ifs at left
  | register =>
      rw [row] at left
      cases left

/-- No key by itself leads past the page. -/
theorem turn_leave {page : LoginPage} {turn : LoginTurn} {chosen : UiMenu}
    (left : page.turn turn = .leave chosen) : chosen = .quit ∨ chosen = .login := by
  rw [LoginPage.turn] at left
  split at left
  · exact .inr (enter_leave left)
  · cases choice : turn.choice with
    | up => simp [choice] at left
    | down => simp [choice] at left
    | side => simp [choice] at left
    | enter =>
        rw [choice] at left
        exact .inr (enter_leave left)
    | backspace confirmed =>
        simp only [choice] at left
        split at left
        · exact .inl (LoginStep.leave.inj left).symm
        · cases left

/-! ## The fields -/

structure Fielded (page : LoginPage) : Prop where
  name : Entered .name page.name
  password : Entered .password page.password

theorem fielded_initial : initial.Fielded :=
  ⟨RegisterPage.entered_blank .name, RegisterPage.entered_blank .password⟩

theorem Fielded.enter {page : LoginPage} (fielded : page.Fielded) (keys : List LoginKey) :
    LoginStep.Keeps Fielded (page.enter keys) := by
  have name := fielded.name.getLoginInput keys
  have password := fielded.password.getLoginInput keys
  rw [LoginPage.enter]
  cases page.row with
  | name =>
      simp only [enterName]
      split
      · exact ⟨name, fielded.password⟩
      · split
        · trivial
        · exact ⟨name, fielded.password⟩
  | password =>
      simp only [enterPassword]
      split
      · exact ⟨fielded.name, password⟩
      · split
        · trivial
        · exact ⟨fielded.name, password⟩
  | login =>
      simp only [enterLogin]
      split
      · exact fielded
      · split
        · exact fielded
        · exact ⟨fielded, rfl, ‹_›, ‹_›⟩
  | register => exact ⟨fielded_initial.name, fielded_initial.password⟩

theorem Fielded.turn {page : LoginPage} (fielded : page.Fielded) (turn : LoginTurn) :
    LoginStep.Keeps Fielded (page.turn turn) := by
  rw [LoginPage.turn]
  split
  · have entering : Fielded { page with opEnter := false } := ⟨fielded.name, fielded.password⟩
    exact entering.enter turn.keys
  · cases turn.choice with
    | up => exact ⟨fielded.name, fielded.password⟩
    | down => exact ⟨fielded.name, fielded.password⟩
    | side => exact fielded
    | enter => exact fielded.enter turn.keys
    | backspace confirmed =>
        cases confirmed with
        | false => exact fielded
        | true => trivial

theorem Fielded.answered {page : LoginPage} (fielded : page.Fielded) (accepted : Bool) :
    LoginStep.Keeps Fielded (page.answered accepted) := by
  simp only [LoginPage.answered]
  split
  · trivial
  · exact ⟨fielded.name, .cleared fielded.password.size⟩
  · trivial
  · trivial

/-- Every account that the server is asked for is one that it can have. -/
theorem Fielded.admitted {page : LoginPage} (fielded : page.Fielded)
    (named : cString page.name ≠ []) (given : cString page.password ≠ []) :
    page.account.Admitted :=
  ⟨fielded.name.nameAdmitted named, fielded.password.passwordAdmitted given⟩

end LoginPage

end Bookshelfdq
